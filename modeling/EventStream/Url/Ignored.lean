/-!
# Characters that do not count

Controls and spaces around an address and tabs and line ends within it are no part of it.

## Main definitions

* `Url.trimBlanks` — the text without the blanks around it
* `Url.isIgnored`, `Url.dropIgnored` — the tabs and line ends, and a text without them
* `Url.dropCounted` — drops characters from the front, counting only those that are not ignored
-/

namespace EventStream.Url

/-- The text without the controls and spaces around it. -/
def trimBlanks (cs : List Char) : List Char :=
  let isBlank (c : Char) : Bool := c.toNat ≤ 0x20
  ((cs.dropWhile isBlank).reverse.dropWhile isBlank).reverse

/-- A tab or a line end. -/
def isIgnored (c : Char) : Bool := c == '\t' || c == '\n' || c == '\r'

/-- The text without its tabs and line ends. -/
def dropIgnored (cs : List Char) : List Char := cs.filter (!isIgnored ·)

/-- The text behind a number of characters, without counting tabs and line ends. What is ignored
right behind them stays. -/
def dropCounted : Nat → List Char → List Char
  | n + 1, c :: cs => if isIgnored c then dropCounted (n + 1) cs else dropCounted n cs
  | _, cs => cs

end EventStream.Url
