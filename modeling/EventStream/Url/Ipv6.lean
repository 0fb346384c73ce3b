import EventStream.Url.PercentEncoding
/-!
# IPv6 addresses

An IPv6 address has eight groups of up to four hexadecimal digits, with colons between them. The
last two groups may be written as four decimal numbers with dots between them, and two colons in one
place may stand for as many zero groups as are missing, at least one. In the normal form digits are
in lower case without leading zeros, and two colons stand for the first longest run of at least two
zero groups.

## Main definitions

* `Ipv6.parse?` — reads an address
* `Ipv6.toString` — the normal form of an address
-/

namespace EventStream.Url.Ipv6

/-- A group of one to four hexadecimal digits. -/
def group? (cs : List Char) : Option Nat :=
  if cs = [] ∨ 4 < cs.length then none
  else cs.foldlM (fun n c => (hexValue? c).map (16 * n + ·)) 0

/-- A decimal number below 256 without leading zeros. -/
def byte? (cs : List Char) : Option Nat :=
  if cs = [] ∨ 3 < cs.length ∨ ¬ cs.all (·.isDigit) ∨ (cs.head? = some '0' ∧ cs ≠ ['0']) then none
  else
    let n := Nat.ofDigitChars 10 cs 0
    if n < 256 then some n else none

/-- Two groups written as four decimal numbers. -/
def dotted? (cs : List Char) : Option (List Nat) := do
  match ← (cs.splitOn '.').mapM byte? with
  | [a, b, c, d] => some [256 * a + b, 256 * c + d]
  | _ => none

/-- The groups between colons; only at the end of an address may the last part be in dotted form. -/
def groups? (final : Bool) : List (List Char) → Option (List Nat)
  | [] => some []
  | [cs] => if final && cs.contains '.' then dotted? cs else (group? cs).map ([·])
  | cs :: parts => do
    let group ← group? cs
    let groups ← groups? final parts
    some (group :: groups)

/-- The parts between colons; a text without characters has none. -/
def parts (cs : List Char) : List (List Char) :=
  if cs = [] then [] else cs.splitOn ':'

/-- Cuts a text at the first pair of colons. -/
def cutAtGap : List Char → Option (List Char × List Char)
  | ':' :: ':' :: cs => some ([], cs)
  | c :: cs => (cutAtGap cs).map fun (front, back) => (c :: front, back)
  | [] => none

/-- The groups of the address that a text denotes. -/
def parse? (cs : List Char) : Option (List Nat) := do
  match cutAtGap cs with
  | none =>
    let groups ← groups? true (parts cs)
    if groups.length = 8 then some groups else none
  | some (front, back) =>
    let front ← groups? false (parts front)
    let back ← groups? true (parts back)
    let written := front.length + back.length
    if written < 8 then some (front ++ List.replicate (8 - written) 0 ++ back) else none

/-- The length of the run of zero groups at the front. -/
def zeroRun (groups : List Nat) : Nat := (groups.takeWhile (· = 0)).length

/-- The place and the length of the first longest run of zero groups. -/
def longestZeroRun : List Nat → Nat × Nat
  | [] => (0, 0)
  | groups@(_ :: rest) =>
    let (place, length) := longestZeroRun rest
    if length ≤ zeroRun groups then (0, zeroRun groups) else (place + 1, length)

/-- The groups in hexadecimal, with colons between them. -/
def groupsToString (groups : List Nat) : String :=
  ":".intercalate (groups.map fun n => String.ofList (Nat.toDigits 16 n))

/-- The normal form of an address. -/
def toString (groups : List Nat) : String :=
  let (place, length) := longestZeroRun groups
  if length < 2 then groupsToString groups
  else groupsToString (groups.take place) ++ "::" ++ groupsToString (groups.drop (place + length))

example : (parse? "1::a:0:0:FF".toList).map toString = some "1::a:0:0:ff" := by decide +kernel

end EventStream.Url.Ipv6
