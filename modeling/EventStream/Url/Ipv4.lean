import EventStream.Url.PercentEncoding
/-!
# IPv4 addresses

An IPv4 address is written as up to four numbers between dots. A number is decimal, octal after a
leading zero, or hexadecimal after a leading `0x`. All numbers but the last stand for one byte each,
the last one for all bytes that are left. The normal form has four decimal numbers.

## Main definitions

* `Ipv4.number?` — reads one number
* `Ipv4.endsInNumber` — tells an address from a domain
* `Ipv4.parse?` — reads an address
* `Ipv4.toString` — the normal form of an address
-/

namespace EventStream.Url.Ipv4

/-- The value of digits to a base of at most sixteen, or nothing if another character occurs. -/
def digits? (base : Nat) (cs : List Char) : Option Nat :=
  cs.foldlM (fun n c => do
    let d ← hexValue? c
    if d < base then some (base * n + d) else none) 0

/-- The value of a number in the notation of addresses; the bare mark of a base is zero. -/
def number? : List Char → Option Nat
  | [] => none
  | '0' :: 'x' :: cs => digits? 16 cs
  | '0' :: 'X' :: cs => digits? 16 cs
  | '0' :: c :: cs => digits? 8 (c :: cs)
  | cs => digits? 10 cs

/-- The labels between the dots, without the empty one after a final dot. -/
def labels (cs : List Char) : List (List Char) :=
  let labels := cs.splitOn '.'
  if labels.getLast? = some [] then labels.dropLast else labels

/-- The last label is a number, or at least made of digits. -/
def endsInNumber (cs : List Char) : Bool :=
  match (labels cs).getLast? with
  | none | some [] => false
  | some label => label.all (·.isDigit) || (number? label).isSome

/-- The value of one in a byte that has some bytes behind it. -/
def placeValue (bytes : Nat) : Nat := Nat.pow 256 bytes

/-- The address that the numbers make up, if each of them fits into its place. -/
def ofNumbers? (numbers : List Nat) : Option Nat :=
  match numbers.reverse with
  | [] => none
  | last :: front =>
    if front.length < 4 ∧ front.all (· < 256) ∧ last < placeValue (4 - front.length) then
      some (front.reverse.zipIdx.foldl (fun sum (n, i) => sum + n * placeValue (3 - i)) last)
    else none

/-- The address that a text denotes. -/
def parse? (cs : List Char) : Option Nat := do
  ofNumbers? (← (labels cs).mapM number?)

/-- Four decimal numbers between dots. -/
def toString (address : Nat) : String :=
  ".".intercalate ([3, 2, 1, 0].map fun i => s!"{address / placeValue i % 256}")

example : (parse? "010.0x.256.".toList).map toString = some "8.0.1.0" := by decide +kernel

end EventStream.Url.Ipv4
