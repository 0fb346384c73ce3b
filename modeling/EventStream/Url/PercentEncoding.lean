/-!
# Percent-encoding

A character that has a meaning of its own in some component of an address is written there as the
bytes of its UTF-8 form, each as a percent sign and two hexadecimal digits in upper case. Which
characters these are depends on the component. Percent signs themselves are left alone, so text
that is already encoded stays as it is.

## Main definitions

* `percentEncode` — encodes the characters of a set
* `percentDecode` — the bytes that a text stands for
* `inControls`, `inFragment`, `inQuery`, `inSpecialQuery`, `inPath`, `inUserinfo` — the sets
-/

namespace EventStream.Url

/-- A hexadecimal digit in upper case. -/
def hexDigit (n : Nat) : Char := (Nat.digitChar n).toUpper

/-- A byte as a percent sign and two digits. -/
def percentByte (b : UInt8) : List Char := ['%', hexDigit (b.toNat / 16), hexDigit (b.toNat % 16)]

/-- Encodes the characters of a set and leaves the others. -/
def percentEncode (set : Char → Bool) (cs : List Char) : List Char :=
  cs.flatMap fun c => if set c then (String.utf8EncodeChar c).flatMap percentByte else [c]

/-- The value of a hexadecimal digit, in lower or upper case. -/
def hexValue? (c : Char) : Option Nat :=
  if c.isDigit then some (c.toNat - '0'.toNat)
  else if 'a' ≤ c ∧ c ≤ 'f' then some (c.toNat - 'a'.toNat + 10)
  else if 'A' ≤ c ∧ c ≤ 'F' then some (c.toNat - 'A'.toNat + 10)
  else none

/-- The bytes that a text stands for. A percent sign that two hexadecimal digits do not follow
stands for itself. -/
def percentDecode : List Char → List UInt8
  | [] => []
  | '%' :: h :: l :: cs =>
    match hexValue? h, hexValue? l with
    | some high, some low => .ofNat (16 * high + low) :: percentDecode cs
    | _, _ => 0x25 :: percentDecode (h :: l :: cs)
  | c :: cs => String.utf8EncodeChar c ++ percentDecode cs

/-- Controls and everything beyond ASCII. -/
def inControls (c : Char) : Bool := c.toNat < 0x20 || 0x7f ≤ c.toNat

/-- What is encoded in a fragment. -/
def inFragment (c : Char) : Bool := inControls c || " \x22<>\x60".toList.contains c

/-- What is encoded in a query. -/
def inQuery (c : Char) : Bool := inControls c || " \x22#<>".toList.contains c

/-- What is encoded in the query of an address with a special scheme. -/
def inSpecialQuery (c : Char) : Bool := inQuery c || c == '\x27'

/-- What is encoded in a segment of a path. -/
def inPath (c : Char) : Bool := inFragment c || "#?\x7b\x7d".toList.contains c

/-- What is encoded in a user name or a password. -/
def inUserinfo (c : Char) : Bool := inPath c || "/:;=@[\\]^|".toList.contains c

example : percentEncode inPath "a é%20".toList = "a%20%C3%A9%20".toList := by decide +kernel

example : percentDecode "a%C3%a9%2".toList = [0x61, 0xc3, 0xa9, 0x25, 0x32] := by decide +kernel

end EventStream.Url
