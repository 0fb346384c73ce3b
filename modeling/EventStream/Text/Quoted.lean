import EventStream.Text.Unprintable
/-!
# Quoted text

Messages quote the text that somebody handed in. A quoted text stands between double quotes, on one
line, and shows every character: backslash and double quote follow a backslash, the four usual
controls have a letter, every other unprintable character is written as its code point in
hexadecimal.

## Main definitions

* `Text.escape` — the quoted form of one character
* `Text.quote` — the quoted form of a text
-/

namespace EventStream.Text

/-- The escape of a character by its code point, as in `\u{7f}`: lower-case digits, no leading
zeros. -/
def escapeCodePoint (c : Char) : List Char :=
  ['\\', 'u', '\x7b'] ++ Nat.toDigits 16 c.toNat ++ ['\x7d']

/-- How a character is written inside quotes. -/
def escape (c : Char) : List Char :=
  if c = '\x00' then ['\\', '0']
  else if c = '\t' then ['\\', 't']
  else if c = '\n' then ['\\', 'n']
  else if c = '\r' then ['\\', 'r']
  else if c = '\\' then ['\\', '\\']
  else if c = '\x22' then ['\\', '\x22']
  else if IsUnprintable c then escapeCodePoint c
  else [c]

/-- The text between double quotes, with every character escaped that needs it. -/
def quote (s : String) : String :=
  String.ofList (['\x22'] ++ s.toList.flatMap escape ++ ['\x22'])

example : quote "a\x22b\x7f" = "\x22a\\\x22b\\u\x7b7f\x7d\x22" := by decide +kernel

end EventStream.Text
