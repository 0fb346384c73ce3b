import EventStream.Url.Basic
import EventStream.Url.PercentEncoding
/-!
# Hierarchical paths

A hierarchical path is read segment by segment. A segment `.` stands for the directory reached so
far and a segment `..` for its parent; either dot may be percent-encoded. A segment that looks like
a drive has no parent.

## Main definitions

* `Url.segmentsOf` — cuts a path at its slashes
* `Url.enter` — the segments after one more has been read
* `Url.walk` — the segments after a whole path has been read
-/

namespace EventStream.Url

/-- A slash, or in addresses with a special scheme a backslash. -/
def isSlash (special : Bool) (c : Char) : Bool := c == '/' || (special && c == '\\')

/-- The segments of a path, cut at its slashes. -/
def segmentsOf (special : Bool) (cs : List Char) : List (List Char) :=
  cs.splitOnP (isSlash special)

/-- The segment is a letter with a colon or a bar. -/
def isDriveLetter : List Char → Bool
  | [letter, mark] => letter.isAlpha && (mark == ':' || mark == '|')
  | _ => false

/-- The segment is a drive letter, alone or with a backslash behind it. -/
def isDrive : List Char → Bool
  | letter :: mark :: cs => isDriveLetter [letter, mark] && cs.head?.all (· == '\\')
  | _ => false

/-- The segment with its encoded dots decoded. -/
def plainDots : List Char → List Char
  | '%' :: '2' :: 'e' :: cs => '.' :: plainDots cs
  | '%' :: '2' :: 'E' :: cs => '.' :: plainDots cs
  | c :: cs => c :: plainDots cs
  | [] => []

/-- The directory above. The top has none, and neither has a drive. -/
def parent (directory : List String) : List String :=
  match directory.getLast? with
  | some last => if isDrive last.toList then directory else directory.dropLast
  | none => []

/-- The segments after one more has been read. A dot segment at the end of a path leaves an empty
segment, so that the path ends with a slash. -/
def enter (directory : List String) (segment : List Char) (final : Bool) : List String :=
  let trailing := if final then [""] else []
  if plainDots segment = ['.', '.'] then parent directory ++ trailing
  else if plainDots segment = ['.'] then directory ++ trailing
  else directory ++ [String.ofList (percentEncode inPath segment)]

/-- The segments after a path has been read from a directory. -/
def walk (directory : List String) : List (List Char) → List String
  | [] => directory
  | [segment] => enter directory segment true
  | segment :: segments => walk (enter directory segment false) segments

example : walk ["a", "b"] (segmentsOf true "../%2e/c d\\.".toList) = ["a", "c%20d", ""] := by
  decide +kernel

end EventStream.Url
