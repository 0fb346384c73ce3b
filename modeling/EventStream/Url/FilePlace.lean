import EventStream.Url.Ignored
import EventStream.Url.Path
/-!
# Places of files

A file has a place on a host or on a drive. The path of a file is read like any other, except for a
drive letter at its top: it is written with a colon and takes the place of the host. A tab or a line
end does not count, but right behind the colon of a drive it ends the segment.

## Main definitions

* `Url.FilePlace` — a host and the segments that lead to a place on it
* `Url.FilePlace.enter` — the place after one more segment has been read
* `Url.FilePlace.walk` — the place after a whole path has been read
-/

namespace EventStream.Url

/-- Where the part of a path that has been read leads to. -/
@[ext] structure FilePlace where
  /-- The host. Its name is empty if the files are near at hand. -/
  host : Host
  /-- The segments of the path from the top. -/
  segments : List String
deriving DecidableEq, Repr

namespace FilePlace

/-- The segment, given with its tabs and line ends, has one of them right behind a drive letter with
a colon. -/
def isCutBehindDrive (segment : List Char) : Bool :=
  let drive := (dropIgnored segment).take 2
  isDriveLetter drive && drive.getLast? == some ':' &&
    (dropCounted 2 segment).head?.any isIgnored

/-- The place after one more segment, given with its tabs and line ends. At the top a drive letter
takes the place of the host. A drive that is cut off there leaves the host, and what stands behind
the cut is a segment as it is, even if it consists of dots. -/
def enter (p : FilePlace) (segment : List Char) (final : Bool) : FilePlace :=
  let text := dropIgnored segment
  let drive := String.ofList (text.take 1 ++ [':'])
  if p.segments.isEmpty && isDriveLetter text then ⟨.name "", [drive]⟩
  else if p.segments.isEmpty && isCutBehindDrive segment then
    { p with segments := [drive, String.ofList (percentEncode inPath (text.drop 2))] }
  else { p with segments := Url.enter p.segments text final }

/-- The place after a path has been read, given as segments with their tabs and line ends. -/
def walk (p : FilePlace) : List (List Char) → FilePlace
  | [] => p
  | [segment] => p.enter segment true
  | segment :: segments => walk (p.enter segment false) segments

example : walk ⟨.name "h", []⟩ (segmentsOf true "a/../c|/x".toList) =
    ⟨.name "", ["c:", "x"]⟩ := by
  decide +kernel

example : walk ⟨.name "h", []⟩ (segmentsOf true "c:\t../x".toList) =
    ⟨.name "h", ["c:", "..", "x"]⟩ := by
  decide +kernel

end FilePlace

end EventStream.Url
