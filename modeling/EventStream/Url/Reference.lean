import EventStream.Addresses
import EventStream.Url.Authority
import EventStream.Url.FilePlace
/-!
# Reading addresses

A text denotes an address, alone or relative to another one. Blanks around the text and tabs and
line ends within it do not count. A text without a scheme is relative: it replaces the fragment, the
query, the last part of the path, the whole path or all but the scheme, depending on how it starts.

All this depends on how domains are converted to ASCII. Each conversion makes these addresses a kind
of their own, and the one of plain domains is enough to run clients with. What is shown of clients
does not rest on this way of reading: it is one kind of addresses among others.

## Main definitions

* `Url.parse` — the address that a text denotes on its own
* `Url.join` — the address that a text denotes relative to another
* `Url.addresses` — the kind of addresses that a conversion of domains makes
* `Url.toString` — the normal form of an address
-/

namespace EventStream.Url

section Reading

variable (toAscii : List UInt8 → Option (List Char))

/-- Cuts a text behind its scheme and the colon, if it has them. The scheme is put into lower
case. -/
def takeScheme : List Char → Option (String × List Char)
  | c :: cs =>
    let isSchemeChar (c : Char) : Bool := c.isAlphanum || c == '+' || c == '-' || c == '.'
    match cs.dropWhile isSchemeChar with
    | ':' :: rest =>
      if c.isAlpha then
        some (String.ofList ((c :: cs.takeWhile isSchemeChar).map Char.toLower), rest)
      else none
    | _ => none
  | [] => none

/-- The character ends a path. -/
def endsPath (c : Char) : Bool := c == '?' || c == '#'

/-- Cuts a text behind its path. -/
def takePath (cs : List Char) : List Char × List Char :=
  (cs.takeWhile (¬ endsPath ·), cs.dropWhile (¬ endsPath ·))

/-- The fragment of an address, from the text behind its query. -/
def fragmentOf : List Char → Option String
  | '#' :: cs => some (String.ofList (percentEncode inFragment cs))
  | _ => none

/-- The address with the query and the fragment that the text behind its path gives. -/
def withTail (u : Url) : List Char → Url
  | '?' :: cs =>
    let set := if isSpecial u.scheme then inSpecialQuery else inQuery
    { u with
      query := some (String.ofList (percentEncode set (cs.takeWhile (· != '#'))))
      fragment := fragmentOf (cs.dropWhile (· != '#')) }
  | cs => { u with query := none, fragment := fragmentOf cs }

/-- The address with the path that a text gives, starting from a directory, and with the query and
the fragment behind it. -/
def withPath (u : Url) (directory : List String) (cs : List Char) : Url :=
  let (path, tail) := takePath cs
  let segments := walk directory (segmentsOf (isSpecial u.scheme) path)
  withTail { u with path := .segments segments } tail

/-- The text without one slash in front. -/
def dropSlash (special : Bool) : List Char → List Char
  | c :: cs => if isSlash special c then cs else c :: cs
  | [] => []

/-- Reads what stands behind the two slashes in front of an authority. Only an address without a
special scheme can have no path at all. -/
def afterSlashes (scheme : String) (cs : List Char) : Except UrlError Url := do
  let (authority, cs) ← takeAuthority toAscii scheme cs
  let u : Url := {
    scheme, username := authority.username, password := authority.password,
    host := some authority.host, portNumber := authority.portNumber, path := .segments [] }
  if ¬ isSpecial scheme ∧ cs.head?.all endsPath then
    return withTail u cs
  else
    return withPath u [] (dropSlash (isSpecial scheme) cs)

/-- Reads what stands behind a scheme that is not special. -/
def afterPlainScheme (scheme : String) : List Char → Except UrlError Url
  | '/' :: '/' :: cs => afterSlashes toAscii scheme cs
  | '/' :: cs => .ok (withPath { scheme, path := .segments [] } [] cs)
  | cs =>
    let (path, tail) := takePath cs
    let text := String.ofList (percentEncode inControls path)
    .ok (withTail { scheme, path := .opaqueText text } tail)

/-- Reads a text without a scheme, relative to an address with a hierarchical path. -/
def relativeTo (base : Url) (segments : List String) (cs : List Char) : Except UrlError Url :=
  let special := isSpecial base.scheme
  let slashes := cs.takeWhile (isSlash special)
  match cs with
  | [] => .ok { base with fragment := none }
  | '#' :: _ => .ok { base with fragment := fragmentOf cs }
  | '?' :: _ => .ok (withTail base cs)
  | _ =>
    match slashes with
    | [] => .ok (withPath base segments.dropLast cs)
    | [_] => .ok (withPath base [] cs.tail)
    -- two plain slashes end the run of slashes; a run with a backslash is skipped as a whole
    | '/' :: '/' :: _ => afterSlashes toAscii base.scheme (cs.drop 2)
    | _ => afterSlashes toAscii base.scheme (cs.drop slashes.length)

/-- Reads what stands behind a special scheme other than that of files. With the scheme of the base
and fewer than two slashes the text is relative. -/
def afterSpecialScheme (base : Option Url) (scheme : String) (cs : List Char) :
    Except UrlError Url :=
  let slashes := cs.takeWhile (isSlash true)
  match base, base.bind (·.path.segments?) with
  | some base, some segments =>
    if slashes.length < 2 ∧ base.scheme = scheme then relativeTo toAscii base segments cs
    else afterSlashes toAscii scheme (cs.drop slashes.length)
  | _, _ => afterSlashes toAscii scheme (cs.drop slashes.length)

/-- The address of a file, given its host and what stands behind it. Empty segments in front of the
path do not count in the end. -/
def filePath (host : Host) (cs : List Char) : Url :=
  let (path, tail) := takePath cs
  let place := FilePlace.walk ⟨host, []⟩ (segmentsOf true path)
  let segments := place.segments.dropWhile (· == "")
  withTail {
    scheme := "file"
    host := some place.host
    path := .segments (if segments.isEmpty then [""] else segments) } (dropIgnored tail)

/-- Reads what stands behind the scheme of files, from a text with its tabs and line ends. Two
slashes announce a host; a drive letter in its place is part of the path. Behind a host one slash
starts the path, without a host that slash ends an empty segment. -/
def afterFileScheme (cs : List Char) : Except UrlError Url :=
  match (dropIgnored cs).takeWhile (isSlash true) with
  | _ :: _ :: _ => do
    let endsHost (c : Char) : Bool := isSlash true c || endsPath c
    let rest := dropCounted 2 cs
    let hostText := dropIgnored (rest.takeWhile (¬ endsHost ·))
    if hostText.isEmpty || isDriveLetter hostText then
      return filePath (.name "") rest
    else
      let host ← Host.parse toAscii true hostText
      let rest := rest.dropWhile (¬ endsHost ·)
      if host = .name "localhost" then return filePath (.name "") rest
      else return filePath host (dropSlash true rest)
  | slashes => .ok (filePath (.name "") (dropCounted slashes.length cs))

/-- The address that a text denotes, relative to another one if it has no scheme of its own. -/
def resolve (base : Option Url) (input : String) : Except UrlError Url :=
  let text := trimBlanks input.toList
  let cs := dropIgnored text
  match takeScheme cs with
  | some ("file", _) => afterFileScheme toAscii (text.dropWhile (· != ':')).tail
  | some (scheme, rest) =>
    if isSpecial scheme then afterSpecialScheme toAscii base scheme rest
    else afterPlainScheme toAscii scheme rest
  | none =>
    match base with
    | none => .error .relativeWithoutBase
    | some base =>
      match base.path.segments?, cs with
      | some segments, _ => relativeTo toAscii base segments cs
      | none, '#' :: _ => .ok { base with fragment := fragmentOf cs }
      | none, _ => .error .relativeToOpaque

/-- The address that a text denotes on its own. -/
def parse (input : String) : Except UrlError Url := resolve toAscii none input

/-- The address that a text denotes relative to another one. -/
def join (base : Url) (input : String) : Except UrlError Url :=
  resolve toAscii (some base) input

/-- The kind of addresses that a conversion of domains makes. -/
@[reducible] def addresses : Addresses Url where
  parse text := (parse toAscii text).mapError UrlError.message
  join base text := (join toAscii base text).mapError UrlError.message
  scheme := Url.scheme

end Reading

instance : Addresses Url := addresses Host.plainDomain?

/-- A path as it is written in an address. -/
def Path.toString : Path → String
  | .opaqueText text => text
  | .segments l => String.join (l.map fun segment => "/" ++ segment)

/-- The credentials and the at sign in front of a host. -/
def credentialsToString (u : Url) : String :=
  if u.username = "" ∧ u.password = "" then ""
  else u.username ++ (if u.password = "" then "" else ":" ++ u.password) ++ "@"

/-- The authority of an address as it is written, or what keeps an address without one from looking
as if it had one. -/
def authorityToString (u : Url) : String :=
  match u.host, u.path with
  | some host, _ =>
    "//" ++ u.credentialsToString ++ host.toString ++
      (match u.portNumber with | some n => ":" ++ s!"{n}" | none => "")
  | none, .segments ("" :: _ :: _) => "/."
  | none, _ => ""

/-- The normal form of an address. -/
def toString (u : Url) : String :=
  u.scheme ++ ":" ++ u.authorityToString ++ u.path.toString ++
    (match u.query with | some query => "?" ++ query | none => "") ++
    (match u.fragment with | some fragment => "#" ++ fragment | none => "")

end EventStream.Url
