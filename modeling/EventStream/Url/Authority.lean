import EventStream.Url.Host
/-!
# Authorities

After two slashes an address names its authority: possibly credentials and an at sign, a host, and
possibly a colon and the number of a service.

## Main definitions

* `Url.Authority` — what an authority holds
* `Url.takeAuthority` — reads an authority and leaves the rest of the address
-/

namespace EventStream.Url

/-- The credentials, the host and the number of the service of an address. -/
@[ext] structure Authority where
  /-- The user name; empty if none is given. -/
  username : String := ""
  /-- The password; empty if none is given. -/
  password : String := ""
  /-- The host. -/
  host : Host
  /-- The number of the service, unless it is the default of the scheme. -/
  portNumber : Option Nat := none
deriving DecidableEq, Repr

/-- The character ends an authority. -/
def endsAuthority (special : Bool) (c : Char) : Bool :=
  c == '/' || c == '?' || c == '#' || (special && c == '\\')

/-- Cuts a text at its last at sign, if it has one. -/
def cutAtLastAt : List Char → Option (List Char × List Char)
  | [] => none
  | c :: cs =>
    match cutAtLastAt cs with
    | some (front, back) => some (c :: front, back)
    | none => if c = '@' then some ([], cs) else none

/-- Cuts a text behind its host: at a colon outside brackets, or where the authority ends. -/
def cutAfterHost (special : Bool) (inBrackets : Bool) : List Char → List Char × List Char
  | [] => ([], [])
  | c :: cs =>
    if (c = ':' ∧ ¬ inBrackets) ∨ endsAuthority special c then ([], c :: cs)
    else
      let inBrackets := if c = '[' then true else if c = ']' then false else inBrackets
      let (host, rest) := cutAfterHost special inBrackets cs
      (c :: host, rest)

/-- Reads the number of a service in front of a text, if there is a colon. A number that is empty or
the default is left out. -/
def takePortNumber (scheme : String) : List Char → Except UrlError (Option Nat × List Char)
  | ':' :: cs =>
    let digits := cs.takeWhile (·.isDigit)
    let rest := cs.dropWhile (·.isDigit)
    let number := Nat.ofDigitChars 10 digits 0
    if 65535 < number ∨ rest.head?.any (fun c => ¬ endsAuthority true c) then
      .error .invalidPortNumber
    else if digits = [] ∨ defaultPortNumber scheme = some number then .ok (none, rest)
    else .ok (some number, rest)
  | cs => .ok (none, cs)

/-- Reads the credentials in front of a text, if there is an at sign in its authority. -/
def takeCredentials (special : Bool) (cs : List Char) :
    Except UrlError (String × String × List Char) :=
  match cutAtLastAt (cs.takeWhile (¬ endsAuthority special ·)) with
  | none => .ok ("", "", cs)
  | some (credentials, host) =>
    let rest := cs.dropWhile (¬ endsAuthority special ·)
    if credentials = [] ∧ host = [] ∧ rest ≠ [] then .error .emptyHost
    else
      let username := credentials.takeWhile (· != ':')
      let password := (credentials.dropWhile (· != ':')).tail
      .ok (String.ofList (percentEncode inUserinfo username),
        String.ofList (percentEncode inUserinfo password), host ++ rest)

/-- Reads an authority, and leaves the rest of the address. Only an address without a special scheme
can have an empty host, and then neither credentials nor a number. -/
def takeAuthority (toAscii : List UInt8 → Option (List Char)) (scheme : String) (cs : List Char) :
    Except UrlError (Authority × List Char) := do
  let special := isSpecial scheme
  let (username, password, cs) ← takeCredentials special cs
  let (hostText, cs) := cutAfterHost special false cs
  if special && hostText.isEmpty then throw .emptyHost
  let host ← Host.parse toAscii special hostText
  if hostText.isEmpty && (cs.head? == some ':' || username != "" || password != "") then
    throw .emptyHost
  let (portNumber, cs) ← takePortNumber scheme cs
  return ({ username, password, host, portNumber }, cs)

end EventStream.Url
