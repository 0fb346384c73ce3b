/-!
# Addresses

An address names a resource: a scheme, possibly a host with credentials and the number of a service
there, a path, and possibly a query and a fragment. Every component is kept in the form in which it
is written, with its special characters already percent-encoded.

## Main definitions

* `Host`, `Url.Path`, `Url` — the components of an address
* `Url.isSpecial`, `Url.defaultPortNumber` — the schemes with rules of their own
* `UrlError` — why a text is no address
-/

namespace EventStream

/-- The host of an address. -/
inductive Host where
  /-- A name; it is empty in some addresses. -/
  | name (text : String)
  /-- An address of 32 bits. -/
  | ipv4 (address : Nat)
  /-- An address of eight groups of 16 bits. -/
  | ipv6 (groups : List Nat)
deriving DecidableEq, Repr

/-- The path of an address. -/
inductive Url.Path where
  /-- A text without structure. -/
  | opaqueText (text : String)
  /-- The segments of a hierarchical path, each written after a slash. -/
  | segments (segments : List String)
deriving DecidableEq, Repr

/-- An address. -/
@[ext] structure Url where
  /-- The scheme, in lower case. -/
  scheme : String
  /-- The user name; empty if none is given. -/
  username : String := ""
  /-- The password; empty if none is given. -/
  password : String := ""
  /-- The host, if the address has one. -/
  host : Option Host := none
  /-- The number of the service at the host, unless it is the default of the scheme. -/
  portNumber : Option Nat := none
  /-- The path. -/
  path : Url.Path
  /-- The query, without its question mark. -/
  query : Option String := none
  /-- The fragment, without its number sign. -/
  fragment : Option String := none
deriving DecidableEq, Repr

/-- Why a text is no address. -/
inductive UrlError where
  /-- The text has no scheme and there is no address to resolve it against. -/
  | relativeWithoutBase
  /-- The text has no scheme and the address to resolve it against has no hierarchy. -/
  | relativeToOpaque
  /-- The host is missing. -/
  | emptyHost
  /-- The number of the service is not a decimal number of 16 bits. -/
  | invalidPortNumber
  /-- The host ends in a number but is no IPv4 address. -/
  | invalidIpv4
  /-- The host stands in brackets but is no IPv6 address. -/
  | invalidIpv6
  /-- The host is no domain name. -/
  | invalidDomain
  /-- The host of an address with an unknown scheme has a forbidden character. -/
  | forbiddenHostCharacter
deriving DecidableEq, Repr

/-- The message for an error. -/
def UrlError.message : UrlError → String
  | relativeWithoutBase => "relative URL without a base"
  | relativeToOpaque => "relative URL with a cannot-be-a-base base"
  | emptyHost => "empty host"
  | invalidPortNumber => "invalid port number"
  | invalidIpv4 => "invalid IPv4 address"
  | invalidIpv6 => "invalid IPv6 address"
  | invalidDomain => "invalid international domain name"
  | forbiddenHostCharacter => "invalid domain character"

namespace Url

/-- The number of the service that addresses of a scheme mean unless they give another. -/
def defaultPortNumber (scheme : String) : Option Nat :=
  match scheme with
  | "http" | "ws" => some 80
  | "https" | "wss" => some 443
  | "ftp" => some 21
  | _ => none

/-- The scheme is one of those whose addresses always have a hierarchy: a backslash counts as a
slash there, and the host is a domain or an IP address. -/
def isSpecial (scheme : String) : Bool :=
  (defaultPortNumber scheme).isSome || scheme == "file"

/-- The segments of a path, if it has any structure. -/
def Path.segments? : Path → Option (List String)
  | .opaqueText _ => none
  | .segments l => some l

end Url

end EventStream
