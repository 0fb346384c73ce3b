import EventStream.Url.Basic
import EventStream.Url.Ipv4
import EventStream.Url.Ipv6
/-!
# Hosts

A host in brackets is an IPv6 address. In addresses with a special scheme any other host is a
domain: its percent signs are decoded, and it is converted to ASCII; if it then ends in a number, it
has to be an IPv4 address. In other addresses the host is a name that is kept as it is.

How domains with characters of all languages are converted to ASCII is a matter of large tables that
change from year to year, so the conversion is left open here. Domains that need none, and only
these, are converted by `Host.plainDomain?`.

## Main definitions

* `Host.parse` — reads the host of an address, given the conversion of domains
* `Host.plainDomain?` — the conversion of plain domains
* `Host.toString` — the normal form of a host
-/

namespace EventStream.Host

open Url

/-- The domain that some bytes stand for, if it is plain: there are no characters beyond ASCII and no
labels that encode such characters. Its letters are put into lower case. -/
def plainDomain? (bytes : List UInt8) : Option (List Char) :=
  let domain := bytes.map fun b => (Char.ofNat b.toNat).toLower
  let encodes (label : List Char) : Bool := "xn--".toList.isPrefixOf label
  if bytes.all (· < 0x80) && !(domain.splitOn '.').any encodes then some domain else none

/-- A character that no domain contains: a control, the space, or one with a meaning of its own in
addresses. -/
def forbiddenInDomain (c : Char) : Bool :=
  c.toNat ≤ 0x20 || 0x7f ≤ c.toNat || "%#/:<>?@[\\]^|".toList.contains c

/-- A character that no name of a host contains. -/
def forbiddenInName (c : Char) : Bool :=
  "\x00\t\n\r #/:<>?@[\\]^|".toList.contains c

/-- Reads a domain or an IPv4 address. -/
def parseDomain (toAscii : List UInt8 → Option (List Char)) (cs : List Char) :
    Except UrlError Host :=
  match toAscii (percentDecode cs) with
  | none => .error .invalidDomain
  | some domain =>
    if domain.any forbiddenInDomain then .error .invalidDomain
    else if Ipv4.endsInNumber domain then
      match Ipv4.parse? domain with
      | some address => .ok (.ipv4 address)
      | none => .error .invalidIpv4
    else .ok (.name (String.ofList domain))

/-- Reads the name of a host in an address without a special scheme. -/
def parseName (cs : List Char) : Except UrlError Host :=
  if cs.any forbiddenInName then .error .forbiddenHostCharacter
  else .ok (.name (String.ofList (percentEncode inControls cs)))

/-- Reads an IPv6 address without its opening bracket. -/
def parseBracketed (cs : List Char) : Except UrlError Host :=
  if cs.getLast? = some ']' then
    match Ipv6.parse? cs.dropLast with
    | some groups => .ok (.ipv6 groups)
    | none => .error .invalidIpv6
  else .error .invalidIpv6

/-- Reads the host of an address, with a special scheme or without. -/
def parse (toAscii : List UInt8 → Option (List Char)) (special : Bool) :
    List Char → Except UrlError Host
  | '[' :: cs => parseBracketed cs
  | cs => if special then parseDomain toAscii cs else parseName cs

/-- The host as it is written in an address. -/
def toString : Host → String
  | name text => text
  | ipv4 address => Ipv4.toString address
  | ipv6 groups => "[" ++ Ipv6.toString groups ++ "]"

end EventStream.Host
