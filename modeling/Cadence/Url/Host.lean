import Cadence.Url.Host.Address
import Cadence.Url.Host.Domain

/-!
# Hosts

A host of the web is a domain name, an IPv4 address or an IPv6 address in brackets. A name that ends in a number is
an address or nothing.
-/

namespace Cadence.Url

open Text

/-- Why a text is no URL. -/
inductive UrlError where
  | noScheme
  | emptyHost
  | badPort
  | badIpv4
  | badIpv6
  | badDomain
  | badHostCharacter
deriving DecidableEq, Repr

/-- The wording of an error. -/
def UrlError.message : UrlError → String
  | .noScheme => "relative URL without a base"
  | .emptyHost => "empty host"
  | .badPort => "invalid port number"
  | .badIpv4 => "invalid IPv4 address"
  | .badIpv6 => "invalid IPv6 address"
  | .badDomain => "invalid international domain name"
  | .badHostCharacter => "invalid domain character"

/-- A host. -/
inductive Host where
  | domain (name : List Char)
  | ipv4 (address : Nat)
  | ipv6 (pieces : List Nat)
deriving DecidableEq, Repr

namespace Host

/-- The text of a host. -/
def text : Host → List Char
  | domain name => name
  | ipv4 n => Address.v4Text n
  | ipv6 ps => ['['] ++ Address.v6Text ps ++ [']']

/-- Reads an IPv6 address that starts with a bracket. -/
def parseBracketed (s : List Char) : Except UrlError Host :=
  match s.getLast? with
  | some ']' =>
    match Address.v6? (s.drop 1).dropLast with
    | some ps => .ok (ipv6 ps)
    | none => .error .badIpv6
  | _ => .error .badIpv6

/-- Reads a name in ASCII, which is an address if it ends in a number. -/
def ofName (name : List Char) : Except UrlError Host :=
  if name.isEmpty then .error .emptyHost
  else if Address.endsInNumber name then
    match Address.v4? name with
    | some n => .ok (ipv4 n)
    | none => .error .badIpv4
  else .ok (domain name)

/-- Reads a host of the web. -/
def parse (idna : Idna) (s : List Char) : Except UrlError Host :=
  if s.head? = some '[' then parseBracketed s
  else match (Utf8.decode? (Percent.decode s)).bind fun n => Domain.toAscii? idna n.toList with
    | some name => ofName name
    | none => .error .badDomain

/-- The characters that no host of an unknown scheme holds. -/
def isDeniedOpaque (c : Char) : Bool :=
  [Char.ofNat 0, '\t', '\n', '\r', ' ', '#', '/', ':', '<', '>', '?', '@', '[', '\\', ']', '^', '|'].contains c

/-- Reads a host of an unknown scheme, which may be empty. -/
def parseOpaque (s : List Char) : Except UrlError Host :=
  if s.head? = some '[' then parseBracketed s
  else if s.any isDeniedOpaque then .error .badHostCharacter
  else .ok (domain (Percent.encodeText Percent.keptInOpaqueHost s))

end Host
end Cadence.Url
