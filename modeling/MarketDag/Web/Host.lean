import MarketDag.Web.Domain
import MarketDag.Web.Ip
import MarketDag.Web.Percent

/-!
# Hosts

The host of an address: a domain name, a numeric address, or, where the scheme gives the host no
meaning, any text.
-/

namespace MarketDag

/-- The host of an address. -/
inductive Host where
  | domain (name : List Char)
  | ipv4 (ip : Ipv4)
  | ipv6 (ip : Ipv6)
deriving DecidableEq

/-- Why a text is no address. -/
inductive UrlFault where
  | emptyHost
  | badDomain
  | badPort
  | badIpv4
  | badIpv6
  | badHostCharacter
  /-- An address without a scheme. -/
  | relative
  /-- A path to follow from an address whose own path cannot be followed. -/
  | noBase
deriving DecidableEq, Repr

/-- The wording of a fault. -/
def UrlFault.message : UrlFault → String
  | .emptyHost => "empty host"
  | .badDomain => "invalid international domain name"
  | .badPort => "invalid port number"
  | .badIpv4 => "invalid IPv4 address"
  | .badIpv6 => "invalid IPv6 address"
  | .badHostCharacter => "invalid domain character"
  | .relative => "relative URL without a base"
  | .noBase => "relative URL with a cannot-be-a-base base"

namespace Host

/-- An address of version 6 between brackets, of which the first is already read. -/
def ofBracketed (cs : List Char) : Except UrlFault Host :=
  if cs.getLast? ≠ some ']' then .error .badIpv6
  else
    match Ipv6.ofChars? cs.dropLast with
    | some ip => .ok (.ipv6 ip)
    | none => .error .badIpv6

/-- A host with a meaning: what is no numeric address is a domain name. -/
def ofChars : List Char → Except UrlFault Host
  | '[' :: cs => ofBracketed cs
  | cs => do
    match Domain.ofBytes? (Percent.decode cs) with
    | none => .error .badDomain
    | some name =>
      if name.isEmpty then .error .emptyHost
      else if Ipv4.endsInNumber name then
        match Ipv4.ofChars? name with
        | some ip => .ok (.ipv4 ip)
        | none => .error .badIpv4
      else .ok (.domain name)

/-- The characters that no host can hold. -/
def isForbidden (c : Char) : Bool := "\x00\t\n\x0D #/:<>?@[\\]^|".toList.contains c

/-- A host without a meaning. -/
def ofPlainChars : List Char → Except UrlFault Host
  | '[' :: cs => ofBracketed cs
  | cs =>
    if cs.any isForbidden then .error .badHostCharacter
    else .ok (.domain (Percent.encode Percent.controls cs))

/-- The text of a host. -/
def toChars : Host → List Char
  | .domain name => name
  | .ipv4 ip => ip.toChars
  | .ipv6 ip => '[' :: ip.toChars ++ [']']

end Host

end MarketDag
