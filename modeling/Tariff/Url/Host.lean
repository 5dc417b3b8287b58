import Tariff.Number.Power
import Tariff.Text.Blank
import Tariff.Url.Ipv6
import Tariff.Url.Percent
/-
  Tariff.Url.Host — the hosts of addresses.

  A host is a domain, which is in lower case with its escapes resolved, four bytes, or eight
  pairs of bytes in brackets. A domain whose last label is a number is one of four bytes.

  Only domains of ASCII characters are covered. International domain names, which browsers write
  in an ASCII form of their own, are refused here.
-/

namespace Tariff

/-- Why a text is no address. -/
inductive UrlError where
  | relative
  | emptyHost
  | badPort
  | badDomain
  | badIpv4
  | badIpv6
  deriving DecidableEq, Repr

def UrlError.message : UrlError → String
  | .relative => "relative URL without a base"
  | .emptyHost => "empty host"
  | .badPort => "invalid port number"
  | .badDomain => "invalid international domain name"
  | .badIpv4 => "invalid IPv4 address"
  | .badIpv6 => "invalid IPv6 address"

namespace Url

/-- Characters that no domain holds. -/
def isForbiddenInDomain (c : Char) : Bool :=
  c.toNat ≤ 0x20 || c.toNat == 0x7f || ['#', '%', '/', ':', '<', '>', '?', '@', '[', '\\', ']', '^',
    '|'].contains c

/-- The labels of a domain; a point at the end adds none. -/
def labels (domain : List Char) : List (List Char) :=
  let split := domain.splitOn '.'
  if split.getLast? == some [] then split.dropLast else split

/-- A number in an address of four bytes: a leading zero makes it octal, `0x` hexadecimal. -/
def ipv4Number? : List Char → Option Nat
  | [] => none
  | '0' :: 'x' :: ds => digitsOf? 16 ds
  | '0' :: d :: ds => digitsOf? 8 (d :: ds)
  | ds => digitsOf? 10 ds

/-- A domain that ends with a number is an address of four bytes. -/
def endsInNumber (domain : List Char) : Bool :=
  match (labels domain).getLast? with
  | some l => !l.isEmpty && (l.all Char.isDigit || (l.take 2 == ['0', 'x'] && (ipv4Number? l).isSome))
  | none => false

/-- The address of four bytes that numbers stand for: each is a byte, but the last one fills
what is left. -/
def ipv4? (numbers : List Nat) : Option String :=
  match numbers.getLast? with
  | none => none
  | some last =>
    let front := numbers.dropLast
    if 3 < front.length || front.any (255 < ·) || twoPow (8 * (4 - front.length)) ≤ last then none
    else
      let n := front.zipIdx.foldl (fun n (b, i) => n + b * twoPow (8 * (3 - i))) last
      some (String.intercalate "."
        ([n / 16777216, n / 65536 % 256, n / 256 % 256, n % 256].map toString))

/-- The address that stands between a bracket and the one at the end. -/
def bracketed? (cs : List Char) : Option Ipv6 :=
  match cs.reverse with
  | ']' :: inner => Ipv6.read? inner.reverse
  | _ => none

/-- The host in normal form. A domain with characters outside ASCII is refused, written plainly or in
escapes; its ASCII form is not computed. -/
def hostOf (cs : List Char) : Except UrlError String :=
  if cs.isEmpty then .error .emptyHost
  else if cs.head? == some '[' then
    match bracketed? cs.tail with
    | some address => .ok ("[" ++ address.text ++ "]")
    | none => .error .badIpv6
  else match unescape? cs with
    | none => .error .badDomain
    | some domain =>
      let domain := domain.map Text.foldAscii
      if domain.any fun c => 0x7f < c.toNat || isForbiddenInDomain c then .error .badDomain
      else if endsInNumber domain then
        match (labels domain).mapM ipv4Number? with
        | some numbers => (ipv4? numbers).elim (.error .badIpv4) .ok
        | none => .error .badIpv4
      else .ok (String.ofList domain)

end Url

end Tariff
