import Arbeiterfarm.Core.Json
import Mathlib.Data.Nat.Notation

/-!
# Private addresses and URL rules

An address that is private, reserved or not routable is never fetched from. An IPv6 address that
carries an IPv4 address is judged by the address it carries.

Block rules win; without allow rules everything else is allowed, with allow rules one of them has
to match. A rule is about the host, the text of the URL or the addresses that the host resolves
to.
-/

namespace Arbeiterfarm.Web

/-! ### Private addresses -/

abbrev Ipv4Addr := BitVec 32

abbrev Ipv6Addr := BitVec 128

inductive IpAddr where
  | v4 (ip : Ipv4Addr)
  | v6 (ip : Ipv6Addr)
  deriving DecidableEq, Repr

namespace Ipv4Addr

/-- `Ipv4Addr::new`. -/
def ofOctets (a b c d : BitVec 8) : Ipv4Addr := a ++ b ++ c ++ d

/-- The octet `i`, counted from the left. -/
def octet (ip : Ipv4Addr) (i : ℕ) : BitVec 8 := ip.extractLsb' (24 - 8 * i) 8

end Ipv4Addr

/-- The segment `i`, counted from the left. -/
def Ipv6Addr.segment (ip : Ipv6Addr) (i : ℕ) : BitVec 16 := ip.extractLsb' (112 - 16 * i) 16

open Ipv4Addr Ipv6Addr

def isPrivateIpv4 (ip : Ipv4Addr) : Bool :=
  octet ip 0 = 0 ||
  octet ip 0 = 10 ||
  (octet ip 0 = 100 && octet ip 1 &&& 0xC0 = 64) ||
  octet ip 0 = 127 ||
  (octet ip 0 = 169 && octet ip 1 = 254) ||
  (octet ip 0 = 172 && octet ip 1 &&& 0xF0 = 16) ||
  (octet ip 0 = 192 && octet ip 1 = 0 && octet ip 2 = 0) ||
  (octet ip 0 = 192 && octet ip 1 = 0 && octet ip 2 = 2) ||
  (octet ip 0 = 192 && octet ip 1 = 168) ||
  (octet ip 0 = 198 && (octet ip 1 = 18 || octet ip 1 = 19)) ||
  (octet ip 0 = 198 && octet ip 1 = 51 && octet ip 2 = 100) ||
  (octet ip 0 = 203 && octet ip 1 = 0 && octet ip 2 = 113) ||
  octet ip 0 &&& 0xF0 = 224 ||
  octet ip 0 &&& 0xF0 = 240 ||
  ip = ofOctets 255 255 255 255

/-- The IPv4 address in two segments. -/
def embeddedIpv4 (hi lo : BitVec 16) : Ipv4Addr :=
  ofOctets ((hi >>> 8).setWidth 8) ((hi &&& 0xFF).setWidth 8) ((lo >>> 8).setWidth 8)
    ((lo &&& 0xFF).setWidth 8)

/-- The IPv4 address in two segments, with all bits inverted. -/
def invertedIpv4 (hi lo : BitVec 16) : Ipv4Addr :=
  ofOctets ((~~~(hi >>> 8)).setWidth 8) ((~~~(hi &&& 0xFF)).setWidth 8)
    ((~~~(lo >>> 8)).setWidth 8) ((~~~(lo &&& 0xFF)).setWidth 8)

/-- The segments from `i` up to `j` are zero. -/
def zeroSegments (ip : Ipv6Addr) (i j : ℕ) : Bool :=
  (List.range' i (j - i)).all fun k => segment ip k = 0

def isPrivateIpv6 (ip : Ipv6Addr) : Bool :=
  if ip = 1 then true
  else if ip = 0 then true
  else if segment ip 0 &&& 0xFFC0 = 0xFE80 then true
  else if segment ip 0 &&& 0xFE00 = 0xFC00 then true
  -- IPv4-mapped
  else if zeroSegments ip 0 5 && segment ip 5 = 0xFFFF then
    isPrivateIpv4 (embeddedIpv4 (segment ip 6) (segment ip 7))
  -- IPv4-compatible
  else if zeroSegments ip 0 5 && segment ip 5 = 0 && ip ≠ 0 && ip ≠ 1 then
    isPrivateIpv4 (embeddedIpv4 (segment ip 6) (segment ip 7))
  -- 6to4
  else if segment ip 0 = 0x2002 then
    isPrivateIpv4 (embeddedIpv4 (segment ip 1) (segment ip 2))
  -- Teredo
  else if segment ip 0 = 0x2001 && segment ip 1 = 0 then
    isPrivateIpv4 (invertedIpv4 (segment ip 6) (segment ip 7))
  -- NAT64
  else if segment ip 0 = 0x0064 && segment ip 1 = 0xFF9B && zeroSegments ip 2 6 then
    isPrivateIpv4 (embeddedIpv4 (segment ip 6) (segment ip 7))
  else if segment ip 0 = 0x2001 && segment ip 1 = 0x0DB8 then true
  else if segment ip 0 = 0x0100 && zeroSegments ip 1 4 then true
  else if segment ip 0 &&& 0xFF00 = 0xFF00 then true
  else false

def isPrivateIp : IpAddr → Bool
  | .v4 ip => isPrivateIpv4 ip
  | .v6 ip => isPrivateIpv6 ip

example : isPrivateIp (.v4 (Ipv4Addr.ofOctets 169 254 0 1)) = true ∧
    isPrivateIp (.v6 0x20027F00000100000000000000000000) = true ∧
    isPrivateIp (.v6 0x20020808080800000000000000000000) = false := by decide

/-! ### Rules -/

structure WebFetchRuleRow where
  id : Uuid
  scope : String
  project_id : Option Uuid
  rule_type : String
  pattern_type : String
  pattern : String
  description : Option String
  deriving DecidableEq, Repr

/-- What is read of a parsed URL; `as_str` is its text. -/
structure Url where
  scheme : String
  host_str : Option String
  port_or_known_default : Option ℕ
  as_str : String
  deriving DecidableEq, Repr

inductive RuleResult where
  | allowed
  | blocked (reason : Option String)
  deriving DecidableEq, Repr

/-- What the rules use of other libraries: the Unicode lowercase mapping, regular expressions
(`none` for one that is not valid) and the reading of addresses. -/
structure TextLibs where
  toLowercase : String → String
  isMatch : String → String → Option Bool
  parseIp : String → Option IpAddr

/-! ### Blocks of addresses -/

/-- `str::parse::<u8>`. -/
def parseU8 (s : String) : Option ℕ :=
  let digits := match s.toList with
    | '+' :: cs => cs
    | cs => cs
  if digits.isEmpty || digits.any (fun c => !c.isDigit) then none
  else
    let n := digits.foldl (fun n c => n * 10 + (c.toNat - '0'.toNat)) 0
    if n < 256 then some n else none

def parseCidr (parseIp : String → Option IpAddr) (cidr : String) : Option (IpAddr × ℕ) :=
  match cidr.toList.splitOn '/' with
  | [ip, prefix_len] => do
    let ip ← parseIp (String.ofList ip)
    let prefix_len ← parseU8 (String.ofList prefix_len)
    return (ip, prefix_len)
  | _ => none

/-- The leading bits of an address. -/
def prefixMask (w prefix_len : ℕ) : BitVec w :=
  if prefix_len = 0 then 0 else BitVec.allOnes w <<< (w - prefix_len)

def ipInCidr : IpAddr → IpAddr → ℕ → Bool
  | .v4 ip, .v4 net, prefix_len =>
    if prefix_len > 32 then false
    else ip &&& prefixMask 32 prefix_len = net &&& prefixMask 32 prefix_len
  | .v6 ip, .v6 net, prefix_len =>
    if prefix_len > 128 then false
    else ip &&& prefixMask 128 prefix_len = net &&& prefixMask 128 prefix_len
  | _, _, _ => false

/-! ### Their evaluation -/

def eqIgnoreAsciiCase (a b : String) : Bool := a.toList.map Char.toLower = b.toList.map Char.toLower

section

variable (libs : TextLibs)

def matchesRule (url : Url) (resolved_ips : List IpAddr) (rule : WebFetchRuleRow) : Bool :=
  if rule.pattern_type = "domain" then
    url.host_str.any fun host => eqIgnoreAsciiCase host rule.pattern
  else if rule.pattern_type = "domain_suffix" then
    url.host_str.any fun host =>
      let lower := (libs.toLowercase host).toList
      let pat := (libs.toLowercase rule.pattern).toList.dropWhile (· = '.')
      lower = pat || ('.' :: pat).isSuffixOf lower
  else if rule.pattern_type = "url_prefix" then
    rule.pattern.toList.isPrefixOf url.as_str.toList
  else if rule.pattern_type = "url_regex" then
    (libs.isMatch rule.pattern url.as_str).getD false
  else if rule.pattern_type = "ip_cidr" then
    match parseCidr libs.parseIp rule.pattern with
    | some (net, prefix_len) => resolved_ips.any fun ip => ipInCidr ip net prefix_len
    | none => false
  else false

def evaluateRules (url : Url) (resolved_ips : List IpAddr) (rules : List WebFetchRuleRow) :
    RuleResult :=
  let blocks := rules.filter (·.rule_type = "block")
  let allows := rules.filter (·.rule_type ≠ "block")
  match blocks.find? (matchesRule libs url resolved_ips) with
  | some rule => .blocked rule.description
  | none =>
    if allows.isEmpty || allows.any (matchesRule libs url resolved_ips) then .allowed
    else .blocked (some "no matching allow rule")

end

end Arbeiterfarm.Web
