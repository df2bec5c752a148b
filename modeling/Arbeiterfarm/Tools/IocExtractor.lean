import Arbeiterfarm.Core.Bytes
import Arbeiterfarm.Core.Numbers
import Arbeiterfarm.Core.Text

/-!
# Extraction of indicators

Each pattern has its matches in the text. A hash is skipped if it is part of a longer one, a domain
if it is part of a URL; but what is compared are the texts of the matches and not where they are.
The matches of the patterns are a parameter.
-/

namespace Arbeiterfarm.Tools.Ioc

open Foundation.Offsets

/-! ### Matches -/

/-- A match of a pattern, with the text before it and after it. -/
structure Match (text : List Char) where
  before : List Char
  matched : List Char
  after : List Char
  eq : text = before ++ (matched ++ after)

namespace Match

variable {text : List Char}

def start (m : Match text) : ℕ := width Char.utf8Size m.before

/-- `m.end()`. -/
def stop (m : Match text) : ℕ := m.start + width Char.utf8Size m.matched

/-- The span of the first match lies inside that of the second. -/
def Inside (m n : Match text) : Prop := n.start ≤ m.start ∧ m.stop ≤ n.stop

lemma Inside.isInfix {m n : Match text} (h : m.Inside n) : m.matched <:+: n.matched := by
  obtain ⟨x, hx⟩ := exists_append_of_width_le Char.utf8Size_pos (n.eq.symm.trans m.eq) h.1
  have heq := m.eq.symm.trans n.eq
  rw [hx, List.append_assoc] at heq
  have hrest := List.append_cancel_left heq
  rw [← List.append_assoc] at hrest
  have hstop : width Char.utf8Size (x ++ m.matched) ≤ width Char.utf8Size n.matched := by
    have hle := h.2
    rw [stop, stop, start, start, hx, width_append, Nat.add_assoc, Nat.add_le_add_iff_left] at hle
    rwa [width_append]
  obtain ⟨y, hy⟩ := exists_append_of_width_le Char.utf8Size_pos hrest hstop
  exact ⟨x, y, hy.symm⟩

end Match

inductive IocPattern where
  | ipv4
  | ipv6
  | sha256
  | sha1
  | md5
  | url
  | domain
  | email
  | pipe
  | mutex
  | registryKey
  deriving DecidableEq

/-- The matches of each pattern, from left to right. -/
abbrev Matches : Type := IocPattern → (text : List Char) → List (Match text)

/-! ### Checks -/

/-- `to_lowercase` of a text of ASCII characters. -/
def toLowercase (s : List Char) : List Char := s.map Char.toLower

def isPrivateIpv4 (ip : List Char) : Bool :=
  let starts := fun pre : String => pre.toList.isPrefixOf ip
  let second := ((((ip.splitOn '.')[1]?).bind parseUsize).filter (· < 256)).getD 0
  starts "10." || starts "192.168." || starts "127." || starts "0." || starts "169.254." ||
    ip = "255.255.255.255".toList || (starts "172." && 16 ≤ second && second ≤ 31)

def isLoopbackIpv6 (ip : List Char) : Bool :=
  let starts := fun pre : String => pre.toList.isPrefixOf (toLowercase ip)
  toLowercase ip = "::1".toList || starts "fe80:" || starts "fc" || starts "fd"

def safeDomains : List String :=
  ["localhost", "example.com", "example.org", "example.net", "test.com", "test.org"]

def falsePositiveTlds : List String :=
  [".exe", ".dll", ".sys", ".bin", ".dat", ".tmp", ".log", ".bak"]

def isSafeDomain (domain : List Char) : Bool :=
  safeDomains.any (fun safe => safe.toList = toLowercase domain) ||
    falsePositiveTlds.any fun ext => ext.toList.isSuffixOf (toLowercase domain)

/-- The first boundary from an offset on. -/
def ceilCharBoundary (text : List Char) (idx : ℕ) : ℕ :=
  ((List.range (width Char.utf8Size text)).find? fun i =>
    idx ≤ i ∧ IsBoundary Char.utf8Size text i).getD (width Char.utf8Size text)

/-- Fifty bytes before the match and fifty after it; `none` stands for a panic. -/
def extractContext (text : List Char) (start stop : ℕ) : Option (List Char) :=
  slice? Char.utf8Size text (floorBoundary Char.utf8Size text (start - 50))
    (ceilCharBoundary text (min (stop + 50) (width Char.utf8Size text)))

/-! ### The extraction -/

structure ExtractedIoc where
  ioc_type : String
  value : List Char
  context : Option (List Char)
  deriving DecidableEq

section

variable (find : Matches) (text : List Char)

def Match.ioc {text : List Char} (ioc_type : String) (value : List Char) (m : Match text) :
    ExtractedIoc :=
  ⟨ioc_type, value, extractContext text m.start m.stop⟩

/-- The indicators of a pattern whose matches are all reported. -/
def allIocs (pattern : IocPattern) (ioc_type : String) : List ExtractedIoc :=
  (find pattern text).map fun m => m.ioc ioc_type m.matched

/-- The values of one type that have been found so far. -/
def valuesOf (ioc_type : String) (iocs : List ExtractedIoc) : List (List Char) :=
  (iocs.filter (·.ioc_type = ioc_type)).map (·.value)

def ipIocs : List ExtractedIoc :=
  (((find .ipv4 text).filter fun m => !isPrivateIpv4 m.matched).map fun m =>
      m.ioc "ipv4" m.matched) ++
    ((find .ipv6 text).filter fun m => !isLoopbackIpv6 m.matched).map fun m =>
      m.ioc "ipv6" m.matched

def sha256Iocs : List ExtractedIoc :=
  (find .sha256 text).map fun m => m.ioc "sha256" (toLowercase m.matched)

def sha1Iocs (sha256_vals : List (List Char)) : List ExtractedIoc :=
  ((find .sha1 text).filter fun m =>
    !sha256_vals.any (contains · (toLowercase m.matched))).map fun m =>
      m.ioc "sha1" (toLowercase m.matched)

def md5Iocs (sha256_vals sha1_vals : List (List Char)) : List ExtractedIoc :=
  ((find .md5 text).filter fun m =>
    !sha256_vals.any (contains · (toLowercase m.matched)) &&
      !sha1_vals.any (contains · (toLowercase m.matched))).map fun m =>
        m.ioc "md5" (toLowercase m.matched)

def domainIocs (url_vals : List (List Char)) : List ExtractedIoc :=
  ((find .domain text).filter fun m =>
    !isSafeDomain m.matched && !url_vals.any (contains · m.matched)).map fun m =>
      m.ioc "domain" m.matched

def extract : List ExtractedIoc :=
  let iocs := ipIocs find text ++ sha256Iocs find text
  let sha256_vals := valuesOf "sha256" iocs
  let iocs := iocs ++ sha1Iocs find text sha256_vals
  let iocs := iocs ++ md5Iocs find text sha256_vals (valuesOf "sha1" iocs)
  let iocs := iocs ++ allIocs find text .url "url"
  let iocs := iocs ++ domainIocs find text (valuesOf "url" iocs)
  iocs ++ allIocs find text .email "email" ++ allIocs find text .pipe "mutex" ++
    allIocs find text .mutex "mutex" ++ allIocs find text .registryKey "registry_key"

end

end Arbeiterfarm.Tools.Ioc
