import Arbeiterfarm.Web.Rules
import Mathlib.Tactic.Ring

/-!
# The blocks of private addresses

The checks on the octets of an IPv4 address are membership in blocks of addresses, as the rules know
them. An IPv6 address that carries an IPv4 address, in whatever form, is private exactly if the
address that it carries is.
-/

namespace Arbeiterfarm.Web

open Ipv4Addr Ipv6Addr

/-! ### Bits as numbers -/

section

variable {w : ℕ}

lemma toNat_append {n m : ℕ} (x : BitVec n) (y : BitVec m) :
    (x ++ y).toNat = x.toNat * 2 ^ m + y.toNat := by
  rw [BitVec.toNat_append, Nat.shiftLeft_eq, Nat.mul_comm, Nat.two_pow_add_eq_or_of_lt y.isLt]

lemma toNat_leading (x : BitVec w) (k : ℕ) :
    (x &&& BitVec.allOnes w <<< k).toNat = x.toNat / 2 ^ k * 2 ^ k := by
  rw [← BitVec.shiftLeft_ushiftRight, BitVec.toNat_shiftLeft, BitVec.toNat_ushiftRight,
    Nat.shiftRight_eq_div_pow, Nat.shiftLeft_eq]
  exact Nat.mod_eq_of_lt (Nat.lt_of_le_of_lt (Nat.div_mul_le_self _ _) x.isLt)

/-- Addresses agree under a mask if their leading bits do. -/
lemma and_prefixMask_eq_iff {n : ℕ} (x y : BitVec w) :
    x &&& prefixMask w n = y &&& prefixMask w n ↔
      x.toNat / 2 ^ (w - n) = y.toNat / 2 ^ (w - n) := by
  rw [prefixMask]
  by_cases h : n = 0
  · subst h
    simp [Nat.div_eq_of_lt x.isLt, Nat.div_eq_of_lt y.isLt]
  · rw [if_neg h, ← BitVec.toNat_inj, toNat_leading, toNat_leading]
    exact Nat.mul_left_inj (Nat.ne_of_gt (Nat.two_pow_pos _))

end

/-- Quotients of numbers with the digits `x`, `y` and `x'`, `y'`. -/
lemma digits_div_eq_iff {m d x x' y y' : ℕ} (hd : d ∣ m) (hy : y < m) (hy' : y' < m) :
    (x * m + y) / d = (x' * m + y') / d ↔ x = x' ∧ y / d = y' / d := by
  obtain ⟨u, rfl⟩ := hd
  have hpos : 0 < d := Nat.pos_of_mul_pos_right (Nat.zero_lt_of_lt hy)
  have hdiv : ∀ a b : ℕ, (a * (d * u) + b) / d = a * u + b / d := fun a b => by
    rw [show a * (d * u) + b = b + d * (a * u) by ring, Nat.add_mul_div_left _ _ hpos, Nat.add_comm]
  have hu : y / d < u := Nat.div_lt_of_lt_mul hy
  have hu' : y' / d < u := Nat.div_lt_of_lt_mul hy'
  rw [hdiv, hdiv]
  refine ⟨fun h => ?_, fun ⟨hx, hr⟩ => by rw [hx, hr]⟩
  have hx : x = x' := by
    have := congrArg (· / u) h
    simpa [Nat.mul_comm _ u, Nat.mul_add_div (Nat.zero_lt_of_lt hu), Nat.div_eq_of_lt hu,
      Nat.div_eq_of_lt hu'] using this
  subst hx
  exact ⟨rfl, Nat.add_left_cancel h⟩

lemma octet_eq_iff (ip : Ipv4Addr) (i : ℕ) (o : BitVec 8) :
    octet ip i = o ↔ ip.toNat / 2 ^ (24 - 8 * i) % 256 = o.toNat := by
  rw [← BitVec.toNat_inj, octet, BitVec.extractLsb'_toNat, Nat.shiftRight_eq_div_pow]

lemma segment_eq_iff (ip : Ipv6Addr) (i : ℕ) (s : BitVec 16) :
    segment ip i = s ↔ ip.toNat / 2 ^ (112 - 16 * i) % 65536 = s.toNat := by
  rw [← BitVec.toNat_inj, Ipv6Addr.segment, BitVec.extractLsb'_toNat, Nat.shiftRight_eq_div_pow]

lemma toNat_ofOctets (a b c d : BitVec 8) : (ofOctets a b c d).toNat =
    a.toNat * 16777216 + b.toNat * 65536 + c.toNat * 256 + d.toNat := by
  rw [ofOctets, toNat_append, toNat_append, toNat_append]
  omega

/-! ### Blocks of IPv4 addresses -/

/-- The blocks that are not global, in the order of the checks. -/
def nonGlobalBlocks : List (Ipv4Addr × ℕ) :=
  [(ofOctets 0 0 0 0, 8), (ofOctets 10 0 0 0, 8), (ofOctets 100 64 0 0, 10),
    (ofOctets 127 0 0 0, 8), (ofOctets 169 254 0 0, 16), (ofOctets 172 16 0 0, 12),
    (ofOctets 192 0 0 0, 24), (ofOctets 192 0 2 0, 24), (ofOctets 192 168 0 0, 16),
    (ofOctets 198 18 0 0, 15), (ofOctets 198 51 100 0, 24), (ofOctets 203 0 113 0, 24),
    (ofOctets 224 0 0 0, 4), (ofOctets 240 0 0 0, 4), (ofOctets 255 255 255 255, 32)]

/-- The address is in the block. -/
def inBlock (a : Ipv4Addr) (block : Ipv4Addr × ℕ) : Bool := ipInCidr (.v4 a) (.v4 block.1) block.2

section

variable (a : Ipv4Addr)

lemma inBlock_iff (net : Ipv4Addr) {n : ℕ} (hn : n ≤ 32) :
    inBlock a (net, n) ↔ a.toNat / 2 ^ (32 - n) = net.toNat / 2 ^ (32 - n) := by
  rw [inBlock, ipInCidr, if_neg (Nat.not_lt.mpr hn), decide_eq_true_iff, and_prefixMask_eq_iff]

/-- A block within the first octet. -/
lemma inBlock_first {k : ℕ} (hk : k ≤ 8) (o : BitVec 8) : inBlock a (ofOctets o 0 0 0, k) ↔
    octet a 0 &&& prefixMask 8 k = o &&& prefixMask 8 k := by
  have ha := a.isLt
  have hoctet : a.toNat / 2 ^ 24 = (octet a 0).toNat := by
    have := (octet_eq_iff a 0 _).mp rfl
    omega
  have hnet : (ofOctets o 0 0 0).toNat / 2 ^ 24 = o.toNat := by
    rw [toNat_ofOctets]
    simp
  rw [inBlock_iff a _ (by omega), and_prefixMask_eq_iff, show 32 - k = 24 + (8 - k) by omega,
    Nat.pow_add, ← Nat.div_div_eq_div_mul, ← Nat.div_div_eq_div_mul, hoctet, hnet]

/-- A block within the second octet. -/
lemma inBlock_second {k : ℕ} (hk : k ≤ 8) (o p : BitVec 8) :
    inBlock a (ofOctets o p 0 0, 8 + k) ↔
      octet a 0 = o ∧ octet a 1 &&& prefixMask 8 k = p &&& prefixMask 8 k := by
  have ha := a.isLt
  have hoctet : a.toNat / 2 ^ 16 = (octet a 0).toNat * 2 ^ 8 + (octet a 1).toNat := by
    have h0 := (octet_eq_iff a 0 _).mp rfl
    have h1 := (octet_eq_iff a 1 _).mp rfl
    omega
  have hnet : (ofOctets o p 0 0).toNat / 2 ^ 16 = o.toNat * 2 ^ 8 + p.toNat := by
    rw [toNat_ofOctets]
    simp only [BitVec.ofNat_eq_ofNat, BitVec.toNat_ofNat]
    omega
  rw [inBlock_iff a _ (by omega), and_prefixMask_eq_iff, show 32 - (8 + k) = 16 + (8 - k) by omega,
    Nat.pow_add, ← Nat.div_div_eq_div_mul, ← Nat.div_div_eq_div_mul, hoctet, hnet,
    digits_div_eq_iff (Nat.pow_dvd_pow 2 (Nat.sub_le 8 k)) (octet a 1).isLt p.isLt,
    BitVec.toNat_inj]

/-- A block of the addresses with three given octets. -/
lemma inBlock_third (o p q : BitVec 8) : inBlock a (ofOctets o p q 0, 24) ↔
    octet a 0 = o ∧ octet a 1 = p ∧ octet a 2 = q := by
  have ha := a.isLt
  have ho := o.isLt
  have hp := p.isLt
  have hq := q.isLt
  rw [inBlock_iff a _ (by omega), octet_eq_iff, octet_eq_iff, octet_eq_iff, toNat_ofOctets]
  simp only [BitVec.ofNat_eq_ofNat, BitVec.toNat_ofNat]
  omega

/-- A block of one address. -/
lemma inBlock_single (net : Ipv4Addr) : inBlock a (net, 32) ↔ a = net := by
  rw [inBlock_iff a _ (by omega), Nat.sub_self, Nat.pow_zero, Nat.div_one, Nat.div_one,
    BitVec.toNat_inj]

lemma inBlock_octet (o : BitVec 8) : inBlock a (ofOctets o 0 0 0, 8) ↔ octet a 0 = o := by
  rw [inBlock_first a (by omega), show prefixMask 8 8 = BitVec.allOnes 8 by decide,
    BitVec.and_allOnes, BitVec.and_allOnes]

lemma inBlock_octets (o p : BitVec 8) :
    inBlock a (ofOctets o p 0 0, 16) ↔ octet a 0 = o ∧ octet a 1 = p := by
  rw [inBlock_second a (k := 8) (by omega), show prefixMask 8 8 = BitVec.allOnes 8 by decide,
    BitVec.and_allOnes, BitVec.and_allOnes]

lemma inBlock_two_values : inBlock a (ofOctets 198 18 0 0, 15) ↔
    octet a 0 = 198 ∧ (octet a 1 = 18 ∨ octet a 1 = 19) := by
  have hpair : ∀ p : BitVec 8, p &&& prefixMask 8 7 = 18 &&& prefixMask 8 7 ↔ p = 18 ∨ p = 19 := by
    decide
  rw [inBlock_second a (k := 7) (by omega), hpair]

/-- The checks on the octets are membership in the blocks. -/
lemma isPrivateIpv4_iff : isPrivateIpv4 a ↔ ∃ block ∈ nonGlobalBlocks, inBlock a block := by
  rw [← List.any_eq_true]
  simp only [nonGlobalBlocks, List.any_cons, List.any_nil, Bool.or_false, Bool.or_eq_true]
  rw [inBlock_octet, inBlock_octet, inBlock_second a (k := 2) (by omega), inBlock_octet,
    inBlock_octets, inBlock_second a (k := 4) (by omega), inBlock_third, inBlock_third,
    inBlock_octets, inBlock_two_values, inBlock_third, inBlock_third,
    inBlock_first a (k := 4) (by omega), inBlock_first a (k := 4) (by omega), inBlock_single]
  simp only [isPrivateIpv4, Bool.or_eq_true, Bool.and_eq_true, decide_eq_true_eq, or_assoc,
    and_assoc]
  rfl

end

/-! ### Addresses that carry an IPv4 address -/

/-- The forms in which an IPv6 address carries an IPv4 address. -/
inductive Ipv4Carrier where
  | mapped
  | compatible
  | sixToFour (rest : BitVec 80)
  | teredo (server : BitVec 32) (flags port : BitVec 16)
  | nat64

/-- The address that carries `a`. The client address of Teredo is inverted. -/
def Ipv4Carrier.address (a : Ipv4Addr) : Ipv4Carrier → Ipv6Addr
  | mapped => 0#80 ++ 0xFFFF#16 ++ a
  | compatible => 0#96 ++ a
  | sixToFour rest => 0x2002#16 ++ a ++ rest
  | teredo server flags port => 0x20010000#32 ++ server ++ flags ++ port ++ ~~~a
  | nat64 => 0x0064FF9B#32 ++ 0#64 ++ a

lemma toNat_and_255 (x : BitVec 16) : (x &&& 0xFF).toNat = x.toNat % 256 :=
  Nat.and_two_pow_sub_one_eq_mod x.toNat 8

lemma toNat_embeddedIpv4 (hi lo : BitVec 16) :
    (embeddedIpv4 hi lo).toNat = hi.toNat * 65536 + lo.toNat := by
  have hhi := hi.isLt
  have hlo := lo.isLt
  rw [embeddedIpv4, toNat_ofOctets]
  simp only [BitVec.toNat_setWidth, BitVec.toNat_ushiftRight, Nat.shiftRight_eq_div_pow,
    toNat_and_255]
  omega

lemma toNat_invertedIpv4 (hi lo : BitVec 16) :
    (invertedIpv4 hi lo).toNat = 4294967295 - (hi.toNat * 65536 + lo.toNat) := by
  have hhi := hi.isLt
  have hlo := lo.isLt
  rw [invertedIpv4, toNat_ofOctets]
  simp only [BitVec.toNat_setWidth, BitVec.toNat_not, BitVec.toNat_ushiftRight,
    Nat.shiftRight_eq_div_pow, toNat_and_255]
  omega

lemma segment_eq_of_toNat {ip : Ipv6Addr} {i : ℕ} (n : ℕ)
    (h : ip.toNat / 2 ^ (112 - 16 * i) % 65536 = n) : segment ip i = BitVec.ofNat 16 n := by
  rw [segment_eq_iff, BitVec.toNat_ofNat, ← h]
  omega

lemma toNat_segment (ip : Ipv6Addr) (i : ℕ) :
    (segment ip i).toNat = ip.toNat / 2 ^ (112 - 16 * i) % 65536 :=
  ((segment_eq_iff ip i _).mp rfl).symm

/-- An address carried in the last two segments. -/
lemma embeddedIpv4_last (ip : Ipv6Addr) (a : Ipv4Addr) (h : ip.toNat % 2 ^ 32 = a.toNat) :
    embeddedIpv4 (segment ip 6) (segment ip 7) = a := by
  apply BitVec.eq_of_toNat_eq
  rw [toNat_embeddedIpv4, toNat_segment, toNat_segment, ← h]
  omega

/-- The address carried inverted in the last two segments. -/
lemma invertedIpv4_last (ip : Ipv6Addr) (a : Ipv4Addr) (h : ip.toNat % 2 ^ 32 = (~~~a).toNat) :
    invertedIpv4 (segment ip 6) (segment ip 7) = a := by
  apply BitVec.eq_of_toNat_eq
  have ha := a.isLt
  rw [BitVec.toNat_not] at h
  rw [toNat_invertedIpv4, toNat_segment, toNat_segment]
  omega

lemma zeroSegments_iff (ip : Ipv6Addr) {i j : ℕ} (hij : i ≤ j) (hj : j ≤ 8) :
    zeroSegments ip i j ↔ ip.toNat / 2 ^ (128 - 16 * j) % 2 ^ (16 * (j - i)) = 0 := by
  rw [zeroSegments, List.all_eq_true]
  induction j, hij using Nat.le_induction with
  | base => simp [Nat.mod_one]
  | succ j hij ih =>
    have hpow : 2 ^ (16 * (j - i + 1)) = 65536 * 2 ^ (16 * (j - i)) := by
      rw [show 16 * (j - i + 1) = 16 + 16 * (j - i) by omega, Nat.pow_add]
    have hdiv : ip.toNat / 2 ^ (128 - 16 * (j + 1)) / 65536 = ip.toNat / 2 ^ (128 - 16 * j) := by
      rw [Nat.div_div_eq_div_mul, show 65536 = 2 ^ 16 by rfl, ← Nat.pow_add,
        show 128 - 16 * (j + 1) + 16 = 128 - 16 * j by omega]
    have hlast : segment ip j = 0 ↔ ip.toNat / 2 ^ (128 - 16 * (j + 1)) % 65536 = 0 := by
      rw [segment_eq_iff, show 112 - 16 * j = 128 - 16 * (j + 1) by omega]
      rfl
    rw [show j + 1 - i = j - i + 1 by omega, List.range'_concat, hpow, Nat.mod_mul, hdiv,
      Nat.add_eq_zero_iff, Nat.mul_eq_zero, ← ih (by omega)]
    simp only [List.forall_mem_append, List.forall_mem_singleton, Nat.one_mul,
      Nat.add_sub_cancel' hij, decide_eq_true_eq, hlast,
      OfNat.ofNat_ne_zero, false_or]
    exact and_comm

section

variable (a : Ipv4Addr)

lemma isPrivateIpv6_mapped : isPrivateIpv6 (Ipv4Carrier.mapped.address a) = isPrivateIpv4 a := by
  have ha := a.isLt
  have hip : (Ipv4Carrier.mapped.address a).toNat = 65535 * 2 ^ 32 + a.toNat := by
    simp only [Ipv4Carrier.address, toNat_append, BitVec.toNat_ofNat]
    omega
  generalize Ipv4Carrier.mapped.address a = ip at hip
  have hzero : zeroSegments ip 0 5 := by
    rw [zeroSegments_iff ip (by omega) (by omega)]
    omega
  have h0 : segment ip 0 = 0 := segment_eq_of_toNat 0 (by omega)
  have h5 : segment ip 5 = 0xFFFF := segment_eq_of_toNat 0xFFFF (by omega)
  have hone : ip ≠ 1 := fun h => by simp [h] at hip; omega
  have hnull : ip ≠ 0 := fun h => by simp [h] at hip; omega
  rw [isPrivateIpv6, if_neg hone, if_neg hnull, if_neg (by rw [h0]; decide),
    if_neg (by rw [h0]; decide), if_pos (by simp [hzero, h5]), embeddedIpv4_last ip a (by omega)]

lemma isPrivateIpv6_compatible :
    isPrivateIpv6 (Ipv4Carrier.compatible.address a) = isPrivateIpv4 a := by
  have ha := a.isLt
  have hip : (Ipv4Carrier.compatible.address a).toNat = a.toNat := by
    simp only [Ipv4Carrier.address, toNat_append, BitVec.toNat_ofNat]
    omega
  generalize Ipv4Carrier.compatible.address a = ip at hip
  have hfirst : ∀ n : ℕ, n < 256 → ip.toNat = n → isPrivateIpv4 a := fun n hn h => by
    have h0 : octet a 0 = 0 := (octet_eq_iff a 0 _).mpr (by rw [← hip, h]; simp; omega)
    simp [isPrivateIpv4, h0]
  by_cases hone : ip = 1
  · rw [isPrivateIpv6, if_pos hone, hfirst 1 (by omega) (by rw [hone]; rfl)]
  by_cases hnull : ip = 0
  · rw [isPrivateIpv6, if_neg hone, if_pos hnull, hfirst 0 (by omega) (by rw [hnull]; rfl)]
  have hzero : zeroSegments ip 0 5 := by
    rw [zeroSegments_iff ip (by omega) (by omega)]
    omega
  have h0 : segment ip 0 = 0 := segment_eq_of_toNat 0 (by omega)
  have h5 : segment ip 5 = 0 := segment_eq_of_toNat 0 (by omega)
  rw [isPrivateIpv6, if_neg hone, if_neg hnull, if_neg (by rw [h0]; decide),
    if_neg (by rw [h0]; decide), if_neg (by simp [h5]),
    if_pos (by simpa [hzero, h5] using And.intro hnull hone), embeddedIpv4_last ip a (by omega)]

/-- An address whose first segment is none of the local ones is judged by the later forms. -/
lemma isPrivateIpv6_of_first {ip : Ipv6Addr} {n : ℕ} (h : ip.toNat / 2 ^ 112 = n) (hn : 0 < n)
    (hlink : BitVec.ofNat 16 n &&& 0xFFC0 ≠ 0xFE80)
    (hlocal : BitVec.ofNat 16 n &&& 0xFE00 ≠ 0xFC00) :
    isPrivateIpv6 ip =
      if segment ip 0 = 0x2002 then isPrivateIpv4 (embeddedIpv4 (segment ip 1) (segment ip 2))
      else if segment ip 0 = 0x2001 && segment ip 1 = 0 then
        isPrivateIpv4 (invertedIpv4 (segment ip 6) (segment ip 7))
      else if segment ip 0 = 0x0064 && segment ip 1 = 0xFF9B && zeroSegments ip 2 6 then
        isPrivateIpv4 (embeddedIpv4 (segment ip 6) (segment ip 7))
      else if segment ip 0 = 0x2001 && segment ip 1 = 0x0DB8 then true
      else if segment ip 0 = 0x0100 && zeroSegments ip 1 4 then true
      else if segment ip 0 &&& 0xFF00 = 0xFF00 then true
      else false := by
  have hip := ip.isLt
  have h0 : segment ip 0 = BitVec.ofNat 16 n := segment_eq_of_toNat n (by omega)
  have hzero : zeroSegments ip 0 5 = false := by
    rw [Bool.eq_false_iff, ne_eq, zeroSegments_iff ip (by omega) (by omega)]
    omega
  have hone : ip ≠ 1 := fun hip => by subst hip; simp at h; omega
  have hnull : ip ≠ 0 := fun hip => by subst hip; simp at h; omega
  rw [isPrivateIpv6, if_neg hone, if_neg hnull, if_neg (by rwa [h0]), if_neg (by rwa [h0]),
    if_neg (by simp [hzero]), if_neg (by simp [hzero])]

lemma isPrivateIpv6_sixToFour (rest : BitVec 80) :
    isPrivateIpv6 ((Ipv4Carrier.sixToFour rest).address a) = isPrivateIpv4 a := by
  have ha := a.isLt
  have hrest := rest.isLt
  have hip : ((Ipv4Carrier.sixToFour rest).address a).toNat =
      0x2002 * 2 ^ 112 + a.toNat * 2 ^ 80 + rest.toNat := by
    simp only [Ipv4Carrier.address, toNat_append, BitVec.toNat_ofNat]
    omega
  generalize (Ipv4Carrier.sixToFour rest).address a = ip at hip
  have h0 : segment ip 0 = 0x2002 := segment_eq_of_toNat 0x2002 (by omega)
  have hcarried : embeddedIpv4 (segment ip 1) (segment ip 2) = a := by
    apply BitVec.eq_of_toNat_eq
    rw [toNat_embeddedIpv4, toNat_segment, toNat_segment]
    omega
  rw [isPrivateIpv6_of_first (n := 0x2002) (by omega) (by omega) (by decide) (by decide), if_pos h0,
    hcarried]

lemma isPrivateIpv6_teredo (server : BitVec 32) (flags port : BitVec 16) :
    isPrivateIpv6 ((Ipv4Carrier.teredo server flags port).address a) = isPrivateIpv4 a := by
  have ha := (~~~a).isLt
  have hserver := server.isLt
  have hflags := flags.isLt
  have hport := port.isLt
  have hip : ((Ipv4Carrier.teredo server flags port).address a).toNat =
      0x20010000 * 2 ^ 96 + server.toNat * 2 ^ 64 + flags.toNat * 2 ^ 48 + port.toNat * 2 ^ 32 +
        (~~~a).toNat := by
    simp only [Ipv4Carrier.address, toNat_append, BitVec.toNat_ofNat]
    omega
  generalize (Ipv4Carrier.teredo server flags port).address a = ip at hip
  have h0 : segment ip 0 = 0x2001 := segment_eq_of_toNat 0x2001 (by omega)
  have h1 : segment ip 1 = 0 := segment_eq_of_toNat 0 (by omega)
  rw [isPrivateIpv6_of_first (n := 0x2001) (by omega) (by omega) (by decide) (by decide),
    if_neg (by rw [h0]; decide), if_pos (by simp [h0, h1]), invertedIpv4_last ip a (by omega)]

lemma isPrivateIpv6_nat64 : isPrivateIpv6 (Ipv4Carrier.nat64.address a) = isPrivateIpv4 a := by
  have ha := a.isLt
  have hip : (Ipv4Carrier.nat64.address a).toNat = 0x0064FF9B * 2 ^ 96 + a.toNat := by
    simp only [Ipv4Carrier.address, toNat_append, BitVec.toNat_ofNat]
    omega
  generalize Ipv4Carrier.nat64.address a = ip at hip
  have h0 : segment ip 0 = 0x0064 := segment_eq_of_toNat 0x0064 (by omega)
  have h1 : segment ip 1 = 0xFF9B := segment_eq_of_toNat 0xFF9B (by omega)
  have hzero : zeroSegments ip 2 6 := by
    rw [zeroSegments_iff ip (by omega) (by omega)]
    omega
  rw [isPrivateIpv6_of_first (n := 0x0064) (by omega) (by omega) (by decide) (by decide),
    if_neg (by rw [h0]; decide), if_neg (by simp [h0]), if_pos (by simp [h0, h1, hzero]),
    embeddedIpv4_last ip a (by omega)]

/-- An address is judged by the address that it carries. -/
lemma isPrivateIpv6_address (form : Ipv4Carrier) :
    isPrivateIpv6 (form.address a) = isPrivateIpv4 a := by
  cases form with
  | mapped => exact isPrivateIpv6_mapped a
  | compatible => exact isPrivateIpv6_compatible a
  | sixToFour rest => exact isPrivateIpv6_sixToFour a rest
  | teredo server flags port => exact isPrivateIpv6_teredo a server flags port
  | nat64 => exact isPrivateIpv6_nat64 a

end

/-- Private IPv4 addresses are those in the blocks, and no form of carrying one hides it. -/
theorem private_in_every_form (a : Ipv4Addr) :
    (isPrivateIpv4 a ↔ ∃ block ∈ nonGlobalBlocks, ipInCidr (.v4 a) (.v4 block.1) block.2) ∧
      ∀ form : Ipv4Carrier, isPrivateIpv6 (form.address a) = isPrivateIpv4 a :=
  ⟨isPrivateIpv4_iff a, isPrivateIpv6_address a⟩

end Arbeiterfarm.Web
