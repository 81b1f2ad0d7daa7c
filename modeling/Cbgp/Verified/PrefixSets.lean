import Mathlib.Data.Set.Insert
import Cbgp.Bgp.Filter
import Cbgp.Verified.Lookups

/-! # Prefixes as sets of addresses

The relations of `net/prefix.c` between addresses and prefixes, against the sets of addresses that prefixes
stand for.  A set is given by the first bits of its addresses; whether a prefix is masked does not matter.
-/

namespace Cbgp.Verified

open Cbgp.Net Cbgp.Bgp

/-- The first bits of an address, as a number. -/
def firstBits (mask : ℕ) (addr : NetAddr) : ℕ := addr.toNat / 2 ^ (32 - mask)

/-- The addresses of a prefix: those that have the first bits of its network part. -/
def addresses (p : Pfx) : Set NetAddr := {addr | firstBits p.mask addr = firstBits p.mask p.network}

theorem network_mem (p : Pfx) : p.network ∈ addresses p := rfl

theorem firstBits_zero (addr : NetAddr) : firstBits 0 addr = 0 := Nat.div_eq_of_lt addr.toNat_lt

/-- Fewer bits are the first of more. -/
theorem firstBits_firstBits {mask mask' : ℕ} (le : mask ≤ mask') (short : mask' ≤ 32) (addr : NetAddr) :
    firstBits mask addr = firstBits mask' addr / 2 ^ (mask' - mask) := by
  have split : 32 - mask = 32 - mask' + (mask' - mask) := by omega
  rw [firstBits, firstBits, Nat.div_div_eq_div_mul, ← Nat.pow_add, split]

theorem shiftCount {mask : ℕ} (some : mask ≠ 0) : (32 - mask).toUInt32.toNat % 32 = 32 - mask := by
  simp
  omega

/-- The shifts of the source compare the first bits. -/
theorem shifted_eq_iff {mask : ℕ} (some : mask ≠ 0) (addr addr' : NetAddr) :
    addr >>> (32 - mask).toUInt32 = addr' >>> (32 - mask).toUInt32 ↔ firstBits mask addr = firstBits mask addr' := by
  rw [← UInt32.toNat_inj, UInt32.toNat_shiftRight, UInt32.toNat_shiftRight, shiftCount some,
    Nat.shiftRight_eq_div_pow, Nat.shiftRight_eq_div_pow]
  rfl

/-- Masking clears what is behind the first bits. -/
theorem toNat_masked {mask : ℕ} (short : mask ≤ 32) (addr : NetAddr) :
    (addr &&& ipAddressMask mask).toNat = firstBits mask addr * 2 ^ (32 - mask) := by
  rw [ipAddressMask]
  split
  next zero =>
    subst zero
    rw [firstBits_zero]
    simp
  next some =>
    have small : addr.toNat / 2 ^ (32 - mask) * 2 ^ (32 - mask) < 2 ^ 32 :=
      Nat.lt_of_le_of_lt (Nat.div_mul_le_self _ _) addr.toNat_lt
    rw [and_mask, UInt32.toNat_shiftLeft, UInt32.toNat_shiftRight, shiftCount some, Nat.shiftRight_eq_div_pow,
      Nat.shiftLeft_eq, Nat.mod_eq_of_lt small]
    rfl

/-! ## Inclusion -/

theorem ipAddressInPrefix_iff (addr : NetAddr) (p : Pfx) : ipAddressInPrefix addr p = true ↔ addr ∈ addresses p := by
  rw [ipAddressInPrefix]
  split
  next zero => simp [addresses, zero, firstBits_zero]
  next some =>
    rw [decide_eq_true_eq, shifted_eq_iff some]
    rfl

/-- The bits behind the first ones are free: among the addresses of a prefix each choice of them occurs. -/
theorem exists_mem_addresses (p : Pfx) {mask j : ℕ} (longer : p.mask ≤ mask) (short : mask ≤ 32)
    (choice : j < 2 ^ (mask - p.mask)) :
    ∃ addr ∈ addresses p, firstBits mask addr = firstBits p.mask p.network * 2 ^ (mask - p.mask) + j := by
  generalize bits : firstBits p.mask p.network * 2 ^ (mask - p.mask) + j = value
  have first : value / 2 ^ (mask - p.mask) = firstBits p.mask p.network := by
    rw [← bits, Nat.mul_comm, Nat.mul_add_div (Nat.two_pow_pos _), Nat.div_eq_of_lt choice, Nat.add_zero]
  have small : value * 2 ^ (32 - mask) < 2 ^ 32 := by
    have network : firstBits p.mask p.network < 2 ^ p.mask := by
      apply Nat.div_lt_of_lt_mul
      rw [← Nat.pow_add, Nat.sub_add_cancel p.short]
      exact p.network.toNat_lt
    have below : value < 2 ^ mask := by
      rw [← Nat.sub_add_cancel longer, Nat.pow_add]
      exact (Nat.div_lt_iff_lt_mul (Nat.two_pow_pos _)).mp (first.symm ▸ network) |>.trans_eq (Nat.mul_comm _ _)
    calc value * 2 ^ (32 - mask) < 2 ^ mask * 2 ^ (32 - mask) :=
          Nat.mul_lt_mul_of_pos_right below (Nat.two_pow_pos _)
      _ = 2 ^ 32 := by rw [← Nat.pow_add, Nat.add_sub_cancel' short]
  have value' : firstBits mask (value * 2 ^ (32 - mask)).toUInt32 = value := by
    rw [firstBits, Nat.toUInt32_eq, UInt32.toNat_ofNat_of_lt' small]
    exact Nat.mul_div_cancel _ (Nat.two_pow_pos _)
  refine ⟨(value * 2 ^ (32 - mask)).toUInt32, ?_, value'⟩
  change firstBits p.mask _ = _
  rw [firstBits_firstBits longer short, value', first]

/-- The addresses of a shorter prefix do not all have the first bits of a longer one. -/
theorem mask_le_of_subset {p q : Pfx} (subset : addresses p ⊆ addresses q) : q.mask ≤ p.mask := by
  by_contra longer
  push Not at longer
  have two : 1 < 2 ^ (q.mask - p.mask) := Nat.one_lt_two_pow (by omega)
  obtain ⟨addr, inside, bits⟩ := exists_mem_addresses p (Nat.le_of_lt longer) q.short (Nat.zero_lt_of_lt two)
  obtain ⟨addr', inside', bits'⟩ := exists_mem_addresses p (Nat.le_of_lt longer) q.short two
  have same : firstBits q.mask addr = firstBits q.mask addr' := (subset inside).trans (subset inside').symm
  omega

theorem ipPrefixInPrefix_iff (p q : Pfx) : ipPrefixInPrefix p q = true ↔ addresses p ⊆ addresses q := by
  rw [ipPrefixInPrefix]
  split
  next zero =>
    have all : addresses q = Set.univ := by
      ext addr
      simp [addresses, zero, firstBits_zero]
    simp [all]
  next some =>
    split
    next shorter =>
      refine iff_of_false Bool.false_ne_true fun subset => ?_
      exact absurd (mask_le_of_subset subset) (Nat.not_le.mpr shorter)
    next longer =>
      have longer := Nat.le_of_not_lt longer
      rw [decide_eq_true_eq, shifted_eq_iff some]
      constructor
      · intro same addr inside
        have inside : firstBits p.mask addr = firstBits p.mask p.network := inside
        have bits := firstBits_firstBits longer p.short
        exact (((bits addr).trans (congrArg (· / _) inside)).trans (bits p.network).symm).trans same
      · intro subset
        exact subset (network_mem p)

/-! ## The order -/

/-- The place of a prefix in the order: by its length, then by its first bits. -/
def place (p : Pfx) : ℕ := p.mask * 2 ^ 32 + firstBits p.mask p.network

theorem firstBits_lt (mask : ℕ) (addr : NetAddr) : firstBits mask addr < 2 ^ 32 :=
  Nat.lt_of_le_of_lt (Nat.div_le_self _ _) addr.toNat_lt

theorem ipPrefixCmp_eq (p q : Pfx) :
    ipPrefixCmp p q = if place p < place q then -1 else if place p > place q then 1 else 0 := by
  have smallP := firstBits_lt p.mask p.network
  have smallQ := firstBits_lt q.mask q.network
  rw [ipPrefixCmp, place, place]
  split
  next shorter => rw [if_pos (by omega)]
  next =>
    split
    next longer => rw [if_neg (by omega), if_pos (by omega)]
    next =>
      have same : p.mask = q.mask := by omega
      have positive := Nat.two_pow_pos (32 - q.mask)
      have masked : ∀ a b : NetAddr, a &&& ipAddressMask q.mask < b &&& ipAddressMask q.mask ↔
          firstBits q.mask a < firstBits q.mask b := by
        intro a b
        rw [UInt32.lt_iff_toNat_lt, toNat_masked q.short, toNat_masked q.short]
        exact Nat.mul_lt_mul_right positive
      rw [same, ipAddressCmp]
      simp only [gt_iff_lt, masked]
      split
      next above => rw [if_neg (by omega), if_pos (by omega)]
      next =>
        split
        next below => rw [if_pos (by omega)]
        next => rw [if_neg (by omega), if_neg (by omega)]

theorem place_eq_iff (p q : Pfx) : place p = place q ↔ addresses p = addresses q := by
  have smallP := firstBits_lt p.mask p.network
  have smallQ := firstBits_lt q.mask q.network
  constructor
  · intro same
    rw [place, place] at same
    have mask : p.mask = q.mask := by omega
    have network : firstBits p.mask p.network = firstBits q.mask q.network := by omega
    rw [addresses, addresses, network, mask]
  · intro same
    have mask := Nat.le_antisymm (mask_le_of_subset same.symm.subset) (mask_le_of_subset same.subset)
    have network : firstBits q.mask p.network = firstBits q.mask q.network := same.subset (network_mem p)
    rw [place, place, mask, network]

theorem ipPrefixCmp_zero_iff (p q : Pfx) : ipPrefixCmp p q = 0 ↔ addresses p = addresses q := by
  rw [← place_eq_iff, ipPrefixCmp_eq]
  split
  next => omega
  next =>
    split
    next => omega
    next => omega

/-- `ip_prefix_cmp` says zero where the tries take two prefixes for one. -/
theorem ipPrefixCmp_zero_iff_eq (p q : Pfx) : ipPrefixCmp p q = 0 ↔ ipPrefixEq p q = true := by
  rw [ipPrefixCmp_zero_iff, ipPrefixEq, decide_eq_true_eq]
  constructor
  · intro same
    have mask := Nat.le_antisymm (mask_le_of_subset same.symm.subset) (mask_le_of_subset same.subset)
    have network : firstBits q.mask p.network = firstBits q.mask q.network := same.subset (network_mem p)
    refine ⟨mask, UInt32.toNat_inj.mp ?_⟩
    rw [mask, toNat_masked q.short, toNat_masked q.short, network]
  · intro both
    obtain ⟨mask, network⟩ := both
    have masked := congrArg UInt32.toNat network
    rw [mask, toNat_masked q.short, toNat_masked q.short] at masked
    rw [← place_eq_iff, place, place, mask, Nat.eq_of_mul_eq_mul_right (Nat.two_pow_pos _) masked]

theorem ipPrefixCmp_swap (p q : Pfx) : ipPrefixCmp q p = -ipPrefixCmp p q := by
  rw [ipPrefixCmp_eq, ipPrefixCmp_eq]
  obtain below | same | above := Nat.lt_trichotomy (place p) (place q)
  · rw [if_neg (by omega), if_pos below, if_pos below, Int.neg_neg]
  · simp [same]
  · rw [if_pos above, if_neg (by omega), if_pos above]

theorem ipPrefixCmp_le_iff (p q : Pfx) : ipPrefixCmp p q ≤ 0 ↔ place p ≤ place q := by
  rw [ipPrefixCmp_eq]
  split
  next => omega
  next =>
    split
    next => omega
    next => omega

/-- A host prefix has one address. -/
theorem addresses_host (addr : NetAddr) : addresses ⟨addr, 32, Nat.le_refl 32⟩ = {addr} := by
  ext addr'
  simp [addresses, firstBits, UInt32.toNat_inj]

/-- The relations between prefixes are those between sets of addresses, and prefixes are ordered up to having
the same addresses. -/
theorem prefix_relations (p q r : Pfx) (addr : NetAddr) (len : ℕ) :
    (ipPrefixInPrefix p q = true ↔ addresses p ⊆ addresses q) ∧
      ipPrefixInPrefix p p = true ∧
      (ipPrefixInPrefix p q = true ∧ ipPrefixInPrefix q r = true → ipPrefixInPrefix p r = true) ∧
      (ipPrefixInPrefix p q = true ∧ ipPrefixInPrefix q p = true → ipPrefixCmp p q = 0) ∧
      ipAddressInPrefix addr p = ipPrefixInPrefix ⟨addr, 32, Nat.le_refl 32⟩ p ∧
      (ipAddressInPrefix addr p = true ↔ addr ∈ addresses p) ∧
      ipPrefixCmp p p = 0 ∧ ipPrefixCmp q p = -ipPrefixCmp p q ∧
      (ipPrefixCmp p q ≤ 0 ∧ ipPrefixCmp q r ≤ 0 → ipPrefixCmp p r ≤ 0) ∧
      (ipPrefixCmp p q = 0 ↔ addresses p = addresses q) ∧
      (ipPrefixGePrefix p q len = true ↔ addresses p ⊆ addresses q ∧ len ≤ p.mask) ∧
      (ipPrefixLePrefix p q len = true ↔ addresses p ⊆ addresses q ∧ p.mask ≤ len) := by
  rw [ipPrefixInPrefix_iff, ipPrefixInPrefix_iff, ipPrefixInPrefix_iff, ipPrefixInPrefix_iff, ipPrefixInPrefix_iff,
    ipPrefixCmp_zero_iff, ipPrefixCmp_zero_iff, ipPrefixCmp_le_iff, ipPrefixCmp_le_iff, ipPrefixCmp_le_iff]
  refine ⟨Iff.rfl, Set.Subset.rfl, fun subset => subset.1.trans subset.2, fun subset => subset.1.antisymm subset.2,
    ?_, ipAddressInPrefix_iff addr p, rfl, ipPrefixCmp_swap p q, fun le => le.1.trans le.2, Iff.rfl, ?_, ?_⟩
  · rw [Bool.eq_iff_iff, ipAddressInPrefix_iff, ipPrefixInPrefix_iff, addresses_host, Set.singleton_subset_iff]
  · rw [ipPrefixGePrefix, Bool.and_eq_true, ipPrefixInPrefix_iff, decide_eq_true_eq]
  · rw [ipPrefixLePrefix, Bool.and_eq_true, ipPrefixInPrefix_iff, decide_eq_true_eq]

end Cbgp.Verified
