import Cbgp.Lib.Table
import Mathlib.Algebra.Order.Ring.Nat

/-! # Addresses, prefixes and prefix-keyed maps

IPv4 addresses and prefixes of `net/prefix.c`, and the tries keyed by them.  The tries come from a
library outside the repository; they are used as finite maps whose key is the masked prefix, plus a
longest-match lookup.
-/

namespace Cbgp.Net

open Cbgp.Lib

/-- `net_addr_t`. -/
abbrev NetAddr := UInt32

/-- `NET_ADDR_ANY`. -/
def netAddrAny : NetAddr := 0

/-- `MAX_ADDR`. -/
def maxAddr : NetAddr := 0xffffffff

/-- `net_error_t`, the codes the modelled functions return. -/
inductive NetError where
  | success
  | failure -- `EUNEXPECTED`, the literal `-1`
  | unsupported
  | unspecified
  | netUnreach
  | hostUnreach
  | protoUnreach
  | timeExceeded
  | linkDown
  | linkLoop
  | linkDuplicate
  | fwdLoop
  | noReply
  | icmpNetUnreach
  | icmpHostUnreach
  | icmpProtoUnreach
  | icmpTimeExceeded
  | ifaceUnknown
  | ifaceDuplicate
  | ifaceInvalidId
  | ifaceInvalidType
  | ifaceIncompatible
  | ifaceConnected
  | rtNhUnreach
  | rtUnknown
  | rtDuplicate
  | rtNoGwNoOif
  | bgpNetworkDuplicate
  | bgpPeerUnknown
  | bgpPeerInvalidState
  | bgpPeerIncompatible
  | bgpPeerUnreachable
  | bgpPeerOutOfSeq
  deriving DecidableEq, Repr

/-! ## Prefixes -/

/-- `ip_pfx_t`.  The network part need not be masked; the length is at most 32. -/
structure Pfx where
  network : NetAddr
  mask : Nat
  short : mask ≤ 32
  deriving DecidableEq

theorem short0 : 0 ≤ 32 := by decide

theorem short8 : 8 ≤ 32 := by decide

theorem short16 : 16 ≤ 32 := by decide

theorem short24 : 24 ≤ 32 := by decide

theorem short32 : 32 ≤ 32 := Nat.le_refl 32

/-- `_ip_address_mask`. -/
def ipAddressMask (mask : Nat) : NetAddr :=
  if mask = 0 then 0 else 0xffffffff <<< (32 - mask).toUInt32

/-- `ip_prefix_mask`: clear the bits of the network part beyond the mask. -/
def ipPrefixMask (p : Pfx) : Pfx :=
  { p with network := p.network &&& ipAddressMask p.mask }

/-- `_ip_address_cmp`. -/
def ipAddressCmp (addr1 addr2 : NetAddr) : ℤ :=
  if addr1 > addr2 then 1 else if addr1 < addr2 then -1 else 0

/-- `ip_prefix_cmp`: shorter prefixes first, then by the masked network part. -/
def ipPrefixCmp (prefix1 prefix2 : Pfx) : ℤ :=
  if prefix1.mask < prefix2.mask then -1
  else if prefix1.mask > prefix2.mask then 1
  else ipAddressCmp (prefix1.network &&& ipAddressMask prefix1.mask) (prefix2.network &&& ipAddressMask prefix1.mask)

/-- The outcome `ip_prefix_cmp(p, q) == 0`: same length and same masked network part. -/
def ipPrefixEq (p q : Pfx) : Bool :=
  p.mask = q.mask ∧ p.network &&& ipAddressMask p.mask = q.network &&& ipAddressMask p.mask

/-- `ip_address_in_prefix`. -/
def ipAddressInPrefix (addr : NetAddr) (p : Pfx) : Bool :=
  if p.mask = 0 then true
  else addr >>> (32 - p.mask).toUInt32 = p.network >>> (32 - p.mask).toUInt32

@[simp] theorem ipPrefixMask_idem (p : Pfx) : ipPrefixMask (ipPrefixMask p) = ipPrefixMask p := by
  simp [ipPrefixMask, UInt32.and_assoc]

/-- Two prefixes compare equal exactly when they name the same entry of a trie. -/
theorem ipPrefixEq_iff (p q : Pfx) : ipPrefixEq p q = true ↔ ipPrefixMask p = ipPrefixMask q := by
  obtain ⟨networkP, maskP, shortP⟩ := p
  obtain ⟨networkQ, maskQ, shortQ⟩ := q
  simp only [ipPrefixEq, ipPrefixMask, decide_eq_true_eq, Pfx.mk.injEq]
  constructor
  · rintro ⟨rfl, masked⟩
    exact ⟨masked, rfl⟩
  · rintro ⟨masked, rfl⟩
    exact ⟨rfl, masked⟩

/-! ## Tries -/

/-- A trie: a finite map keyed by masked prefixes. -/
abbrev Trie (V : Type) := Table Pfx V

/-- `trie_find_best` on a host address: the value under the longest prefix that holds it. -/
def trieFindBest {V : Type} (t : Trie V) (addr : NetAddr) : Option V :=
  let longest := t.entries.foldl (fun (best : Option (Sigma fun _ : Pfx => V)) e =>
    if ipAddressInPrefix addr e.1 then
      match best with
      | none => some e
      | some b => if b.1.mask < e.1.mask then some e else some b
    else best) none
  longest.map fun e => e.2

/-- The order in which `trie_for_each` visits the keys of a trie: some permutation of them. -/
structure Traversal where
  order : List Pfx → List Pfx
  perm : ∀ keys, (order keys).Perm keys

theorem Traversal.mem_order (t : Traversal) {keys : List Pfx} {k : Pfx} :
    k ∈ t.order keys ↔ k ∈ keys :=
  (t.perm keys).mem_iff

end Cbgp.Net
