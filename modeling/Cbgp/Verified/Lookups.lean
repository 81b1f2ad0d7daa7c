import Cbgp.Verified.DecisionProcess
import Cbgp.Verified.Forwarding

/-! # Lookups and the decision process

A longest-match lookup in a table keyed by masked prefixes depends on the entries that hold the address
only (`trieFindBest_congr`).  A decision process changes the BGP routes towards its prefix and nothing
else of the routing table (`decisionProcess_onlyBgp`), so that it changes no lookup outside the prefix.
-/

namespace Cbgp.Verified

open Cbgp.Lib Cbgp.Net Cbgp.Bgp

/-! ## Prefixes that hold an address -/

theorem and_mask (x k : UInt32) : x &&& (0xffffffff <<< k) = (x >>> k) <<< k := by
  apply UInt32.toBitVec_inj.mp
  apply BitVec.eq_of_getLsbD_eq
  intro i small
  have ones : UInt32.toBitVec 0xffffffff = BitVec.allOnes 32 := by decide
  simp only [UInt32.toBitVec_and, UInt32.toBitVec_shiftLeft, UInt32.toBitVec_shiftRight, ones,
    BitVec.getLsbD_and, BitVec.shiftLeft_eq', BitVec.getLsbD_shiftLeft, BitVec.ushiftRight_eq',
    BitVec.getLsbD_ushiftRight, BitVec.getLsbD_allOnes]
  generalize (k.toBitVec % 32).toNat = n
  by_cases below : i < n
  · simp [below]
  · have inside : i - n < 32 := by omega
    have place : n + (i - n) = i := by omega
    simp [below, small, inside, place]

/-- The network part of a prefix that holds an address is that of the address. -/
theorem network_of_inPrefix {addr : NetAddr} {p : Pfx} (inside : ipAddressInPrefix addr p = true) :
    (ipPrefixMask p).network = addr &&& ipAddressMask p.mask := by
  unfold ipAddressInPrefix at inside
  unfold ipPrefixMask ipAddressMask
  by_cases whole : p.mask = 0
  · simp [whole]
  · simp only [if_neg whole, decide_eq_true_eq] at inside ⊢
    rw [and_mask, and_mask, inside]

/-- A masked prefix that holds an address is determined by its length. -/
theorem eq_of_inPrefix {addr : NetAddr} {p q : Pfx} (maskedP : ipPrefixMask p = p)
    (maskedQ : ipPrefixMask q = q) (same : p.mask = q.mask) (inP : ipAddressInPrefix addr p = true)
    (inQ : ipAddressInPrefix addr q = true) : p = q := by
  have networkP := network_of_inPrefix inP
  have networkQ := network_of_inPrefix inQ
  rw [maskedP] at networkP
  rw [maskedQ] at networkQ
  obtain ⟨network, mask, short⟩ := p
  obtain ⟨network', mask', short'⟩ := q
  dsimp only at same networkP networkQ
  subst same
  rw [networkP, networkQ]

/-! ## Longest match -/

section Longest

variable {V : Type} {addr : NetAddr}

/-- Every key is masked. -/
def MaskedKeys (t : Trie V) : Prop := ∀ key ∈ t.keys, ipPrefixMask key = key

/-- What the loop over the entries finds is as long as any entry that holds the address. -/
theorem longest_max {entries : List (Sigma fun _ : Pfx => V)}
    {best : Option (Sigma fun _ : Pfx => V)} {e : Sigma fun _ : Pfx => V}
    (holds : ∀ b, best = some b → ipAddressInPrefix addr b.1 = true)
    (found : entries.foldl (longer addr) best = some e) :
    ipAddressInPrefix addr e.1 = true ∧
      (∀ b, best = some b → b.1.mask ≤ e.1.mask) ∧
      ∀ other ∈ entries, ipAddressInPrefix addr other.1 = true → other.1.mask ≤ e.1.mask := by
  induction entries generalizing best with
  | nil =>
    rw [List.foldl_nil] at found
    refine ⟨holds e found, fun b start => ?_, fun other member => nomatch member⟩
    rw [found, Option.some.injEq] at start
    exact start ▸ Nat.le_refl _
  | cons head entries inductionHypothesis =>
    rw [List.foldl_cons] at found
    by_cases inside : ipAddressInPrefix addr head.1 = true
    · -- the head replaces what was found so far exactly when it is longer
      cases best with
      | none =>
        simp only [longer, inside, if_true] at found
        obtain ⟨inE, above, rest⟩ := inductionHypothesis (fun b start => by cases start; exact inside) found
        refine ⟨inE, ?_, fun other member within => ?_⟩
        · intro b start
          cases start
        · cases member with
          | head => exact above head rfl
          | tail _ later => exact rest other later within
      | some b =>
        simp only [longer, inside, if_true] at found
        split at found
        next shorter =>
          obtain ⟨inE, above, rest⟩ :=
            inductionHypothesis (fun b start => by cases start; exact inside) found
          refine ⟨inE, fun b' start => ?_, fun other member within => ?_⟩
          · cases start
            exact Nat.le_trans (Nat.le_of_lt shorter) (above head rfl)
          · cases member with
            | head => exact above head rfl
            | tail _ later => exact rest other later within
        next longerThan =>
          obtain ⟨inE, above, rest⟩ := inductionHypothesis holds found
          refine ⟨inE, above, fun other member within => ?_⟩
          cases member with
          | head => exact Nat.le_trans (Nat.not_lt.mp longerThan) (above b rfl)
          | tail _ later => exact rest other later within
    · simp only [longer, inside] at found
      obtain ⟨inE, above, rest⟩ := inductionHypothesis holds found
      refine ⟨inE, above, fun other member within => ?_⟩
      cases member with
      | head => exact absurd within inside
      | tail _ later => exact rest other later within

/-- What a longest-match lookup finds. -/
theorem trieFindBest_eq_some {t : Trie V} (masked : MaskedKeys t) {v : V} :
    trieFindBest t addr = some v ↔ ∃ key, t.lookup key = some v ∧ ipAddressInPrefix addr key = true ∧
      ∀ other ∈ t.keys, ipAddressInPrefix addr other = true → other.mask ≤ key.mask := by
  have entryOf {key : Pfx} {w : V} (stored : t.lookup key = some w) :
      (⟨key, w⟩ : Sigma fun _ : Pfx => V) ∈ t.entries := Table.mem_entries_iff.mpr stored
  have longest {e : Sigma fun _ : Pfx => V} (found : t.entries.foldl (longer addr) none = some e) :
      t.lookup e.1 = some e.2 ∧ ipAddressInPrefix addr e.1 = true ∧
        ∀ other ∈ t.keys, ipAddressInPrefix addr other = true → other.mask ≤ e.1.mask := by
    have member : e ∈ t.entries := (longest_mem found).resolve_left (by simp)
    obtain ⟨inE, _, rest⟩ := longest_max (by simp) found
    refine ⟨Table.mem_entries_iff.mp member, inE, fun other known within => ?_⟩
    obtain ⟨w, stored⟩ := Table.mem_keys_iff.mp known
    exact rest ⟨other, w⟩ (entryOf stored) within
  constructor
  · intro found
    obtain ⟨e, longestE, rfl⟩ := Option.map_eq_some_iff.mp found
    exact ⟨e.1, longest longestE⟩
  · rintro ⟨key, stored, inside, above⟩
    have known : key ∈ t.keys := Table.mem_keys_iff.mpr ⟨v, stored⟩
    -- something is found, and it cannot be under another key
    obtain ⟨w, found⟩ := Option.isSome_iff_exists.mp (trieFindBest_isSome.mpr ⟨key, known, inside⟩)
    obtain ⟨e, longestE, rfl⟩ := Option.map_eq_some_iff.mp found
    obtain ⟨storedE, inE, aboveE⟩ := longest longestE
    have knownE : e.1 ∈ t.keys := Table.mem_keys_iff.mpr ⟨e.2, storedE⟩
    have sameKey : e.1 = key := eq_of_inPrefix (masked _ knownE) (masked _ known)
      (Nat.le_antisymm (above _ knownE inE) (aboveE _ known inside)) inE inside
    rw [found]
    rw [sameKey, stored] at storedE
    exact storedE.symm

/-- A lookup depends on the entries that hold the address. -/
theorem trieFindBest_congr {t t' : Trie V} (masked : MaskedKeys t) (masked' : MaskedKeys t')
    (same : ∀ key, ipAddressInPrefix addr key = true → t'.lookup key = t.lookup key) :
    trieFindBest t' addr = trieFindBest t addr := by
  have keys {key : Pfx} (inside : ipAddressInPrefix addr key = true) : key ∈ t'.keys ↔ key ∈ t.keys := by
    rw [Table.mem_keys_iff, Table.mem_keys_iff, same key inside]
  apply Option.ext
  intro v
  rw [trieFindBest_eq_some masked', trieFindBest_eq_some masked]
  constructor
  · rintro ⟨key, stored, inside, above⟩
    exact ⟨key, same key inside ▸ stored, inside, fun other known within =>
      above other ((keys within).mpr known) within⟩
  · rintro ⟨key, stored, inside, above⟩
    exact ⟨key, (same key inside).trans stored, inside, fun other known within =>
      above other ((keys within).mp known) within⟩

end Longest

/-! ## What a decision process does to the routing table -/

/-- Only BGP routes towards one prefix changed. -/
structure OnlyBgpAt (p : Pfx) (rt rt' : NetRt) : Prop where
  elsewhere : ∀ key, key ≠ ipPrefixMask p → rt'.lookup key = rt.lookup key
  others : ∀ q, (routesTo rt' q).filter (·.type ≠ .bgp) = (routesTo rt q).filter (·.type ≠ .bgp)

namespace OnlyBgpAt

variable {p : Pfx} {rt rt' rt'' : NetRt}

theorem refl (p : Pfx) (rt : NetRt) : OnlyBgpAt p rt rt := ⟨fun _ _ => rfl, fun _ => rfl⟩

theorem trans (first : OnlyBgpAt p rt rt') (second : OnlyBgpAt p rt' rt'') : OnlyBgpAt p rt rt'' where
  elsewhere key other := (second.elsewhere key other).trans (first.elsewhere key other)
  others q := (second.others q).trans (first.others q)

theorem of_key {q : Pfx} (only : OnlyBgpAt p rt rt') (same : ipPrefixMask p = ipPrefixMask q) :
    OnlyBgpAt q rt rt' where
  elsewhere key other := only.elsewhere key (same ▸ other)
  others := only.others

theorem maskedKeys (only : OnlyBgpAt p rt rt') (masked : MaskedKeys rt) : MaskedKeys rt' := by
  intro key known
  by_cases here : key = ipPrefixMask p
  · rw [here, ipPrefixMask_idem]
  · obtain ⟨infos, stored⟩ := Table.mem_keys_iff.mp known
    rw [only.elsewhere key here] at stored
    exact masked key (Table.mem_keys_iff.mpr ⟨infos, stored⟩)

/-- Lookups of addresses outside the prefix find what they found. -/
theorem rtFindBest (only : OnlyBgpAt p rt rt') (masked : MaskedKeys rt) {addr : NetAddr}
    (outside : ipAddressInPrefix addr (ipPrefixMask p) = false) (type : UInt8) :
    Net.rtFindBest rt' addr type = Net.rtFindBest rt addr type := by
  have same : trieFindBest rt' addr = trieFindBest rt addr := by
    refine trieFindBest_congr masked (only.maskedKeys masked) fun key inside => ?_
    refine only.elsewhere key fun here => ?_
    rw [here, outside] at inside
    cases inside
  rw [Net.rtFindBest, Net.rtFindBest, same]

end OnlyBgpAt

theorem rtAddRoute_onlyBgp {rt rt' : NetRt} {p : Pfx} {rtinfo : RtInfo} (isBgp : rtinfo.type = .bgp)
    (added : rtAddRoute rt p rtinfo = (.success, rt')) : OnlyBgpAt p rt rt' := by
  unfold rtAddRoute at added
  split at added
  next unknown =>
    cases added
    refine ⟨fun key other => AList.lookup_insert_ne other, fun q => ?_⟩
    rw [routesTo_insert]
    split
    next same =>
      rw [routesTo, same, unknown]
      simp [RtInfos.single, isBgp]
    next => rfl
  next infos known =>
    split at added
    next => cases added
    next infos' inserted =>
      cases added
      refine ⟨fun key other => AList.lookup_insert_ne other, fun q => ?_⟩
      rw [routesTo_insert]
      split
      next same =>
        have listed : routesTo rt q = infos.list := by rw [routesTo, same, known]
        rw [listed]
        exact sortedAdd_filter (infosAdd_list inserted) (by simp [isBgp])
      next => rfl

theorem rtDelRoute_onlyBgp {rt rt' : NetRt} {p : Pfx}
    (deleted : rtDelRoute rt (some p) none none RouteType.bgp.bit = (.success, rt')) :
    OnlyBgpAt p rt rt' := by
  cases known : rt.lookup (ipPrefixMask p) with
  | none => simp [rtDelRoute, rtDelRoutes, rtDelForEach, known] at deleted
  | some infos =>
    obtain ⟨rt'', deleted', routes⟩ := rtDelRoute_bgp known
    rw [deleted'] at deleted
    cases deleted
    refine ⟨fun key other => ?_, fun q => ?_⟩
    · simp only [rtDelRoute, rtDelRoutes, rtDelForEach, known] at deleted'
      split at deleted'
      · cases deleted'
      · cases deleted'
        split
        · exact AList.lookup_erase_ne other
        · exact AList.lookup_insert_ne other
    · rw [routes]
      split
      · rw [List.filter_filter]
        simp
      · rfl

theorem bgpRouterRtAddRoute_onlyBgp {r r' : Router} {route : Route}
    (h : bgpRouterRtAddRoute r route = .ok r') : OnlyBgpAt route.pfx r.rt r'.rt := by
  unfold bgpRouterRtAddRoute at h
  cases found : rtFindExact r.rt route.pfx RouteType.bgp.bit with
  | none =>
    simp only [found] at h
    split at h
    next added =>
      cases h
      exact rtAddRoute_onlyBgp rfl added
    next => cases h
  | some rtinfo =>
    obtain ⟨infos, known⟩ := rtFindExact_bgp_some found
    obtain ⟨mid, deleted, _⟩ := rtDelRoute_bgp known
    simp only [found, deleted] at h
    split at h
    next added =>
      cases h
      exact (rtDelRoute_onlyBgp deleted).trans (rtAddRoute_onlyBgp rfl added)
    next => cases h

theorem bgpRouterRtDelRoute_onlyBgp {r r' : Router} {p : Pfx} (h : bgpRouterRtDelRoute r p = .ok r') :
    OnlyBgpAt p r.rt r'.rt := by
  unfold bgpRouterRtDelRoute at h
  split at h
  next deleted =>
    cases h
    exact rtDelRoute_onlyBgp deleted
  next => cases h

theorem noBestRoute_onlyBgp {s s' : Router} {p : Pfx} {oldRoute : Option Route}
    (h : noBestRoute s p oldRoute = .ok s') : OnlyBgpAt p s.rt s'.rt := by
  cases oldRoute with
  | none =>
    cases h
    exact .refl p s.rt
  | some old =>
    simp only [noBestRoute, except_bind_eq_ok] at h
    obtain ⟨mid, deleted, disseminated⟩ := h
    have only := bgpRouterRtDelRoute_onlyBgp deleted
    rw [((disseminate_ends _ p none).value disseminated).rt]
    rw [← bgpRouterBestFlagOff_rt s old]
    exact only

theorem unchangedBestRoute_onlyBgp {s s' : Router} {p : Pfx} {winner : NetAddr} {route : Route}
    (same : ipPrefixMask route.pfx = ipPrefixMask p) (h : unchangedBestRoute s p winner route = .ok s') :
    OnlyBgpAt p s.rt s'.rt :=
  (bgpRouterRtAddRoute_onlyBgp h).of_key same

theorem updateBestRoute_onlyBgp {s s' : Router} {p : Pfx} {oldRoute : Option Route} {winner : NetAddr}
    {route : Route} (same : ipPrefixMask route.pfx = ipPrefixMask p)
    (h : updateBestRoute s p oldRoute winner route = .ok s') : OnlyBgpAt p s.rt s'.rt := by
  simp only [updateBestRoute, except_bind_eq_ok] at h
  obtain ⟨mid, added, disseminated⟩ := h
  rw [((disseminate_ends _ p _).value disseminated).rt]
  have only := (bgpRouterRtAddRoute_onlyBgp added).of_key same
  cases oldRoute with
  | none => exact only
  | some old =>
    rw [← bgpRouterBestFlagOff_rt s old]
    exact only

theorem installBest_onlyBgp {s s' : Router} {p : Pfx} {oldRoute : Option Route} {left : List Cand}
    (h : installBest s p oldRoute left = .ok s') : OnlyBgpAt p s.rt s'.rt := by
  cases left with
  | nil => exact noBestRoute_onlyBgp h
  | cons w left =>
    simp only [installBest] at h
    cases won : s.adjRoute w.addr p with
    | none =>
      rw [won] at h
      cases h
    | some route =>
      have same := adjRoute_pfx won
      simp only [won] at h
      split at h
      · exact updateBestRoute_onlyBgp same h
      · split at h
        · exact unchangedBestRoute_onlyBgp same h
        · exact updateBestRoute_onlyBgp same h

/-- A decision process changes BGP routes towards its prefix only. -/
theorem decisionProcess_onlyBgp {r r' : Router} {p : Pfx} (h : bgpRouterDecisionProcess r p = .ok r') :
    OnlyBgpAt p r.rt r'.rt := by
  unfold bgpRouterDecisionProcess at h
  simp only at h
  split at h
  · cases h
    exact .refl p r.rt
  · simp only [except_bind_eq_ok] at h
    obtain ⟨left, _, igp, _, installed⟩ := h
    have only := installBest_onlyBgp installed
    exact only

end Cbgp.Verified
