import Cbgp.Verified.RouteRemoval

/-! # Longest-match lookups with a type filter

`rt_find_best` first takes the longest prefix of the table that contains the address, and then the first route
of a requested type in its list.  What it returns is the best route of a requested type; it returns nothing also
where only a shorter prefix has such a route.
-/

namespace Cbgp.Verified

open Cbgp.Lib Cbgp.Net

/-! ## Tables -/

/-- `rt_add_route` and `rt_del_routes`. -/
inductive TableCall where
  | add (pfx : Pfx) (rtinfo : RtInfo)
  | del (filter : RtFilter)

/-- One call. -/
def tableStep (rt : NetRt) : TableCall → Except Unit NetRt
  | .add pfx rtinfo => .ok (rtAddRoute rt pfx rtinfo).2
  | .del filter => .ok (rtDelRoutes rt filter).2

/-- The tables that the two calls build. -/
def BuiltTable (rt : NetRt) : Prop := Reach tableStep (fun _ _ => True) ∅ rt

section Tables

variable {rt : NetRt}

/-- The keys of a table are the prefixes of its routes. -/
theorem mem_keys_iff_inTable {key : Pfx} : key ∈ rt.keys ↔ ∃ rtinfo, InTable rt key rtinfo := by
  constructor
  · intro known
    obtain ⟨infos, stored⟩ := Table.mem_keys_iff.mp known
    obtain ⟨rtinfo, member⟩ := List.exists_mem_of_ne_nil _ infos.nonempty
    exact ⟨rtinfo, infos, stored, member⟩
  · rintro ⟨rtinfo, stored⟩
    exact mem_keys_of_inTable stored

theorem inTable_rtAddRoute {pfx key : Pfx} {rtinfo other : RtInfo}
    (stored : InTable (rtAddRoute rt pfx rtinfo).2 key other) : key = ipPrefixMask pfx ∨ InTable rt key other := by
  by_cases here : key = ipPrefixMask pfx
  · exact .inl here
  · refine .inr ?_
    rw [rtAddRoute] at stored
    split at stored
    next => rwa [inTable_insert, if_neg here] at stored
    next =>
      split at stored
      next => exact stored
      next => rwa [inTable_insert, if_neg here] at stored

theorem tableStep_masked {rt' : NetRt} {call : TableCall} (masked : MaskedKeys rt)
    (stepped : tableStep rt call = .ok rt') : MaskedKeys rt' := by
  intro key known
  obtain ⟨rtinfo, stored⟩ := mem_keys_iff_inTable.mp known
  cases call with
  | add pfx added =>
    cases stepped
    cases inTable_rtAddRoute stored with
    | inl here => rw [here, ipPrefixMask_idem]
    | inr before => exact masked key (mem_keys_of_inTable before)
  | del filter =>
    cases stepped
    exact masked key (mem_keys_of_inTable ((inTable_rtDelRoutes masked).mp stored).1)

theorem BuiltTable.masked (built : BuiltTable rt) : MaskedKeys rt := by
  refine Reach.invariant built (fun key known => ?_) fun masked _ stepped => tableStep_masked masked stepped
  simp at known

/-! ## Lookups -/

/-- The longest prefix of the table that contains an address. -/
structure LongestKey (rt : NetRt) (addr : NetAddr) (key : Pfx) : Prop where
  known : key ∈ rt.keys
  inside : ipAddressInPrefix addr key = true
  longest : ∀ other ∈ rt.keys, ipAddressInPrefix addr other = true → other.mask ≤ key.mask

/-- A route whose type is requested and whose prefix contains an address. -/
structure Candidate (rt : NetRt) (addr : NetAddr) (mask : UInt8) (key : Pfx) (rtinfo : RtInfo) : Prop where
  stored : InTable rt key rtinfo
  inside : ipAddressInPrefix addr key = true
  requested : (rtinfo.type.bit &&& mask != 0) = true

/-- The best of them: the longest prefix, and within it the lowest type and metric. -/
structure BestCandidate (rt : NetRt) (addr : NetAddr) (mask : UInt8) (key : Pfx) (rtinfo : RtInfo) : Prop where
  candidate : Candidate rt addr mask key rtinfo
  best : ∀ other rtinfo', Candidate rt addr mask other rtinfo' →
    other.mask < key.mask ∨ other = key ∧ (rtinfo' = rtinfo ∨ rtInfoListCmp rtinfo rtinfo' = .lt)

theorem rtFindBest_eq_some_iff (masked : MaskedKeys rt) {addr : NetAddr} {mask : UInt8} {rtinfo : RtInfo} :
    rtFindBest rt addr mask = some rtinfo ↔
      ∃ key infos, LongestKey rt addr key ∧ rt.lookup key = some infos ∧ infos.first mask = some rtinfo := by
  rw [rtFindBest, Option.bind_eq_some_iff]
  constructor
  · rintro ⟨infos, found, first⟩
    obtain ⟨key, stored, inside, longest⟩ := (trieFindBest_eq_some masked).mp found
    exact ⟨key, infos, ⟨Table.mem_keys_iff.mpr ⟨infos, stored⟩, inside, longest⟩, stored, first⟩
  · rintro ⟨key, infos, ⟨known, inside, longest⟩, stored, first⟩
    exact ⟨infos, (trieFindBest_eq_some masked).mpr ⟨key, stored, inside, longest⟩, first⟩

/-- What is returned is the best route of a requested type. -/
theorem rtFindBest_best (masked : MaskedKeys rt) {addr : NetAddr} {mask : UInt8} {rtinfo : RtInfo}
    (found : rtFindBest rt addr mask = some rtinfo) : ∃ key, BestCandidate rt addr mask key rtinfo := by
  obtain ⟨key, infos, ⟨known, inside, longest⟩, stored, first⟩ := (rtFindBest_eq_some_iff masked).mp found
  obtain ⟨member, requested, least⟩ := first_eq_some_iff.mp first
  refine ⟨key, ⟨⟨infos, stored, member⟩, inside, requested⟩, ?_⟩
  rintro other rtinfo' ⟨stored', inside', requested'⟩
  have known' := mem_keys_of_inTable stored'
  cases Nat.lt_or_eq_of_le (longest other known' inside') with
  | inl shorter => exact .inl shorter
  | inr same =>
    have here := eq_of_inPrefix (masked _ known') (masked _ known) same inside' inside
    subst here
    obtain ⟨infos', found', member'⟩ := stored'
    cases stored.symm.trans found'
    exact .inr ⟨rfl, least rtinfo' member' requested'⟩

/-- Nothing is returned where the longest prefix has no route of a requested type. -/
theorem rtFindBest_eq_none_iff (masked : MaskedKeys rt) {addr : NetAddr} {mask : UInt8} :
    rtFindBest rt addr mask = none ↔
      ∀ key rtinfo, LongestKey rt addr key → ¬ Candidate rt addr mask key rtinfo := by
  rw [Option.eq_none_iff_forall_not_mem]
  constructor
  · rintro none key rtinfo longest ⟨⟨infos, stored, member⟩, inside, requested⟩
    have first : (infos.first mask).isSome = true := List.find?_isSome.mpr ⟨rtinfo, member, requested⟩
    obtain ⟨first, found⟩ := Option.isSome_iff_exists.mp first
    exact none first ((rtFindBest_eq_some_iff masked).mpr ⟨key, infos, longest, stored, found⟩)
  · intro none rtinfo found
    obtain ⟨key, infos, longest, stored, first⟩ := (rtFindBest_eq_some_iff masked).mp found
    obtain ⟨member, requested, -⟩ := first_eq_some_iff.mp first
    exact none key rtinfo longest ⟨⟨infos, stored, member⟩, longest.inside, requested⟩

/-- In every table that the two calls build: the list that the lookup finds is not empty, the route that is
returned is the best one of a requested type, and nothing is returned exactly when the longest prefix that
contains the address has no route of a requested type. -/
theorem best_route (built : BuiltTable rt) (addr : NetAddr) (mask : UInt8) :
    (∀ infos, trieFindBest rt addr = some infos → infos.list ≠ []) ∧
      (∀ rtinfo, rtFindBest rt addr mask = some rtinfo → ∃ key, BestCandidate rt addr mask key rtinfo) ∧
      (rtFindBest rt addr mask = none ↔
        ∀ key rtinfo, LongestKey rt addr key → ¬ Candidate rt addr mask key rtinfo) :=
  ⟨fun infos _ => infos.nonempty, fun _ => rtFindBest_best built.masked, rtFindBest_eq_none_iff built.masked⟩

end Tables

/-! ## A shorter prefix -/

/-- A static route towards 10.0.0.0/9. -/
def staticHalf : RtInfo where
  pfx := ⟨0x0a000000, 9, by decide⟩
  metric := 0
  type := .static
  entries := [⟨some 0x01000002, 0⟩]

/-- An IGP route towards 10.0.0.0/8. -/
def igpWhole : RtInfo where
  pfx := slash8 10
  metric := 1
  type := .igp
  entries := [⟨some 0x01000002, 0⟩]

/-- The table with the two routes. -/
def mixedTable : NetRt := (rtAddRoute (rtAddRoute ∅ staticHalf.pfx staticHalf).2 igpWhole.pfx igpWhole).2

theorem mixedTable_built : BuiltTable mixedTable :=
  .next (i := .add igpWhole.pfx igpWhole) (.next (i := .add staticHalf.pfx staticHalf) .start trivial rfl) trivial rfl

theorem best_route_mixed :
    (∀ infos, trieFindBest mixedTable 0x0a000001 = some infos → infos.list ≠ []) ∧
      (∀ rtinfo, rtFindBest mixedTable 0x0a000001 RouteType.igp.bit = some rtinfo →
        ∃ key, BestCandidate mixedTable 0x0a000001 RouteType.igp.bit key rtinfo) ∧
      (rtFindBest mixedTable 0x0a000001 RouteType.igp.bit = none ↔
        ∀ key rtinfo, LongestKey mixedTable 0x0a000001 key →
          ¬ Candidate mixedTable 0x0a000001 RouteType.igp.bit key rtinfo) :=
  best_route mixedTable_built _ _

/-- The IGP route towards 10.0.0.0/8 contains 10.0.0.1 and is not found. -/
theorem igp_route_hidden :
    BuiltTable mixedTable ∧ rtFindBest mixedTable 0x0a000001 RouteType.igp.bit = none ∧
      Candidate mixedTable 0x0a000001 RouteType.igp.bit (slash8 10) igpWhole := by
  refine ⟨mixedTable_built, by decide, ?_, by decide, by decide⟩
  exact inTable_of_mem_routesTo (show igpWhole ∈ routesTo mixedTable (slash8 10) by decide)

end Cbgp.Verified
