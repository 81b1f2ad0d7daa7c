import Cbgp.Net.Prefix

/-! # The node's routing table

`net/routing.c` and the part of `net/rt_filter.c` it uses.  A routing table maps a prefix to a
non-empty list of routes, sorted by protocol and metric and without duplicates; both facts are
fields of `RtInfos`, so that the assertions of `rt_find_best` and `rt_find_exact` hold of every
value of the type.
-/

namespace Cbgp.Net

open Cbgp.Lib

/-! ## Routes -/

/-- `net_route_type_t`: the protocol a route comes from. -/
inductive RouteType where
  | direct
  | static
  | igp
  | bgp
  deriving DecidableEq, Repr

/-- The bit that stands for a protocol in a type mask. -/
def RouteType.bit : RouteType → UInt8
  | .direct => 0x01
  | .static => 0x02
  | .igp => 0x04
  | .bgp => 0x08

/-- `NET_ROUTE_ANY`. -/
def netRouteAny : UInt8 := 0xff

/-- `rt_entry_t`: outgoing interface, named by its address, and gateway. -/
structure RtEntry where
  oif : Option NetAddr
  gateway : NetAddr
  deriving DecidableEq

/-- `rt_entry_compare`: by gateway, then by the address of the interface.  An entry without interface
comes after those that have one, and differs from every entry, itself included. -/
def rtEntryCompare (entry1 entry2 : RtEntry) : Ordering :=
  if entry2.gateway < entry1.gateway then .gt
  else if entry1.gateway < entry2.gateway then .lt
  else
    match entry1.oif, entry2.oif with
    | none, _ => .gt
    | some _, none => .lt
    | some addr1, some addr2 =>
      if addr2 < addr1 then .gt
      else if addr1 < addr2 then .lt
      else .eq

/-- `rt_entries_add`, in an array that is sorted and without duplicates; `none` is
`ENET_RT_DUPLICATE`. -/
def rtEntriesAdd (entry : RtEntry) : List RtEntry → Option (List RtEntry)
  | [] => some [entry]
  | other :: entries =>
    match rtEntryCompare entry other with
    | .lt => some (entry :: other :: entries)
    | .eq => none
    | .gt => (rtEntriesAdd entry entries).map (other :: ·)

/-- `rt_info_t`. -/
structure RtInfo where
  pfx : Pfx
  metric : UInt32
  type : RouteType
  entries : List RtEntry
  deriving DecidableEq

/-- `_rt_info_list_cmp`: lowest protocol first, then lowest metric. -/
def rtInfoListCmp (rtinfo1 rtinfo2 : RtInfo) : Ordering :=
  if rtinfo2.type.bit < rtinfo1.type.bit then .gt
  else if rtinfo1.type.bit < rtinfo2.type.bit then .lt
  else if rtinfo2.metric < rtinfo1.metric then .gt
  else if rtinfo1.metric < rtinfo2.metric then .lt
  else .eq

/-- Insertion in a sorted array without duplicates, as `ptr_array_add` does it there. -/
def sortedAdd (rtinfo : RtInfo) : List RtInfo → Option (List RtInfo)
  | [] => some [rtinfo]
  | other :: list =>
    match rtInfoListCmp rtinfo other with
    | .lt => some (rtinfo :: other :: list)
    | .eq => none
    | .gt => (sortedAdd rtinfo list).map (other :: ·)

/-- `rt_infos_t`: the routes towards one prefix. -/
structure RtInfos where
  list : List RtInfo
  nonempty : list ≠ []
  sorted : list.Pairwise fun a b => rtInfoListCmp a b = .lt

/-! ## Sortedness of the route lists -/

theorem rtInfoListCmp_eq_lt {a b : RtInfo} :
    rtInfoListCmp a b = .lt ↔
      a.type.bit < b.type.bit ∨ (a.type.bit = b.type.bit ∧ a.metric < b.metric) := by
  unfold rtInfoListCmp
  grind

theorem rtInfoListCmp_eq_gt {a b : RtInfo} : rtInfoListCmp a b = .gt ↔ rtInfoListCmp b a = .lt := by
  unfold rtInfoListCmp
  grind

theorem rtInfoListCmp_trans {a b c : RtInfo} (first : rtInfoListCmp a b = .lt)
    (second : rtInfoListCmp b c = .lt) : rtInfoListCmp a c = .lt := by
  rw [rtInfoListCmp_eq_lt] at *
  grind

/-- What insertion returns holds the new route and the old ones. -/
theorem sortedAdd_perm {rtinfo : RtInfo} {list added : List RtInfo}
    (h : sortedAdd rtinfo list = some added) : added.Perm (rtinfo :: list) := by
  induction list generalizing added with
  | nil =>
    simp only [sortedAdd, Option.some.injEq] at h
    rw [← h]
  | cons other list inductionHypothesis =>
    simp only [sortedAdd] at h
    split at h
    · cases h
      exact List.Perm.refl _
    · cases h
    · obtain ⟨rest, inserted, rfl⟩ := Option.map_eq_some_iff.mp h
      exact ((inductionHypothesis inserted).cons other).trans (List.Perm.swap _ _ _)

theorem sortedAdd_sorted {rtinfo : RtInfo} {list added : List RtInfo}
    (sorted : list.Pairwise fun a b => rtInfoListCmp a b = .lt)
    (h : sortedAdd rtinfo list = some added) :
    added.Pairwise fun a b => rtInfoListCmp a b = .lt := by
  induction list generalizing added with
  | nil =>
    simp only [sortedAdd, Option.some.injEq] at h
    simp [← h]
  | cons other list inductionHypothesis =>
    obtain ⟨above, sortedRest⟩ := List.pairwise_cons.mp sorted
    simp only [sortedAdd] at h
    split at h
    next below =>
      cases h
      refine List.pairwise_cons.mpr ⟨fun b member => ?_, sorted⟩
      rcases List.mem_cons.mp member with rfl | member
      · exact below
      · exact rtInfoListCmp_trans below (above b member)
    next => cases h
    next beyond =>
      obtain ⟨rest, inserted, rfl⟩ := Option.map_eq_some_iff.mp h
      refine List.pairwise_cons.mpr ⟨fun b member => ?_, inductionHypothesis sortedRest inserted⟩
      rcases List.mem_cons.mp ((sortedAdd_perm inserted).mem_iff.mp member) with rfl | member
      · exact rtInfoListCmp_eq_gt.mp beyond
      · exact above b member

/-- Insertion fails only on a route of the same protocol and metric. -/
theorem sortedAdd_isSome {rtinfo : RtInfo} {list : List RtInfo}
    (fresh : ∀ other ∈ list, other.type ≠ rtinfo.type) : ∃ added, sortedAdd rtinfo list = some added := by
  induction list with
  | nil => exact ⟨_, rfl⟩
  | cons other list inductionHypothesis =>
    obtain ⟨added, inserted⟩ := inductionHypothesis fun o member => fresh o (List.mem_cons_of_mem _ member)
    have differ := fresh other List.mem_cons_self
    simp only [sortedAdd]
    split
    · exact ⟨_, rfl⟩
    next same =>
      have : rtinfo.type = other.type := by
        have bits : rtinfo.type.bit = other.type.bit := by
          unfold rtInfoListCmp at same
          grind
        revert bits
        cases rtinfo.type <;> cases other.type <;> decide
      exact absurd this.symm differ
    · exact ⟨_, by rw [inserted]; rfl⟩

/-! ## The table -/

/-- `net_rt_t`. -/
abbrev NetRt := Trie RtInfos

/-- The route-list a new destination starts with. -/
def RtInfos.single (rtinfo : RtInfo) : RtInfos where
  list := [rtinfo]
  nonempty := List.cons_ne_nil _ _
  sorted := List.pairwise_singleton _ _

/-- `_rt_info_list_add`; `none` is `ENET_RT_DUPLICATE`. -/
def RtInfos.add (infos : RtInfos) (rtinfo : RtInfo) : Option RtInfos :=
  match h : sortedAdd rtinfo infos.list with
  | none => none
  | some added =>
    some {
      list := added
      nonempty := fun empty => by
        have := (sortedAdd_perm h).length_eq
        simp [empty] at this
      sorted := sortedAdd_sorted infos.sorted h }

/-- Keep the routes that pass a test; `none` when the list was emptied. -/
def RtInfos.filter (infos : RtInfos) (keep : RtInfo → Bool) : Option RtInfos :=
  if h : infos.list.filter keep = [] then none
  else some { list := infos.list.filter keep, nonempty := h, sorted := infos.sorted.filter _ }

/-- First route of a list whose protocol is in the type mask. -/
def RtInfos.first (infos : RtInfos) (type : UInt8) : Option RtInfo :=
  infos.list.find? fun rtinfo => rtinfo.type.bit &&& type != 0

/-- `rt_find_best`. -/
def rtFindBest (rt : NetRt) (addr : NetAddr) (type : UInt8) : Option RtInfo :=
  (trieFindBest rt addr).bind fun infos => infos.first type

/-- `rt_find_exact`. -/
def rtFindExact (rt : NetRt) (pfx : Pfx) (type : UInt8) : Option RtInfo :=
  (rt.lookup (ipPrefixMask pfx)).bind fun infos => infos.first type

/-- `rt_add_route`. -/
def rtAddRoute (rt : NetRt) (pfx : Pfx) (rtinfo : RtInfo) : NetError × NetRt :=
  match rt.lookup (ipPrefixMask pfx) with
  | none => (.success, rt.insert (ipPrefixMask pfx) (RtInfos.single rtinfo))
  | some infos =>
    match infos.add rtinfo with
    | none => (.rtDuplicate, rt)
    | some added => (.success, rt.insert (ipPrefixMask pfx) added)

/-- `rt_filter_t`; `none` is the wildcard. -/
structure RtFilter where
  pfx : Option Pfx
  oif : Option NetAddr
  gateway : Option NetAddr
  type : UInt8

/-- `rt_filter_matches`: interface and gateway are those of the first entry only. -/
def rtFilterMatches (rtinfo : RtInfo) (filter : RtFilter) : Bool :=
  let first := rtinfo.entries.head?
  if filter.oif.isSome && first.bind (·.oif) != filter.oif then false
  else if filter.gateway.isSome && first.map (·.gateway) != filter.gateway then false
  else if filter.type != netRouteAny && filter.type != rtinfo.type.bit then false
  else true

/-- `_rt_del_for_each`, with the removal of the emptied list that `rt_del_routes` does after it. -/
def rtDelForEach (filter : RtFilter) (rt : NetRt) (key : Pfx) : NetError × NetRt :=
  match rt.lookup (ipPrefixMask key) with
  | none => (.failure, rt)
  | some infos =>
    let rt' :=
      match infos.filter fun rtinfo => !rtFilterMatches rtinfo filter with
      | none => rt.erase (ipPrefixMask key)
      | some kept => rt.insert (ipPrefixMask key) kept
    if filter.pfx.isSome && filter.oif.isSome && filter.gateway.isSome
        && !infos.list.any fun rtinfo => rtFilterMatches rtinfo filter then
      (.rtUnknown, rt')
    else (.success, rt')

/-- The table after `_rt_del_for_each`: the routes that do not match stay, and the prefix goes with its last route. -/
theorem rtDelForEach_snd {filter : RtFilter} {rt : NetRt} {key : Pfx} {infos : RtInfos}
    (stored : rt.lookup (ipPrefixMask key) = some infos) :
    ((infos.filter fun rtinfo => !rtFilterMatches rtinfo filter) = none ∧
        (rtDelForEach filter rt key).2 = rt.erase (ipPrefixMask key)) ∨
      ∃ kept, (infos.filter fun rtinfo => !rtFilterMatches rtinfo filter) = some kept ∧
        (rtDelForEach filter rt key).2 = rt.insert (ipPrefixMask key) kept := by
  unfold rtDelForEach
  rw [stored]
  dsimp only
  cases infos.filter fun rtinfo => !rtFilterMatches rtinfo filter with
  | none =>
    refine .inl ⟨rfl, ?_⟩
    split <;> rfl
  | some kept =>
    refine .inr ⟨kept, rfl, ?_⟩
    split <;> rfl

/-- `rt_del_routes`. -/
def rtDelRoutes (rt : NetRt) (filter : RtFilter) : NetError × NetRt :=
  match filter.pfx with
  | some pfx => rtDelForEach filter rt pfx
  | none => (.success, rt.keys.foldl (fun rt key => (rtDelForEach filter rt key).2) rt)

/-- `rt_del_route`, and `node_rt_del_route` once its interface has been looked up. -/
def rtDelRoute (rt : NetRt) (pfx : Option Pfx) (oif gateway : Option NetAddr) (type : UInt8) :
    NetError × NetRt :=
  rtDelRoutes rt { pfx, oif, gateway, type }

/-- The routes of a table towards a prefix. -/
def routesTo (rt : NetRt) (pfx : Pfx) : List RtInfo :=
  match rt.lookup (ipPrefixMask pfx) with
  | none => []
  | some infos => infos.list

end Cbgp.Net
