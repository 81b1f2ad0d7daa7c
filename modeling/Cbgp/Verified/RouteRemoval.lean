import Cbgp.Lib.SortedArray
import Cbgp.Verified.Lookups

/-! # Removing routes

`node_rt_del_route` removes whole routes, and looks at their first entry only.  What it removes is said by
the routes left in the table (`inTable_rtDelRoutes`).  It removes the entries that are asked for, and no
others, exactly when it does so in each route it looks at.
-/

namespace Cbgp.Verified

open Cbgp.Lib Cbgp.Net Cbgp.Bgp

/-! ## The routes that stay -/

theorem inTable_insert {rt : NetRt} {key key' : Pfx} {infos : RtInfos} {rtinfo : RtInfo} :
    InTable (rt.insert key' infos) key rtinfo ↔
      if key = key' then rtinfo ∈ infos.list else InTable rt key rtinfo := by
  rw [InTable]
  split
  next same =>
    subst same
    simp [AList.lookup_insert]
  next differ => rw [AList.lookup_insert_ne differ, InTable]

theorem inTable_erase {rt : NetRt} {key key' : Pfx} {rtinfo : RtInfo} :
    InTable (rt.erase key') key rtinfo ↔ key ≠ key' ∧ InTable rt key rtinfo := by
  rw [InTable]
  by_cases same : key = key'
  · subst same
    simp [AList.lookup_erase]
  · rw [AList.lookup_erase_ne same, InTable]
    simp [same]

/-- One prefix: the routes under it that match are removed. -/
theorem inTable_rtDelForEach {filter : RtFilter} {rt : NetRt} {pfx key : Pfx} {rtinfo : RtInfo} :
    InTable (rtDelForEach filter rt pfx).2 key rtinfo ↔
      InTable rt key rtinfo ∧ ¬ (key = ipPrefixMask pfx ∧ rtFilterMatches rtinfo filter = true) := by
  have unchanged : ∀ infos, rt.lookup (ipPrefixMask pfx) = some infos →
      (InTable rt (ipPrefixMask pfx) rtinfo ↔ rtinfo ∈ infos.list) := by
    intro infos stored
    simp [InTable, stored]
  cases stored : rt.lookup (ipPrefixMask pfx) with
  | none =>
    rw [rtDelForEach, stored]
    refine ⟨fun held => ⟨held, fun selected => ?_⟩, And.left⟩
    obtain ⟨infos, found, -⟩ := held
    rw [selected.1, stored] at found
    cases found
  | some infos =>
    have after := @rtDelForEach_snd filter rt pfx infos stored
    have listed : ∀ list, list = infos.list.filter (fun rtinfo => !rtFilterMatches rtinfo filter) →
        (rtinfo ∈ list ↔ rtinfo ∈ infos.list ∧ ¬ rtFilterMatches rtinfo filter = true) := by
      rintro list rfl
      simp [List.mem_filter]
    by_cases same : key = ipPrefixMask pfx
    · subst same
      rw [unchanged infos stored]
      simp only [true_and]
      -- A prefix whose last route goes is erased; otherwise what is left of its list is stored.
      obtain ⟨filtered, erased⟩ | ⟨kept, filtered, inserted⟩ := after
      · rw [erased]
        rw [RtInfos.filter] at filtered
        split at filtered
        next empty =>
          have none := listed [] empty.symm
          rw [← none]
          simp [inTable_erase]
        next => cases filtered
      · rw [inserted, inTable_insert, if_pos rfl]
        rw [RtInfos.filter] at filtered
        split at filtered
        next => cases filtered
        next =>
          cases filtered
          exact listed _ rfl
    · simp only [same, false_and, not_false_eq_true, and_true]
      obtain ⟨-, erased⟩ | ⟨kept, -, inserted⟩ := after
      · rw [erased]
        simp [inTable_erase, same]
      · rw [inserted, inTable_insert, if_neg same]

theorem inTable_rtDelForEach_foldl {filter : RtFilter} {rt : NetRt} {keys : List Pfx} {key : Pfx} {rtinfo : RtInfo} :
    InTable (keys.foldl (fun rt key => (rtDelForEach filter rt key).2) rt) key rtinfo ↔
      InTable rt key rtinfo ∧
        ¬ ((∃ pfx ∈ keys, key = ipPrefixMask pfx) ∧ rtFilterMatches rtinfo filter = true) := by
  induction keys generalizing rt with
  | nil => simp
  | cons pfx keys inductionHypothesis =>
    rw [List.foldl_cons, inductionHypothesis, inTable_rtDelForEach]
    simp only [List.mem_cons, exists_eq_or_imp]
    rw [and_assoc, ← not_or, ← or_and_right]

/-- A key that the prefix selector reaches. -/
def InScope (pfx : Option Pfx) (key : Pfx) : Prop := ∀ p, pfx = some p → key = ipPrefixMask p

theorem mem_keys_of_inTable {rt : NetRt} {key : Pfx} {rtinfo : RtInfo} (stored : InTable rt key rtinfo) :
    key ∈ rt.keys := by
  obtain ⟨infos, found, -⟩ := stored
  exact AList.lookup_isSome.mp (by simp [found])

/-- The routes that are left are those that do not match. -/
theorem inTable_rtDelRoutes {filter : RtFilter} {rt : NetRt} (masked : MaskedKeys rt) {key : Pfx} {rtinfo : RtInfo} :
    InTable (rtDelRoutes rt filter).2 key rtinfo ↔
      InTable rt key rtinfo ∧ ¬ (InScope filter.pfx key ∧ rtFilterMatches rtinfo filter = true) := by
  rw [rtDelRoutes, InScope]
  cases filter.pfx with
  | some pfx =>
    rw [inTable_rtDelForEach]
    simp
  | none =>
    rw [inTable_rtDelForEach_foldl]
    constructor
    · intro both
      obtain ⟨stored, kept⟩ := both
      have known := mem_keys_of_inTable stored
      exact ⟨stored, fun selected => kept ⟨⟨key, known, (masked key known).symm⟩, selected.2⟩⟩
    · intro both
      obtain ⟨stored, kept⟩ := both
      refine ⟨stored, fun selected => kept ⟨fun p given => ?_, selected.2⟩⟩
      cases given

/-- An error is reported for a prefix without routes, and where nothing matches three selectors. -/
theorem rtDelRoutes_error {filter : RtFilter} {rt : NetRt} :
    (rtDelRoutes rt filter).1 ≠ .success ↔
      ∃ p, filter.pfx = some p ∧
        ((∀ rtinfo, ¬ InTable rt (ipPrefixMask p) rtinfo) ∨
          filter.oif.isSome = true ∧ filter.gateway.isSome = true ∧
            ∀ rtinfo, InTable rt (ipPrefixMask p) rtinfo → rtFilterMatches rtinfo filter = false) := by
  rw [rtDelRoutes]
  cases given : filter.pfx with
  | none => simp
  | some p =>
    simp only [Option.some.injEq, exists_eq_left', rtDelForEach]
    split
    next none => simp [InTable, none]
    next infos stored =>
      have some : ∃ rtinfo, InTable rt (ipPrefixMask p) rtinfo := by
        obtain ⟨rtinfo, member⟩ := List.exists_mem_of_ne_nil _ infos.nonempty
        exact ⟨rtinfo, infos, stored, member⟩
      have listed : ∀ rtinfo, InTable rt (ipPrefixMask p) rtinfo ↔ rtinfo ∈ infos.list := by
        intro rtinfo
        simp [InTable, stored]
      have someRoute : ¬ ∀ rtinfo, rtinfo ∉ infos.list := by
        simpa [listed] using some
      simp only [given, Option.isSome_some, Bool.true_and, listed, someRoute, false_or]
      split
      next unmatched => simpa [and_assoc] using unmatched
      next matched =>
        simp only [ne_eq, not_true_eq_false, false_iff]
        rintro ⟨oif, gateway, unmatched⟩
        refine matched ?_
        simp [oif, gateway]
        exact unmatched

/-! ## What is found -/

/-- The lookup in a list finds the route of a requested type that is least by type and metric. -/
theorem first_eq_some_iff {infos : RtInfos} {mask : UInt8} {rtinfo : RtInfo} :
    infos.first mask = some rtinfo ↔
      rtinfo ∈ infos.list ∧ (rtinfo.type.bit &&& mask != 0) = true ∧
        ∀ other ∈ infos.list, (other.type.bit &&& mask != 0) = true →
          other = rtinfo ∨ rtInfoListCmp rtinfo other = .lt := by
  refine find?_eq_some_iff_least (fun a b less greater => ?_) infos.sorted
  rw [← rtInfoListCmp_eq_gt, less] at greater
  cases greater

theorem rtFindExact_eq_some_iff {rt : NetRt} {p : Pfx} {mask : UInt8} {rtinfo : RtInfo} :
    rtFindExact rt p mask = some rtinfo ↔
      InTable rt (ipPrefixMask p) rtinfo ∧ (rtinfo.type.bit &&& mask != 0) = true ∧
        ∀ other, InTable rt (ipPrefixMask p) other → (other.type.bit &&& mask != 0) = true →
          other = rtinfo ∨ rtInfoListCmp rtinfo other = .lt := by
  cases stored : rt.lookup (ipPrefixMask p) with
  | none => simp [rtFindExact, InTable, stored]
  | some infos => simp [rtFindExact, InTable, stored, first_eq_some_iff]

/-- A route is determined by its prefix, its type and its metric. -/
theorem inTable_unique {rt : NetRt} {key : Pfx} {rtinfo rtinfo' : RtInfo} (stored : InTable rt key rtinfo)
    (stored' : InTable rt key rtinfo') (type : rtinfo.type = rtinfo'.type) (metric : rtinfo.metric = rtinfo'.metric) :
    rtinfo = rtinfo' := by
  obtain ⟨infos, found, member⟩ := stored
  obtain ⟨infos', found', member'⟩ := stored'
  cases found.symm.trans found'
  have distinct : (infos.list.map fun rtinfo => (rtinfo.type, rtinfo.metric)).Nodup := by
    rw [List.Nodup, List.pairwise_map]
    refine infos.sorted.imp fun {a b} less same => ?_
    rw [Prod.mk.injEq] at same
    simp [rtInfoListCmp, same.1, same.2] at less
  exact List.inj_on_of_nodup_map distinct member member' (Prod.ext type metric)

/-! ## The entries that a call asks for -/

/-- The selectors of `node_rt_del_route`; `none` is `NULL`. -/
structure RouteSelectors where
  pfx : Option Pfx
  oifId : Option Pfx
  gateway : Option NetAddr
  type : UInt8

/-- An entry of a route is asked for. -/
structure RouteSelectors.Selects (sel : RouteSelectors) (key : Pfx) (type : RouteType) (entry : RtEntry) : Prop where
  scope : InScope sel.pfx key
  oif : ∀ id, sel.oifId = some id → entry.oif = some id.network
  gateway : ∀ g, sel.gateway = some g → entry.gateway = g
  type : sel.type = netRouteAny ∨ sel.type = type.bit

/-- A table has an entry in the route of a prefix, a type and a metric. -/
def HasEntry (rt : NetRt) (key : Pfx) (type : RouteType) (metric : UInt32) (entry : RtEntry) : Prop :=
  ∃ rtinfo, InTable rt key rtinfo ∧ rtinfo.type = type ∧ rtinfo.metric = metric ∧ entry ∈ rtinfo.entries

section Removal

variable {N I S : Type} (net : Topology N I S) (node : N) (rt : NetRt) (sel : RouteSelectors)

/-- The call. -/
def removeRoutes : NetError × NetRt := nodeRtDelRoute net node rt sel.pfx sel.oifId sel.gateway sel.type

/-- The interface selector names no interface of the node. -/
def UnknownOif : Prop := ∃ id, sel.oifId = some id ∧ net.nodeFindIface node id.network = none

/-- A call removes the entries that it asks for and no others, what else could be found is still found, and an
error is reported where prefix, interface and gateway are given and no entry is asked for. -/
structure RemovesExactly : Prop where
  entries : ∀ key type metric entry, HasEntry (removeRoutes net node rt sel).2 key type metric entry ↔
    HasEntry rt key type metric entry ∧ ¬ sel.Selects key type entry
  findable : ∀ p mask rtinfo, rtFindExact rt p mask = some rtinfo → ∀ entry ∈ rtinfo.entries,
    ¬ sel.Selects (ipPrefixMask p) rtinfo.type entry →
      ∃ rtinfo', rtFindExact (removeRoutes net node rt sel).2 p mask = some rtinfo' ∧ entry ∈ rtinfo'.entries
  error : (removeRoutes net node rt sel).1 ≠ .success ↔
    sel.pfx.isSome = true ∧ sel.oifId.isSome = true ∧ sel.gateway.isSome = true ∧
      ∀ key type metric entry, HasEntry rt key type metric entry → ¬ sel.Selects key type entry

/-- Of each route all entries are asked for or none is; where the interface is unknown, the other selectors ask
for the first entry of no route; and nothing makes the call report a wrong error. -/
structure RemovesWhole : Prop where
  whole : ∀ key rtinfo, InTable rt key rtinfo →
    (∀ entry ∈ rtinfo.entries, sel.Selects key rtinfo.type entry) ∨
      ∀ entry ∈ rtinfo.entries, ¬ sel.Selects key rtinfo.type entry
  known : UnknownOif net node sel → ∀ key rtinfo, InTable rt key rtinfo → ∀ entry ∈ rtinfo.entries.head?,
    ¬ { sel with oifId := none }.Selects key rtinfo.type entry
  routes : ∀ p, sel.pfx = some p → (∀ rtinfo, ¬ InTable rt (ipPrefixMask p) rtinfo) →
    sel.oifId.isSome = true ∧ sel.gateway.isSome = true
  reported : ∀ p, sel.pfx = some p → (∃ rtinfo, InTable rt (ipPrefixMask p) rtinfo) → UnknownOif net node sel →
    sel.gateway = none

variable {net node rt sel}

/-- What the code looks at is the first entry. -/
theorem rtFilterMatches_iff {rtinfo : RtInfo} {filter : RtFilter} {entry : RtEntry}
    (first : rtinfo.entries.head? = some entry) :
    rtFilterMatches rtinfo filter = true ↔
      (∀ a, filter.oif = some a → entry.oif = some a) ∧ (∀ g, filter.gateway = some g → entry.gateway = g) ∧
        (filter.type = netRouteAny ∨ filter.type = rtinfo.type.bit) := by
  obtain ⟨pfx, oif, gateway, type⟩ := filter
  simp only [rtFilterMatches, first, Option.bind_some, Option.map_some]
  cases oif <;> cases gateway <;> grind

/-- The filter that the call makes. -/
def routeFilter (net : Topology N I S) (node : N) (sel : RouteSelectors) : RtFilter where
  pfx := sel.pfx
  oif := (sel.oifId.bind fun id => net.nodeFindIface node id.network).map fun i => (net.iface i).addr
  gateway := sel.gateway
  type := sel.type

theorem removeRoutes_eq : removeRoutes net node rt sel = rtDelRoutes rt (routeFilter net node sel) := rfl

/-- Where the interface is known, or not given, the filter asks for what the selectors ask for. -/
theorem routeFilter_oif (known : ¬ UnknownOif net node sel) :
    (routeFilter net node sel).oif = sel.oifId.map fun id => id.network := by
  rw [routeFilter]
  cases given : sel.oifId with
  | none => rfl
  | some id =>
    cases found : net.nodeFindIface node id.network with
    | none => exact absurd ⟨id, given, found⟩ known
    | some i => simp [found, (net.nodeFindIface_addr found).2]

theorem routeFilter_unknown (unknown : UnknownOif net node sel) : (routeFilter net node sel).oif = none := by
  obtain ⟨id, given, missing⟩ := unknown
  simp [routeFilter, given, missing]

theorem matches_iff_selects (known : ¬ UnknownOif net node sel) {rtinfo : RtInfo} {entry : RtEntry} {key : Pfx}
    (first : rtinfo.entries.head? = some entry) :
    InScope sel.pfx key ∧ rtFilterMatches rtinfo (routeFilter net node sel) = true ↔
      sel.Selects key rtinfo.type entry := by
  rw [rtFilterMatches_iff first, routeFilter_oif known]
  constructor
  · intro ⟨scope, oif, gateway, type⟩
    exact ⟨scope, fun id given => oif _ (by rw [given]; rfl), gateway, type⟩
  · intro selects
    refine ⟨selects.scope, fun a given => ?_, selects.gateway, selects.type⟩
    obtain ⟨id, chosen, rfl⟩ := Option.map_eq_some_iff.mp given
    exact selects.oif id chosen

theorem matches_iff_unknown (unknown : UnknownOif net node sel) {rtinfo : RtInfo} {entry : RtEntry} {key : Pfx}
    (first : rtinfo.entries.head? = some entry) :
    InScope sel.pfx key ∧ rtFilterMatches rtinfo (routeFilter net node sel) = true ↔
      { sel with oifId := none }.Selects key rtinfo.type entry := by
  rw [rtFilterMatches_iff first, routeFilter_unknown unknown]
  constructor
  · intro ⟨scope, _, gateway, type⟩
    exact ⟨scope, nofun, gateway, type⟩
  · intro selects
    exact ⟨selects.scope, nofun, selects.gateway, selects.type⟩

/-! ## Exact removal -/

/-- The route with its first entry, in a table of a node. -/
theorem SoundTable.first (sound : SoundTable net node rt) {key : Pfx} {rtinfo : RtInfo}
    (stored : InTable rt key rtinfo) : ∃ entry, rtinfo.entries.head? = some entry ∧ entry ∈ rtinfo.entries := by
  obtain ⟨entry, rest, entries⟩ := List.exists_cons_of_ne_nil (sound key rtinfo stored).nonempty
  exact ⟨entry, by rw [entries]; rfl, by rw [entries]; exact List.mem_cons_self⟩

theorem SoundTable.maskedKeys (sound : SoundTable net node rt) : MaskedKeys rt := by
  intro key known
  obtain ⟨infos, stored⟩ := Option.isSome_iff_exists.mp (AList.lookup_isSome.mpr known)
  obtain ⟨rtinfo, member⟩ := List.exists_mem_of_ne_nil _ infos.nonempty
  rw [← (sound key rtinfo ⟨infos, stored, member⟩).key_eq, ipPrefixMask_idem]

/-- No entry of the table goes through an interface that the node does not have. -/
theorem SoundTable.not_selects (sound : SoundTable net node rt) (unknown : UnknownOif net node sel) {key : Pfx}
    {rtinfo : RtInfo} (stored : InTable rt key rtinfo) {entry : RtEntry} (member : entry ∈ rtinfo.entries) :
    ¬ sel.Selects key rtinfo.type entry := by
  intro selects
  obtain ⟨id, given, missing⟩ := unknown
  obtain ⟨i, found⟩ := (sound key rtinfo stored).known entry member _ (selects.oif id given)
  rw [missing] at found
  cases found

/-- The routes that are left, where the call removes whole routes as it should. -/
theorem inTable_removeRoutes (sound : SoundTable net node rt) (whole : RemovesWhole net node rt sel) {key : Pfx}
    {rtinfo : RtInfo} :
    InTable (removeRoutes net node rt sel).2 key rtinfo ↔
      InTable rt key rtinfo ∧ ∀ entry ∈ rtinfo.entries, ¬ sel.Selects key rtinfo.type entry := by
  rw [removeRoutes_eq, inTable_rtDelRoutes sound.maskedKeys]
  refine and_congr_right fun stored => ?_
  obtain ⟨first, head, member⟩ := sound.first stored
  by_cases unknown : UnknownOif net node sel
  · have none := whole.known unknown key rtinfo stored first head
    rw [← matches_iff_unknown unknown head] at none
    exact iff_of_true none fun entry inside => sound.not_selects unknown stored inside
  · have selected : InScope (routeFilter net node sel).pfx key ∧
        rtFilterMatches rtinfo (routeFilter net node sel) = true ↔ sel.Selects key rtinfo.type first :=
      matches_iff_selects unknown head
    rw [selected]
    constructor
    · intro unselected
      exact (whole.whole key rtinfo stored).resolve_left fun all => unselected (all first member)
    · intro none
      exact none first member

theorem hasEntry_removeRoutes (sound : SoundTable net node rt) (whole : RemovesWhole net node rt sel) (key : Pfx)
    (type : RouteType) (metric : UInt32) (entry : RtEntry) :
    HasEntry (removeRoutes net node rt sel).2 key type metric entry ↔
      HasEntry rt key type metric entry ∧ ¬ sel.Selects key type entry := by
  simp only [HasEntry, inTable_removeRoutes sound whole]
  constructor
  · rintro ⟨rtinfo, ⟨stored, none⟩, rfl, rfl, member⟩
    exact ⟨⟨rtinfo, stored, rfl, rfl, member⟩, none entry member⟩
  · rintro ⟨⟨rtinfo, stored, rfl, rfl, member⟩, unselected⟩
    have none := (whole.whole key rtinfo stored).resolve_left fun all => unselected (all entry member)
    exact ⟨rtinfo, ⟨stored, none⟩, rfl, rfl, member⟩

theorem findable_removeRoutes (sound : SoundTable net node rt) (whole : RemovesWhole net node rt sel) {p : Pfx}
    {mask : UInt8} {rtinfo : RtInfo} (found : rtFindExact rt p mask = some rtinfo) {entry : RtEntry}
    (member : entry ∈ rtinfo.entries) (unselected : ¬ sel.Selects (ipPrefixMask p) rtinfo.type entry) :
    rtFindExact (removeRoutes net node rt sel).2 p mask = some rtinfo := by
  obtain ⟨stored, requested, least⟩ := rtFindExact_eq_some_iff.mp found
  have none := (whole.whole _ rtinfo stored).resolve_left fun all => unselected (all entry member)
  refine rtFindExact_eq_some_iff.mpr ⟨(inTable_removeRoutes sound whole).mpr ⟨stored, none⟩, requested, ?_⟩
  intro other left requested'
  exact least other ((inTable_removeRoutes sound whole).mp left).1 requested'

theorem error_removeRoutes (sound : SoundTable net node rt) (whole : RemovesWhole net node rt sel) :
    (removeRoutes net node rt sel).1 ≠ .success ↔
      sel.pfx.isSome = true ∧ sel.oifId.isSome = true ∧ sel.gateway.isSome = true ∧
        ∀ key type metric entry, HasEntry rt key type metric entry → ¬ sel.Selects key type entry := by
  rw [removeRoutes_eq, rtDelRoutes_error]
  constructor
  · rintro ⟨p, given, missing | ⟨oif, gateway, unmatched⟩⟩
    · -- a prefix without routes
      obtain ⟨oif, gateway⟩ := whole.routes p given missing
      refine ⟨Option.isSome_iff_exists.mpr ⟨p, given⟩, oif, gateway, ?_⟩
      rintro key type metric entry ⟨rtinfo, stored, -, -, -⟩ selects
      rw [selects.scope p given] at stored
      exact missing rtinfo stored
    · have known : ¬ UnknownOif net node sel := by
        intro unknown
        rw [routeFilter_unknown unknown] at oif
        cases oif
      have oifId : sel.oifId.isSome = true := by
        rw [routeFilter_oif known, Option.isSome_map] at oif
        exact oif
      refine ⟨Option.isSome_iff_exists.mpr ⟨p, given⟩, oifId, gateway, ?_⟩
      rintro key type metric entry ⟨rtinfo, stored, rfl, rfl, member⟩ selects
      obtain ⟨first, head, member'⟩ := sound.first stored
      have all := (whole.whole key rtinfo stored).resolve_right fun none => none entry member selects
      have matched := ((matches_iff_selects known head).mpr (all first member')).2
      rw [selects.scope p given] at stored
      rw [unmatched rtinfo stored] at matched
      cases matched
  · intro ⟨pfx, oifId, gateway, unselected⟩
    obtain ⟨p, given⟩ := Option.isSome_iff_exists.mp pfx
    refine ⟨p, given, ?_⟩
    by_cases routes : ∃ rtinfo, InTable rt (ipPrefixMask p) rtinfo
    · have known : ¬ UnknownOif net node sel := by
        intro unknown
        rw [whole.reported p given routes unknown] at gateway
        cases gateway
      refine .inr ⟨by rwa [routeFilter_oif known, Option.isSome_map], gateway, fun rtinfo stored => ?_⟩
      obtain ⟨first, head, member⟩ := sound.first stored
      have scope : InScope sel.pfx (ipPrefixMask p) := by
        intro q same
        rw [given, Option.some.injEq] at same
        rw [same]
      rw [Bool.eq_false_iff]
      intro matched
      exact unselected _ _ _ _ ⟨rtinfo, stored, rfl, rfl, member⟩ ((matches_iff_selects known head).mp ⟨scope, matched⟩)
    · exact .inl (not_exists.mp routes)

/-- A route with an entry that nobody asked for is still there. -/
theorem RemovesExactly.kept (removed : RemovesExactly net node rt sel) (sound : SoundTable net node rt) {key : Pfx}
    {rtinfo : RtInfo} (stored : InTable rt key rtinfo) {entry : RtEntry} (member : entry ∈ rtinfo.entries)
    (unselected : ¬ sel.Selects key rtinfo.type entry) : InTable (removeRoutes net node rt sel).2 key rtinfo := by
  obtain ⟨rtinfo', left, type, metric, -⟩ :=
    (removed.entries _ _ _ _).mpr ⟨⟨rtinfo, stored, rfl, rfl, member⟩, unselected⟩
  have stored' : InTable rt key rtinfo' := by
    rw [removeRoutes_eq, inTable_rtDelRoutes sound.maskedKeys] at left
    exact left.1
  exact inTable_unique stored' stored type metric ▸ left

theorem RemovesExactly.whole (removed : RemovesExactly net node rt sel) (sound : SoundTable net node rt) :
    RemovesWhole net node rt sel where
  whole key rtinfo stored := by
    by_cases left : InTable (removeRoutes net node rt sel).2 key rtinfo
    · refine .inr fun entry member => ?_
      exact ((removed.entries _ _ _ _).mp ⟨rtinfo, left, rfl, rfl, member⟩).2
    · refine .inl fun entry member => ?_
      by_contra unselected
      exact left (removed.kept sound stored member unselected)
  known unknown key rtinfo stored entry first selects := by
    have member := List.mem_of_mem_head? first
    have left := removed.kept sound stored member (sound.not_selects unknown stored member)
    rw [removeRoutes_eq, inTable_rtDelRoutes sound.maskedKeys] at left
    exact left.2 ((matches_iff_unknown unknown first).mpr selects)
  routes p given missing := by
    have failed : (removeRoutes net node rt sel).1 ≠ .success := rtDelRoutes_error.mpr ⟨p, given, .inl missing⟩
    obtain ⟨-, oifId, gateway, -⟩ := removed.error.mp failed
    exact ⟨oifId, gateway⟩
  -- An unknown interface selects no entry, which the code reports only for a missing prefix.
  reported p given routes unknown := by
    by_contra chosen
    have unselected : ∀ key type metric entry, HasEntry rt key type metric entry → ¬ sel.Selects key type entry := by
      rintro key type metric entry ⟨rtinfo, stored, rfl, rfl, member⟩
      exact sound.not_selects unknown stored member
    have oifId : sel.oifId.isSome = true := by
      obtain ⟨id, given', -⟩ := unknown
      exact Option.isSome_iff_exists.mpr ⟨id, given'⟩
    have failed : (rtDelRoutes rt (routeFilter net node sel)).1 ≠ .success :=
      removed.error.mpr
        ⟨Option.isSome_iff_exists.mpr ⟨p, given⟩, oifId, Option.isSome_iff_ne_none.mpr chosen, unselected⟩
    obtain ⟨q, same, missing | ⟨oif, -, -⟩⟩ := rtDelRoutes_error.mp failed
    · have same : some p = some q := given.symm.trans same
      cases same
      obtain ⟨rtinfo, stored⟩ := routes
      exact missing rtinfo stored
    · rw [routeFilter_unknown unknown] at oif
      cases oif

theorem RemovesWhole.exact (whole : RemovesWhole net node rt sel) (sound : SoundTable net node rt) :
    RemovesExactly net node rt sel where
  entries := hasEntry_removeRoutes sound whole
  findable _ _ rtinfo found _ member unselected :=
    ⟨rtinfo, findable_removeRoutes sound whole found member unselected, member⟩
  error := error_removeRoutes sound whole

/-! ## Tables to which routes were added -/

/-- `node_rt_add_route` and `node_rt_add_route_link`. -/
inductive RouteAdd (I : Type) where
  | byId (pfx : Pfx) (oifId gateway : NetAddr) (weight : UInt32) (type : RouteType)
  | byIface (pfx : Pfx) (oif : Option I) (gateway : NetAddr) (weight : UInt32) (type : RouteType)

variable (net node) in
/-- A call that succeeds. -/
def addStep (rt : NetRt) (call : RouteAdd I) : Except Unit NetRt :=
  let result :=
    match call with
    | .byId pfx oifId gateway weight type => nodeRtAddRoute net node rt pfx oifId gateway weight type
    | .byIface pfx oif gateway weight type => nodeRtAddRouteLink net rt pfx oif gateway weight type
  match result with
  | .ok (.success, rt') => .ok rt'
  | _ => .error ()

variable (net node) in
/-- The interface must exist in the node. -/
def AddAllowed (_ : NetRt) : RouteAdd I → Prop
  | .byIface _ (some i) _ _ _ => i ∈ net.ifaces node
  | _ => True

theorem addStep_sound {call : RouteAdd I} {rt' : NetRt} (sound : SoundTable net node rt)
    (allowed : AddAllowed net node rt call) (stepped : addStep net node rt call = .ok rt') :
    SoundTable net node rt' := by
  simp only [addStep] at stepped
  split at stepped
  next rt'' succeeded =>
    cases stepped
    cases call with
    | byId pfx oifId gateway weight type =>
      have succeeded : nodeRtAddRoute net node rt pfx oifId gateway weight type = .ok (.success, rt') := succeeded
      have step : rtStep net node rt (.add pfx oifId gateway weight type) = .ok rt' := by
        rw [rtStep, succeeded]
        rfl
      have free : RtAllowed net node rt (.add pfx oifId gateway weight type) := trivial
      exact rtStep_sound sound free step
    | byIface pfx oif gateway weight type =>
      refine nodeRtAddRouteLink_sound sound (fun i given => ?_) succeeded
      subst given
      -- an interface of the node is found by its address
      have found : (net.nodeFindIface node (net.iface i).addr).isSome = true :=
        List.find?_isSome.mpr ⟨i, allowed, by simp⟩
      exact Option.isSome_iff_exists.mp found
  next => cases stepped

/-- In every table that a node can have, and after every sequence of successful additions, the call removes what
it is asked to exactly when whole routes are asked for. -/
theorem removal_exact_iff {rt₀ : NetRt} (reached : RtReach net node rt₀)
    (added : Reach (addStep net node) (AddAllowed net node) rt₀ rt) (sel : RouteSelectors) :
    RemovesExactly net node rt sel ↔ RemovesWhole net node rt sel := by
  have sound : SoundTable net node rt := Reach.invariant added reached.sound addStep_sound
  exact ⟨fun removed => removed.whole sound, fun whole => whole.exact sound⟩

/-! ## Unknown interfaces -/

/-- What the call leaves of a table, where the interface is unknown. -/
theorem inTable_unknown (masked : MaskedKeys rt) (unknown : UnknownOif net node sel) {key : Pfx} {rtinfo : RtInfo} :
    InTable (removeRoutes net node rt sel).2 key rtinfo ↔
      InTable rt key rtinfo ∧
        ¬ (InScope sel.pfx key ∧ rtFilterMatches rtinfo ⟨sel.pfx, none, sel.gateway, sel.type⟩ = true) := by
  have filter : routeFilter net node sel = ⟨sel.pfx, none, sel.gateway, sel.type⟩ := by
    have oif := routeFilter_unknown unknown
    simp only [routeFilter] at oif ⊢
    rw [oif]
  rw [removeRoutes_eq, inTable_rtDelRoutes masked, filter]

variable (net node rt sel) in
/-- The call leaves the table as it is. -/
def LeavesTable : Prop := ∀ key rtinfo, InTable (removeRoutes net node rt sel).2 key rtinfo ↔ InTable rt key rtinfo

variable (rt) in
/-- With an interface that the node does not have the call leaves the table as it is and reports an error exactly
when a prefix is given that has no route; it leaves the table as it is exactly when the other selectors match
nothing. -/
theorem unknown_interface_iff (unknown : UnknownOif net node sel) :
    (LeavesTable net node rt sel ∧ (removeRoutes net node rt sel).1 ≠ .success ↔
      ∃ p, sel.pfx = some p ∧ ∀ rtinfo, ¬ InTable rt (ipPrefixMask p) rtinfo) ∧
      (MaskedKeys rt →
        (LeavesTable net node rt sel ↔
          ∀ key rtinfo, InTable rt key rtinfo → InScope sel.pfx key →
            rtFilterMatches rtinfo ⟨sel.pfx, none, sel.gateway, sel.type⟩ = false)) := by
  constructor
  · constructor
    · intro ⟨_, failed⟩
      -- The unknown interface has become a wildcard, so the only error left is a missing prefix.
      have failed : (rtDelRoutes rt (routeFilter net node sel)).1 ≠ .success := failed
      obtain ⟨p, given, missing | ⟨oif, -, -⟩⟩ := rtDelRoutes_error.mp failed
      · exact ⟨p, given, missing⟩
      · rw [routeFilter_unknown unknown] at oif
        cases oif
    · intro ⟨p, given, missing⟩
      have failed : (rtDelRoutes rt (routeFilter net node sel)).1 ≠ .success :=
        rtDelRoutes_error.mpr ⟨p, given, .inl missing⟩
      refine ⟨fun key rtinfo => ?_, failed⟩
      have filter : (routeFilter net node sel).pfx = some p := given
      rw [removeRoutes_eq, rtDelRoutes, filter]
      dsimp only
      rw [inTable_rtDelForEach]
      refine ⟨And.left, fun stored => ⟨stored, fun selected => ?_⟩⟩
      exact missing rtinfo (selected.1 ▸ stored)
  · intro masked
    simp only [LeavesTable, inTable_unknown masked unknown]
    constructor
    · intro same key rtinfo stored scope
      rw [Bool.eq_false_iff]
      intro matched
      exact ((same key rtinfo).mpr stored).2 ⟨scope, matched⟩
    · intro unmatched key rtinfo
      refine ⟨And.left, fun stored => ⟨stored, fun selected => ?_⟩⟩
      rw [unmatched key rtinfo stored selected.1] at selected
      cases selected.2

end Removal

/-! ## A route with two entries -/

/-- 10/8 through the interface towards the neighbour, and through 20.0.0.1. -/
def parallelRoutes : Except Unit NetRt :=
  [RouteAdd.byId (slash8 10) 0x01000002 netAddrAny 0 .static,
    RouteAdd.byId (slash8 10) netAddrAny 0x14000001 0 .static].foldlM (addStep routerPair false) ∅

theorem parallelRoutes_reached {rt : NetRt} (built : parallelRoutes = .ok rt) :
    Reach (addStep routerPair false) (AddAllowed routerPair false) ∅ rt := by
  refine Reach.of_foldlM (fun entry member => ?_) built
  obtain ⟨before, call⟩ := entry
  have listed := loopStates_snd member
  simp only [List.mem_cons, List.not_mem_nil, or_false] at listed
  obtain same | same := listed
  · rw [same]
    trivial
  · rw [same]
    trivial

/-- The route that the two calls leave. -/
def parallelRoute : RtInfo where
  pfx := slash8 10
  metric := 0
  type := .static
  entries := [⟨some 0x01000002, 0⟩, ⟨none, 0x14000001⟩]

theorem inTable_of_mem_routesTo {rt : NetRt} {p : Pfx} {rtinfo : RtInfo} (member : rtinfo ∈ routesTo rt p) :
    InTable rt (ipPrefixMask p) rtinfo := by
  rw [routesTo] at member
  split at member
  next => cases member
  next infos stored => exact ⟨infos, stored, member⟩

/-- The entry through 20.0.0.1 is asked for, and it stays. -/
theorem second_entry_stays :
    ∃ rt, Reach (addStep routerPair false) (AddAllowed routerPair false) ∅ rt ∧
      ¬ RemovesExactly routerPair false rt ⟨some (slash8 10), none, some 0x14000001, netRouteAny⟩ := by
  have run : okAnd parallelRoutes (fun rt => decide (parallelRoute ∈ routesTo
      (removeRoutes routerPair false rt ⟨some (slash8 10), none, some 0x14000001, netRouteAny⟩).2
        (slash8 10))) = true := by
    decide +kernel
  obtain ⟨rt, built, left⟩ := okAnd_iff.mp run
  refine ⟨rt, parallelRoutes_reached built, fun removed => ?_⟩
  have left := inTable_of_mem_routesTo (of_decide_eq_true left)
  refine ((removed.entries _ _ _ ⟨none, 0x14000001⟩).mp ⟨parallelRoute, left, rfl, rfl, ?_⟩).2 ?_
  · simp [parallelRoute]
  · exact ⟨fun p given => by cases given; rfl, nofun, fun g given => by cases given; rfl, .inl rfl⟩

theorem removal_exact_iff_parallel :
    ∃ rt, parallelRoutes = .ok rt ∧
      (RemovesExactly routerPair false rt ⟨some (slash8 10), none, some 0x14000001, netRouteAny⟩ ↔
        RemovesWhole routerPair false rt ⟨some (slash8 10), none, some 0x14000001, netRouteAny⟩) := by
  have run : okAnd parallelRoutes (fun _ => true) = true := by decide +kernel
  obtain ⟨rt, built, -⟩ := okAnd_iff.mp run
  exact ⟨rt, built, removal_exact_iff .start (parallelRoutes_reached built) _⟩

/-- A call for 10/8 through an interface that does not exist. -/
def strangeOif : RouteSelectors where
  pfx := some (slash8 10)
  oifId := some ⟨0x09090909, 32, short32⟩
  gateway := none
  type := netRouteAny

theorem strangeOif_unknown : UnknownOif routerPair false strangeOif := ⟨_, rfl, by decide⟩

theorem unknown_interface_iff_parallel :
    ∃ rt, parallelRoutes = .ok rt ∧
      (LeavesTable routerPair false rt strangeOif ∧ (removeRoutes routerPair false rt strangeOif).1 ≠ .success ↔
        ∃ p, strangeOif.pfx = some p ∧ ∀ rtinfo, ¬ InTable rt (ipPrefixMask p) rtinfo) ∧
      (LeavesTable routerPair false rt strangeOif ↔
        ∀ key rtinfo, InTable rt key rtinfo → InScope strangeOif.pfx key →
          rtFilterMatches rtinfo ⟨strangeOif.pfx, none, strangeOif.gateway, strangeOif.type⟩ = false) := by
  have run : okAnd parallelRoutes (fun _ => true) = true := by decide +kernel
  obtain ⟨rt, built, -⟩ := okAnd_iff.mp run
  have initial : RtReach routerPair false ∅ := .start
  have sound : SoundTable routerPair false rt := (parallelRoutes_reached built).invariant initial.sound addStep_sound
  obtain ⟨fails, leaves⟩ := unknown_interface_iff rt strangeOif_unknown
  exact ⟨rt, built, fails, leaves sound.maskedKeys⟩

/-- Both entries are removed. -/
theorem unknown_interface_removes :
    ∃ rt, Reach (addStep routerPair false) (AddAllowed routerPair false) ∅ rt ∧
      UnknownOif routerPair false strangeOif ∧ ¬ LeavesTable routerPair false rt strangeOif := by
  have run : okAnd parallelRoutes (fun rt => decide (parallelRoute ∈ routesTo rt (slash8 10) ∧
      routesTo (removeRoutes routerPair false rt strangeOif).2 (slash8 10) = [])) = true := by
    decide +kernel
  obtain ⟨rt, built, removed⟩ := okAnd_iff.mp run
  obtain ⟨stored, removed⟩ := of_decide_eq_true removed
  refine ⟨rt, parallelRoutes_reached built, strangeOif_unknown, fun leaves => ?_⟩
  obtain ⟨infos, found, member⟩ := (leaves _ parallelRoute).mpr (inTable_of_mem_routesTo stored)
  rw [routesTo, found] at removed
  exact infos.nonempty removed

end Cbgp.Verified
