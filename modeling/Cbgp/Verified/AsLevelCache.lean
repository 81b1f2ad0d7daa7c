import Cbgp.Bgp.AsLevelCache
import Cbgp.Verified.AsLevelFormats
import Mathlib.Data.List.Induction

/-! # The cache of domains

`aslevel_topo_get_as` looks in a cache of two pointers first.  The operations that add and remove single
domains keep the cache right; `aslevel_filter_topo` frees domains and leaves the cache as it is, so that the cache
stays right exactly when the filter removes none of the domains that it points to (`Spares`).  After that, a look-up
reads the structure of a freed domain.
-/

namespace Cbgp.Verified

open Cbgp.Lib Cbgp.Bgp

/-! ## What a filter removes -/

/-- Whether a filter removes a domain.  The peer-to-peer filter only drops links: the domains it visits
keep their providers. -/
def filterRemoves (filter : AsFilter) (d : AsDomain) : Bool :=
  match filter with
  | .stubs => aslevelAsNumCustomers d = 0
  | .singleHomedStubs => aslevelAsNumCustomers d = 0 ∧ aslevelAsNumProviders d = 1
  | .peerToPeer => false
  | .keepTop => 0 < aslevelAsNumProviders d

/-- Links to providers are not dropped. -/
theorem dropPeers_keeps {topo : AsTopo} {links kept : List AsLink} (dropped : dropPeers topo links = .ok kept)
    {link : AsLink} (member : link ∈ links) (provider : link.peerType = .provider) : link ∈ kept := by
  induction links generalizing kept with
  | nil => cases member
  | cons first links inductionHypothesis =>
    unfold dropPeers at dropped
    split at dropped
    · cases dropped
    · split at dropped
      · cases dropped
        exact member
      · split at dropped
        next peer =>
          rcases List.mem_cons.mp member with rfl | later
          · rw [provider] at peer
            cases peer
          · exact inductionHypothesis dropped later
        next =>
          obtain ⟨others, rest, rfl⟩ := except_map_eq_ok.mp dropped
          rcases List.mem_cons.mp member with rfl | later
          · exact List.mem_cons_self
          · exact List.mem_cons_of_mem _ (inductionHypothesis rest later)

/-- What the first loop of a filter has done after it visited some domains. -/
structure Chosen (filter : AsFilter) (topo : AsTopo) (seen : List Asn) (state : AsTopo × List Asn) :
    Prop where
  known : ∀ a, (state.1.domain a).isSome = (topo.domain a).isSome
  same : filter ≠ .peerToPeer → state.1 = topo
  cache : state.1.cachedDomains = topo.cachedDomains
  chosen : ∀ a, a ∈ state.2 ↔ a ∈ seen ∧ ∃ d, topo.domain a = some d ∧ filterRemoves filter d = true

theorem domain_setDomain_isSome (topo : AsTopo) (d : AsDomain) (a : Asn) :
    ((topo.setDomain d).domain a).isSome = (topo.domain a).isSome := by
  rw [domain_setDomain]
  split
  · exact Option.isSome_map
  · rfl

/-- The visit of a domain that only decides whether the domain is removed. -/
theorem Chosen.visit {filter : AsFilter} {topo : AsTopo} {seen : List Asn} {state : AsTopo × List Asn}
    (soFar : Chosen filter topo seen state) {a : Asn} {d : AsDomain}
    (found : topo.domain a = some d) :
    Chosen filter topo (a :: seen)
      (state.1, if filterRemoves filter d then a :: state.2 else state.2) where
  known := soFar.known
  same := soFar.same
  cache := soFar.cache
  chosen b := by
    by_cases equal : b = a
    · subst equal
      by_cases removed : filterRemoves filter d = true
      · simp [removed, found]
      · have absent : b ∉ state.2 := by
          rw [soFar.chosen]
          rintro ⟨_, d', found', removed'⟩
          rw [found, Option.some.injEq] at found'
          exact removed (found' ▸ removed')
        simp [removed, found, absent]
    · rw [List.mem_cons, or_iff_right equal, ← soFar.chosen b]
      split
      · rw [List.mem_cons, or_iff_right equal]
      · rfl

/-- A visit that adds the domain to the set when it passes a test. -/
theorem visited_if {test : Prop} [Decidable test] {state state' : AsTopo × List Asn} {a : Asn}
    (visited : (if test then .ok (state.1, a :: state.2) else .ok state : Except AsLevelFault _) =
      .ok state') :
    state' = (state.1, if decide test then a :: state.2 else state.2) := by
  by_cases passes : test
  · rw [if_pos passes, Except.ok.injEq] at visited
    simp [passes, ← visited]
  · rw [if_neg passes, Except.ok.injEq] at visited
    simp [passes, ← visited]

theorem identify_chosen {filter : AsFilter} {topo : AsTopo} {seen : List Asn}
    {state state' : AsTopo × List Asn} {a : Asn} (soFar : Chosen filter topo seen state)
    (visited : identify filter state a = .ok state') : Chosen filter topo (a :: seen) state' := by
  unfold identify at visited
  split at visited
  · cases visited
  next d found =>
    by_cases peers : filter = .peerToPeer
    · subst peers
      -- the domain keeps its place, with fewer links
      obtain ⟨d', found'⟩ : ∃ d', topo.domain a = some d' := by
        rw [← Option.isSome_iff_exists, ← soFar.known a, found]
        rfl
      have same : ∀ state' : AsTopo × List Asn, (∀ b, (state'.1.domain b).isSome = (topo.domain b).isSome) →
          state'.1.cachedDomains = topo.cachedDomains → state'.2 = state.2 →
          Chosen .peerToPeer topo (a :: seen) state' := by
        intro state' known cache set
        refine ⟨known, fun other => absurd rfl other, cache, fun b => ?_⟩
        rw [set]
        exact (soFar.visit found').chosen b
      dsimp only at visited
      split at visited
      · cases visited
        exact same state soFar.known soFar.cache rfl
      next hasProvider =>
        split at visited
        · cases visited
        next links kept =>
          cases visited
          have left : links ≠ [] := by
            obtain ⟨link, member, provider⟩ := List.countP_pos_iff.mp (Nat.pos_of_ne_zero hasProvider)
            exact List.ne_nil_of_mem (dropPeers_keeps kept member (of_decide_eq_true provider))
          refine same _ (fun b => ?_) soFar.cache (if_neg left)
          rw [domain_setDomain_isSome, soFar.known b]
    · rw [soFar.same peers] at found
      have chosen := soFar.visit found
      have decided : state' = (state.1, if filterRemoves filter d then a :: state.2 else state.2) := by
        cases filter with
        | peerToPeer => exact absurd rfl peers
        | stubs => exact visited_if visited
        | singleHomedStubs => exact visited_if visited
        | keepTop => exact visited_if visited
      exact decided ▸ chosen

/-- The domains a filter leaves, and the cache. -/
theorem aslevelFilterTopo_left {topo topo' : AsTopo} {filter : AsFilter}
    (filtered : aslevelFilterTopo topo filter = .ok topo') :
    topo'.cachedDomains = topo.cachedDomains ∧ ∀ a, (topo'.domain a).isSome = true ↔
      ∃ d, topo.domain a = some d ∧ filterRemoves filter d = false := by
  obtain ⟨⟨topo₁, set⟩, looped, rest⟩ := except_bind_eq_ok.mp filtered
  cases rest
  -- First every domain is visited and the ones to remove are noted, then those are removed.
  have visits : ∀ (asns seen : List Asn) (state state' : AsTopo × List Asn), Chosen filter topo seen state →
      asns.foldlM (identify filter) state = .ok state' →
      Chosen filter topo (asns.reverse ++ seen) state' := by
    intro asns
    induction asns with
    | nil =>
      intro seen state state' soFar ended
      cases ended
      exact soFar
    | cons a asns inductionHypothesis =>
      intro seen state state' soFar looped
      rw [List.foldlM_cons] at looped
      obtain ⟨next, visited, later⟩ := except_bind_eq_ok.mp looped
      rw [List.reverse_cons, List.append_assoc]
      exact inductionHypothesis _ _ _ (identify_chosen soFar visited) later
  have start : Chosen filter topo [] (topo, []) := ⟨fun _ => rfl, fun _ => rfl, rfl, by simp⟩
  have chosen := visits _ _ _ _ start looped
  refine ⟨chosen.cache, fun a => ?_⟩
  rw [domain_removeDomains]
  have member : a ∈ set ↔ ∃ d, topo.domain a = some d ∧ filterRemoves filter d = true := by
    rw [chosen.chosen, and_iff_right_iff_imp]
    rintro ⟨d, found, _⟩
    rw [List.append_nil, List.mem_reverse]
    exact domain_asns.mpr ⟨d, found⟩
  by_cases removed : a ∈ set
  · rw [if_pos removed]
    obtain ⟨d, found, removes⟩ := member.mp removed
    constructor
    · nofun
    · rintro ⟨d', found', keeps⟩
      rw [found, Option.some.injEq] at found'
      rw [found', keeps] at removes
      cases removes
  · rw [if_neg removed, Option.isSome_map, chosen.known a, Option.isSome_iff_exists]
    refine exists_congr fun d => ⟨fun found => ⟨found, ?_⟩, And.left⟩
    rw [← Bool.not_eq_true]
    exact fun removes => removed (member.mpr ⟨d, found, removes⟩)

/-! ## What the cache holds -/

namespace PlacedTopo

open Bgp.PlacedTopo

variable {placed next : PlacedTopo} {asn : Asn} {ptr : DomainPtr}

/-- A look-up returns the domain of the topology with the ASN, and nothing when there is none. -/
def Transparent (placed : PlacedTopo) : Prop :=
  ∀ asn, (placed.getAs asn).map (·.1) =
    .ok ((placed.topo.domain asn).map fun d => ⟨placed.address d.asn, d.asn⟩)

/-- The pointer is in the cache. -/
def Cached (placed : PlacedTopo) (ptr : DomainPtr) : Prop :=
  placed.cached.1 = some ptr ∨ placed.cached.2 = some ptr

/-- The cache points to domains of the topology only. -/
def CacheRight (placed : PlacedTopo) : Prop :=
  ∀ ptr, Cached placed ptr → placed.live ptr = true

/-- The cache is filled from its latest entry on. -/
def Filled (placed : PlacedTopo) : Prop :=
  placed.cached.2 = none → placed.cached.1 = none

theorem live_iff : placed.live ptr = true ↔
    (placed.topo.domain ptr.asn).isSome = true ∧ placed.address ptr.asn = ptr.address := by
  rw [Bgp.PlacedTopo.live, Bool.and_eq_true, decide_eq_true_eq]

theorem readAsn_eq_ok {asn' : Asn} (h : placed.readAsn ptr = .ok asn') : placed.live ptr = true ∧ asn' = ptr.asn := by
  unfold Bgp.PlacedTopo.readAsn at h
  split at h
  next alive =>
    cases h
    exact ⟨alive, rfl⟩
  · cases h

theorem domain_map_ptr (placed : PlacedTopo) {d : AsDomain} (found : placed.topo.domain asn = some d) :
    ((placed.topo.domain asn).map fun d => DomainPtr.mk (placed.address d.asn) d.asn) =
      some ⟨placed.address asn, asn⟩ := by
  rw [found, Option.map_some, (domain_eq_some.mp found).2]

/-- What the loop over the entries finds when they can be read. -/
theorem CacheRight.cacheLookupAs (right : CacheRight placed) (asn : Asn) :
    placed.cacheLookupAs asn = .ok (placed.cached.2.bind fun latest =>
      if latest.asn = asn then some latest else placed.cached.1.filter (·.asn = asn)) := by
  have reads : ∀ ptr, Cached placed ptr → placed.readAsn ptr = .ok ptr.asn := fun ptr held => if_pos (right ptr held)
  unfold Bgp.PlacedTopo.cacheLookupAs
  cases latest : placed.cached.2 with
  | none => rfl
  | some latest' =>
    simp only [reads latest' (.inr latest), bind, Except.bind, Option.bind_some]
    split
    · rfl
    · cases older : placed.cached.1 with
      | none => rfl
      | some older' =>
        simp only [reads older' (.inl older), Option.filter_some, decide_eq_true_eq]
        split <;> rfl

/-- A domain that is found in the cache is that of the topology. -/
theorem CacheRight.found (right : CacheRight placed) (hit : placed.cacheLookupAs asn = .ok (some ptr)) :
    ptr = ⟨placed.address asn, asn⟩ ∧ (placed.topo.domain asn).isSome := by
  rw [right.cacheLookupAs, Except.ok.injEq] at hit
  have entry : Cached placed ptr ∧ ptr.asn = asn := by
    obtain ⟨latest, held, hit⟩ := Option.bind_eq_some_iff.mp hit
    split at hit
    next same =>
      cases hit
      exact ⟨.inr held, same⟩
    · obtain ⟨older, same⟩ := Option.filter_eq_some_iff.mp hit
      exact ⟨.inl older, of_decide_eq_true same⟩
  obtain ⟨held, rfl⟩ := entry
  obtain ⟨known, placedAt⟩ := live_iff.mp (right ptr held)
  exact ⟨by rw [placedAt], known⟩

/-- A look-up when the entries of the cache can be read. -/
theorem CacheRight.lookup (right : CacheRight placed) (asn : Asn) :
    ∃ found, placed.cacheLookupAs asn = .ok found :=
  ⟨_, right.cacheLookupAs asn⟩

theorem CacheRight.transparent (right : CacheRight placed) : Transparent placed := by
  intro asn
  obtain ⟨found, looked⟩ := right.lookup asn
  simp only [Bgp.PlacedTopo.getAs, looked, bind, Except.bind]
  cases found with
  | some ptr =>
    obtain ⟨rfl, known⟩ := right.found looked
    obtain ⟨d, inTopo⟩ := Option.isSome_iff_exists.mp known
    rw [domain_map_ptr placed inTopo]
    rfl
  | none => cases placed.topo.domain asn <;> rfl

/-- A look-up of a number that the latest entry does not have reads the older one. -/
theorem cacheLookupAs_reads {latest : DomainPtr} {found : Option DomainPtr} (held : placed.cached.2 = some latest)
    (looked : placed.cacheLookupAs asn = .ok found) :
    placed.live latest = true ∧
      (latest.asn ≠ asn → ∀ older, placed.cached.1 = some older → placed.live older = true) := by
  unfold Bgp.PlacedTopo.cacheLookupAs at looked
  rw [held] at looked
  obtain ⟨asn', read, rest⟩ := except_bind_eq_ok.mp looked
  obtain ⟨alive, rfl⟩ := readAsn_eq_ok read
  refine ⟨alive, fun other older held' => ?_⟩
  rw [if_neg other, held'] at rest
  obtain ⟨asn', read', _⟩ := except_bind_eq_ok.mp rest
  exact (readAsn_eq_ok read').1

theorem transparent_iff (filled : Filled placed) : Transparent placed ↔ CacheRight placed := by
  constructor
  · intro transparent ptr entry
    have looked (asn : Asn) : ∃ found, placed.cacheLookupAs asn = .ok found := by
      obtain ⟨_, got, _⟩ := except_map_eq_ok.mp (transparent asn)
      obtain ⟨found, looked, _⟩ := except_bind_eq_ok.mp got
      exact ⟨found, looked⟩
    cases latest : placed.cached.2 with
    | none =>
      obtain older | latest' := entry
      · rw [filled latest] at older
        cases older
      · rw [latest] at latest'
        cases latest'
    | some latest' =>
      obtain older | same := entry
      · -- any number but that of the latest entry leads to the older one
        have other : latest'.asn ≠ latest'.asn + 1 := by simp
        obtain ⟨_, read⟩ := looked (latest'.asn + 1)
        exact (cacheLookupAs_reads latest read).2 other ptr older
      · rw [latest, Option.some.injEq] at same
        subst same
        obtain ⟨_, read⟩ := looked latest'.asn
        exact (cacheLookupAs_reads latest read).1
  · exact CacheRight.transparent

/-! ## The operations -/

/-- Only a number without a domain is added. -/
theorem domain_addAs_absent {topo topo' : AsTopo} (added : aslevelTopoAddAs topo asn = some topo') :
    topo.domain asn = none := by
  unfold aslevelTopoAddAs at added
  split at added
  · cases added
  next domains inserted =>
    have fresh := SortedArray.add_isSome.mp ⟨domains, inserted⟩
    exact fresh

/-- The cache after a domain of the topology was put in. -/
theorem CacheRight.update (right : ∀ ptr, placed.cached.2 = some ptr → placed.live ptr = true)
    (known : (placed.topo.domain asn).isSome = true) : CacheRight (placed.cacheUpdateAs ⟨placed.address asn, asn⟩) := by
  rintro ptr (older | latest)
  · exact right ptr older
  · cases latest
    exact live_iff.mpr ⟨known, rfl⟩

theorem CacheRight.getAs (right : CacheRight placed) (stepped : (placed.getAs asn).map (·.2) = .ok next) :
    CacheRight next := by
  obtain ⟨⟨found, next'⟩, got, rfl⟩ := except_map_eq_ok.mp stepped
  obtain ⟨hit, _, got⟩ := except_bind_eq_ok.mp got
  split at got
  · cases got
    exact right
  · split at got
    · cases got
      exact right
    next d inTopo =>
      cases got
      have number : d.asn = asn := (domain_eq_some.mp inTopo).2
      subst number
      have known : (placed.topo.domain d.asn).isSome = true := Option.isSome_iff_exists.mpr ⟨d, inTopo⟩
      exact @update { placed with topo := aslevelTopoCacheUpdateAs placed.topo d.asn } d.asn
        (fun ptr held => right ptr (.inr held)) known

theorem CacheRight.addAs (right : CacheRight placed) (asn : Asn) : CacheRight (placed.addAs asn).2 := by
  unfold Bgp.PlacedTopo.addAs
  cases added : aslevelTopoAddAs placed.topo asn with
  | none => exact right
  | some topo =>
    have lookup := domain_addAs added
    have absent := domain_addAs_absent added
    let placed' : PlacedTopo := { placed with
      topo := topo
      address := fun a => if a = asn then placed.nextAddress else placed.address a
      nextAddress := placed.nextAddress + 1 }
    have put : CacheRight (placed'.cacheUpdateAs ⟨placed'.address asn, asn⟩) := by
      refine update (fun ptr held => ?_) ?_
      · obtain ⟨known, placedAt⟩ := live_iff.mp (right ptr (.inr held))
        have other : ptr.asn ≠ asn := by
          rintro rfl
          rw [absent] at known
          cases known
        refine live_iff.mpr ⟨?_, ?_⟩
        · simp only [placed', lookup, known, other, if_false]
        · simp only [placed', if_neg other, placedAt]
      · simp only [placed', lookup, if_true, Option.isSome_some]
    have placedAt : placed'.address asn = placed.nextAddress := if_pos rfl
    rw [placedAt] at put
    exact put

theorem CacheRight.removeAs (right : CacheRight placed) {error : AsLevelError}
    (removed : placed.removeAs asn = .ok (error, next)) : CacheRight next := by
  obtain ⟨⟨error', topo⟩, _, rest⟩ := except_bind_eq_ok.mp removed
  dsimp only at rest
  split at rest
  · cases rest
    rintro ptr (older | latest)
    · cases older
    · cases latest
  · cases rest
    exact right

theorem CacheRight.addLink (right : CacheRight placed) {asn1 asn2 : Asn} {peerType : PeerType}
    {error : AsLevelError} (added : placed.addLink asn1 asn2 peerType = .ok (error, next)) :
    CacheRight next := by
  obtain ⟨⟨error', topo⟩, linked, rest⟩ := except_bind_eq_ok.mp added
  cases rest
  have known : ∀ a, (topo.domain a).isSome = (placed.topo.domain a).isSome := by
    unfold Bgp.addLink at linked
    rw [if_neg (by simp)] at linked
    split at linked
    · cases linked
    · split at linked
      · cases linked
        intro a
        rfl
      · cases linked
        exact domain_setDomain_isSome _ _
  intro ptr held
  rw [live_iff, known ptr.asn]
  exact live_iff.mp (right ptr held)

/-- A filter spares the cache: it removes none of the domains that the cache points to. -/
def Spares (placed : PlacedTopo) (op : PlacedTopo.Op) : Prop :=
  ∀ filter, op = .filterTopo filter → ∀ ptr d, Cached placed ptr →
    placed.topo.domain ptr.asn = some d → filterRemoves filter d = false

/-- The cache is right after a filter exactly when the filter spares it. -/
theorem cacheRight_filterTopo (right : CacheRight placed) {filter : AsFilter}
    (filtered : placed.filterTopo filter = .ok next) :
    CacheRight next ↔ Spares placed (.filterTopo filter) := by
  obtain ⟨topo, filtered', rest⟩ := except_bind_eq_ok.mp filtered
  cases rest
  obtain ⟨_, left⟩ := aslevelFilterTopo_left filtered'
  constructor
  · rintro right' filter' same ptr d held found
    cases same
    obtain ⟨d', found', keeps⟩ := (left ptr.asn).mp (live_iff.mp (right' ptr held)).1
    rw [found, Option.some.injEq] at found'
    exact found' ▸ keeps
  · intro spares ptr held
    obtain ⟨known, placedAt⟩ := live_iff.mp (right ptr held)
    obtain ⟨d, found⟩ := Option.isSome_iff_exists.mp known
    exact live_iff.mpr ⟨(left ptr.asn).mpr ⟨d, found, spares filter rfl ptr d held found⟩, placedAt⟩

theorem CacheRight.step (right : CacheRight placed) {op : PlacedTopo.Op} (spares : Spares placed op)
    (stepped : placed.step op = .ok next) : CacheRight next := by
  cases op with
  | addAs asn =>
    cases stepped
    exact right.addAs asn
  | getAs asn => exact right.getAs stepped
  | removeAs asn =>
    obtain ⟨⟨error, next'⟩, removed, rfl⟩ := except_map_eq_ok.mp stepped
    exact right.removeAs removed
  | filterTopo filter => exact (cacheRight_filterTopo right stepped).mpr spares
  | addLink asn1 asn2 peerType =>
    obtain ⟨⟨error, next'⟩, added, rfl⟩ := except_map_eq_ok.mp stepped
    exact right.addLink added

theorem Filled.step (filled : Filled placed) {op : PlacedTopo.Op} (stepped : placed.step op = .ok next) :
    Filled next := by
  -- Every insertion writes the latest entry, so the other one is never held alone.
  have updated (placed : PlacedTopo) (ptr : DomainPtr) : Filled (placed.cacheUpdateAs ptr) := nofun
  cases op with
  | addAs asn =>
    cases stepped
    unfold Bgp.PlacedTopo.addAs
    split
    · exact filled
    · exact updated _ _
  | getAs asn =>
    obtain ⟨⟨found, next'⟩, got, rfl⟩ := except_map_eq_ok.mp stepped
    obtain ⟨hit, _, got⟩ := except_bind_eq_ok.mp got
    split at got
    · cases got
      exact filled
    · split at got
      · cases got
        exact filled
      · cases got
        exact updated _ _
  | removeAs asn =>
    obtain ⟨⟨error, next'⟩, removed, rfl⟩ := except_map_eq_ok.mp stepped
    obtain ⟨⟨error', topo⟩, _, rest⟩ := except_bind_eq_ok.mp removed
    dsimp only at rest
    split at rest
    · cases rest
      exact fun _ => rfl
    · cases rest
      exact filled
  | filterTopo filter =>
    obtain ⟨topo, _, rest⟩ := except_bind_eq_ok.mp stepped
    cases rest
    exact filled
  | addLink asn1 asn2 peerType =>
    obtain ⟨⟨error, next'⟩, added, rfl⟩ := except_map_eq_ok.mp stepped
    obtain ⟨⟨error', topo⟩, _, rest⟩ := except_bind_eq_ok.mp added
    cases rest
    exact filled

/-- A filter that fails removes nothing. -/
theorem spares_of_error {filter : AsFilter} {fault : AsLevelFault}
    (failed : placed.filterTopo filter = .error fault) : Spares placed (.filterTopo filter) := by
  rintro filter' same ptr d _ _
  cases same
  by_cases peers : filter = .peerToPeer
  · rw [peers]
    rfl
  · have removes : ∃ set, aslevelFilterTopo placed.topo filter = .ok (removeDomains placed.topo set) :=
      aslevelFilterTopo_other peers
    obtain ⟨set, filtered⟩ := removes
    simp only [Bgp.PlacedTopo.filterTopo, filtered, bind, Except.bind] at failed
    cases failed

/-! ## The cache of ASNs -/

/-- The cache of `AsTopo` has the ASNs of the pointers. -/
def InSync (placed : PlacedTopo) : Prop :=
  placed.topo.cachedDomains =
    (placed.cached.1.map DomainPtr.asn, placed.cached.2.map DomainPtr.asn)

/-- `AsTopo` forgets the addresses, as long as the cache points to domains of the topology. -/
theorem InSync.cacheLookupAs (sync : InSync placed) (right : CacheRight placed) (asn : Asn) :
    placed.cacheLookupAs asn = .ok none ∧ aslevelTopoCacheLookupAs placed.topo asn = false ∨
      ∃ ptr, placed.cacheLookupAs asn = .ok (some ptr) ∧ aslevelTopoCacheLookupAs placed.topo asn = true := by
  unfold aslevelTopoCacheLookupAs
  rw [right.cacheLookupAs, sync]
  cases placed.cached.2 with
  | none => exact .inl ⟨rfl, rfl⟩
  | some latest =>
    by_cases same : latest.asn = asn
    · exact .inr ⟨latest, by simp [same]⟩
    · cases older : placed.cached.1 with
      | none => exact .inl (by simp [same])
      | some other =>
        by_cases same' : other.asn = asn
        · exact .inr ⟨other, by simp [same, same']⟩
        · exact .inl (by simp [same, same'])

theorem InSync.getAs (sync : InSync placed) (right : CacheRight placed) (asn : Asn) :
    (placed.getAs asn).map (fun result => (result.1.isSome, result.2.topo)) =
      .ok (aslevelTopoGetAs placed.topo asn) := by
  unfold aslevelTopoGetAs Bgp.PlacedTopo.getAs
  obtain ⟨missed, missed'⟩ | ⟨ptr, hit, hit'⟩ := sync.cacheLookupAs right asn
  · rw [missed, missed']
    simp only [bind, Except.bind]
    cases placed.topo.domain asn <;> rfl
  · rw [hit, hit']
    rfl

theorem cachedDomains_removeAs {topo topo' : AsTopo}
    (removed : aslevelTopoRemoveAs topo asn = .ok (.success, topo')) :
    topo'.cachedDomains = (none, none) := by
  unfold aslevelTopoRemoveAs at removed
  split at removed
  · cases removed
  · obtain ⟨topo₁, looped, rest⟩ := except_bind_eq_ok.mp removed
    cases rest
    have kept : ∀ {t : AsTopo} {link : AsLink} {t' : AsTopo}, t.cachedDomains = (none, none) →
        removeReverse asn t link = .ok t' → t'.cachedDomains = (none, none) := by
      intro t link t' none' visited
      unfold removeReverse at visited
      split at visited
      · cases visited
      · split at visited
        · cases visited
        · cases visited
          exact none'
    let emptied : AsTopo → Prop := fun t => t.cachedDomains = (none, none)
    have left : emptied topo₁ := foldlM_invariant (fun _ => kept) rfl looped
    exact left

theorem cachedDomains_addLink {topo topo' : AsTopo} {asn1 asn2 : Asn} {peerType : PeerType}
    {error : AsLevelError} (added : Bgp.addLink (.success, topo) asn1 asn2 peerType = .ok (error, topo')) :
    topo'.cachedDomains = topo.cachedDomains := by
  unfold Bgp.addLink at added
  rw [if_neg (by simp)] at added
  split at added
  · cases added
  · split at added <;> cases added <;> rfl

theorem InSync.step (sync : InSync placed) {op : PlacedTopo.Op} (stepped : placed.step op = .ok next) :
    InSync next := by
  cases op with
  | addAs asn =>
    cases stepped
    unfold Bgp.PlacedTopo.addAs
    split
    · exact sync
    next topo added =>
      unfold aslevelTopoAddAs at added
      split at added
      · cases added
      · cases added
        simp [InSync, Bgp.PlacedTopo.cacheUpdateAs, aslevelTopoCacheUpdateAs, Prod.ext_iff.mp sync]
  | getAs asn =>
    obtain ⟨⟨found, next'⟩, got, rfl⟩ := except_map_eq_ok.mp stepped
    obtain ⟨hit, _, got⟩ := except_bind_eq_ok.mp got
    split at got
    · cases got
      exact sync
    · split at got
      · cases got
        exact sync
      next d found =>
        cases got
        simp [InSync, Bgp.PlacedTopo.cacheUpdateAs, aslevelTopoCacheUpdateAs, Prod.ext_iff.mp sync,
          (domain_eq_some.mp found).2]
  -- Both sides drop what they cached when the removal succeeds and keep it when it fails.
  | removeAs asn =>
    obtain ⟨⟨error, next'⟩, removed, rfl⟩ := except_map_eq_ok.mp stepped
    obtain ⟨⟨error', topo⟩, removed', rest⟩ := except_bind_eq_ok.mp removed
    dsimp only at rest
    split at rest
    next success =>
      cases rest
      exact cachedDomains_removeAs (success ▸ removed')
    · cases rest
      exact sync
  | filterTopo filter =>
    obtain ⟨topo, filtered, rest⟩ := except_bind_eq_ok.mp stepped
    cases rest
    exact (aslevelFilterTopo_left filtered).1.trans sync
  | addLink asn1 asn2 peerType =>
    obtain ⟨⟨error, next'⟩, added, rfl⟩ := except_map_eq_ok.mp stepped
    obtain ⟨⟨error', topo⟩, linked, rest⟩ := except_bind_eq_ok.mp added
    cases rest
    exact (cachedDomains_addLink linked).trans sync

/-! ## Runs -/

theorem run_concat {before : List PlacedTopo.Op} {op : PlacedTopo.Op} (ran : run before = .ok placed) :
    run (before ++ [op]) = placed.step op := by
  unfold Bgp.PlacedTopo.run at ran ⊢
  rw [List.foldlM_append, ran]
  change (placed.step op >>= pure) = placed.step op
  exact bind_pure _

theorem run_of_concat {before : List PlacedTopo.Op} {op : PlacedTopo.Op} (ran : run (before ++ [op]) = .ok next) :
    ∃ placed, run before = .ok placed ∧ placed.step op = .ok next := by
  cases first : run before with
  | error fault =>
    rw [Bgp.PlacedTopo.run, List.foldlM_append] at ran
    rw [Bgp.PlacedTopo.run] at first
    rw [first] at ran
    cases ran
  | ok placed => exact ⟨placed, rfl, run_concat first ▸ ran⟩

theorem inSync_run {ops : List PlacedTopo.Op} (ran : run ops = .ok placed) : InSync placed := by
  induction ops using List.reverseRecOn generalizing placed with
  | nil =>
    cases ran
    rfl
  | append_singleton before op inductionHypothesis =>
    obtain ⟨earlier, ran', stepped⟩ := run_of_concat ran
    exact (inductionHypothesis ran').step stepped

theorem filled_run {ops : List PlacedTopo.Op} (ran : run ops = .ok placed) : Filled placed := by
  induction ops using List.reverseRecOn generalizing placed with
  | nil =>
    cases ran
    exact fun _ => rfl
  | append_singleton before op inductionHypothesis =>
    obtain ⟨earlier, ran', stepped⟩ := run_of_concat ran
    exact (inductionHypothesis ran').step stepped

theorem cacheRight_create : CacheRight Bgp.PlacedTopo.create := by
  rintro ptr (older | latest)
  · cases older
  · cases latest

theorem cacheRight_run {ops : List PlacedTopo.Op}
    (spares : ∀ before op placed, before ++ [op] <+: ops → run before = .ok placed → Spares placed op)
    {before : List PlacedTopo.Op} (first : before <+: ops) (ran : run before = .ok placed) : CacheRight placed := by
  induction before using List.reverseRecOn generalizing placed with
  | nil =>
    cases ran
    exact cacheRight_create
  | append_singleton before op inductionHypothesis =>
    obtain ⟨earlier, ran', stepped⟩ := run_of_concat ran
    have first' : before <+: ops := (List.prefix_append before [op]).trans first
    exact (inductionHypothesis first' ran').step (spares before op earlier first ran') stepped

/-- In every run whose filters spare the cache, the look-up with addresses finds something exactly when that of
`AsTopo` does. -/
theorem aslevelTopoGetAs_run {ops : List PlacedTopo.Op}
    (spares : ∀ before op placed, before ++ [op] <+: ops → run before = .ok placed → Spares placed op)
    (ran : run ops = .ok placed) (asn : Asn) :
    (placed.getAs asn).map (fun result => (result.1.isSome, result.2.topo)) =
      .ok (aslevelTopoGetAs placed.topo asn) :=
  (inSync_run ran).getAs (cacheRight_run spares (List.prefix_refl _) ran) asn

/-- In a run from an empty topology every look-up is right exactly when the filters spare the cache. -/
theorem getAs_transparent_iff (ops : List PlacedTopo.Op) :
    (∀ before placed, before <+: ops → run before = .ok placed → Transparent placed) ↔
      ∀ before op placed, before ++ [op] <+: ops → run before = .ok placed → Spares placed op := by
  constructor
  · rintro transparent before op placed first ran filter rfl
    have right := (transparent_iff (filled_run ran)).mp
      (transparent before placed ((List.prefix_append _ _).trans first) ran)
    cases filtered : placed.filterTopo filter with
    | error fault => exact spares_of_error filtered filter rfl
    | ok next =>
      have ran' : run (before ++ [.filterTopo filter]) = .ok next := (run_concat ran).trans filtered
      have right' := (transparent_iff (filled_run ran')).mp (transparent _ next first ran')
      exact (cacheRight_filterTopo right filtered).mp right' filter rfl
  · intro spares before placed first ran
    exact (cacheRight_run spares first ran).transparent

/-- The look-up of a domain that the filter has just removed reads the freed structure. -/
theorem filtered_domain_read :
    ∃ placed, run [.addAs 1, .filterTopo .stubs] = .ok placed ∧ placed.topo.domain 1 = none ∧
      placed.getAs 1 = .error .dangling ∧ ¬ Transparent placed := by
  refine ⟨_, rfl, rfl, rfl, fun transparent => ?_⟩
  cases transparent 1

end PlacedTopo

end Cbgp.Verified
