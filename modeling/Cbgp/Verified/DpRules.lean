import Cbgp.Bgp.DpRules
import Cbgp.Lib.Run

/-! # What each rule of the decision process keeps

For every rule of `DP_RULES` the relation "this route eliminates that one", and the theorem that
the loops of the rule keep exactly the routes nothing eliminates.  Three rules only do so under a
condition, because of the bounds of their accumulators and the assertions they go through:

* `dpRuleShortestPath_eq` — some path has at most 255 hops;
* `dpRuleLowestMed_eq` — in deterministic mode, every path has a neighbour AS;
* `dpRuleShortestClusterList_eq` — the shortest length is not above any length modulo 256.
-/

namespace Cbgp.Verified

open Cbgp.Lib Cbgp.Net Cbgp.Bgp

/-! ## Orders on machine integers -/

theorem weakOrder_uint32_lt : WeakOrder fun x y : UInt32 => decide (x < y) where
  asymm h := by simp at *; grind
  split y h := by simp at *; grind

theorem weakOrder_uint32_gt : WeakOrder fun x y : UInt32 => decide (y < x) where
  asymm h := by simp at *; grind
  split y h := by simp at *; grind

theorem uint32_not_max_lt (x : UInt32) : decide ((0xffffffff : UInt32) < x) = false := by
  simp; grind

/-! ## Elimination relations -/

def prefDom (d c : Cand) : Bool := c.attr.localPref < d.attr.localPref

def pathDom (d c : Cand) : Bool := pathLength d.attr.path < pathLength c.attr.path

def originDom (d c : Cand) : Bool := d.attr.origin.code < c.attr.origin.code

/-- MED is compared between routes of the same neighbour AS, or between all routes. -/
def medDom (medType : MedType) (d c : Cand) : Bool :=
  match medType with
  | .alwaysCompare => d.attr.med < c.attr.med
  | .deterministic =>
    match d.lastAs, c.lastAs with
    | .ok asD, .ok asC => asD = asC && d.attr.med < c.attr.med
    | _, _ => false

def ebgpDom (asn : Asn) (d c : Cand) : Bool := d.peerAsn != asn && c.peerAsn == asn

/-- IGP cost of the next-hop; meaningful when it is reachable. -/
def igpCost (rt : NetRt) (c : Cand) : UInt32 :=
  ((rtFindBest rt c.attr.nextHop netRouteAny).map (·.metric)).getD 0

def igpDom (rt : NetRt) (d c : Cand) : Bool := igpCost rt d < igpCost rt c

def routerIdDom (d c : Cand) : Bool := d.routerId < c.routerId

def clusterDom (d c : Cand) : Bool := d.clusterLen < c.clusterLen

def addrDom (d c : Cand) : Bool := d.addr < c.addr

theorem prefDom_weak : WeakOrder prefDom :=
  weakOrder_uint32_gt.comap fun c : Cand => c.attr.localPref

theorem pathDom_weak : WeakOrder pathDom :=
  weakOrder_lt.comap fun c : Cand => pathLength c.attr.path

theorem originDom_weak : WeakOrder originDom :=
  weakOrder_lt.comap fun c : Cand => c.attr.origin.code

theorem igpDom_weak (rt : NetRt) : WeakOrder (igpDom rt) :=
  weakOrder_uint32_lt.comap (igpCost rt)

theorem routerIdDom_weak : WeakOrder routerIdDom :=
  weakOrder_uint32_lt.comap Cand.routerId

theorem clusterDom_weak : WeakOrder clusterDom :=
  weakOrder_lt.comap Cand.clusterLen

theorem addrDom_weak : WeakOrder addrDom :=
  weakOrder_uint32_lt.comap Cand.addr

theorem ebgpDom_weak (asn : Asn) : WeakOrder (ebgpDom asn) where
  asymm h := by simp_all [ebgpDom]
  split y h := by simp_all [ebgpDom]; grind

theorem medDom_deterministic {d c : Cand} :
    medDom .deterministic d c = true ↔
      ∃ asn, d.lastAs = .ok asn ∧ c.lastAs = .ok asn ∧ d.attr.med < c.attr.med := by
  unfold medDom
  cases d.lastAs <;> cases c.lastAs <;> simp
  grind

theorem medDom_strict (medType : MedType) : StrictRule (medDom medType) := by
  cases medType with
  | alwaysCompare => exact (weakOrder_uint32_lt.comap fun c : Cand => c.attr.med).strictRule
  | deterministic =>
    constructor
    · intro c
      rw [Bool.eq_false_iff]
      intro h
      obtain ⟨_, _, _, below⟩ := medDom_deterministic.mp h
      grind
    · intro c d e h h'
      obtain ⟨asn, asC, asD, below⟩ := medDom_deterministic.mp h
      obtain ⟨asn', asD', asE, below'⟩ := medDom_deterministic.mp h'
      rw [asD] at asD'
      cases asD'
      exact medDom_deterministic.mpr ⟨asn, asC, asE, by grind⟩

/-! ## Rules that always keep the best -/

theorem dpRuleHighestPref_eq (router : Router) (routes : List Cand) :
    dpRuleHighestPref router routes = .ok (undominated prefDom routes) := by
  rw [dpRuleHighestPref, keepBest_eq_undominated _ weakOrder_uint32_gt]
  · rfl
  · intro c _
    simp

theorem dpRuleLowestOrigin_eq (router : Router) (routes : List Cand) :
    dpRuleLowestOrigin router routes = .ok (undominated originDom routes) := by
  rw [dpRuleLowestOrigin, keepBest_eq_undominated _ weakOrder_lt]
  · rfl
  · intro c _
    cases c.attr.origin <;> decide

theorem dpRuleLowestRouterId_eq (router : Router) (routes : List Cand) :
    dpRuleLowestRouterId router routes = .ok (undominated routerIdDom routes) := by
  rw [dpRuleLowestRouterId, keepBest_eq_undominated _ weakOrder_uint32_lt]
  · rfl
  · intro c _
    exact uint32_not_max_lt _

theorem dpRuleLowestNeighborAddress_eq (router : Router) (routes : List Cand) :
    dpRuleLowestNeighborAddress router routes = .ok (undominated addrDom routes) := by
  rw [dpRuleLowestNeighborAddress, keepBest_eq_undominated _ weakOrder_uint32_lt]
  · rfl
  · intro c _
    exact uint32_not_max_lt _

theorem dpRuleEbgpOverIbgp_eq (router : Router) (routes : List Cand) :
    dpRuleEbgpOverIbgp router routes = .ok (undominated (ebgpDom router.asn) routes) := by
  unfold dpRuleEbgpOverIbgp
  split
  next external =>
    obtain ⟨d, memberD, externalD⟩ := List.any_eq_true.mp external
    congr 1
    apply List.filter_congr
    intro c _
    rw [Bool.eq_iff_iff, List.all_eq_true]
    constructor
    · intro externalC d _
      simp only [bne_iff_ne] at externalC
      simp [ebgpDom, externalC]
    · intro kept
      have := kept d memberD
      simp only [ebgpDom, externalD, Bool.true_and, Bool.not_eq_true', beq_eq_false_iff_ne] at this
      simpa using this
  next internal =>
    congr 1
    refine (List.filter_eq_self.mpr fun c _ => List.all_eq_true.mpr fun d memberD => ?_).symm
    have : ¬ (d.peerAsn != router.asn) = true := fun h =>
      internal (List.any_eq_true.mpr ⟨d, memberD, h⟩)
    simp [ebgpDom, this]

/-- With every next-hop reachable, the costs are those of `igpCost`. -/
theorem mapM_igpCost {router : Router} {routes : List Cand}
    (reachable : ∀ c ∈ routes, (rtFindBest router.rt c.attr.nextHop netRouteAny).isSome) :
    routes.mapM (fun c => dpRuleIgpCost router c.attr.nextHop)
      = .ok (routes.map (igpCost router.rt)) := by
  induction routes with
  | nil => rfl
  | cons c routes inductionHypothesis =>
    obtain ⟨rtinfo, found⟩ := Option.isSome_iff_exists.mp (reachable c List.mem_cons_self)
    have head : dpRuleIgpCost router c.attr.nextHop = .ok (igpCost router.rt c) := by
      simp [dpRuleIgpCost, igpCost, found]
    rw [List.mapM_cons, head,
      inductionHypothesis fun d member => reachable d (List.mem_cons_of_mem _ member)]
    rfl

theorem keepBest_zip {β : Type} (better : β → β → Bool) (worst : β) (value : Cand → β)
    (routes : List Cand) :
    (keepBest better worst (·.2) (routes.zip (routes.map value))).map (·.1)
      = keepBest better worst value routes := by
  have paired : routes.zip (routes.map value) = routes.map fun c => (c, value c) := by
    induction routes with
    | nil => rfl
    | cons c routes inductionHypothesis => simp [inductionHypothesis]
  rw [paired]
  simp only [keepBest, List.foldl_map, List.filter_map, List.map_map]
  exact List.map_id _

theorem dpRuleNearestNextHop_eq {router : Router} {routes : List Cand}
    (reachable : ∀ c ∈ routes, (rtFindBest router.rt c.attr.nextHop netRouteAny).isSome) :
    dpRuleNearestNextHop router routes = .ok (undominated (igpDom router.rt) routes) := by
  simp only [dpRuleNearestNextHop, mapM_igpCost reachable, bind, Except.bind]
  rw [keepBest_zip, keepBest_eq_undominated _ weakOrder_uint32_lt]
  · rfl
  · intro c _
    exact uint32_not_max_lt _

theorem dpRuleNearestNextHop_error {router : Router} {routes : List Cand}
    (unreachable : ¬ ∀ c ∈ routes, (rtFindBest router.rt c.attr.nextHop netRouteAny).isSome) :
    dpRuleNearestNextHop router routes = .error .igpCost := by
  have failed : routes.mapM (fun c => dpRuleIgpCost router c.attr.nextHop) = .error .igpCost := by
    induction routes with
    | nil => simp at unreachable
    | cons c routes inductionHypothesis =>
      rw [List.mapM_cons]
      cases found : rtFindBest router.rt c.attr.nextHop netRouteAny with
      | none => simp [dpRuleIgpCost, found, bind, Except.bind]
      | some rtinfo =>
        have rest : ¬ ∀ d ∈ routes, (rtFindBest router.rt d.attr.nextHop netRouteAny).isSome := by
          intro all
          exact unreachable fun d member => by
            rcases List.mem_cons.mp member with rfl | member
            · simp [found]
            · exact all d member
        rw [inductionHypothesis rest]
        simp [dpRuleIgpCost, found, bind, Except.bind]
  simp [dpRuleNearestNextHop, failed, bind, Except.bind]

/-! ## Shortest path -/

theorem dpRuleShortestPath_eq {router : Router} {routes : List Cand}
    (short : ∃ c ∈ routes, pathLength c.attr.path ≤ 255) :
    dpRuleShortestPath router routes = .ok (undominated pathDom routes) := by
  -- The start value 255 is no better than the best item, so that it can be taken out.
  obtain ⟨short, memberShort, bound⟩ := short
  obtain ⟨source, noStart, noItem⟩ :=
    foldl_best (fun c : Cand => pathLength c.attr.path) weakOrder_lt routes 255
  rw [dpRuleShortestPath]
  congr 1
  apply List.filter_congr
  intro c member
  set best := routes.foldl (fun best c =>
    if decide (pathLength c.attr.path < best) then pathLength c.attr.path else best) 255
  have below := noItem short memberShort
  simp only [decide_eq_false_iff_not, not_lt] at noStart noItem below
  rw [Bool.eq_iff_iff, List.all_eq_true]
  simp only [Bool.not_eq_true', decide_eq_false_iff_not, not_lt, pathDom]
  constructor
  · intro kept d memberD
    exact Nat.le_trans kept (noItem d memberD)
  · intro kept
    rcases source with source | ⟨d, memberD, source⟩
    · have := kept short memberShort
      omega
    · rw [source]
      exact kept d memberD

theorem dpRuleShortestPath_nil {router : Router} {routes : List Cand}
    (long : ∀ c ∈ routes, 255 < pathLength c.attr.path) :
    dpRuleShortestPath router routes = .ok [] := by
  obtain ⟨source, noStart, noItem⟩ :=
    foldl_best (fun c : Cand => pathLength c.attr.path) weakOrder_lt routes 255
  rw [dpRuleShortestPath]
  congr 1
  refine List.filter_eq_nil_iff.mpr fun c member => ?_
  simp only [decide_eq_false_iff_not, not_lt] at noStart
  have := long c member
  simp only [Bool.not_eq_true', decide_eq_false_iff_not, not_lt, not_le]
  omega

/-! ## Cluster-list -/

/-- The shortest cluster-list is not above any length modulo 256. -/
def ClusterLensFit (routes : List Cand) : Prop :=
  ∃ m ∈ routes, ∀ c ∈ routes, m.clusterLen ≤ c.clusterLen % 256

/-- The first loop of the rule, over the lengths modulo 256. -/
theorem foldl_clusterLen (routes : List Cand) :
    let minLen := routes.foldl (fun minLen c =>
      let len := c.clusterLen % 256
      if len < minLen then len else minLen) 255
    (minLen = 255 ∨ ∃ c ∈ routes, minLen = c.clusterLen % 256) ∧ minLen ≤ 255 ∧
      ∀ c ∈ routes, minLen ≤ c.clusterLen % 256 := by
  have loop := foldl_best (fun c : Cand => c.clusterLen % 256) weakOrder_lt routes 255
  simpa only [decide_eq_false_iff_not, not_lt, decide_eq_true_eq] using loop

theorem dpRuleShortestClusterList_eq {router : Router} {routes : List Cand}
    (fit : ClusterLensFit routes) :
    dpRuleShortestClusterList router routes = .ok (undominated clusterDom routes) := by
  obtain ⟨m, memberM, least⟩ := fit
  obtain ⟨source, bound, below⟩ := foldl_clusterLen routes
  rw [dpRuleShortestClusterList]
  congr 1
  apply List.filter_congr
  intro c member
  set minLen := routes.foldl (fun minLen c =>
    let len := c.clusterLen % 256
    if len < minLen then len else minLen) 255
  -- The minimum found is the length of `m`, which is the shortest.
  have shortest : ∀ d ∈ routes, m.clusterLen ≤ d.clusterLen := fun d memberD =>
    Nat.le_trans (least d memberD) (Nat.mod_le _ _)
  have found : minLen = m.clusterLen := by
    have := below m memberM
    have := least m memberM
    have := Nat.mod_le m.clusterLen 256
    have := Nat.mod_lt m.clusterLen (show 0 < 256 by decide)
    rcases source with source | ⟨d, memberD, source⟩
    · omega
    · have := least d memberD
      omega
  rw [Bool.eq_iff_iff, List.all_eq_true, found]
  simp only [Bool.not_eq_true', decide_eq_false_iff_not, not_lt, clusterDom]
  constructor
  · intro kept d memberD
    exact Nat.le_trans kept (shortest d memberD)
  · intro kept
    exact kept m memberM

theorem dpRuleShortestClusterList_nil {router : Router} {routes : List Cand}
    (misfit : ¬ ClusterLensFit routes) :
    dpRuleShortestClusterList router routes = .ok [] := by
  obtain ⟨source, bound, below⟩ := foldl_clusterLen routes
  rw [dpRuleShortestClusterList]
  congr 1
  refine List.filter_eq_nil_iff.mpr fun m member => ?_
  simp only [Bool.not_eq_true', decide_eq_false_iff_not, not_lt, not_le]
  by_contra kept
  push Not at kept
  exact misfit ⟨m, member, fun c memberC => Nat.le_trans kept (below c memberC)⟩

/-! ## MED

The deterministic comparison marks routes in place.  `medInner_ok` says what one inner loop does to
the entries behind a route: it deletes routes that the route eliminates, all of them if the route
stays, and leaves one that eliminates the route if it does not.  Deleting routes that something
eliminates does not change what is undominated, which carries the induction of `medOuter_ok`. -/

/-- The path has a neighbour AS, or no hop at all. -/
def HasLastAs (c : Cand) : Prop := ∃ asn, c.lastAs = .ok asn

theorem lastAs_error {c : Cand} (bad : ¬ HasLastAs c) : c.lastAs = .error .pathLastAs := by
  unfold HasLastAs Cand.lastAs pathLastAs at *
  split at bad <;> rename_i hops
  · exact absurd ⟨_, rfl⟩ bad
  · split at bad <;> rename_i last
    · exact absurd ⟨_, rfl⟩ bad
    · split at bad <;> rename_i kind
      · exact absurd ⟨_, rfl⟩ bad
      · rw [if_neg hops]

/-- What an inner loop returns, given that it does return. -/
structure MedInnerSpec (route : Cand) (before after : List (Option Cand)) (stays : Bool) : Prop where
  length : after.length = before.length
  subset : ∀ c, some c ∈ after → some c ∈ before
  deleted : ∀ c, some c ∈ before → some c ∈ after ∨ medDom .deterministic route c = true
  filtered : ∀ p : Cand → Bool, (∀ c, medDom .deterministic route c = true → p c = false) →
    (after.filterMap id).filter p = (before.filterMap id).filter p
  wins : stays = true → ∀ c, some c ∈ before →
    medDom .deterministic c route = false ∧
      (some c ∈ after → medDom .deterministic route c = false)
  loses : stays = false → ∃ d, some d ∈ after ∧ medDom .deterministic d route = true

namespace MedInnerSpec

variable {route route2 : Cand} {before after : List (Option Cand)} {stays : Bool}

theorem cons_none (spec : MedInnerSpec route before after stays) :
    MedInnerSpec route (none :: before) (none :: after) stays where
  length := by simp [spec.length]
  subset := by simpa using spec.subset
  deleted := by simpa using spec.deleted
  filtered := by simpa using spec.filtered
  wins := by simpa using spec.wins
  loses := by simpa using spec.loses

/-- The entry met is eliminated. -/
theorem cons_deleted (spec : MedInnerSpec route before after stays)
    (below : medDom .deterministic route route2 = true)
    (notAbove : medDom .deterministic route2 route = false) :
    MedInnerSpec route (some route2 :: before) (none :: after) stays where
  length := by simp [spec.length]
  subset c member := by
    simp only [List.mem_cons, reduceCtorEq, false_or] at member
    exact List.mem_cons_of_mem _ (spec.subset c member)
  deleted c member := by
    rcases List.mem_cons.mp member with same | member
    · cases same
      exact .inr below
    · exact (spec.deleted c member).imp_left (List.mem_cons_of_mem _)
  filtered p apart := by
    have dropped : p route2 = false := apart route2 below
    simpa [dropped] using spec.filtered p apart
  wins stay c member := by
    simp only [List.mem_cons, reduceCtorEq, false_or]
    rcases List.mem_cons.mp member with same | member
    · cases same
      exact ⟨notAbove, fun kept => (spec.wins stay route2 (spec.subset route2 kept)).2 kept⟩
    · exact spec.wins stay c member
  loses lost := by
    obtain ⟨d, kept, above⟩ := spec.loses lost
    exact ⟨d, List.mem_cons_of_mem _ kept, above⟩

/-- The entry met and the route leave each other alone. -/
theorem cons_kept (spec : MedInnerSpec route before after stays)
    (notBelow : medDom .deterministic route route2 = false)
    (notAbove : medDom .deterministic route2 route = false) :
    MedInnerSpec route (some route2 :: before) (some route2 :: after) stays where
  length := by simp [spec.length]
  subset c member := by
    rcases List.mem_cons.mp member with same | member
    · exact same ▸ List.mem_cons_self
    · exact List.mem_cons_of_mem _ (spec.subset c member)
  deleted c member := by
    rcases List.mem_cons.mp member with same | member
    · exact .inl (same ▸ List.mem_cons_self)
    · exact (spec.deleted c member).imp_left (List.mem_cons_of_mem _)
  filtered p apart := by
    have rest := spec.filtered p apart
    simp only [List.filterMap_cons, id_eq, List.filter_cons]
    split
    · exact congrArg _ rest
    · exact rest
  wins stay c member := by
    rcases List.mem_cons.mp member with same | member
    · cases same
      exact ⟨notAbove, fun _ => notBelow⟩
    · refine ⟨(spec.wins stay c member).1, fun kept => ?_⟩
      rcases List.mem_cons.mp kept with same | kept
      · cases same
        exact notBelow
      · exact (spec.wins stay c member).2 kept
  loses lost := by
    obtain ⟨d, kept, above⟩ := spec.loses lost
    exact ⟨d, List.mem_cons_of_mem _ kept, above⟩

end MedInnerSpec

/-- With both neighbour ASes known, the test of the inner loop is the elimination relation. -/
theorem medDom_of_lastAs {d c : Cand} {asD asC : Int} (knownD : d.lastAs = .ok asD)
    (knownC : c.lastAs = .ok asC) :
    medDom .deterministic d c = decide (asD = asC ∧ d.attr.med < c.attr.med) := by
  simp [medDom, knownD, knownC]

theorem medInner_ok {route : Cand} {asn : Int} (asRoute : route.lastAs = .ok asn)
    {before after : List (Option Cand)} {stays : Bool}
    (h : medInner route asn before = .ok (stays, after)) :
    MedInnerSpec route before after stays := by
  induction before generalizing after stays with
  | nil =>
    simp only [medInner, Except.ok.injEq, Prod.mk.injEq] at h
    obtain ⟨rfl, rfl⟩ := h
    exact ⟨rfl, by simp, by simp, by simp, by simp, by simp⟩
  | cons entry before inductionHypothesis =>
    cases entry with
    | none =>
      rw [medInner, except_bind_eq_ok] at h
      obtain ⟨⟨stays', rest⟩, inner, h⟩ := h
      simp only [Except.ok.injEq, Prod.mk.injEq] at h
      obtain ⟨rfl, rfl⟩ := h
      exact (inductionHypothesis inner).cons_none
    | some route2 =>
      rw [medInner, except_bind_eq_ok] at h
      obtain ⟨asn2, asRoute2, h⟩ := h
      have above := medDom_of_lastAs asRoute2 asRoute
      have below := medDom_of_lastAs asRoute asRoute2
      -- The route in hand loses, wins over this entry, or is not compared with it.
      split at h
      next loses =>
        simp only [Except.ok.injEq, Prod.mk.injEq] at h
        obtain ⟨rfl, rfl⟩ := h
        refine ⟨rfl, fun _ member => member, fun _ member => .inl member, fun _ _ => rfl,
          by simp, fun _ => ⟨route2, List.mem_cons_self, ?_⟩⟩
        rw [above]
        exact decide_eq_true ⟨loses.1.symm, loses.2⟩
      next notLoses =>
        rw [except_bind_eq_ok] at h
        obtain ⟨⟨stays', rest⟩, inner, h⟩ := h
        have notAbove : medDom .deterministic route2 route = false := by
          rw [above]
          exact decide_eq_false fun both => notLoses ⟨both.1.symm, both.2⟩
        simp only at h
        split at h
        next eliminates =>
          simp only [Except.ok.injEq, Prod.mk.injEq] at h
          obtain ⟨rfl, rfl⟩ := h
          rw [decide_eq_true eliminates] at below
          exact (inductionHypothesis inner).cons_deleted below notAbove
        next notEliminates =>
          simp only [Except.ok.injEq, Prod.mk.injEq] at h
          obtain ⟨rfl, rfl⟩ := h
          rw [decide_eq_false notEliminates] at below
          exact (inductionHypothesis inner).cons_kept below notAbove

/-- The inner loop fails only on a path without neighbour AS. -/
theorem medInner_total (route : Cand) (asn : Int) {before : List (Option Cand)}
    (known : ∀ c, some c ∈ before → HasLastAs c) :
    ∃ stays after, medInner route asn before = .ok (stays, after) := by
  induction before with
  | nil => exact ⟨_, _, rfl⟩
  | cons entry before inductionHypothesis =>
    obtain ⟨stays, after, inner⟩ :=
      inductionHypothesis fun c member => known c (List.mem_cons_of_mem _ member)
    cases entry with
    | none => exact ⟨stays, none :: after, by simp [medInner, inner, bind, Except.bind]⟩
    | some route2 =>
      obtain ⟨asn2, asRoute2⟩ := known route2 List.mem_cons_self
      simp only [medInner, asRoute2, inner, bind, Except.bind]
      split
      · exact ⟨_, _, rfl⟩
      · split
        · exact ⟨_, _, rfl⟩
        · exact ⟨_, _, rfl⟩

theorem medInner_error {route : Cand} {asn : Int} {before : List (Option Cand)} {e : Abort}
    (h : medInner route asn before = .error e) : e = .pathLastAs := by
  induction before generalizing e with
  | nil => cases h
  | cons entry before inductionHypothesis =>
    cases entry with
    | none =>
      cases inner : medInner route asn before with
      | error e' =>
        simp only [medInner, inner, bind, Except.bind, Except.error.injEq] at h
        exact inductionHypothesis (h ▸ inner)
      | ok result => simp [medInner, inner, bind, Except.bind] at h
    | some route2 =>
      by_cases known : HasLastAs route2
      · obtain ⟨asn2, asRoute2⟩ := known
        simp only [medInner, asRoute2, bind, Except.bind] at h
        split at h
        · cases h
        · cases inner : medInner route asn before with
          | error e' =>
            simp only [inner, Except.error.injEq] at h
            exact inductionHypothesis (h ▸ inner)
          | ok result =>
            simp only [inner] at h
            split at h <;> cases h
      · simp only [medInner, lastAs_error known, bind, Except.bind, Except.error.injEq] at h
        exact h.symm

/-- One iteration of the outer loop: the marks behind a route do not change what is undominated. -/
theorem MedInnerSpec.undominated_eq {route : Cand} {rest after : List (Option Cand)} {stays : Bool}
    (spec : MedInnerSpec route rest after stays) :
    undominated (medDom .deterministic) (route :: rest.filterMap id) =
      (if stays then [route] else []) ++ undominated (medDom .deterministic) (after.filterMap id) := by
  have strict := medDom_strict .deterministic
  have mem_present (l : List (Option Cand)) (c : Cand) : c ∈ l.filterMap id ↔ some c ∈ l := by simp
  -- The routes behind: those deleted are eliminated by `route`, and `route` eliminates no other
  -- route that stays undominated.
  have behind : (rest.filterMap id).filter
        (fun c => (route :: rest.filterMap id).all fun d => !medDom .deterministic d c)
      = undominated (medDom .deterministic) (after.filterMap id) := by
    rw [← spec.filtered _ fun c below => by simp [below], undominated]
    apply List.filter_congr
    intro c present
    rw [mem_present] at present
    rw [Bool.eq_iff_iff, List.all_eq_true, List.all_eq_true]
    constructor
    · intro free d member
      exact free d (List.mem_cons_of_mem _
        ((mem_present _ _).mpr (spec.subset d ((mem_present _ _).mp member))))
    · intro free d member
      have routeFree : medDom .deterministic route c = false := by
        cases stays with
        | true => exact (spec.wins rfl c (spec.subset c present)).2 present
        | false =>
          obtain ⟨d, kept, above⟩ := spec.loses rfl
          by_contra below
          have := strict.trans above (show medDom .deterministic route c = true by simpa using below)
          simpa [this] using free d ((mem_present _ _).mpr kept)
      rcases List.mem_cons.mp member with rfl | member
      · simp [routeFree]
      · rcases spec.deleted d ((mem_present _ _).mp member) with kept | below
        · exact free d ((mem_present _ _).mpr kept)
        · by_contra dominates
          have := strict.trans below (show medDom .deterministic d c = true by simpa using dominates)
          simp [this] at routeFree
  rw [← behind, undominated]
  cases stays with
  | true =>
    rw [List.filter_cons_of_pos]
    · rfl
    · rw [List.all_eq_true]
      intro d member
      rcases List.mem_cons.mp member with rfl | member
      · simp [strict.irrefl]
      · simp [(spec.wins rfl d ((mem_present _ _).mp member)).1]
  | false =>
    obtain ⟨d, kept, above⟩ := spec.loses rfl
    rw [List.filter_cons_of_neg]
    · rfl
    · rw [List.all_eq_true]
      intro free
      simpa [above] using free d (List.mem_cons_of_mem _ ((mem_present _ _).mpr (spec.subset d kept)))

/-- The outer loop, on paths that all have a neighbour AS: what is left is undominated. -/
theorem medOuter_ok (entries : List (Option Cand))
    (known : ∀ c, some c ∈ entries → HasLastAs c) :
    ∃ marked, medOuter entries.length entries = .ok marked ∧
      marked.filterMap id = undominated (medDom .deterministic) (entries.filterMap id) := by
  generalize size : entries.length = n
  induction n generalizing entries with
  | zero =>
    rw [List.length_eq_zero_iff.mp size]
    exact ⟨[], rfl, rfl⟩
  | succ n inductionHypothesis =>
    match entries, size with
    | none :: rest, size =>
      obtain ⟨marked, outer, left⟩ := inductionHypothesis _
        (fun c member => known c (List.mem_cons_of_mem _ member)) (Nat.succ.inj size)
      exact ⟨none :: marked, by simp [medOuter, outer, bind, Except.bind], by simpa using left⟩
    | some route :: rest, size =>
      obtain ⟨asn, asRoute⟩ := known route List.mem_cons_self
      have knownRest : ∀ c, some c ∈ rest → HasLastAs c := fun c member =>
        known c (List.mem_cons_of_mem _ member)
      obtain ⟨stays, after, inner⟩ := medInner_total route asn knownRest
      have spec := medInner_ok asRoute inner
      obtain ⟨marked, outer, left⟩ := inductionHypothesis _
        (fun c member => knownRest c (spec.subset c member))
        (spec.length.trans (Nat.succ.inj size))
      refine ⟨(if stays then some route else none) :: marked,
        by simp [medOuter, asRoute, inner, outer, bind, Except.bind], ?_⟩
      change _ = undominated (medDom .deterministic) (route :: rest.filterMap id)
      rw [spec.undominated_eq, ← left]
      cases stays with
      | true => rfl
      | false => rfl

/-- A path without neighbour AS stops the outer loop. -/
theorem medOuter_error (entries : List (Option Cand)) {c : Cand} (present : some c ∈ entries)
    (unknown : ¬ HasLastAs c) : medOuter entries.length entries = .error .pathLastAs := by
  generalize size : entries.length = n
  induction n generalizing entries with
  | zero =>
    rw [List.length_eq_zero_iff.mp size] at present
    cases present
  | succ n inductionHypothesis =>
    match entries, size with
    | none :: rest, size =>
      have inRest : some c ∈ rest := by simpa using present
      simp [medOuter, inductionHypothesis _ inRest (Nat.succ.inj size), bind, Except.bind]
    | some route :: rest, size =>
      by_cases known : HasLastAs route
      · obtain ⟨asn, asRoute⟩ := known
        cases inner : medInner route asn rest with
        | error e =>
          simp [medOuter, asRoute, inner, medInner_error inner, bind, Except.bind]
        | ok result =>
          obtain ⟨stays, after⟩ := result
          have spec := medInner_ok asRoute inner
          have inRest : some c ∈ rest := by
            rcases List.mem_cons.mp present with same | member
            · cases same
              exact absurd ⟨asn, asRoute⟩ unknown
            · exact member
          have inAfter : some c ∈ after := by
            rcases spec.deleted c inRest with kept | below
            · exact kept
            · obtain ⟨asn', _, known, _⟩ := medDom_deterministic.mp below
              exact absurd ⟨asn', known⟩ unknown
          simp [medOuter, asRoute, inner, bind, Except.bind,
            inductionHypothesis _ inAfter (spec.length.trans (Nat.succ.inj size))]
      · simp [medOuter, lastAs_error known, bind, Except.bind]

/-- The rule keeps the undominated routes when every path has a neighbour AS, or none is needed. -/
theorem dpRuleLowestMed_eq {router : Router} {routes : List Cand}
    (known : router.env.medType = .deterministic → ∀ c ∈ routes, HasLastAs c) :
    dpRuleLowestMed router routes = .ok (undominated (medDom router.env.medType) routes) := by
  cases mode : router.env.medType with
  | alwaysCompare =>
    simp only [dpRuleLowestMed, mode]
    rw [keepBest_eq_undominated _ weakOrder_uint32_lt]
    · rfl
    · intro c _
      exact uint32_not_max_lt _
  | deterministic =>
    obtain ⟨marked, outer, left⟩ := medOuter_ok (routes.map some) fun c member =>
      known mode c (by simpa using member)
    simp only [dpRuleLowestMed, mode]
    rw [List.length_map] at outer
    rw [outer]
    simp only [bind, Except.bind, left]
    simp [List.filterMap_map]

theorem dpRuleLowestMed_error {router : Router} {routes : List Cand}
    (mode : router.env.medType = .deterministic) (unknown : ¬ ∀ c ∈ routes, HasLastAs c) :
    dpRuleLowestMed router routes = .error .pathLastAs := by
  push Not at unknown
  obtain ⟨c, member, unknown⟩ := unknown
  have outer := medOuter_error (routes.map some) (by simpa using member) unknown
  rw [List.length_map] at outer
  simp [dpRuleLowestMed, mode, outer, bind, Except.bind]

end Cbgp.Verified
