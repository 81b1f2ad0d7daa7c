import Cbgp.Bgp.DecisionProcess
import Cbgp.Lib.Run
import Cbgp.Verified.DpRules

/-! # The decision process selects one route

`_bgp_router_decision_process_run` against its specification: the nine elimination relations
applied in sequence.  The run agrees with it exactly under `SelectionFits`, the conditions the
bounded accumulators and assertions of the rules put on the candidates
(`decisionProcessRun_selects_iff`), and never depends on the order of the candidates
(`decisionProcessRun_perm`).
-/

namespace Cbgp.Verified

open Cbgp.Lib Cbgp.Net Cbgp.Bgp

/-! ## The rules and their relations -/

/-- The nine rules in order, each with its elimination relation. -/
def rulePairs (router : Router) : List (DpRule × (Cand → Cand → Bool)) :=
  [(dpRuleHighestPref, prefDom), (dpRuleShortestPath, pathDom), (dpRuleLowestOrigin, originDom),
   (dpRuleLowestMed, medDom router.env.medType), (dpRuleEbgpOverIbgp, ebgpDom router.asn),
   (dpRuleNearestNextHop, igpDom router.rt), (dpRuleLowestRouterId, routerIdDom),
   (dpRuleShortestClusterList, clusterDom), (dpRuleLowestNeighborAddress, addrDom)]

/-- The lexicographic order of the decision process: what eliminates what, rule by rule. -/
def dpOrder (router : Router) : List (Cand → Cand → Bool) :=
  (rulePairs router).map (·.2)

/-- The routes left after the first `n` rules, by the specification. -/
def leftAfter (router : Router) (n : Nat) (routes : List Cand) : List Cand :=
  survivors ((dpOrder router).take n) routes

theorem dpRules_eq (router : Router) :
    dpRules = (rulePairs router).map (fun pair => some pair.1) ++ [none, none] := rfl

theorem rulePairs_strict (router : Router) : ∀ pair ∈ rulePairs router, StrictRule pair.2 := by
  intro pair member
  simp only [rulePairs, List.mem_cons, List.not_mem_nil, or_false] at member
  obtain rfl | rfl | rfl | rfl | rfl | rfl | rfl | rfl | rfl := member
  · exact prefDom_weak.strictRule
  · exact pathDom_weak.strictRule
  · exact originDom_weak.strictRule
  · exact medDom_strict _
  · exact (ebgpDom_weak _).strictRule
  · exact (igpDom_weak _).strictRule
  · exact routerIdDom_weak.strictRule
  · exact clusterDom_weak.strictRule
  · exact addrDom_weak.strictRule

theorem dpOrder_strict (router : Router) : ∀ dom ∈ dpOrder router, StrictRule dom := by
  intro dom member
  obtain ⟨pair, memberPair, rfl⟩ := List.mem_map.mp member
  exact rulePairs_strict router pair memberPair

/-! ## The loop over the rules -/

theorem applyRules_short (router : Router) (slots : List (Option DpRule)) (index : Nat)
    {routes : List Cand} (short : routes.length ≤ 1) :
    applyRules router slots index routes = .ok (index, routes) := by
  cases slots with
  | nil => rfl
  | cons slot slots =>
    cases slot with
    | none => rw [applyRules, if_pos short]
    | some rule => rw [applyRules, if_pos short]

theorem applyRules_step {router : Router} {rule : DpRule} {slots : List (Option DpRule)}
    {index : Nat} {routes : List Cand} (several : 2 ≤ routes.length) :
    applyRules router (some rule :: slots) index routes =
      (rule router routes).bind fun left => applyRules router slots (index + 1) left := by
  rw [applyRules, if_neg (by omega)]
  rfl

/-- Each of the rules computes its relation on the list it gets, when it gets several routes. -/
def Computes (router : Router) : List (DpRule × (Cand → Cand → Bool)) → List Cand → Prop
  | [], _ => True
  | (rule, dom) :: pairs, routes =>
    (2 ≤ routes.length → rule router routes = .ok (undominated dom routes)) ∧
      Computes router pairs (undominated dom routes)

/-- While several routes are left, the loop goes on to the next slot. -/
theorem applyRules_several {router : Router} {pairs : List (DpRule × (Cand → Cand → Bool))}
    (slots : List (Option DpRule)) (index : Nat) {routes : List Cand}
    (computes : Computes router pairs routes)
    (several : 2 ≤ (survivors (pairs.map (·.2)) routes).length) :
    applyRules router (pairs.map (fun pair => some pair.1) ++ slots) index routes =
      applyRules router slots (index + pairs.length) (survivors (pairs.map (·.2)) routes) := by
  induction pairs generalizing index routes with
  | nil => rfl
  | cons pair pairs inductionHypothesis =>
    obtain ⟨rule, dom⟩ := pair
    obtain ⟨computed, rest⟩ := computes
    have several' : 2 ≤ routes.length :=
      Nat.le_trans several (survivors_sublist _ routes).length_le
    simp only [List.map_cons, List.cons_append]
    rw [applyRules_step several', computed several']
    have next := inductionHypothesis (index + 1) rest several
    simp only [Except.bind, next, survivors_cons, List.length_cons]
    congr 1
    omega

/-- Once at most one route is left, the loop stops with it. -/
theorem applyRules_single {router : Router} {pairs : List (DpRule × (Cand → Cand → Bool))}
    (slots : List (Option DpRule)) (index : Nat) {routes : List Cand}
    (strict : ∀ pair ∈ pairs, StrictRule pair.2) (computes : Computes router pairs routes)
    (single : (survivors (pairs.map (·.2)) routes).length ≤ 1) :
    ∃ stop, stop ≤ index + pairs.length ∧
      applyRules router (pairs.map (fun pair => some pair.1) ++ slots) index routes =
        .ok (stop, survivors (pairs.map (·.2)) routes) := by
  induction pairs generalizing index routes with
  | nil => exact ⟨index, Nat.le_refl _, applyRules_short router slots index single⟩
  | cons pair pairs inductionHypothesis =>
    obtain ⟨rule, dom⟩ := pair
    obtain ⟨computed, rest⟩ := computes
    by_cases short : routes.length ≤ 1
    · have same : survivors (((rule, dom) :: pairs).map (·.2)) routes = routes := by
        refine survivors_short (fun d member => ?_) short
        obtain ⟨pair, memberPair, rfl⟩ := List.mem_map.mp member
        exact strict pair memberPair
      exact ⟨index, Nat.le_add_right _ _, by rw [same]; exact applyRules_short _ _ _ short⟩
    · have several : 2 ≤ routes.length := by omega
      obtain ⟨stop, bound, next⟩ := inductionHypothesis (index + 1)
        (fun pair member => strict pair (List.mem_cons_of_mem _ member)) rest single
      refine ⟨stop, by simp only [List.length_cons]; omega, ?_⟩
      simp only [List.map_cons, List.cons_append]
      rw [applyRules_step several, computed several]
      exact next

/-! ## When the run selects one route -/

/-- What the candidates must be like for the rules to compute their relations.  Each condition is
about a list of several routes left by the rules before. -/
structure SelectionFits (router : Router) (routes : List Cand) : Prop where
  path : 2 ≤ (leftAfter router 1 routes).length →
    ∃ c ∈ leftAfter router 1 routes, pathLength c.attr.path ≤ 255
  lastAs : router.env.medType = .deterministic → 2 ≤ (leftAfter router 3 routes).length →
    ∀ c ∈ leftAfter router 3 routes, HasLastAs c
  cluster : 2 ≤ (leftAfter router 7 routes).length → ClusterLensFit (leftAfter router 7 routes)

/-- The run ends with a single route, the one the nine rules leave, and no slot beyond them was
reached. -/
def SelectsOne (router : Router) (routes : List Cand) : Prop :=
  ∃ index best, bgpRouterDecisionProcessRun router routes = .ok (index, [best]) ∧ index ≤ 9 ∧
    survivors (dpOrder router) routes = [best]

/-- Every next-hop has a route, as for the routes `bgp_router_get_feasible_routes` collects. -/
def NextHopsReachable (router : Router) (routes : List Cand) : Prop :=
  ∀ c ∈ routes, (rtFindBest router.rt c.attr.nextHop netRouteAny).isSome

theorem leftAfter_subset (router : Router) (n : Nat) {routes : List Cand} {c : Cand}
    (member : c ∈ leftAfter router n routes) : c ∈ routes :=
  (survivors_sublist _ routes).subset member

/-- The nine rules compute their relations on fitting candidates. -/
theorem computes_rulePairs {router : Router} {routes : List Cand}
    (reachable : NextHopsReachable router routes) (fits : SelectionFits router routes) :
    Computes router (rulePairs router) routes := by
  refine ⟨fun _ => dpRuleHighestPref_eq router _, fun several => ?_,
    fun _ => dpRuleLowestOrigin_eq router _, fun several => ?_,
    fun _ => dpRuleEbgpOverIbgp_eq router _, fun _ => ?_,
    fun _ => dpRuleLowestRouterId_eq router _, fun several => ?_,
    fun _ => dpRuleLowestNeighborAddress_eq router _, trivial⟩
  · exact dpRuleShortestPath_eq (fits.path several)
  · exact dpRuleLowestMed_eq fun mode => fits.lastAs mode several
  · exact dpRuleNearestNextHop_eq fun c member =>
      reachable c (leftAfter_subset router 5 member)
  · exact dpRuleShortestClusterList_eq (fits.cluster several)

/-- Routes from peers with distinct addresses: the last rule leaves at most one. -/
theorem undominated_addrDom_length {routes : List Cand} (distinct : (routes.map Cand.addr).Nodup) :
    (undominated addrDom routes).length ≤ 1 := by
  have nodup : (undominated addrDom routes).Nodup :=
    (distinct.of_map).sublist (undominated_sublist _ _)
  by_contra several
  obtain ⟨c, d, rest, shape⟩ : ∃ c d rest, undominated addrDom routes = c :: d :: rest := by
    match undominated addrDom routes, several with
    | [], several => simp at several
    | [_], several => simp at several
    | c :: d :: rest, _ => exact ⟨c, d, rest, rfl⟩
  have memberC : c ∈ undominated addrDom routes := by simp [shape]
  have memberD : d ∈ undominated addrDom routes := by simp [shape]
  obtain ⟨inC, freeC⟩ := mem_undominated.mp memberC
  obtain ⟨inD, freeD⟩ := mem_undominated.mp memberD
  have sameAddr : c.addr = d.addr := by
    have := freeC d inD
    have := freeD c inC
    simp only [addrDom, decide_eq_false_iff_not] at *
    grind
  have same : c = d := List.inj_on_of_nodup_map distinct inC inD sameAddr
  rw [shape, same] at nodup
  simp at nodup

theorem dpOrder_eq (router : Router) :
    dpOrder router = (dpOrder router).take 8 ++ [addrDom] := rfl

theorem survivors_dpOrder_length (router : Router) {routes : List Cand}
    (distinct : (routes.map Cand.addr).Nodup) : (survivors (dpOrder router) routes).length ≤ 1 := by
  rw [dpOrder_eq, survivors_append]
  refine undominated_addrDom_length (distinct.sublist ?_)
  exact (survivors_sublist _ routes).map _

/-- On fitting candidates the run ends with what the nine rules leave. -/
theorem decisionProcessRun_eq {router : Router} {routes : List Cand}
    (distinct : (routes.map Cand.addr).Nodup) (reachable : NextHopsReachable router routes)
    (fits : SelectionFits router routes) :
    ∃ index, index ≤ 9 ∧
      bgpRouterDecisionProcessRun router routes = .ok (index, survivors (dpOrder router) routes) := by
  have single := survivors_dpOrder_length router distinct
  obtain ⟨index, bound, applied⟩ := applyRules_single [none, none] 0
    (rulePairs_strict router) (computes_rulePairs reachable fits) single
  refine ⟨index, bound, ?_⟩
  rw [bgpRouterDecisionProcessRun, dpRules_eq router, applied]
  exact if_neg (Nat.not_lt.mpr single)

/-- A rule that empties the list, or fails, ends the run without a route. -/
theorem run_ne_single_of_stage {router : Router} {routes : List Cand} {index : Nat} {best : Cand}
    (pairs : List (DpRule × (Cand → Cand → Bool))) (rule : DpRule) {slots : List (Option DpRule)}
    (shape : dpRules = pairs.map (fun pair => some pair.1) ++ some rule :: slots)
    (computes : Computes router pairs routes)
    (several : 2 ≤ (survivors (pairs.map (·.2)) routes).length)
    (fails : rule router (survivors (pairs.map (·.2)) routes) = .ok [] ∨
      ∃ e, rule router (survivors (pairs.map (·.2)) routes) = .error e) :
    bgpRouterDecisionProcessRun router routes ≠ .ok (index, [best]) := by
  intro ran
  rw [bgpRouterDecisionProcessRun, shape, applyRules_several _ _ computes several,
    applyRules_step several] at ran
  rcases fails with emptied | ⟨e, failed⟩
  · rw [emptied] at ran
    have stops : applyRules router slots (0 + pairs.length + 1) [] = .ok (0 + pairs.length + 1, []) :=
      applyRules_short router slots _ (by simp)
    simp only [Except.bind, stops] at ran
    simp [bind, Except.bind] at ran
  · rw [failed] at ran
    simp [bind, Except.bind] at ran

/-- Candidates of which the run selects one fit: otherwise some rule fails or empties the list. -/
theorem SelectionFits.of_run {router : Router} {routes : List Cand} {index : Nat} {best : Cand}
    (reachable : NextHopsReachable router routes)
    (ran : bgpRouterDecisionProcessRun router routes = .ok (index, [best])) :
    SelectionFits router routes := by
  have path : 2 ≤ (leftAfter router 1 routes).length →
      ∃ c ∈ leftAfter router 1 routes, pathLength c.attr.path ≤ 255 := by
    intro several
    by_contra long
    push Not at long
    exact run_ne_single_of_stage ((rulePairs router).take 1) dpRuleShortestPath rfl
      ⟨fun _ => dpRuleHighestPref_eq router _, trivial⟩ several
      (.inl (dpRuleShortestPath_nil long)) ran
  have lastAs : router.env.medType = .deterministic → 2 ≤ (leftAfter router 3 routes).length →
      ∀ c ∈ leftAfter router 3 routes, HasLastAs c := by
    intro mode several
    by_contra unknown
    refine run_ne_single_of_stage ((rulePairs router).take 3) dpRuleLowestMed rfl ?_ several
      (.inr ⟨_, dpRuleLowestMed_error mode unknown⟩) ran
    exact ⟨fun _ => dpRuleHighestPref_eq router _, fun several => dpRuleShortestPath_eq (path several),
      fun _ => dpRuleLowestOrigin_eq router _, trivial⟩
  refine ⟨path, lastAs, fun several => ?_⟩
  by_contra misfit
  refine run_ne_single_of_stage ((rulePairs router).take 7) dpRuleShortestClusterList rfl ?_
    several (.inl (dpRuleShortestClusterList_nil misfit)) ran
  exact ⟨fun _ => dpRuleHighestPref_eq router _, fun several => dpRuleShortestPath_eq (path several),
    fun _ => dpRuleLowestOrigin_eq router _,
    fun several => dpRuleLowestMed_eq fun mode => lastAs mode several,
    fun _ => dpRuleEbgpOverIbgp_eq router _,
    fun _ => dpRuleNearestNextHop_eq fun c member => reachable c (leftAfter_subset router 5 member),
    fun _ => dpRuleLowestRouterId_eq router _, trivial⟩

/-- The nine rules leave exactly one of several candidates from distinct peers. -/
theorem survivors_dpOrder_eq_single (router : Router) {routes : List Cand} (nonempty : routes ≠ [])
    (distinct : (routes.map Cand.addr).Nodup) :
    ∃ best, survivors (dpOrder router) routes = [best] :=
  List.length_eq_one_iff.mp (Nat.le_antisymm (survivors_dpOrder_length router distinct)
    (List.length_pos_iff.mpr (survivors_ne_nil (dpOrder_strict router) nonempty)))

theorem SelectionFits.selectsOne {router : Router} {routes : List Cand} (nonempty : routes ≠ [])
    (distinct : (routes.map Cand.addr).Nodup) (reachable : NextHopsReachable router routes)
    (fits : SelectionFits router routes) : SelectsOne router routes := by
  obtain ⟨index, bound, ran⟩ := decisionProcessRun_eq distinct reachable fits
  obtain ⟨best, left⟩ := survivors_dpOrder_eq_single router nonempty distinct
  exact ⟨index, best, by rw [ran, left], bound, left⟩

/-- The run selects one route, the least in the order of the nine rules, exactly when the
candidates fit. -/
theorem decisionProcessRun_selects_iff (router : Router) (routes : List Cand)
    (nonempty : routes ≠ []) (distinct : (routes.map Cand.addr).Nodup)
    (reachable : NextHopsReachable router routes) :
    SelectsOne router routes ↔ SelectionFits router routes :=
  ⟨fun ⟨_, _, ran, _⟩ => SelectionFits.of_run reachable ran,
    SelectionFits.selectsOne nonempty distinct reachable⟩

/-- A routing table with a default route only. -/
def defaultRt : NetRt :=
  (∅ : NetRt).insert ⟨0, 0, short0⟩ (RtInfos.single
    { pfx := ⟨0, 0, short0⟩, metric := 10, type := .static, entries := [⟨none, 1⟩] })

/-- A candidate with one given path and defaults for the rest. -/
def candOf (addr : NetAddr) (path : Path) : Cand :=
  { addr, peerAsn := 2, peerRouterId := addr,
    attr := { bgpAttrCreate addr .igp 0 0 with path := some path } }

/-- Two paths that end in an AS-SET stop the run in an assertion. -/
theorem decisionProcessRun_asSet : ¬ ∀ (router : Router) (routes : List Cand), routes ≠ [] →
    (routes.map Cand.addr).Nodup → NextHopsReachable router routes → SelectsOne router routes := by
  intro always
  obtain ⟨index, best, ran, -, -⟩ := always (bgpRouterCreate 1 1 defaultRt Env.default)
    [candOf 2 [⟨.set, [7, 8], by decide⟩], candOf 3 [⟨.set, [7, 9], by decide⟩]]
    (by decide) (by decide) (by unfold NextHopsReachable; decide)
  have aborts : bgpRouterDecisionProcessRun (bgpRouterCreate 1 1 defaultRt Env.default)
      [candOf 2 [⟨.set, [7, 8], by decide⟩], candOf 3 [⟨.set, [7, 9], by decide⟩]]
      = .error .pathLastAs := by rfl
  rw [aborts] at ran
  cases ran

/-- Two routes of different length: the shorter one is selected. -/
theorem decisionProcessRun_selects_shorter :
    SelectsOne (bgpRouterCreate 1 1 defaultRt Env.default)
        [candOf 2 [⟨.sequence, [7, 8], by decide⟩], candOf 3 [⟨.sequence, [7], by decide⟩]] ↔
      SelectionFits (bgpRouterCreate 1 1 defaultRt Env.default)
        [candOf 2 [⟨.sequence, [7, 8], by decide⟩], candOf 3 [⟨.sequence, [7], by decide⟩]] :=
  decisionProcessRun_selects_iff _ _ (by decide) (by decide) (by unfold NextHopsReachable; decide)

/-! ## Independence of the order -/

/-- Two outcomes of a rule that differ at most in the order of the routes. -/
def SameLeft (x y : Except Abort (List Cand)) : Prop :=
  (∃ e, x = .error e ∧ y = .error e) ∨ ∃ left left', x = .ok left ∧ y = .ok left' ∧ left.Perm left'

/-- A rule whose outcome does not depend on the order of the candidates. -/
def OrderFree (router : Router) (rule : DpRule) : Prop :=
  ∀ {routes routes' : List Cand}, routes.Perm routes' →
    SameLeft (rule router routes) (rule router routes')

/-- A rule that computes its relation on one order of the candidates and on the other. -/
theorem sameLeft_undominated {x y : Except Abort (List Cand)} {dom : Cand → Cand → Bool}
    {routes routes' : List Cand} (perm : routes.Perm routes')
    (first : x = .ok (undominated dom routes)) (second : y = .ok (undominated dom routes')) :
    SameLeft x y :=
  .inr ⟨_, _, first, second, undominated_perm perm⟩

theorem dpRuleShortestPath_orderFree (router : Router) : OrderFree router dpRuleShortestPath := by
  intro routes routes' perm
  by_cases short : ∃ c ∈ routes, pathLength c.attr.path ≤ 255
  · exact sameLeft_undominated perm (dpRuleShortestPath_eq short)
      (dpRuleShortestPath_eq (by simpa only [perm.mem_iff] using short))
  · push Not at short
    exact .inr ⟨[], [], dpRuleShortestPath_nil short,
      dpRuleShortestPath_nil (by simpa only [perm.mem_iff] using short), List.Perm.refl _⟩

theorem dpRuleLowestMed_orderFree (router : Router) : OrderFree router dpRuleLowestMed := by
  intro routes routes' perm
  by_cases known : router.env.medType = .deterministic → ∀ c ∈ routes, HasLastAs c
  · exact sameLeft_undominated perm (dpRuleLowestMed_eq known)
      (dpRuleLowestMed_eq (by simpa only [perm.mem_iff] using known))
  · obtain ⟨mode, unknown⟩ := Classical.not_imp.mp known
    exact .inl ⟨_, dpRuleLowestMed_error mode unknown,
      dpRuleLowestMed_error mode (by simpa only [perm.mem_iff] using unknown)⟩

theorem dpRuleNearestNextHop_orderFree (router : Router) :
    OrderFree router dpRuleNearestNextHop := by
  intro routes routes' perm
  by_cases reachable : NextHopsReachable router routes
  · exact sameLeft_undominated perm (dpRuleNearestNextHop_eq reachable)
      (dpRuleNearestNextHop_eq fun c member => reachable c (perm.mem_iff.mpr member))
  · exact .inl ⟨_, dpRuleNearestNextHop_error reachable,
      dpRuleNearestNextHop_error fun all => reachable fun c member => all c (perm.mem_iff.mp member)⟩

theorem dpRuleShortestClusterList_orderFree (router : Router) :
    OrderFree router dpRuleShortestClusterList := by
  intro routes routes' perm
  have fits : ClusterLensFit routes ↔ ClusterLensFit routes' := by
    simp only [ClusterLensFit, perm.mem_iff]
  by_cases fit : ClusterLensFit routes
  · exact sameLeft_undominated perm (dpRuleShortestClusterList_eq fit)
      (dpRuleShortestClusterList_eq (fits.mp fit))
  · exact .inr ⟨[], [], dpRuleShortestClusterList_nil fit,
      dpRuleShortestClusterList_nil fun h => fit (fits.mpr h), List.Perm.refl _⟩

theorem rulePairs_orderFree (router : Router) :
    ∀ pair ∈ rulePairs router, OrderFree router pair.1 := by
  intro pair member
  simp only [rulePairs, List.mem_cons, List.not_mem_nil, or_false] at member
  rcases member with rfl | rfl | rfl | rfl | rfl | rfl | rfl | rfl | rfl
  · exact fun perm => sameLeft_undominated perm
      (dpRuleHighestPref_eq router _) (dpRuleHighestPref_eq router _)
  · exact dpRuleShortestPath_orderFree router
  · exact fun perm => sameLeft_undominated perm
      (dpRuleLowestOrigin_eq router _) (dpRuleLowestOrigin_eq router _)
  · exact dpRuleLowestMed_orderFree router
  · exact fun perm => sameLeft_undominated perm
      (dpRuleEbgpOverIbgp_eq router _) (dpRuleEbgpOverIbgp_eq router _)
  · exact dpRuleNearestNextHop_orderFree router
  · exact fun perm => sameLeft_undominated perm
      (dpRuleLowestRouterId_eq router _) (dpRuleLowestRouterId_eq router _)
  · exact dpRuleShortestClusterList_orderFree router
  · exact fun perm => sameLeft_undominated perm
      (dpRuleLowestNeighborAddress_eq router _) (dpRuleLowestNeighborAddress_eq router _)

/-- The loop over the rules stops at the same index, or with the same error, in either order. -/
theorem applyRules_perm {router : Router} {slots : List (Option DpRule)}
    (orderFree : ∀ rule, some rule ∈ slots → OrderFree router rule) (index : Nat)
    {routes routes' : List Cand} (perm : routes.Perm routes') :
    (∃ e, applyRules router slots index routes = .error e ∧
        applyRules router slots index routes' = .error e) ∨
      ∃ stop left left', applyRules router slots index routes = .ok (stop, left) ∧
        applyRules router slots index routes' = .ok (stop, left') ∧ left.Perm left' := by
  induction slots generalizing index routes routes' with
  | nil => exact .inr ⟨index, routes, routes', rfl, rfl, perm⟩
  | cons slot slots inductionHypothesis =>
    by_cases short : routes.length ≤ 1
    · refine .inr ⟨index, routes, routes', applyRules_short _ _ _ short, ?_, perm⟩
      exact applyRules_short _ _ _ (perm.length_eq ▸ short)
    · have several : 2 ≤ routes.length := by omega
      have several' : 2 ≤ routes'.length := perm.length_eq ▸ several
      cases slot with
      | none =>
        refine .inl ⟨.dpRuleUnset, ?_, ?_⟩
        · rw [applyRules, if_neg (by omega)]
        · rw [applyRules, if_neg (by omega)]
      | some rule =>
        rw [applyRules_step several, applyRules_step several']
        rcases orderFree rule List.mem_cons_self perm with
          ⟨e, first, second⟩ | ⟨left, left', first, second, leftPerm⟩
        · rw [first, second]
          exact .inl ⟨e, rfl, rfl⟩
        · rw [first, second]
          exact inductionHypothesis
            (fun rule member => orderFree rule (List.mem_cons_of_mem _ member)) _ leftPerm

/-- The run has the same outcome for every order of the candidates. -/
theorem decisionProcessRun_perm (router : Router) {routes routes' : List Cand}
    (perm : routes.Perm routes') :
    bgpRouterDecisionProcessRun router routes = bgpRouterDecisionProcessRun router routes' := by
  have orderFree : ∀ rule, some rule ∈ dpRules → OrderFree router rule := by
    intro rule member
    rw [dpRules_eq router] at member
    simp only [List.mem_append, List.mem_map, List.mem_cons, reduceCtorEq, List.not_mem_nil,
      or_false, Option.some.injEq] at member
    obtain ⟨pair, memberPair, rfl⟩ := member
    exact rulePairs_orderFree router pair memberPair
  rcases applyRules_perm orderFree 0 perm with
    ⟨e, first, second⟩ | ⟨stop, left, left', first, second, leftPerm⟩
  · simp only [bgpRouterDecisionProcessRun, first, second]
  · simp only [bgpRouterDecisionProcessRun, first, second, bind, Except.bind]
    by_cases several : 1 < left.length
    · rw [if_pos several, if_pos (leftPerm.length_eq ▸ several)]
    · have same : left = left' := by
        match left, left', leftPerm, several with
        | [], _, leftPerm, _ => exact (List.perm_nil.mp leftPerm.symm).symm
        | [c], _, leftPerm, _ => exact (List.perm_singleton.mp leftPerm.symm).symm
        | _ :: _ :: _, _, _, several => simp at several
      rw [same]

/-! ## Candidates within the bounds -/

/-- The path is empty or ends in a sequence that has a hop. -/
def EndsInSequence (path : Option Path) : Prop :=
  ∀ seg, (path.getD []).getLast? = some seg → seg.type = .sequence ∧ seg.asns ≠ []

/-- The bounds of the accumulators: at most 255 hops and 255 clusters, and a path that ends in a
sequence. -/
structure WithinBounds (c : Cand) : Prop where
  path : pathLength c.attr.path ≤ 255
  lastSegment : EndsInSequence c.attr.path
  cluster : c.clusterLen ≤ 255

theorem EndsInSequence.hasLastAs {c : Cand} (ends : EndsInSequence c.attr.path) : HasLastAs c := by
  unfold HasLastAs Cand.lastAs pathLastAs
  split
  · exact ⟨_, rfl⟩
  · cases last : (c.attr.path.getD []).getLast? with
    | none => exact ⟨_, rfl⟩
    | some seg =>
      obtain ⟨kind, hops⟩ := ends seg last
      obtain ⟨asn, final⟩ : ∃ asn, seg.asns.getLast? = some asn :=
        ⟨_, List.getLast?_eq_some_getLast hops⟩
      simp only [kind, final]
      exact ⟨_, rfl⟩

/-- In deterministic mode the MED rule keeps, in their order, the routes that no route of the same
neighbour AS beats.  A path without hops counts as one of a neighbour of its own. -/
theorem dpRuleLowestMed_keeps {router : Router} {routes : List Cand}
    (mode : router.env.medType = .deterministic)
    (paths : ∀ c ∈ routes, pathLength c.attr.path = 0 ∨ EndsInSequence c.attr.path) :
    ∃ keep : Cand → Bool, dpRuleLowestMed router routes = .ok (routes.filter keep) ∧
      ∀ c ∈ routes, keep c = true ↔
        ∀ d ∈ routes, d.lastAs = c.lastAs → ¬ d.attr.med < c.attr.med := by
  have known : ∀ c ∈ routes, HasLastAs c := by
    intro c member
    rcases paths c member with hopless | ends
    · exact ⟨-1, by rw [Cand.lastAs, pathLastAs, if_pos hopless]⟩
    · exact ends.hasLastAs
  refine ⟨fun c => routes.all fun d => !medDom .deterministic d c, ?_, ?_⟩
  · rw [dpRuleLowestMed_eq fun _ => known, mode]
    rfl
  · intro c member
    obtain ⟨asn, lastAs⟩ := known c member
    simp only [List.all_eq_true, Bool.not_eq_true', ← Bool.not_eq_true, medDom_deterministic]
    constructor
    · intro unbeaten d member' same below
      exact unbeaten d member' ⟨asn, same.trans lastAs, lastAs, below⟩
    · rintro unbeaten d member' ⟨asn', lastAs', same, below⟩
      exact unbeaten d member' (lastAs'.trans same.symm) below

/-- A route of the AS, with a MED. -/
def medCand (asn : Asn) (med : UInt32) : Cand where
  addr := 1
  peerAsn := 9
  peerRouterId := 1
  attr := { bgpAttrCreate 1 .igp 0 med with path := some [sequenceOf asn] }

theorem medCand_ends (asn : Asn) (med : UInt32) : EndsInSequence (medCand asn med).attr.path := by
  intro seg last
  cases last
  exact ⟨rfl, List.cons_ne_nil _ _⟩

theorem medCand_lastAs (asn : Asn) (med : UInt32) : (medCand asn med).lastAs = .ok asn.toNat := rfl

/-- Of two routes of AS 2 the one with the higher MED goes; the route of AS 3 stays. -/
theorem medCand_kept :
    ∃ keep, dpRuleLowestMed (bgpRouterCreate 1 1 ∅ Env.default)
        [medCand 2 5, medCand 3 7, medCand 2 4] =
      .ok ([medCand 2 5, medCand 3 7, medCand 2 4].filter keep) ∧
      keep (medCand 2 5) = false ∧ keep (medCand 3 7) = true ∧ keep (medCand 2 4) = true := by
  have ends : ∀ c ∈ [medCand 2 5, medCand 3 7, medCand 2 4],
      pathLength c.attr.path = 0 ∨ EndsInSequence c.attr.path := by
    simp [medCand_ends]
  have mode : (bgpRouterCreate 1 1 ∅ Env.default).env.medType = .deterministic := rfl
  obtain ⟨keep, kept, keeps⟩ := dpRuleLowestMed_keeps mode ends
  refine ⟨keep, kept, ?_, ?_, ?_⟩
  · rw [← Bool.not_eq_true, keeps _ (by simp)]
    intro unbeaten
    exact unbeaten (medCand 2 4) (by simp) rfl (by decide)
  · rw [keeps _ (by simp)]
    simp only [List.forall_mem_cons, medCand_lastAs]
    decide
  · rw [keeps _ (by simp)]
    simp only [List.forall_mem_cons, medCand_lastAs]
    decide

theorem WithinBounds.selectionFits {router : Router} {routes : List Cand}
    (bounded : ∀ c ∈ routes, WithinBounds c) : SelectionFits router routes where
  path several := by
    obtain ⟨c, member⟩ := List.exists_mem_of_length_pos (Nat.lt_of_lt_of_le Nat.zero_lt_two several)
    exact ⟨c, member, (bounded c (leftAfter_subset router 1 member)).path⟩
  lastAs _ _ c member := (bounded c (leftAfter_subset router 3 member)).lastSegment.hasLastAs
  cluster several := by
    have nonempty : leftAfter router 7 routes ≠ [] := List.ne_nil_of_length_pos (by omega)
    obtain ⟨m, kept⟩ :=
      List.exists_mem_of_ne_nil _ (clusterDom_weak.strictRule.undominated_ne_nil nonempty)
    obtain ⟨member, free⟩ := mem_undominated.mp kept
    refine ⟨m, member, fun c memberC => ?_⟩
    have short := (bounded c (leftAfter_subset router 7 memberC)).cluster
    have notBelow := free c memberC
    simp only [clusterDom, decide_eq_false_iff_not] at notBelow
    omega

/-! ## The comparison of a decision process -/

theorem SelectionFits.of_short (router : Router) {routes : List Cand} (short : routes.length ≤ 1) :
    SelectionFits router routes := by
  have none_left (n : Nat) : ¬ 2 ≤ (leftAfter router n routes).length := by
    have := (survivors_sublist ((dpOrder router).take n) routes).length_le
    simp only [leftAfter]
    omega
  exact ⟨fun several => absurd several (none_left 1), fun _ several => absurd several (none_left 3),
    fun several => absurd several (none_left 7)⟩

/-- On fitting candidates the comparison leaves what the nine rules leave. -/
theorem compareRoutes_eq {router : Router} {routes : List Cand}
    (distinct : (routes.map Cand.addr).Nodup) (reachable : NextHopsReachable router routes)
    (fits : SelectionFits router routes) :
    compareRoutes router routes = .ok (survivors (dpOrder router) routes) := by
  unfold compareRoutes
  split
  · obtain ⟨index, _, ran⟩ := decisionProcessRun_eq distinct reachable fits
    rw [ran]
    rfl
  next single => rw [survivors_short (dpOrder_strict router) (Nat.le_of_not_lt single)]

theorem SelectionFits.of_compared {router : Router} {routes : List Cand} {best : Cand}
    (reachable : NextHopsReachable router routes)
    (compared : compareRoutes router routes = .ok [best]) : SelectionFits router routes := by
  unfold compareRoutes at compared
  split at compared
  · obtain ⟨⟨index, left⟩, ran, rfl⟩ := except_map_eq_ok.mp compared
    exact .of_run reachable ran
  next single => exact .of_short router (Nat.le_of_not_lt single)

/-- Fitting is a matter of the routes left by the rules, in any order. -/
theorem SelectionFits.congr {r s : Router} {routes routes' : List Cand}
    (fits : SelectionFits r routes) (medType : s.env.medType = r.env.medType)
    (left : ∀ n, (leftAfter s n routes').Perm (leftAfter r n routes)) :
    SelectionFits s routes' where
  path several := by
    rw [(left 1).length_eq] at several
    obtain ⟨c, member, short⟩ := fits.path several
    exact ⟨c, (left 1).mem_iff.mpr member, short⟩
  lastAs mode several c member := by
    rw [(left 3).length_eq] at several
    exact fits.lastAs (medType ▸ mode) several c ((left 3).mem_iff.mp member)
  cluster several := by
    rw [(left 7).length_eq] at several
    obtain ⟨m, member, shortest⟩ := fits.cluster several
    exact ⟨m, (left 7).mem_iff.mpr member,
      fun c memberC => shortest c ((left 7).mem_iff.mp memberC)⟩

/-! ## Independence of arrival and iteration order -/

/-- What the selection for a prefix reads of a peer: who it is, whether its session is up, and the
attributes and eligibility of its route. -/
def peerView (pfx : Pfx) (peer : Peer) : Asn × NetAddr × SessionState × Option (Attr × Bool) :=
  (peer.asn, peer.routerId, peer.sessionState,
    (peer.adjRibIn.findExact pfx).map fun route => (route.attr, route.flags.eligible))

/-- A candidate depends on the view of the peer and on the routing table only. -/
theorem candidate_of_view {r s : Router} (rt : s.rt = r.rt) {p q : Pfx} (addr : NetAddr)
    {peer peer' : Peer} (same : peerView q peer' = peerView p peer) :
    candidate s q addr peer' = candidate r p addr peer := by
  simp only [peerView, Prod.mk.injEq] at same
  obtain ⟨asn, routerId, state, route⟩ := same
  unfold candidate
  rw [asn, routerId, state]
  split
  · cases found : peer.adjRibIn.findExact p with
    | none =>
      rw [found] at route
      cases found' : peer'.adjRibIn.findExact q with
      | none => rfl
      | some r' => simp [found'] at route
    | some r =>
      rw [found] at route
      cases found' : peer'.adjRibIn.findExact q with
      | none => simp [found'] at route
      | some r' =>
        rw [found'] at route
        simp only [Option.map_some, Option.some.injEq, Prod.mk.injEq] at route
        simp only [nextHopReachable, rt, route.1, route.2]
        rfl
  · rfl

theorem mem_bgpRouterGetFeasibleRoutes {router : Router} {pfx : Pfx} {c : Cand} :
    c ∈ bgpRouterGetFeasibleRoutes router pfx ↔
      ∃ addr peer, router.peers.lookup addr = some peer ∧
        candidate router pfx addr peer = some c := by
  simp only [bgpRouterGetFeasibleRoutes, List.mem_filterMap]
  constructor
  · rintro ⟨⟨addr, peer⟩, member, found⟩
    exact ⟨addr, peer, Table.mem_entries_iff.mp member, found⟩
  · rintro ⟨addr, peer, held, found⟩
    exact ⟨⟨addr, peer⟩, Table.mem_entries_iff.mpr held, found⟩

theorem candidate_addr {router : Router} {pfx : Pfx} {addr : NetAddr} {peer : Peer} {c : Cand}
    (found : candidate router pfx addr peer = some c) : c.addr = addr := by
  unfold candidate at found
  grind

/-- The candidates of a prefix come from distinct peers. -/
theorem getFeasibleRoutes_distinct (router : Router) (pfx : Pfx) :
    ((bgpRouterGetFeasibleRoutes router pfx).map Cand.addr).Nodup := by
  have sub : ((bgpRouterGetFeasibleRoutes router pfx).map Cand.addr).Sublist router.peers.keys := by
    unfold bgpRouterGetFeasibleRoutes AList.keys List.keys
    induction router.peers.entries with
    | nil => exact List.Sublist.refl _
    | cons e entries inductionHypothesis =>
      rw [List.filterMap_cons]
      split
      · exact inductionHypothesis.cons _
      next c found =>
        rw [List.map_cons, List.map_cons, candidate_addr found]
        exact inductionHypothesis.cons_cons _
  exact router.peers.keys_nodup.sublist sub

/-- The rules read the router's ASN, options and routing table, not its peers. -/
theorem applyRules_peers (router : Router) (peers : Table NetAddr Peer)
    {slots : List (Option DpRule)}
    (same : ∀ rule, some rule ∈ slots → rule { router with peers := peers } = rule router)
    (index : Nat) (routes : List Cand) :
    applyRules { router with peers := peers } slots index routes
      = applyRules router slots index routes := by
  induction slots generalizing index routes with
  | nil => rfl
  | cons slot slots inductionHypothesis =>
    by_cases short : routes.length ≤ 1
    · rw [applyRules_short _ _ _ short, applyRules_short _ _ _ short]
    · cases slot with
      | none => rw [applyRules, applyRules]
      | some rule =>
        have several : 2 ≤ routes.length := by omega
        rw [applyRules_step several, applyRules_step several, same rule List.mem_cons_self]
        congr 1
        funext left
        exact inductionHypothesis (fun r member => same r (List.mem_cons_of_mem _ member)) _ left

theorem compareRoutes_perm (router : Router) (peers : Table NetAddr Peer) {routes routes' : List Cand}
    (perm : routes.Perm routes') :
    compareRoutes router routes = compareRoutes { router with peers := peers } routes' := by
  have same : ∀ rule, some rule ∈ dpRules → rule { router with peers := peers } = rule router := by
    intro rule member
    simp only [dpRules, List.mem_cons, Option.some.injEq, reduceCtorEq, List.not_mem_nil,
      or_false] at member
    rcases member with rfl | rfl | rfl | rfl | rfl | rfl | rfl | rfl | rfl <;> rfl
  have ran : bgpRouterDecisionProcessRun { router with peers := peers } routes'
      = bgpRouterDecisionProcessRun router routes := by
    rw [decisionProcessRun_perm router perm, bgpRouterDecisionProcessRun,
      applyRules_peers router peers same]
    rfl
  unfold compareRoutes
  rw [ran, perm.length_eq]
  split
  · rfl
  next single =>
    congr 1
    match routes, routes', perm, single with
    | [], _, perm, _ => exact (List.perm_nil.mp perm.symm).symm
    | [c], _, perm, _ => exact (List.perm_singleton.mp perm.symm).symm
    | c :: d :: rest, _, perm, single =>
      rw [← perm.length_eq] at single
      simp at single

/-- Tables of peers that look alike give the same candidates, in some order. -/
theorem getFeasibleRoutes_perm (router : Router) (peers : Table NetAddr Peer) (pfx : Pfx)
    (alike : ∀ addr, (peers.lookup addr).map (peerView pfx)
      = (router.peers.lookup addr).map (peerView pfx)) :
    (bgpRouterGetFeasibleRoutes router pfx).Perm
      (bgpRouterGetFeasibleRoutes { router with peers := peers } pfx) := by
  rw [List.perm_ext_iff_of_nodup (getFeasibleRoutes_distinct router pfx).of_map
    (getFeasibleRoutes_distinct { router with peers := peers } pfx).of_map]
  intro c
  simp only [mem_bgpRouterGetFeasibleRoutes]
  constructor
  · rintro ⟨addr, peer, held, found⟩
    have view := alike addr
    rw [held] at view
    obtain ⟨peer', held', same⟩ := Option.map_eq_some_iff.mp view
    exact ⟨addr, peer', held', (candidate_of_view rfl addr same).trans found⟩
  · rintro ⟨addr, peer', held', found⟩
    have view := alike addr
    rw [held'] at view
    obtain ⟨peer, held, same⟩ := Option.map_eq_some_iff.mp view.symm
    exact ⟨addr, peer, held, (candidate_of_view rfl addr same).trans found⟩

end Cbgp.Verified
