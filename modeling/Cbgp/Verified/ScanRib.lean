import Mathlib.Data.List.Dedup
import Cbgp.Verified.AttrEquality
import Cbgp.Verified.LoadRib

/-! # Scanning the RIB

`bgp_router_scan_rib` runs one decision process for each prefix.  A prefix is settled when another run
would change nothing (`SettledAt`); a run settles its prefix, and later runs keep it so as long as
they do not change what the next-hops of its routes are resolved through (`scan_settles`).
-/

namespace Cbgp.Verified

open Cbgp.Lib Cbgp.Net Cbgp.Bgp

/-! ## What the comparison reads -/

section Compare

variable {r s : Router}

/-- The routers compare the routes in the same way. -/
structure ComparesAlike (r s : Router) (routes : List Cand) : Prop where
  asn : s.asn = r.asn
  env : s.env = r.env
  hops : ∀ c ∈ routes, rtFindBest s.rt c.attr.nextHop netRouteAny =
    rtFindBest r.rt c.attr.nextHop netRouteAny

theorem ComparesAlike.sub {routes left : List Cand} (alike : ComparesAlike r s routes)
    (sub : left ⊆ routes) : ComparesAlike r s left :=
  ⟨alike.asn, alike.env, fun c member => alike.hops c (sub member)⟩

theorem dpRuleNearestNextHop_alike {routes : List Cand} (alike : ComparesAlike r s routes) :
    dpRuleNearestNextHop s routes = dpRuleNearestNextHop r routes := by
  have costs : (routes.mapM fun c => dpRuleIgpCost s c.attr.nextHop) =
      routes.mapM fun c => dpRuleIgpCost r c.attr.nextHop := by
    have same := alike.hops
    clear alike
    induction routes with
    | nil => rfl
    | cons c routes inductionHypothesis =>
      rw [List.mapM_cons, List.mapM_cons, inductionHypothesis fun c' member =>
        same c' (List.mem_cons_of_mem _ member)]
      simp only [dpRuleIgpCost, same c List.mem_cons_self]
  simp only [dpRuleNearestNextHop, costs]

theorem dpRule_alike {routes : List Cand} (alike : ComparesAlike r s routes) {rule : DpRule}
    (member : some rule ∈ dpRules) : rule s routes = rule r routes := by
  simp only [dpRules, List.mem_cons, Option.some.injEq, reduceCtorEq, List.not_mem_nil,
    or_false] at member
  obtain rfl | rfl | rfl | rfl | rfl | rfl | rfl | rfl | rfl := member
  · rfl
  · rfl
  · rfl
  · simp only [dpRuleLowestMed, alike.env]
  · simp only [dpRuleEbgpOverIbgp, alike.asn]
  · exact dpRuleNearestNextHop_alike alike
  · rfl
  · rfl
  · rfl

theorem applyRules_alike {slots : List (Option DpRule)} (sub : slots ⊆ dpRules) (index : Nat)
    {routes : List Cand} (alike : ComparesAlike r s routes) :
    applyRules s slots index routes = applyRules r slots index routes := by
  induction slots generalizing index routes with
  | nil => rfl
  | cons slot slots inductionHypothesis =>
    rw [applyRules.eq_def, applyRules.eq_def r]
    simp only
    split
    · rfl
    · cases slot with
      | none => rfl
      | some rule =>
        have member : some rule ∈ dpRules := sub List.mem_cons_self
        simp only [dpRule_alike alike member]
        cases applied : rule r routes with
        | error e => rfl
        | ok left =>
          have kept : left ⊆ routes := (dpRule_ends r routes member).value applied
          exact inductionHypothesis (List.subset_of_cons_subset sub) (index + 1) (alike.sub kept)

theorem compareRoutes_alike {routes : List Cand} (alike : ComparesAlike r s routes) :
    compareRoutes s routes = compareRoutes r routes := by
  simp only [compareRoutes, bgpRouterDecisionProcessRun,
    applyRules_alike (List.Subset.refl dpRules) 0 alike]

theorem igpDependent_alike {routes : List Cand} (alike : ComparesAlike r s routes) :
    igpDependent s routes = igpDependent r routes := by
  simp only [igpDependent, applyRules_alike (List.take_subset 5 dpRules) 0 alike]

end Compare

/-! ## Candidates in order -/

theorem candidates_filterMap (r : Router) (p : Pfx) :
    bgpRouterGetFeasibleRoutes r p = r.peers.keys.filterMap (candAt r p) := by
  unfold bgpRouterGetFeasibleRoutes
  rw [AList.keys, List.keys, List.filterMap_map]
  apply List.filterMap_congr
  intro e member
  have held : r.peers.lookup e.1 = some e.2 := Table.mem_entries_iff.mp member
  simp [candAt, held]

theorem candidates_eq {r s : Router} {p : Pfx} (keys : s.peers.keys = r.peers.keys)
    (same : ∀ a, candAt s p a = candAt r p a) :
    bgpRouterGetFeasibleRoutes s p = bgpRouterGetFeasibleRoutes r p := by
  have sameCands : candAt s p = candAt r p := funext same
  rw [candidates_filterMap, candidates_filterMap, keys, sameCands]

/-! ## Next-hops -/

/-- The BGP routes towards a prefix do not matter for an address: it lies outside the prefix, or another
route towards it is as specific. -/
def ClearOf (rt : NetRt) (hop : NetAddr) (q : Pfx) : Prop :=
  ipAddressInPrefix hop (ipPrefixMask q) = false ∨
    ∃ k rtinfo, rtinfo ∈ routesTo rt k ∧ rtinfo.type ≠ .bgp ∧
      ipAddressInPrefix hop (ipPrefixMask k) = true ∧ q.mask ≤ k.mask

section Hops

variable {p q : Pfx} {rt rt' : NetRt} {hop : NetAddr}

theorem ClearOf.kept (clear : ClearOf rt hop q) (only : OnlyBgpAt p rt rt') : ClearOf rt' hop q := by
  rcases clear with outside | ⟨k, rtinfo, member, other, inside, longer⟩
  · exact .inl outside
  · have kept : rtinfo ∈ (routesTo rt' k).filter (·.type ≠ .bgp) := by
      rw [only.others, List.mem_filter]
      exact ⟨member, by simpa using other⟩
    exact .inr ⟨k, rtinfo, List.mem_of_mem_filter kept, other, inside, longer⟩

theorem bit_any (type : RouteType) : (type.bit &&& netRouteAny != 0) = true := by
  cases type <;> decide

theorem bit_lt_bgp {type : RouteType} (other : type ≠ .bgp) : type.bit < RouteType.bgp.bit := by
  cases type with
  | bgp => exact absurd rfl other
  | direct | static | igp => decide

/-- BGP routes come last among the routes towards a prefix. -/
theorem first_any {infos : RtInfos} (covered : ∃ rtinfo ∈ infos.list, rtinfo.type ≠ .bgp) :
    infos.first netRouteAny = (infos.list.filter (·.type ≠ .bgp)).head? := by
  obtain ⟨rtinfo, member, other⟩ := covered
  have sorted := infos.sorted
  unfold RtInfos.first
  cases listed : infos.list with
  | nil => exact absurd listed infos.nonempty
  | cons first rest =>
    rw [listed] at member sorted
    have notBgp : first.type ≠ .bgp := by
      intro isBgp
      rcases List.mem_cons.mp member with rfl | later
      · exact other isBgp
      · have less := rtInfoListCmp_eq_lt.mp ((List.pairwise_cons.mp sorted).1 rtinfo later)
        have above := bit_lt_bgp other
        rw [isBgp] at less
        grind
    rw [List.filter_cons_of_pos (by simpa using notBgp)]
    simp only [List.find?_cons, bit_any, List.head?_cons]

theorem lookup_of_routesTo {key : Pfx} {rtinfo : RtInfo} (member : rtinfo ∈ routesTo rt key) :
    ∃ infos, rt.lookup (ipPrefixMask key) = some infos ∧ infos.list = routesTo rt key := by
  unfold routesTo at member ⊢
  cases stored : rt.lookup (ipPrefixMask key) with
  | none => simp [stored] at member
  | some infos => exact ⟨infos, rfl, rfl⟩

/-- A lookup that the BGP routes towards a prefix do not matter for finds what it found. -/
theorem ClearOf.rtFindBest (clear : ClearOf rt hop p) (only : OnlyBgpAt p rt rt') (masked : MaskedKeys rt) :
    Net.rtFindBest rt' hop netRouteAny = Net.rtFindBest rt hop netRouteAny := by
  rcases clear with outside | ⟨k, rtinfo, member, other, inside, longer⟩
  · exact only.rtFindBest masked outside netRouteAny
  · have masked' : MaskedKeys rt' := only.maskedKeys masked
    obtain ⟨covers, storedCover, listedCover⟩ := lookup_of_routesTo member
    have knownCover : ipPrefixMask k ∈ rt.keys := Table.mem_keys_iff.mpr ⟨covers, storedCover⟩
    obtain ⟨infos, found⟩ := Option.isSome_iff_exists.mp
      (trieFindBest_isSome.mpr ⟨ipPrefixMask k, knownCover, inside⟩)
    obtain ⟨key, stored, holds, above⟩ := (trieFindBest_eq_some masked).mp found
    have longKey : p.mask ≤ key.mask := Nat.le_trans longer (above (ipPrefixMask k) knownCover inside)
    have known : key ∈ rt.keys := Table.mem_keys_iff.mpr ⟨infos, stored⟩
    -- the entry that is found stays the most specific one, also if the prefix itself gets an entry
    have above' : ∀ o ∈ rt'.keys, ipAddressInPrefix hop o = true → o.mask ≤ key.mask := by
      intro o knownO within
      by_cases isP : o = ipPrefixMask p
      · rw [isP]
        exact longKey
      · obtain ⟨infosO, storedO⟩ := Table.mem_keys_iff.mp knownO
        rw [only.elsewhere o isP] at storedO
        exact above o (Table.mem_keys_iff.mpr ⟨infosO, storedO⟩) within
    have lookups {infos' : RtInfos} (stored' : rt'.lookup key = some infos') :
        trieFindBest rt' hop = some infos' :=
      (trieFindBest_eq_some masked').mpr ⟨key, stored', holds, above'⟩
    unfold Net.rtFindBest
    by_cases isP : key = ipPrefixMask p
    · -- the prefix itself: the first of its routes is not a BGP route
      have sameKey : ipPrefixMask k = key := by
        refine eq_of_inPrefix (ipPrefixMask_idem k) (masked key known) ?_ inside holds
        have upper : (ipPrefixMask k).mask ≤ key.mask := above _ knownCover inside
        have lower : key.mask ≤ (ipPrefixMask k).mask := by
          rw [isP]
          exact longer
        omega
      rw [sameKey, stored] at storedCover
      obtain rfl := Option.some.inj storedCover
      have covered : ∃ rtinfo ∈ infos.list, rtinfo.type ≠ .bgp := ⟨rtinfo, listedCover ▸ member, other⟩
      have kept : rtinfo ∈ (routesTo rt' k).filter (·.type ≠ .bgp) := by
        rw [only.others, List.mem_filter]
        exact ⟨member, by simpa using other⟩
      obtain ⟨infos', stored', listed'⟩ := lookup_of_routesTo (List.mem_of_mem_filter kept)
      have covered' : ∃ rtinfo ∈ infos'.list, rtinfo.type ≠ .bgp :=
        ⟨rtinfo, listed' ▸ List.mem_of_mem_filter kept, other⟩
      rw [sameKey] at stored'
      rw [lookups stored', found, Option.bind_some, Option.bind_some, first_any covered,
        first_any covered', listedCover, listed', only.others]
    · rw [lookups ((only.elsewhere key isP).trans stored), found]

end Hops

/-! ## Settled prefixes -/

/-- What the decision process reads of an Adj-RIB-In route. -/
def adjView (r : Router) (a : NetAddr) (p : Pfx) : Option (Pfx × Attr × Bool) :=
  (r.adjRoute a p).map fun route => (route.pfx, route.attr, route.flags.eligible)

theorem adjView_some {r s : Router} {a : NetAddr} {p : Pfx} {route : Route}
    (same : adjView s a p = adjView r a p) (held : r.adjRoute a p = some route) :
    ∃ route', s.adjRoute a p = some route' ∧ route'.pfx = route.pfx ∧ route'.attr = route.attr := by
  simp only [adjView, held, Option.map_some, Option.map_eq_some_iff, Prod.mk.injEq] at same
  obtain ⟨route', held', pfx, attr, _⟩ := same
  exact ⟨route', held', pfx, attr⟩

/-- The routers have the same candidates for the prefix and compare them in the same way. -/
structure SameCandidates (r s : Router) (p : Pfx) : Prop where
  asn : s.asn = r.asn
  env : s.env = r.env
  keys : s.peers.keys = r.peers.keys
  session : ∀ a, sessionAt s a = sessionAt r a
  adj : ∀ a, adjView s a p = adjView r a p
  hops : ∀ a route, r.adjRoute a p = some route →
    rtFindBest s.rt route.attr.nextHop netRouteAny = rtFindBest r.rt route.attr.nextHop netRouteAny

namespace SameCandidates

variable {r s : Router} {p : Pfx}

theorem candidates (same : SameCandidates r s p) :
    bgpRouterGetFeasibleRoutes s p = bgpRouterGetFeasibleRoutes r p := by
  refine candidates_eq same.keys fun a => candAt_congr (same.session a) ?_ fun route held => ?_
  · have adj := congrArg (Option.map fun view => (view.2.1, view.2.2)) (same.adj a)
    simp only [adjView, Option.map_map] at adj
    exact adj
  · rw [nextHopReachable, nextHopReachable, nodeRtLookup, nodeRtLookup, same.hops a route held]

theorem alike (same : SameCandidates r s p) :
    ComparesAlike r s (bgpRouterGetFeasibleRoutes r p) := by
  refine ⟨same.asn, same.env, fun c member => ?_⟩
  obtain ⟨peer, route, _, _, held, _, _, isC⟩ := mem_candidates.mp member
  rw [isC]
  exact same.hops c.addr route held

theorem compared (same : SameCandidates r s p) :
    compareRoutes s (bgpRouterGetFeasibleRoutes s p) = compareRoutes r (bgpRouterGetFeasibleRoutes r p) := by
  rw [same.candidates, compareRoutes_alike same.alike]

theorem dependent (same : SameCandidates r s p) :
    igpDependent s (bgpRouterGetFeasibleRoutes s p) = igpDependent r (bgpRouterGetFeasibleRoutes r p) := by
  rw [same.candidates, igpDependent_alike same.alike]

end SameCandidates

/-- What is installed for the prefix is what a decision process would select. -/
inductive SettledAt (r : Router) (p : Pfx) : Prop where
  | shadowed (old : Route) (held : r.locRib.findExact p = some old)
      (internal : old.flags.internal = true)
  | nothing (igp : List Cand) (absent : r.locRib.findExact p = none)
      (compared : compareRoutes r (bgpRouterGetFeasibleRoutes r p) = .ok [])
      (dependent : igpDependent r (bgpRouterGetFeasibleRoutes r p) = .ok igp)
  | kept (w : Cand) (igp : List Cand) (old route : Route) (held : r.locRib.findExact p = some old)
      (external : old.flags.internal = false)
      (compared : compareRoutes r (bgpRouterGetFeasibleRoutes r p) = .ok [w])
      (dependent : igpDependent r (bgpRouterGetFeasibleRoutes r p) = .ok igp)
      (won : r.adjRoute w.addr p = some route) (equals : routeEquals old route = true)
      (mark : old.flags.dpIgp = igp.any (·.addr = w.addr))
      (installed : bgpRoutesTo r.rt p = [bgpRtInfo route.pfx route.attr.nextHop])

theorem SettledAt.congr {r s : Router} {p : Pfx} (settled : SettledAt r p) (same : SameCandidates r s p)
    (loc : s.locRib.findExact p = r.locRib.findExact p)
    (rt : bgpRoutesTo s.rt p = bgpRoutesTo r.rt p) : SettledAt s p := by
  cases settled with
  | shadowed old held internal => exact .shadowed old (loc.trans held) internal
  | nothing igp absent compared dependent =>
    exact .nothing igp (loc.trans absent) (same.compared.trans compared) (same.dependent.trans dependent)
  | kept w igp old route held external compared dependent won equals mark installed =>
    obtain ⟨route', won', pfx, attr⟩ := adjView_some (same.adj w.addr) won
    refine .kept w igp old route' (loc.trans held) external (same.compared.trans compared)
      (same.dependent.trans dependent) won' ?_ mark ?_
    · rw [routeEquals, pfx, attr]
      exact equals
    · rw [rt, installed, pfx, attr]

/-! ## One run -/

theorem decisionProcess_eq {r : Router} {p : Pfx}
    (learned : (r.locRib.findExact p).any (·.flags.internal) = false) :
    bgpRouterDecisionProcess r p = (do
      let left ← compareRoutes r (bgpRouterGetFeasibleRoutes r p)
      let igp ← igpDependent r (bgpRouterGetFeasibleRoutes r p)
      installBest (flagged r p igp) p (r.locRib.findExact p) left) := by
  have alike : ComparesAlike r
      (setListFlags (updateFeasible r p) (bgpRouterGetFeasibleRoutes r p) p
        fun f => { f with dpIgp := false, best := false }) (bgpRouterGetFeasibleRoutes r p) :=
    ⟨rfl, rfl, fun _ _ => rfl⟩
  unfold bgpRouterDecisionProcess
  simp only [learned, Bool.false_eq_true, if_false, compareRoutes_alike alike, igpDependent_alike alike]
  rfl

/-- The winner's route once the flags are set. -/
theorem flagged_winner {r : Router} {p : Pfx} (igp : List Cand) {w : Cand}
    (member : w ∈ bgpRouterGetFeasibleRoutes r p) :
    ∃ route flags, r.adjRoute w.addr p = some route ∧
      (flagged r p igp).adjRoute w.addr p = some { route with flags := flags } ∧
      flags.dpIgp = igp.any (·.addr = w.addr) := by
  obtain ⟨_, route, _, _, won, _, _, _⟩ := mem_candidates.mp member
  have listed : (bgpRouterGetFeasibleRoutes r p).any (·.addr = w.addr) = true :=
    List.any_eq_true.mpr ⟨w, member, by simp⟩
  have marked := (((updateFeasible_flagged r p).trans (setListFlags_flagged _
    (bgpRouterGetFeasibleRoutes r p) p fun f => { f with dpIgp := false, best := false })).trans
    (setListFlags_flagged _ igp p fun f => { f with dpIgp := true })).adj w.addr p
  rw [if_pos rfl, won] at marked
  refine ⟨route, _, won, marked, ?_⟩
  simp only [listed, if_true]
  cases igp.any (·.addr = w.addr) with
  | true => rfl
  | false => rfl

/-- The next-hops of the routes for a prefix are clear of another prefix. -/
def HopsClear (r : Router) (p q : Pfx) : Prop :=
  ∀ a route, r.adjRoute a p = some route → ClearOf r.rt route.attr.nextHop q

section OneRun

variable {r r' : Router} {p q : Pfx}

theorem Outcome.adjView (outcome : Outcome r r' q) (a : NetAddr) (p : Pfx) :
    adjView r' a p = Verified.adjView r a p := by
  cases outcome with
  | shadowed _ _ _ same => rw [same]
  | ran g flagged keeps =>
    unfold Verified.adjView
    rw [flagged.adj]
    split
    · cases r.adjRoute a p with
      | none => rfl
      | some route => simp [(keeps a route.flags).1]
    · rfl

theorem Outcome.sameCandidates (outcome : Outcome r r' q) (only : OnlyBgpAt q r.rt r'.rt)
    (masked : MaskedKeys r.rt) (clear : HopsClear r p q) : SameCandidates r r' p := by
  have adj := fun a => outcome.adjView a p
  have hops : ∀ a route, r.adjRoute a p = some route →
      rtFindBest r'.rt route.attr.nextHop netRouteAny = rtFindBest r.rt route.attr.nextHop netRouteAny :=
    fun a route held => (clear a route held).rtFindBest only masked
  cases outcome with
  | shadowed _ _ _ same => exact ⟨by rw [same], by rw [same], by rw [same], by simp [same], adj, hops⟩
  | ran g flagged => exact ⟨flagged.asn, flagged.env, flagged.keys, flagged.session, adj, hops⟩

theorem Outcome.loc_ne (outcome : Outcome r r' q) (differ : ipPrefixMask p ≠ ipPrefixMask q) :
    r'.locRib.findExact p = r.locRib.findExact p := by
  cases outcome with
  | shadowed _ _ _ same => rw [same]
  | ran g flagged keeps learned left compared installed =>
    cases installed with
    | nothing _ loc => rw [loc]
    | lost _ _ loc => rw [loc p, if_neg differ]
    | unchanged _ _ _ _ _ _ _ loc => rw [loc p, if_neg differ]
    | updated _ _ _ _ loc => rw [loc p, if_neg differ]

/-- A run for another prefix keeps a prefix settled, if the next-hops of its routes are clear of it. -/
theorem SettledAt.other (settled : SettledAt r p) (masked : MaskedKeys r.rt) (clear : HopsClear r p q)
    (differ : ipPrefixMask p ≠ ipPrefixMask q) (h : bgpRouterDecisionProcess r q = .ok r') :
    SettledAt r' p := by
  have outcome := (decisionProcess_ends r q).value h
  have only := decisionProcess_onlyBgp h
  refine settled.congr (outcome.sameCandidates only masked clear) (outcome.loc_ne differ) ?_
  rw [bgpRoutesTo, bgpRoutesTo, routesTo, routesTo, only.elsewhere _ differ]

theorem HopsClear.kept {q' : Pfx} (clear : HopsClear r p q) (h : bgpRouterDecisionProcess r q' = .ok r') :
    HopsClear r' p q := by
  intro a route held
  have view := ((decisionProcess_ends r q').value h).adjView a p
  obtain ⟨route', held', _, attr⟩ := adjView_some view.symm held
  rw [← attr]
  exact (clear a route' held').kept (decisionProcess_onlyBgp h)

/-- The winner is installed: its prefix is settled. -/
theorem SettledAt.of_winner {w : Cand} {igp : List Cand} {entry route : Route}
    (same : SameCandidates r r' p)
    (compared : compareRoutes r (bgpRouterGetFeasibleRoutes r p) = .ok [w])
    (dependent : igpDependent r (bgpRouterGetFeasibleRoutes r p) = .ok igp)
    (won : r.adjRoute w.addr p = some route) (held : r'.locRib.findExact p = some entry)
    (equals : routeEquals entry route = true) (mark : entry.flags.dpIgp = igp.any (·.addr = w.addr))
    (installed : bgpRoutesTo r'.rt p = [bgpRtInfo route.pfx route.attr.nextHop]) : SettledAt r' p := by
  cases kind : entry.flags.internal with
  | true => exact .shadowed entry held kind
  | false =>
    obtain ⟨route', won', pfx, attr⟩ := adjView_some (same.adj w.addr) won
    refine .kept w igp entry route' held kind (same.compared.trans compared)
      (same.dependent.trans dependent) won' ?_ mark ?_
    · rw [routeEquals, pfx, attr]
      exact equals
    · rw [installed, pfx, attr]

/-- A run settles its prefix, if the next-hops of the routes are clear of it. -/
theorem decisionProcess_settles (masked : MaskedKeys r.rt) (clear : HopsClear r p p)
    (h : bgpRouterDecisionProcess r p = .ok r') : SettledAt r' p := by
  have outcome := (decisionProcess_ends r p).value h
  have same := outcome.sameCandidates (decisionProcess_onlyBgp h) masked clear
  cases shadow : (r.locRib.findExact p).any (·.flags.internal) with
  -- A local route shadows the prefix and the decision process does nothing.
  | true =>
    simp only [bgpRouterDecisionProcess, shadow, if_true, Except.ok.injEq] at h
    subst h
    cases held : r.locRib.findExact p with
    | none => simp [held] at shadow
    | some old => exact .shadowed old held (by simpa [held] using shadow)
  | false =>
    rw [decisionProcess_eq shadow] at h
    simp only [except_bind_eq_ok] at h
    obtain ⟨left, compared, igp, dependent, installed⟩ := h
    have kept := (compareRoutes_ends r _).value compared
    cases left with
    | nil =>
      -- No candidate is left: a best route that was there is removed.
      have absent : r'.locRib.findExact p = none := by
        rw [installBest] at installed
        cases held : r.locRib.findExact p with
        | none =>
          rw [held] at installed
          cases installed
          exact held
        | some old =>
          rw [held] at installed
          have removed := ((noBestRoute_ends _ (Rib.findExact_pfx held)).value installed).2.1 p
          rw [removed, if_pos rfl]
      exact .nothing igp absent (same.compared.trans compared) (same.dependent.trans dependent)
    | cons w rest =>
      obtain rfl : rest = [] := by simpa using kept.2
      obtain ⟨route, flags, won, marked, mark⟩ := flagged_winner igp (kept.1 List.mem_cons_self)
      have key : ipPrefixMask route.pfx = ipPrefixMask p := adjRoute_pfx won
      have pfx : ipPrefixMask ({ route with flags := flags } : Route).pfx = ipPrefixMask p := key
      -- One candidate is left: a new best route and a changed one are installed in the same way.
      have updated : ∀ oldRoute, (∀ old, oldRoute = some old → ipPrefixMask old.pfx = ipPrefixMask p) →
          updateBestRoute (flagged r p igp) p oldRoute w.addr { route with flags := flags } = .ok r' →
          SettledAt r' p := by
        intro oldRoute sameOld ran
        have ends := updateBestRoute_ends (flagged r p igp) oldRoute w.addr sameOld pfx
        obtain ⟨_, loc, rt⟩ := ends.value ran
        refine .of_winner same compared dependent won ((loc p).trans (if_pos rfl)) ?_ mark
          ((rt p).trans (if_pos rfl))
        have equalPfx : ipPrefixEq route.pfx route.pfx = true := (ipPrefixEq_iff _ _).mpr rfl
        simp [routeEquals, Route.setFlags, bgpAttrCmp_equivalence.refl _, equalPfx]
      simp only [installBest, marked] at installed
      cases held : r.locRib.findExact p with
      | none =>
        rw [held] at installed
        exact updated none (fun old absent => by cases absent) installed
      | some old =>
        rw [held] at installed
        have sameOld : ∀ old', some old = some old' → ipPrefixMask old'.pfx = ipPrefixMask p := by
          intro old' isOld
          cases isOld
          exact Rib.findExact_pfx held
        -- An equal route is not installed again; the Loc-RIB then already holds it.
        by_cases equals : routeEquals old { route with flags := flags } = true
        · simp only [equals, if_true] at installed
          obtain ⟨s', ran, _, loc, rt⟩ := unchangedBestRoute_ok (flagged r p igp) w.addr pfx
          rw [installed] at ran
          obtain rfl := Except.ok.inj ran
          have stored : (flagged r p igp).locRib.findExact p = some old := held
          rw [stored] at loc
          exact .of_winner same compared dependent won ((loc p).trans (if_pos rfl)) equals mark
            ((rt p).trans (if_pos rfl))
        · simp only [equals] at installed
          exact updated (some old) sameOld installed

end OneRun

/-! ## A run for a settled prefix -/

/-- The Loc-RIB, the routing table, the outbox and what the decision process reads of the peers are as
before. -/
structure Unmoved (r r' : Router) : Prop where
  asn : r'.asn = r.asn
  env : r'.env = r.env
  keys : r'.peers.keys = r.peers.keys
  session : ∀ a, sessionAt r' a = sessionAt r a
  adj : ∀ a q, adjView r' a q = adjView r a q
  loc : ∀ q, r'.locRib.findExact q = r.locRib.findExact q
  rt : ∀ key, r'.rt.lookup key = r.rt.lookup key
  outbox : r'.outbox = r.outbox

namespace Unmoved

variable {r s t : Router} {p : Pfx}

theorem refl (r : Router) : Unmoved r r :=
  ⟨rfl, rfl, rfl, fun _ => rfl, fun _ _ => rfl, fun _ => rfl, fun _ => rfl, rfl⟩

theorem trans (first : Unmoved r s) (second : Unmoved s t) : Unmoved r t where
  asn := second.asn.trans first.asn
  env := second.env.trans first.env
  keys := second.keys.trans first.keys
  session a := (second.session a).trans (first.session a)
  adj a q := (second.adj a q).trans (first.adj a q)
  loc q := (second.loc q).trans (first.loc q)
  rt key := (second.rt key).trans (first.rt key)
  outbox := second.outbox.trans first.outbox

theorem of_flagged {g : NetAddr → RouteFlags → RouteFlags} (flagged : Flagged r s p g)
    (keeps : ∀ a f, (g a f).eligible = f.eligible)
    (loc : ∀ q, s.locRib.findExact q = r.locRib.findExact q)
    (rt : ∀ key, s.rt.lookup key = r.rt.lookup key) (outbox : s.outbox = r.outbox) : Unmoved r s where
  asn := flagged.asn
  env := flagged.env
  keys := flagged.keys
  session := flagged.session
  adj a q := by
    unfold adjView
    rw [flagged.adj]
    split
    · cases r.adjRoute a q with
      | none => rfl
      | some route => simp [keeps]
    · rfl
  loc := loc
  rt := rt
  outbox := outbox

theorem maskedKeys (unmoved : Unmoved r s) (masked : MaskedKeys r.rt) : MaskedKeys s.rt := by
  intro key known
  obtain ⟨infos, stored⟩ := Table.mem_keys_iff.mp known
  rw [unmoved.rt] at stored
  exact masked key (Table.mem_keys_iff.mpr ⟨infos, stored⟩)

theorem settled (unmoved : Unmoved r s) (masked : MaskedKeys r.rt) (settled : SettledAt r p) :
    SettledAt s p := by
  have hops (addr : NetAddr) :
      rtFindBest s.rt addr netRouteAny = rtFindBest r.rt addr netRouteAny := by
    unfold rtFindBest
    rw [trieFindBest_congr masked (unmoved.maskedKeys masked) fun key _ => unmoved.rt key]
  refine settled.congr ?_ (unmoved.loc p) ?_
  · exact ⟨unmoved.asn, unmoved.env, unmoved.keys, unmoved.session, fun a => unmoved.adj a p,
      fun a route _ => hops route.attr.nextHop⟩
  · rw [bgpRoutesTo, bgpRoutesTo, routesTo, routesTo, unmoved.rt]

end Unmoved

/-- With the same BGP routes towards the prefix, the table is the same. -/
theorem OnlyBgpAt.lookup {p : Pfx} {rt rt' : NetRt} (only : OnlyBgpAt p rt rt')
    (same : bgpRoutesTo rt' p = bgpRoutesTo rt p) (key : Pfx) : rt'.lookup key = rt.lookup key := by
  by_cases isP : key = ipPrefixMask p
  · have routes : routesTo rt' p = routesTo rt p := routesTo_eq_of_filters .bgp same (only.others p)
    subst isP
    unfold routesTo at routes
    cases stored : rt.lookup (ipPrefixMask p) with
    | none =>
      cases stored' : rt'.lookup (ipPrefixMask p) with
      | none => rfl
      | some infos' =>
        simp only [stored, stored'] at routes
        exact absurd routes infos'.nonempty
    | some infos =>
      cases stored' : rt'.lookup (ipPrefixMask p) with
      | none =>
        simp only [stored, stored'] at routes
        exact absurd routes.symm infos.nonempty
      | some infos' =>
        simp only [stored, stored'] at routes
        cases infos
        cases infos'
        dsimp only at routes
        subst routes
        rfl
  · exact only.elsewhere key isP

theorem unchangedBestRoute_outbox {s s' : Router} {p : Pfx} {winner : NetAddr} {route : Route}
    (h : unchangedBestRoute s p winner route = .ok s') : s'.outbox = s.outbox := by
  obtain ⟨rt', added, _⟩ := bgpRouterRtAddRoute_ok
    { s.setAdjFlags winner p (fun f => { f with best := true }) with
      locRib := s.locRib.setFlags p fun f => { f with dpIgp := route.flags.dpIgp } } route
  have ran := added.symm.trans h
  obtain rfl := Except.ok.inj ran
  rfl

/-- A run for a settled prefix changes nothing. -/
theorem SettledAt.run {r : Router} {p : Pfx} (settled : SettledAt r p) :
    ∃ r', bgpRouterDecisionProcess r p = .ok r' ∧ Unmoved r r' := by
  cases settled with
  | shadowed old held internal =>
    refine ⟨r, ?_, .refl r⟩
    simp [bgpRouterDecisionProcess, held, internal]
  | nothing igp absent compared dependent =>
    obtain ⟨g, prepared, keeps, _⟩ := flagged_flagged r p igp
    refine ⟨flagged r p igp, ?_, .of_flagged prepared (fun a f => (keeps a f).1) (fun _ => rfl)
      (fun _ => rfl) rfl⟩
    rw [decisionProcess_eq (by simp [absent]), compared, dependent, absent]
    rfl
  | kept w igp old route held external compared dependent won equals mark installed =>
    obtain ⟨g, prepared, keeps, _⟩ := flagged_flagged r p igp
    have member : w ∈ bgpRouterGetFeasibleRoutes r p :=
      ((compareRoutes_ends r _).value compared).1 List.mem_cons_self
    obtain ⟨route', flags, won', marked, flag⟩ := flagged_winner igp member
    rw [won] at won'
    obtain rfl := Option.some.inj won'
    have key : ipPrefixMask route.pfx = ipPrefixMask p := adjRoute_pfx won
    have pfx : ipPrefixMask ({ route with flags := flags } : Route).pfx = ipPrefixMask p := key
    obtain ⟨s', ran, cleared, loc, rt⟩ := unchangedBestRoute_ok (flagged r p igp) w.addr pfx
    have onlyFlagged := unchangedBestRoute_onlyBgp pfx ran
    have only : OnlyBgpAt p r.rt s'.rt := onlyFlagged
    refine ⟨s', ?_, .of_flagged (prepared.trans cleared) (fun a f => ?_) (fun q => ?_) ?_ ?_⟩
    · rw [decisionProcess_eq (by simp [held, external]), compared, dependent, held]
      simp only [bind, Except.bind, installBest, marked]
      exact (if_pos equals).trans ran
    · exact ((keeps.comp (bestOn_keeps w.addr)) a f).1
    · -- the flag that is written is the one the entry has
      rw [loc q]
      split
      next same =>
        have stored : (flagged r p igp).locRib.findExact p = some old := held
        rw [stored, r.locRib.findExact_congr same, held, Option.map_some, flag, ← mark]
        rfl
      next => rfl
    · exact only.lookup ((rt p).trans ((if_pos rfl).trans installed.symm))
    · have outbox := unchangedBestRoute_outbox ran
      exact outbox

/-! ## The loop of a scan -/

section Loop

variable {r r' : Router} {p : Pfx} {pfxs : List Pfx}

/-- The runs of a scan do not change what the next-hops of a prefix that was visited are resolved
through: they are clear of the prefix itself and of those that come later. -/
def ClearOrder (r : Router) (pfxs : List Pfx) : Prop :=
  pfxs.Pairwise (HopsClear r) ∧ ∀ p ∈ pfxs, HopsClear r p p

theorem SettledAt.later (settled : SettledAt r p) (masked : MaskedKeys r.rt)
    (clear : ∀ q ∈ pfxs, HopsClear r p q) (differ : ∀ q ∈ pfxs, ipPrefixMask p ≠ ipPrefixMask q)
    (h : pfxs.foldlM bgpRouterDecisionProcess r = .ok r') : SettledAt r' p := by
  induction pfxs generalizing r with
  | nil =>
    cases h
    exact settled
  | cons q pfxs inductionHypothesis =>
    rw [List.foldlM_cons, except_bind_eq_ok] at h
    obtain ⟨s, ran, rest⟩ := h
    have masked' : MaskedKeys s.rt := (decisionProcess_onlyBgp ran).maskedKeys masked
    rw [List.forall_mem_cons] at clear differ
    refine inductionHypothesis (settled.other masked clear.1 differ.1 ran) masked' ?_ differ.2 rest
    exact fun q' member => (clear.2 q' member).kept ran

/-- A scan in a clear order settles every prefix it visits. -/
theorem loop_settles (masked : MaskedKeys r.rt) (order : ClearOrder r pfxs)
    (distinct : pfxs.Pairwise fun p q => ipPrefixMask p ≠ ipPrefixMask q)
    (h : pfxs.foldlM bgpRouterDecisionProcess r = .ok r') : ∀ p ∈ pfxs, SettledAt r' p := by
  induction pfxs generalizing r with
  | nil => simp
  | cons p pfxs inductionHypothesis =>
    rw [List.foldlM_cons, except_bind_eq_ok] at h
    obtain ⟨s, ran, rest⟩ := h
    obtain ⟨later, tailOrder⟩ := List.pairwise_cons.mp order.1
    obtain ⟨fresh, tailDistinct⟩ := List.pairwise_cons.mp distinct
    have masked' : MaskedKeys s.rt := (decisionProcess_onlyBgp ran).maskedKeys masked
    rw [List.forall_mem_cons]
    constructor
    · have settled := decisionProcess_settles masked (order.2 p List.mem_cons_self) ran
      exact settled.later masked' (fun q member => (later q member).kept ran) fresh rest
    · refine inductionHypothesis masked' ⟨?_, fun q member => ?_⟩ tailDistinct rest
      · exact tailOrder.imp fun clear => HopsClear.kept clear ran
      · exact (order.2 q (List.mem_cons_of_mem _ member)).kept ran

/-- A scan of settled prefixes changes nothing. -/
theorem loop_unmoved (masked : MaskedKeys r.rt) (settled : ∀ p ∈ pfxs, SettledAt r p) :
    ∃ r', pfxs.foldlM bgpRouterDecisionProcess r = .ok r' ∧ Unmoved r r' := by
  induction pfxs generalizing r with
  | nil => exact ⟨r, rfl, .refl r⟩
  | cons p pfxs inductionHypothesis =>
    obtain ⟨s, ran, unmoved⟩ := (settled p List.mem_cons_self).run
    obtain ⟨r', rest, unmoved'⟩ := inductionHypothesis (unmoved.maskedKeys masked) fun q member =>
      unmoved.settled masked (settled q (List.mem_cons_of_mem _ member))
    refine ⟨r', ?_, unmoved.trans unmoved'⟩
    rw [List.foldlM_cons, ran]
    exact rest

/-- What the loop leaves alone. -/
structure LoopFrame (pfxs : List Pfx) (r r' : Router) : Prop where
  env : r'.env = r.env
  keys : r'.peers.keys = r.peers.keys
  session : ∀ a, sessionAt r' a = sessionAt r a
  adj : ∀ a q, adjView r' a q = adjView r a q
  masked : MaskedKeys r.rt → MaskedKeys r'.rt
  loc : ∀ q, (∀ p ∈ pfxs, ipPrefixMask q ≠ ipPrefixMask p) →
    r'.locRib.findExact q = r.locRib.findExact q

theorem loop_frame (h : pfxs.foldlM bgpRouterDecisionProcess r = .ok r') : LoopFrame pfxs r r' := by
  refine foldlM_invariant ?_ ⟨rfl, rfl, fun _ => rfl, fun _ _ => rfl, id, fun _ _ => rfl⟩ h
  intro s p s' member sofar ran
  have outcome := (decisionProcess_ends s p).value ran
  have adj : ∀ a q, adjView s' a q = adjView r a q :=
    fun a q => (outcome.adjView a q).trans (sofar.adj a q)
  have masked : MaskedKeys r.rt → MaskedKeys s'.rt :=
    fun start => (decisionProcess_onlyBgp ran).maskedKeys (sofar.masked start)
  have loc : ∀ q, (∀ p ∈ pfxs, ipPrefixMask q ≠ ipPrefixMask p) →
      s'.locRib.findExact q = r.locRib.findExact q :=
    fun q other => (outcome.loc_ne (other p member)).trans (sofar.loc q other)
  cases outcome with
  | shadowed _ _ _ same =>
    subst same
    exact sofar
  | ran g flagged =>
    exact ⟨flagged.env.trans sofar.env, flagged.keys.trans sofar.keys,
      fun a => (flagged.session a).trans (sofar.session a), adj, masked, loc⟩

end Loop

/-! ## Refreshing the sessions -/

/-- Of the sessions, at most the one with a peer changed. -/
structure Around (a : NetAddr) (r r' : Router) : Prop where
  env : r'.env = r.env
  keys : r'.peers.keys = r.peers.keys
  session : ∀ b, b ≠ a → sessionAt r' b = sessionAt r b
  masked : MaskedKeys r.rt → MaskedKeys r'.rt

/-- No session changed. -/
structure SessionsKept (r r' : Router) : Prop where
  env : r'.env = r.env
  keys : r'.peers.keys = r.peers.keys
  session : ∀ b, sessionAt r' b = sessionAt r b
  masked : MaskedKeys r.rt → MaskedKeys r'.rt

section Refresh

variable {a : NetAddr} {r s t r' : Router}

theorem Around.refl (a : NetAddr) (r : Router) : Around a r r := ⟨rfl, rfl, fun _ _ => rfl, id⟩

theorem Around.trans (first : Around a r s) (second : Around a s t) : Around a r t where
  env := second.env.trans first.env
  keys := second.keys.trans first.keys
  session b other := (second.session b other).trans (first.session b other)
  masked start := second.masked (first.masked start)

theorem Around.modify (a : NetAddr) (r : Router) (f : Peer → Peer) : Around a r (r.modifyPeer a f) where
  env := rfl
  keys := Table.keys_modify _ _ _
  session b other := by rw [sessionAt, sessionAt, modifyPeer_lookup, if_neg other]
  masked := id

theorem SessionsKept.refl (r : Router) : SessionsKept r r := ⟨rfl, rfl, fun _ => rfl, id⟩

theorem SessionsKept.trans (first : SessionsKept r s) (second : SessionsKept s t) : SessionsKept r t where
  env := second.env.trans first.env
  keys := second.keys.trans first.keys
  session b := (second.session b).trans (first.session b)
  masked start := second.masked (first.masked start)

theorem SessionsKept.around (kept : SessionsKept r s) (a : NetAddr) : Around a r s :=
  ⟨kept.env, kept.keys, fun b _ => kept.session b, kept.masked⟩

theorem SessionsKept.of_sends (sends : Sends r s) : SessionsKept r s :=
  ⟨sends.env, sends.keys, sends.sessionAt, fun start => sends.rt ▸ start⟩

theorem SessionsKept.of_run {p : Pfx} (h : bgpRouterDecisionProcess r p = .ok s) : SessionsKept r s := by
  have frame : LoopFrame [p] r s := loop_frame (by rw [List.foldlM_cons, h]; rfl)
  exact ⟨frame.env, frame.keys, frame.session, frame.masked⟩

theorem rescan_kept {clear : Bool} (h : bgpPeerRescanAdjribin r a clear = .ok r') :
    SessionsKept r r' := by
  unfold bgpPeerRescanAdjribin at h
  split at h
  · cases h
    exact .refl r
  next peer held =>
    simp only at h
    split at h
    -- An established session enables its routes, any other disables them and then clears the table.
    · refine foldlM_invariant ?_ (.refl r) h
      intro s key s' _ sofar ran
      unfold bgpPeerEnableAdjribin at ran
      split at ran
      · cases ran
        exact sofar
      · exact sofar.trans (.of_run ran)
    · rw [except_bind_eq_ok] at h
      obtain ⟨s, ran, rest⟩ := h
      have looped : SessionsKept r s := by
        refine foldlM_invariant ?_ (.refl r) ran
        intro s key s' _ sofar ran
        unfold bgpPeerDisableAdjribin at ran
        split at ran
        · cases ran
          exact sofar
        · split at ran
          · exact sofar.trans (.of_run ran)
          · cases ran
            exact sofar
      split at rest
      · cases rest
        refine looped.trans ⟨rfl, Table.keys_modify _ _ _, fun b => ?_, id⟩
        rw [sessionAt, sessionAt, modifyPeer_lookup]
        split
        · rw [Option.map_map]
          rfl
        · rfl
      · cases rest
        exact looped

theorem closeSession_around {code : NetError} (h : bgpPeerCloseSession r a = .ok (code, r')) :
    Around a r r' := by
  unfold bgpPeerCloseSession at h
  split at h
  · cases h
    exact .refl a r
  next peer held =>
    split at h
    · cases h
      exact .refl a r
    · simp only [except_bind_eq_ok] at h
      obtain ⟨s, ran, rest⟩ := h
      cases rest
      have sent : Around a r (closed r a peer) := by
        unfold closed
        split
        · exact ((SessionsKept.of_sends (bgpPeerSend_sends r a .close)).around a).trans (.modify a _ _)
        · exact .modify a r _
      exact sent.trans ((rescan_kept ran).around a)

/-- Messages to the peer leave and its session can be up, unless it is virtual. -/
def ReachableAt (r : Router) (a : NetAddr) : Prop :=
  ∀ peer, sessionAt r a = some peer →
    peer.virtual = true ∨ r.env.sessionOk a = true ∧ r.env.sendReach peer.srcAddr a = true

/-- A refresh of the session with the peer changes nothing. -/
def QuietAt (r : Router) (a : NetAddr) : Prop :=
  ∀ peer, sessionAt r a = some peer →
    (peer.sessionState = .established ∨ peer.sessionState = .openWait → r.env.sessionOk a = true) ∧
      (peer.sessionState = .active → r.env.sessionOk a = false)

theorem QuietAt.congr (quiet : QuietAt r a) (env : s.env = r.env)
    (session : sessionAt s a = sessionAt r a) : QuietAt s a := by
  unfold QuietAt
  rw [env, session]
  exact quiet

theorem QuietAt.refresh (quiet : QuietAt r a) : bgpPeerSessionRefresh r a = .ok r := by
  unfold bgpPeerSessionRefresh
  cases held : r.peers.lookup a with
  | none => rfl
  | some peer =>
    obtain ⟨up, down⟩ := quiet (session peer) (by simp [sessionAt, held])
    simp only
    split
    next isUp => simp [up isUp]
    next =>
      split
      next isActive => simp [down isActive]
      next => rfl

theorem QuietAt.of_up {state : SessionState} (held : (sessionAt r a).map (·.sessionState) = some state)
    (up : state = .established ∨ state = .openWait) (ok : r.env.sessionOk a = true) : QuietAt r a := by
  intro peer found
  simp only [found, Option.map_some, Option.some.injEq] at held
  refine ⟨fun _ => ok, fun isActive => ?_⟩
  rw [← held, isActive] at up
  simp at up

/-- The state of a session after a change of the peer. -/
theorem modify_state {peer : Peer} (held : sessionAt r a = some peer) (f : Peer → Peer)
    {state : SessionState} (set : ∀ peer, (f peer).sessionState = state) :
    (sessionAt (r.modifyPeer a f) a).map (·.sessionState) = some state := by
  obtain ⟨stored, found, _⟩ := Option.map_eq_some_iff.mp held
  rw [sessionAt, modifyPeer_lookup, if_pos rfl, found]
  exact congrArg some (set stored)

theorem modify_held {peer : Peer} (held : sessionAt r a = some peer) (f : Peer → Peer) :
    ∃ peer', sessionAt (r.modifyPeer a f) a = some peer' := by
  obtain ⟨stored, found, _⟩ := Option.map_eq_some_iff.mp held
  rw [sessionAt, modifyPeer_lookup, if_pos rfl, found]
  exact ⟨_, rfl⟩

/-- A session that is opened towards a reachable peer waits or is up. -/
theorem openSession_quiet {peer : Peer} {code : NetError} (held : r.peers.lookup a = some peer)
    (isActive : peer.sessionState = .active) (reachable : ReachableAt r a)
    (ok : r.env.sessionOk a = true) (h : bgpPeerOpenSession r a = .ok (code, r')) :
    Around a r r' ∧ QuietAt r' a := by
  have known : sessionAt r a = some (session peer) := by simp [sessionAt, held]
  have reset := Around.modify a r fun peer => peer.resetSession peer.sessionState
  obtain ⟨peer', known'⟩ := modify_held known fun peer => peer.resetSession peer.sessionState
  simp only [bgpPeerOpenSession, held, isActive, ne_eq, reduceCtorEq, not_false_eq_true, not_true_eq_false,
    and_false, if_false] at h
  cases isVirtual : peer.virtual with
  | false =>
    -- the OPEN message leaves
    have line : r.env.sendReach peer.srcAddr a = true := by
      rcases reachable (session peer) known with virtual | reached
      · rw [show (session peer).virtual = peer.virtual from rfl, isVirtual] at virtual
        cases virtual
      · exact reached.2
    have left : (bgpPeerSend (r.modifyPeer a fun peer => peer.resetSession peer.sessionState) a
        (.open r.rid)).1 = .success := by
      have stored : (r.modifyPeer a fun peer => peer.resetSession peer.sessionState).peers.lookup a =
          some (peer.resetSession peer.sessionState) := by
        rw [modifyPeer_lookup, if_pos rfl, held]
        rfl
      have real : (peer.resetSession peer.sessionState).virtual = false := isVirtual
      have up : (r.modifyPeer a fun peer => peer.resetSession peer.sessionState).env.sendReach
          (peer.resetSession peer.sessionState).srcAddr a = true := line
      simp only [bgpPeerSend, stored, real, up, Bool.false_eq_true, if_false, if_true]
    have sends := SessionsKept.of_sends (bgpPeerSend_sends
      (r.modifyPeer a fun peer => peer.resetSession peer.sessionState) a (.open r.rid))
    simp only [isVirtual, Bool.not_false, if_true] at h
    rw [show (r.modifyPeer a _).rid = r.rid from rfl] at h
    generalize bgpPeerSend _ a _ = result at h left sends
    obtain ⟨error, s⟩ := result
    dsimp only at left sends
    subst left
    cases h
    refine ⟨(reset.trans (sends.around a)).trans (.modify a s _), ?_⟩
    refine QuietAt.of_up (modify_state ((sends.session a).trans known') _ fun _ => rfl) (.inr rfl) ?_
    rw [Router.modifyPeer, sends.env]
    exact ok
  | true =>
    simp only [isVirtual, Bool.not_true, Bool.false_eq_true, if_false] at h
    rw [show (r.modifyPeer a _).env = r.env from rfl, ok, if_pos rfl] at h
    have opened := reset.trans (.modify a _ fun peer =>
      { peer with sessionState := .established, routerId := a })
    have state := modify_state known'
      (fun peer => { peer with sessionState := .established, routerId := a }) fun _ => rfl
    split at h
    · rw [except_bind_eq_ok] at h
      obtain ⟨s, ran, rest⟩ := h
      cases rest
      have kept := rescan_kept ran
      rw [← kept.session a] at state
      refine ⟨opened.trans (kept.around a), QuietAt.of_up state (.inl rfl) ?_⟩
      rw [kept.env]
      exact ok
    · cases h
      exact ⟨opened, QuietAt.of_up state (.inl rfl) ok⟩

/-- After a refresh of its session, another one changes nothing. -/
theorem refresh_quiets (reachable : ReachableAt r a) (h : bgpPeerSessionRefresh r a = .ok r') :
    Around a r r' ∧ QuietAt r' a := by
  unfold bgpPeerSessionRefresh at h
  cases held : r.peers.lookup a with
  | none =>
    rw [held] at h
    cases h
    refine ⟨.refl a r, fun peer found => ?_⟩
    simp [sessionAt, held] at found
  | some peer =>
    have known : (sessionAt r a).map (·.sessionState) = some peer.sessionState := by
      simp [sessionAt, held, session]
    simp only [held] at h
    split at h
    -- An up session stays if the peer can be reached and is closed, then set active, if not.
    next isUp =>
      cases ok : r.env.sessionOk a with
      | true =>
        simp only [ok, Bool.not_true, Bool.false_eq_true, if_false, Except.ok.injEq] at h
        subst h
        exact ⟨.refl a r, .of_up known isUp ok⟩
      | false =>
        simp only [ok, Bool.not_false, if_true, except_bind_eq_ok] at h
        obtain ⟨⟨code, s⟩, ran, rest⟩ := h
        have around := closeSession_around ran
        split at rest
        next same =>
          cases same
          cases rest
          refine ⟨around.trans (.modify a _ _), fun peer found => ?_⟩
          rw [sessionAt, modifyPeer_lookup, if_pos rfl, Option.map_map, Option.map_eq_some_iff] at found
          obtain ⟨stored, _, rfl⟩ := found
          refine ⟨fun up => ?_, fun _ => around.env ▸ ok⟩
          simp [session] at up
        next => cases rest
    next notUp =>
      split at h
      -- An active session is opened if the peer can be reached.
      next isActive =>
        cases ok : r.env.sessionOk a with
        | true =>
          simp only [ok, if_true, except_bind_eq_ok] at h
          obtain ⟨⟨code, s⟩, ran, rest⟩ := h
          have quiet := openSession_quiet held isActive reachable ok ran
          split at rest
          next same =>
            cases same
            cases rest
            exact quiet
          next => cases rest
        | false =>
          simp only [ok, Bool.false_eq_true, if_false, Except.ok.injEq] at h
          subst h
          refine ⟨.refl a r, fun peer' found => ⟨fun up => ?_, fun _ => ok⟩⟩
          simp only [found, Option.map_some, Option.some.injEq] at known
          exact absurd (known ▸ up) notUp
      next notActive =>
        cases h
        refine ⟨.refl a r, fun peer' found => ?_⟩
        simp only [found, Option.map_some, Option.some.injEq] at known
        exact ⟨fun up => absurd (known ▸ up) notUp, fun isActive => absurd (known ▸ isActive) notActive⟩

/-- After all sessions were refreshed, another refresh changes nothing. -/
theorem refreshes_quiet {addrs : List NetAddr} (distinct : addrs.Nodup)
    (reachable : ∀ a ∈ addrs, ReachableAt r a) (h : addrs.foldlM bgpPeerSessionRefresh r = .ok r') :
    r'.env = r.env ∧ r'.peers.keys = r.peers.keys ∧ (MaskedKeys r.rt → MaskedKeys r'.rt) ∧
      (∀ a, a ∉ addrs → sessionAt r' a = sessionAt r a) ∧ ∀ a ∈ addrs, QuietAt r' a := by
  induction addrs generalizing r with
  | nil =>
    cases h
    exact ⟨rfl, rfl, id, fun _ _ => rfl, by simp⟩
  | cons a addrs inductionHypothesis =>
    rw [List.foldlM_cons, except_bind_eq_ok] at h
    obtain ⟨s, ran, rest⟩ := h
    obtain ⟨fresh, distinct⟩ := List.nodup_cons.mp distinct
    obtain ⟨around, quiet⟩ := refresh_quiets (reachable a List.mem_cons_self) ran
    have reachable' : ∀ b ∈ addrs, ReachableAt s b := by
      intro b member
      have other : b ≠ a := fun same => fresh (same ▸ member)
      unfold ReachableAt
      rw [around.env, around.session b other]
      exact reachable b (List.mem_cons_of_mem _ member)
    obtain ⟨env, keys, masked, session, quiets⟩ := inductionHypothesis distinct reachable' rest
    refine ⟨env.trans around.env, keys.trans around.keys, fun start => masked (around.masked start),
      fun b outside => ?_, ?_⟩
    · rw [List.mem_cons, not_or] at outside
      exact (session b outside.2).trans (around.session b outside.1)
    · rw [List.forall_mem_cons]
      exact ⟨quiet.congr env (session a fresh), quiets⟩

end Refresh

/-! ## Two scans -/

theorem mem_bgpRouterPrefixes {r : Router} {p : Pfx} :
    p ∈ bgpRouterPrefixes r ↔ ipPrefixMask p = p ∧
      ((∃ a route, r.adjRoute a p = some route) ∨ ∃ route, r.locRib.findExact p = some route) := by
  have stored (rib : Rib) : p ∈ rib.routes.keys ↔
      ipPrefixMask p = p ∧ ∃ route, rib.findExact p = some route := by
    rw [Table.mem_keys_iff]
    constructor
    · rintro ⟨route, found⟩
      have masked : ipPrefixMask p = p := by
        rw [← rib.keyed p route found, ipPrefixMask_idem]
      exact ⟨masked, route, by rw [Rib.findExact, masked, found]⟩
    · rintro ⟨masked, route, found⟩
      rw [Rib.findExact, masked] at found
      exact ⟨route, found⟩
  simp only [bgpRouterPrefixes, List.mem_dedup, List.mem_append, List.mem_flatMap, stored]
  constructor
  · rintro (⟨e, member, masked, route, found⟩ | ⟨masked, route, found⟩)
    · have held : r.peers.lookup e.1 = some e.2 := Table.mem_entries_iff.mp member
      exact ⟨masked, .inl ⟨e.1, route, adjRoute_eq_some.mpr ⟨e.2, held, found⟩⟩⟩
    · exact ⟨masked, .inr ⟨route, found⟩⟩
  · rintro ⟨masked, ⟨a, route, held⟩ | ⟨route, found⟩⟩
    · obtain ⟨peer, known, found⟩ := adjRoute_eq_some.mp held
      exact .inl ⟨⟨a, peer⟩, Table.mem_entries_iff.mpr known, masked, route, found⟩
    · exact .inr ⟨masked, route, found⟩

theorem mem_scanPrefixes {r : Router} {p : Pfx} : p ∈ scanPrefixes r ↔ p ∈ bgpRouterPrefixes r :=
  r.env.traversal.mem_order

/-- A scan visits each prefix once. -/
theorem scanPrefixes_distinct (r : Router) :
    (scanPrefixes r).Pairwise fun p q => ipPrefixMask p ≠ ipPrefixMask q := by
  have once : (scanPrefixes r).Nodup :=
    (r.env.traversal.perm _).nodup_iff.mpr (List.nodup_dedup _)
  refine List.Pairwise.imp_of_mem (fun {p q} memberP memberQ differ => ?_) once
  have maskedP := (mem_bgpRouterPrefixes.mp (mem_scanPrefixes.mp memberP)).1
  have maskedQ := (mem_bgpRouterPrefixes.mp (mem_scanPrefixes.mp memberQ)).1
  rw [maskedP, maskedQ]
  exact differ

/-- What a scan leaves for the next one was visited by it. -/
theorem LoopFrame.prefixes {r r' : Router} (frame : LoopFrame (scanPrefixes r) r r') {p : Pfx}
    (member : p ∈ scanPrefixes r') : p ∈ scanPrefixes r := by
  rw [mem_scanPrefixes, mem_bgpRouterPrefixes] at member ⊢
  obtain ⟨masked, ⟨a, route, held⟩ | ⟨route, found⟩⟩ := member
  · obtain ⟨route', held', _⟩ := adjView_some (frame.adj a p).symm held
    exact ⟨masked, .inl ⟨a, route', held'⟩⟩
  · by_contra outside
    have fresh : ∀ q ∈ scanPrefixes r, ipPrefixMask p ≠ ipPrefixMask q := by
      intro q visited same
      have listed := mem_bgpRouterPrefixes.mp (mem_scanPrefixes.mp visited)
      rw [masked, listed.1] at same
      exact outside (same ▸ listed)
    rw [frame.loc p fresh] at found
    exact outside ⟨masked, .inr ⟨route, found⟩⟩

/-- A scan in a clear order reaches a state in which another scan changes neither the Loc-RIB nor the
routing table and sends nothing. -/
theorem scan_settles {r r₁ : Router} (masked : MaskedKeys r.rt) (reachable : ∀ a, ReachableAt r a)
    (order : ∀ s, bgpRouterRefreshSessions r = .ok s → ClearOrder s (scanPrefixes s))
    (h : bgpRouterScanRib r = .ok r₁) :
    ∃ r₂, bgpRouterScanRib r₁ = .ok r₂ ∧ (∀ p, r₂.locRib.findExact p = r₁.locRib.findExact p) ∧
      (∀ key, r₂.rt.lookup key = r₁.rt.lookup key) ∧ r₂.outbox = r₁.outbox := by
  simp only [bgpRouterScanRib, except_bind_eq_ok] at h
  obtain ⟨s, refreshed, ran⟩ := h
  obtain ⟨env, keys, maskedKept, _, quiets⟩ :=
    refreshes_quiet r.peers.keys_nodup (fun a _ => reachable a) refreshed
  have maskedS : MaskedKeys s.rt := maskedKept masked
  have frame := loop_frame ran
  have settled := loop_settles maskedS (order s refreshed) (scanPrefixes_distinct s) ran
  -- the sessions are as the first refresh left them
  have refreshed' : bgpRouterRefreshSessions r₁ = .ok r₁ := by
    have quiet : ∀ a ∈ r₁.peers.keys, bgpPeerSessionRefresh r₁ a = .ok r₁ := by
      intro a member
      rw [frame.keys, keys] at member
      exact ((quiets a member).congr frame.env (frame.session a)).refresh
    unfold bgpRouterRefreshSessions
    revert quiet
    generalize r₁.peers.keys = addrs
    intro quiet
    induction addrs with
    | nil => rfl
    | cons a addrs inductionHypothesis =>
      rw [List.foldlM_cons, quiet a List.mem_cons_self]
      exact inductionHypothesis fun b member => quiet b (List.mem_cons_of_mem _ member)
  obtain ⟨r₂, again, unmoved⟩ := loop_unmoved (frame.masked maskedS) fun p member =>
    settled p (frame.prefixes member)
  refine ⟨r₂, ?_, unmoved.loc, unmoved.rt, unmoved.outbox⟩
  rw [bgpRouterScanRib, refreshed']
  exact again

/-! ## Two prefixes, one resolved through the other -/

/-- A test for `ClearOrder`: the next-hops lie outside the prefixes. -/
def clearOrderTest (r : Router) : List Pfx → Bool
  | [] => true
  | p :: later =>
    (p :: later).all (fun q => r.peers.entries.all fun e =>
      (e.2.adjRibIn.findExact p).all fun route => !ipAddressInPrefix route.attr.nextHop (ipPrefixMask q)) &&
      clearOrderTest r later

theorem clearOrder_of_test {r : Router} {pfxs : List Pfx} (tested : clearOrderTest r pfxs = true) :
    ClearOrder r pfxs := by
  induction pfxs with
  | nil => exact ⟨.nil, by simp⟩
  | cons p later inductionHypothesis =>
    rw [clearOrderTest, Bool.and_eq_true] at tested
    obtain ⟨pairs, self⟩ := inductionHypothesis tested.2
    have outside : ∀ q ∈ p :: later, HopsClear r p q := by
      intro q member a route held
      obtain ⟨peer, known, found⟩ := adjRoute_eq_some.mp held
      have here := List.all_eq_true.mp (List.all_eq_true.mp tested.1 q member) ⟨a, peer⟩
        (Table.mem_entries_iff.mpr known)
      simp only [found, Option.all_some, Bool.not_eq_true'] at here
      exact .inl here
    refine ⟨List.pairwise_cons.mpr ⟨fun q member => outside q (List.mem_cons_of_mem _ member), pairs⟩, ?_⟩
    rw [List.forall_mem_cons]
    exact ⟨outside p List.mem_cons_self, self⟩

/-- A routing table with static routes to hosts, all by one link. -/
def hostRoutes (hosts : List NetAddr) : NetRt :=
  hosts.foldl (fun rt host => rt.insert ⟨host, 32, short32⟩ (RtInfos.single
    { pfx := ⟨host, 32, short32⟩, metric := 10, type := .static, entries := [⟨some 2, 0⟩] })) ∅

/-- A router with two virtual peers, both reachable. -/
def reachesPeers (traversal : Traversal) : Router :=
  bgpRouterAddPeer
    (bgpRouterAddPeer (bgpRouterCreate 1 1 (hostRoutes [3, 4]) { Env.default with traversal := traversal })
      3 (virtualPeer 7)) 4 (virtualPeer 8)

/-- Routes that the router cannot use yet: one for 20.0.0.0/8, whose next-hop no route leads to, and one for
10.0.0.0/8 whose next-hop lies in 20.0.0.0/8. -/
def unusable : List Op :=
  [.handleMessage 3 ⟨0, .update ((dumped ⟨0x14000000, 8, short8⟩ 5 7).route 3)⟩,
    .handleMessage 4 ⟨0, .update ((dumped tenNet 0x14000001 8).route 4)⟩]

/-- The router with these routes, whose node then got a route to the next-hop of the first. -/
def changed (traversal : Traversal) : Except Abort Router :=
  unusable.foldlM exec (reachesPeers traversal) >>= fun r => exec r (.netChange (hostRoutes [3, 4, 5]) r.env)

theorem reachable_of_virtual {r : Router} (peers : (r.peers.entries.all (·.2.virtual)) = true)
    (a : NetAddr) : ReachableAt r a := by
  intro peer held
  obtain ⟨stored, known, rfl⟩ := Option.map_eq_some_iff.mp held
  exact .inl (List.all_eq_true.mp peers ⟨a, stored⟩ (Table.mem_entries_iff.mpr known))

/-- A scan that visits 20.0.0.0/8 first settles both prefixes. -/
theorem scan_settles_resolved : ∃ r r₁ r₂ : Router, changed ⟨List.reverse, List.reverse_perm⟩ = .ok r ∧
    bgpRouterScanRib r = .ok r₁ ∧ (r₁.locRib.findExact tenNet).isSome = true ∧
    bgpRouterScanRib r₁ = .ok r₂ ∧ (∀ p, r₂.locRib.findExact p = r₁.locRib.findExact p) ∧
    (∀ key, r₂.rt.lookup key = r₁.rt.lookup key) ∧ r₂.outbox = r₁.outbox := by
  have ran : okAnd (changed ⟨List.reverse, List.reverse_perm⟩) (fun r =>
      r.peers.entries.all (·.2.virtual) && r.rt.keys.all (fun key => ipPrefixMask key = key) &&
      okAnd (bgpRouterRefreshSessions r) (fun s => clearOrderTest s (scanPrefixes s)) &&
      okAnd (bgpRouterScanRib r) fun r₁ => (r₁.locRib.findExact tenNet).isSome) = true := by
    decide +kernel
  obtain ⟨r, ran, observed⟩ := okAnd_iff.mp ran
  simp only [Bool.and_eq_true, List.all_eq_true, decide_eq_true_eq] at observed
  obtain ⟨⟨⟨peers, masked⟩, ordered⟩, scanned⟩ := observed
  obtain ⟨s, refreshed, tested⟩ := okAnd_iff.mp ordered
  obtain ⟨r₁, scanned, held⟩ := okAnd_iff.mp scanned
  have order : ∀ s', bgpRouterRefreshSessions r = .ok s' → ClearOrder s' (scanPrefixes s') := by
    intro s' again
    rw [refreshed] at again
    cases again
    exact clearOrder_of_test tested
  obtain ⟨r₂, again, same⟩ :=
    scan_settles masked (reachable_of_virtual (List.all_eq_true.mpr peers)) order scanned
  exact ⟨r, r₁, r₂, ran, scanned, held, again, same⟩

/-- A scan that visits 10.0.0.0/8 first leaves it to the next scan. -/
theorem scan_resolves_late : ¬ ∀ r r₁ : Router, MaskedKeys r.rt → (∀ a, ReachableAt r a) →
    bgpRouterScanRib r = .ok r₁ → ∃ r₂, bgpRouterScanRib r₁ = .ok r₂ ∧
      (∀ p, r₂.locRib.findExact p = r₁.locRib.findExact p) ∧
      (∀ key, r₂.rt.lookup key = r₁.rt.lookup key) ∧ r₂.outbox = r₁.outbox := by
  intro always
  have ran : okAnd (changed ⟨id, fun _ => .refl _⟩) (fun r =>
      r.peers.entries.all (·.2.virtual) && r.rt.keys.all (fun key => ipPrefixMask key = key) &&
      okAnd (bgpRouterScanRib r) fun r₁ => (r₁.locRib.findExact tenNet).isNone &&
        okAnd (bgpRouterScanRib r₁) fun r₂ => (r₂.locRib.findExact tenNet).isSome) = true := by
    decide +kernel
  obtain ⟨r, _, observed⟩ := okAnd_iff.mp ran
  simp only [Bool.and_eq_true, List.all_eq_true, decide_eq_true_eq] at observed
  obtain ⟨⟨peers, masked⟩, scanned⟩ := observed
  obtain ⟨r₁, scanned, observed⟩ := okAnd_iff.mp scanned
  rw [Bool.and_eq_true, Option.isNone_iff_eq_none] at observed
  obtain ⟨r₂, again, found⟩ := okAnd_iff.mp observed.2
  obtain ⟨r₂', again', loc, _⟩ :=
    always r r₁ masked (reachable_of_virtual (List.all_eq_true.mpr peers)) scanned
  rw [again] at again'
  cases again'
  rw [loc, observed.1] at found
  cases found

end Cbgp.Verified
