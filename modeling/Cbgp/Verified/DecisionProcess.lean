import Cbgp.Verified.BgpRoutes
import Cbgp.Verified.Frame
import Cbgp.Verified.Selection

/-! # What the decision process does to a router

The specification of `bgp_router_decision_process` that everything above it uses in place of the
function's body.  A run that succeeds is an `Outcome`: a locally originated route shadows it, or it
flags the Adj-RIB-In routes of one prefix and installs what the comparison left.  A run that fails
does so while comparing or exporting routes, or because the routing table lacks the prefix of a
route that goes (`decisionProcess_ends`).
-/

namespace Cbgp.Verified

open Cbgp.Lib Cbgp.Net Cbgp.Bgp

/-! ## The comparison -/

theorem dpRule_ends (router : Router) (routes : List Cand) {rule : DpRule}
    (member : some rule ∈ dpRules) :
    Ends (fun left => left ⊆ routes) Routing (rule router routes) := by
  have kept (dom : Cand → Cand → Bool) : undominated dom routes ⊆ routes :=
    (undominated_sublist dom routes).subset
  simp only [dpRules, List.mem_cons, Option.some.injEq, reduceCtorEq, List.not_mem_nil,
    or_false] at member
  obtain rfl | rfl | rfl | rfl | rfl | rfl | rfl | rfl | rfl := member
  · rw [dpRuleHighestPref_eq]
    exact kept _
  · exact List.filter_sublist.subset
  · rw [dpRuleLowestOrigin_eq]
    exact kept _
  · by_cases known : router.env.medType = .deterministic → ∀ c ∈ routes, HasLastAs c
    · rw [dpRuleLowestMed_eq known]
      exact kept _
    · rw [Classical.not_imp] at known
      rw [dpRuleLowestMed_error known.1 known.2]
      simp [Ends, Routing]
  · rw [dpRuleEbgpOverIbgp_eq]
    exact kept _
  · by_cases reachable : ∀ c ∈ routes, (rtFindBest router.rt c.attr.nextHop netRouteAny).isSome
    · rw [dpRuleNearestNextHop_eq reachable]
      exact kept _
    · rw [dpRuleNearestNextHop_error reachable]
      simp [Ends, Routing]
  · rw [dpRuleLowestRouterId_eq]
    exact kept _
  · exact List.filter_sublist.subset
  · rw [dpRuleLowestNeighborAddress_eq]
    exact kept _

theorem applyRules_ends (router : Router) {slots : List (Option DpRule)} (sub : slots ⊆ dpRules)
    (index : Nat) (routes : List Cand) :
    Ends (fun result => result.2 ⊆ routes) Routing (applyRules router slots index routes) := by
  induction slots generalizing index routes with
  | nil => exact List.Subset.refl routes
  | cons slot slots inductionHypothesis =>
    rw [applyRules.eq_def]
    simp only
    split
    · exact List.Subset.refl routes
    · cases slot with
      | none => simp [Ends, Routing]
      | some rule =>
        refine (dpRule_ends router routes (sub List.mem_cons_self)).bind fun left kept => ?_
        refine (inductionHypothesis (List.subset_of_cons_subset sub) _ left).mono ?_ fun _ => id
        exact fun result subset => List.Subset.trans subset kept

theorem compareRoutes_ends (router : Router) (routes : List Cand) :
    Ends (fun left => left ⊆ routes ∧ left.length ≤ 1) Routing (compareRoutes router routes) := by
  unfold compareRoutes
  split
  · refine Ends.map ((applyRules_ends router (List.Subset.refl _) 0 routes).bind ?_)
    rintro ⟨index, result⟩ subset
    simp only
    split
    · simp [Ends, Routing]
    next single => exact ⟨subset, Nat.le_of_not_lt single⟩
  next single => exact ⟨List.Subset.refl routes, Nat.le_of_not_lt single⟩

theorem igpDependent_ends (router : Router) (routes : List Cand) :
    Ends (fun _ => True) Routing (igpDependent router routes) := by
  unfold igpDependent
  split
  · trivial
  · refine (applyRules_ends router (List.take_subset 5 dpRules) 0 routes).bind ?_
    rintro ⟨index, result⟩ _
    simp only
    split
    · trivial
    · trivial

/-! ## Candidates -/

/-- A candidate is the eligible route of an established peer, with a reachable next-hop. -/
theorem mem_candidates {router : Router} {p : Pfx} {c : Cand} :
    c ∈ bgpRouterGetFeasibleRoutes router p ↔
      ∃ peer route, router.peers.lookup c.addr = some peer ∧ peer.sessionState = .established ∧
        router.adjRoute c.addr p = some route ∧ route.flags.eligible = true ∧
        nextHopReachable router route = true ∧ c = ⟨c.addr, peer.asn, peer.routerId, route.attr⟩ := by
  rw [mem_bgpRouterGetFeasibleRoutes]
  constructor
  · rintro ⟨addr, peer, held, found⟩
    obtain rfl := candidate_addr found
    unfold candidate at found
    split at found
    next established =>
      split at found
      · cases found
      next route stored =>
        split at found
        next usable =>
          rw [Bool.and_eq_true] at usable
          refine ⟨peer, route, held, established, ?_, usable.1, usable.2, ?_⟩
          · exact adjRoute_eq_some.mpr ⟨peer, held, stored⟩
          · exact (Option.some.inj found).symm
        · cases found
    · cases found
  · rintro ⟨peer, route, held, established, stored, eligible, reachable, same⟩
    obtain ⟨peer', held', stored⟩ := adjRoute_eq_some.mp stored
    rw [held] at held'
    cases held'
    refine ⟨c.addr, peer, held, ?_⟩
    rw [candidate, if_pos established, stored]
    simp only [eligible, reachable, Bool.and_self, if_true]
    rw [← same]

/-- The candidate of one peer. -/
def candAt (router : Router) (p : Pfx) (a : NetAddr) : Option Cand :=
  (router.peers.lookup a).bind (candidate router p a)

theorem mem_candidates_iff {router : Router} {p : Pfx} {c : Cand} :
    c ∈ bgpRouterGetFeasibleRoutes router p ↔ candAt router p c.addr = some c := by
  rw [mem_bgpRouterGetFeasibleRoutes, candAt, Option.bind_eq_some_iff]
  constructor
  · rintro ⟨addr, peer, held, found⟩
    obtain rfl := candidate_addr found
    exact ⟨peer, held, found⟩
  · rintro ⟨peer, held, found⟩
    exact ⟨c.addr, peer, held, found⟩

/-- What a candidate is made of. -/
theorem candAt_eq (router : Router) (p : Pfx) (a : NetAddr) :
    candAt router p a = (sessionAt router a).bind fun session =>
      if session.sessionState = .established then
        (router.adjRoute a p).bind fun route =>
          if route.flags.eligible && nextHopReachable router route then
            some ⟨a, session.asn, session.routerId, route.attr⟩
          else none
      else none := by
  unfold candAt sessionAt
  cases held : router.peers.lookup a with
  | none => rfl
  | some peer =>
    have stored : router.adjRoute a p = peer.adjRibIn.findExact p := by
      simp [Router.adjRoute, held]
    simp only [Option.bind_some, Option.map_some, stored, candidate]
    have state : (session peer).sessionState = peer.sessionState := rfl
    rw [state]
    split
    · cases peer.adjRibIn.findExact p with
      | none => rfl
      | some route => rfl
    · rfl

/-- A candidate depends on the session of its peer and on the attributes, the eligibility and the
next-hop of its route. -/
theorem candAt_congr {r s : Router} {p q : Pfx} {a : NetAddr}
    (session : sessionAt s a = sessionAt r a)
    (adj : (s.adjRoute a q).map (fun route => (route.attr, route.flags.eligible)) =
      (r.adjRoute a p).map fun route => (route.attr, route.flags.eligible))
    (reach : ∀ route, r.adjRoute a p = some route →
      nextHopReachable s route = nextHopReachable r route) :
    candAt s q a = candAt r p a := by
  rw [candAt_eq, candAt_eq, session]
  congr 1
  funext peer
  split
  · cases heldR : r.adjRoute a p with
    | none =>
      cases heldS : s.adjRoute a q with
      | none => rfl
      | some route => simp [heldR, heldS] at adj
    | some route =>
      cases heldS : s.adjRoute a q with
      | none => simp [heldR, heldS] at adj
      | some route' =>
        simp only [heldR, heldS, Option.map_some, Option.some.injEq, Prod.mk.injEq] at adj
        have same : nextHopReachable s route' = nextHopReachable r route := by
          rw [← reach route heldR, nextHopReachable, adj.1]
          rfl
        simp only [Option.bind_some, adj.1, adj.2, same]
  · rfl

/-- The candidates for a prefix are those of the peers, in some order. -/
theorem candidates_perm {r s : Router} {p q : Pfx} (same : ∀ a, candAt s q a = candAt r p a) :
    (bgpRouterGetFeasibleRoutes s q).Perm (bgpRouterGetFeasibleRoutes r p) := by
  rw [List.perm_ext_iff_of_nodup (getFeasibleRoutes_distinct s q).of_map
    (getFeasibleRoutes_distinct r p).of_map]
  intro c
  rw [mem_candidates_iff, mem_candidates_iff, same]

/-- The peer has a candidate for the prefix. -/
def isCandidate (router : Router) (p : Pfx) (a : NetAddr) : Bool :=
  (bgpRouterGetFeasibleRoutes router p).any (·.addr = a)

/-- The peer's route for the prefix has `ROUTE_FLAG_BEST`. -/
def bestAt (router : Router) (a : NetAddr) (p : Pfx) : Bool :=
  (router.adjRoute a p).any (·.flags.best)

theorem bestAt_congr {r r' : Router} {a : NetAddr} {q : Pfx}
    (same : r'.adjRoute a q = r.adjRoute a q) : bestAt r' a q = bestAt r a q := by
  rw [bestAt, bestAt, same]

theorem bestAt_of_flag {r : Router} {a : NetAddr} {p : Pfx} {route : Route}
    (held : r.adjRoute a p = some route) (best : route.flags.best = true) : bestAt r a p = true := by
  rw [bestAt, held]
  exact best

/-- The mark of a route whose flags were changed. -/
theorem Flagged.best {r r' : Router} {p : Pfx} {g : NetAddr → RouteFlags → RouteFlags}
    (flagged : Flagged r r' p g) {a : NetAddr} {q : Pfx} (same : ipPrefixMask q = ipPrefixMask p)
    (marked : bestAt r' a q = true) :
    ∃ route, r.adjRoute a q = some route ∧ (g a route.flags).best = true := by
  rw [bestAt, flagged.adj, if_pos same] at marked
  cases held : r.adjRoute a q with
  | none => simp [held] at marked
  | some route => exact ⟨route, rfl, by simpa [held] using marked⟩

/-! ## Outcomes -/

/-- The Loc-RIB changed at one prefix only. -/
def LocAt (r r' : Router) (p : Pfx) (entry : Option Route) : Prop :=
  ∀ q, r'.locRib.findExact q =
    if ipPrefixMask q = ipPrefixMask p then entry else r.locRib.findExact q

/-- The BGP routes of the routing table changed at one prefix only. -/
def RtAt (r r' : Router) (p : Pfx) (routes : List RtInfo) : Prop :=
  ∀ q, bgpRoutesTo r'.rt q =
    if ipPrefixMask q = ipPrefixMask p then routes else bgpRoutesTo r.rt q

/-- What is installed for the routes the comparison left, with what becomes of the flags `best` of
the Adj-RIB-In routes. -/
inductive Installed (r r' : Router) (p : Pfx) (g : NetAddr → RouteFlags → RouteFlags) :
    List Cand → Prop where
  | nothing (absent : r.locRib.findExact p = none) (loc : r'.locRib = r.locRib)
      (rt : r'.rt = r.rt) (best : ∀ a f, (g a f).best = (f.best && !isCandidate r p a)) :
      Installed r r' p g []
  | lost (old : Route) (held : r.locRib.findExact p = some old) (loc : LocAt r r' p none)
      (rt : RtAt r r' p [])
      (best : ∀ a f, (g a f).best = (f.best && !isCandidate r p a && !decide (old.peer = some a))) :
      Installed r r' p g []
  | unchanged (w : Cand) (old route : Route) (dpIgp : Bool)
      (held : r.locRib.findExact p = some old) (won : r.adjRoute w.addr p = some route)
      (equals : bgpAttrCmp old.attr route.attr = true)
      (loc : LocAt r r' p (some (old.setFlags fun f => { f with dpIgp := dpIgp })))
      (rt : RtAt r r' p [bgpRtInfo route.pfx route.attr.nextHop])
      (best : ∀ a f, (g a f).best = (decide (a = w.addr) || (f.best && !isCandidate r p a))) :
      Installed r r' p g [w]
  | updated (w : Cand) (route : Route) (won : r.adjRoute w.addr p = some route)
      (differs : ∀ old, r.locRib.findExact p = some old → routeEquals old route = false)
      (loc : LocAt r r' p (some (route.setFlags (g w.addr))))
      (rt : RtAt r r' p [bgpRtInfo route.pfx route.attr.nextHop])
      (best : ∀ a f, (g a f).best = (decide (a = w.addr) || (f.best && !isCandidate r p a &&
        !decide ((r.locRib.findExact p).bind Route.peer = some a)))) :
      Installed r r' p g [w]

/-- The flags a decision process does not touch. -/
def KeepsFlags (g : NetAddr → RouteFlags → RouteFlags) : Prop :=
  ∀ a f, (g a f).eligible = f.eligible ∧ (g a f).internal = f.internal ∧
    (g a f).rrClient = f.rrClient

/-- What a successful decision process did. -/
inductive Outcome (r r' : Router) (p : Pfx) : Prop where
  | shadowed (old : Route) (held : r.locRib.findExact p = some old)
      (internal : old.flags.internal = true) (same : r' = r)
  | ran (g : NetAddr → RouteFlags → RouteFlags) (flagged : Flagged r r' p g) (keeps : KeepsFlags g)
      (learned : ∀ old, r.locRib.findExact p = some old → old.flags.internal = false)
      (left : List Cand) (compared : compareRoutes r (bgpRouterGetFeasibleRoutes r p) = .ok left)
      (installed : Installed r r' p g left)

/-! ## The flags before the installation -/

theorem feasibleFlag_keeps (router : Router) (p : Pfx) (a : NetAddr) (f : RouteFlags) :
    ∃ feasible, feasibleFlag router p a f = { f with feasible := feasible } := by
  unfold feasibleFlag
  split
  · exact ⟨f.feasible, rfl⟩
  · split
    · exact ⟨f.feasible, rfl⟩
    · split
      · exact ⟨_, rfl⟩
      · exact ⟨f.feasible, rfl⟩

/-- The state in which the outcome of the comparison is installed. -/
def flagged (r : Router) (p : Pfx) (igp : List Cand) : Router :=
  setListFlags
    (setListFlags (updateFeasible r p) (bgpRouterGetFeasibleRoutes r p) p
      fun f => { f with dpIgp := false, best := false })
    igp p fun f => { f with dpIgp := true }

theorem flagged_flagged (r : Router) (p : Pfx) (igp : List Cand) :
    ∃ g, Flagged r (flagged r p igp) p g ∧ KeepsFlags g ∧
      ∀ a f, (g a f).best = (f.best && !isCandidate r p a) := by
  refine ⟨_, ((updateFeasible_flagged r p).trans (setListFlags_flagged _ _ p _)).trans
    (setListFlags_flagged _ igp p _), fun a f => ?_, fun a f => ?_⟩
  · obtain ⟨feasible, same⟩ := feasibleFlag_keeps r p a f
    simp only [same]
    split
    · split
      · exact ⟨rfl, rfl, rfl⟩
      · exact ⟨rfl, rfl, rfl⟩
    · split
      · exact ⟨rfl, rfl, rfl⟩
      · exact ⟨rfl, rfl, rfl⟩
  · obtain ⟨feasible, same⟩ := feasibleFlag_keeps r p a f
    simp only [same, isCandidate]
    cases (bgpRouterGetFeasibleRoutes r p).any (·.addr = a) with
    | true =>
      simp only [if_true, Bool.not_true, Bool.and_false]
      split
      · rfl
      · rfl
    | false =>
      simp only [Bool.false_eq_true, if_false, Bool.not_false, Bool.and_true]
      split
      · rfl
      · rfl

/-! ## Installing -/

/-- What `bgp_router_best_flag_off` does to the flags of Adj-RIB-In routes. -/
def bestOff (old : Route) (a : NetAddr) (f : RouteFlags) : RouteFlags :=
  if old.peer = some a then { f with best := false } else f

theorem bgpRouterBestFlagOff_flagged (s : Router) {p : Pfx} {old : Route}
    (same : ipPrefixMask old.pfx = ipPrefixMask p) :
    Flagged s (bgpRouterBestFlagOff s old) p (bestOff old) := by
  unfold bgpRouterBestFlagOff
  cases peer : old.peer with
  | none =>
    refine (Flagged.of_peers s p _ s.rt).flags_ext fun a f => ?_
    simp [bestOff, peer]
  | some addr =>
    refine ((Flagged.of_peers s p _ s.rt).trans
      ((setAdjFlags_flagged _ addr old.pfx _).congr same)).flags_ext fun a f => ?_
    simp only [bestOff, peer, Option.some.injEq]
    by_cases isOld : a = addr
    · simp [isOld]
    · simp [isOld, Ne.symm isOld]

theorem bgpRouterBestFlagOff_loc (s : Router) (old : Route) :
    (bgpRouterBestFlagOff s old).locRib =
      s.locRib.setFlags old.pfx fun f => { f with best := false } := by
  unfold bgpRouterBestFlagOff
  cases old.peer with
  | none => rfl
  | some addr => rfl

theorem bgpRouterBestFlagOff_rt (s : Router) (old : Route) :
    (bgpRouterBestFlagOff s old).rt = s.rt := by
  unfold bgpRouterBestFlagOff
  cases old.peer with
  | none => rfl
  | some addr => rfl

theorem noBestRoute_ends (s : Router) {p : Pfx} {old : Route}
    (same : ipPrefixMask old.pfx = ipPrefixMask p) :
    Ends (fun s' => Flagged s s' p (bestOff old) ∧ LocAt s s' p none ∧ RtAt s s' p [])
      (fun e => Routing e ∨ e = .rtDelRoute ∧ s.rt.lookup (ipPrefixMask p) = none)
      (noBestRoute s p (some old)) := by
  have off := bgpRouterBestFlagOff_flagged s same
  have removed := off.trans (Flagged.of_peers _ p
    ((bgpRouterBestFlagOff s old).locRib.removeRoute p) (bgpRouterBestFlagOff s old).rt)
  refine Ends.intro (fun s' h => ?_) fun e failed => ?_
  · simp only [noBestRoute, except_bind_eq_ok] at h
    obtain ⟨mid, deleted, disseminated⟩ := h
    obtain ⟨rt', rfl, routes⟩ := bgpRouterRtDelRoute_ok deleted
    have sends := (disseminate_ends _ p none).value disseminated
    refine ⟨(removed.trans (Flagged.of_peers _ p _ rt')).trans (Flagged.of_sends p sends),
      fun q => ?_, fun q => ?_⟩
    · rw [sends.locRib]
      simp only [Rib.findExact_removeRoute, bgpRouterBestFlagOff_loc, Rib.findExact_setFlags, same]
      split
      · rfl
      · rfl
    · rw [sends.rt, routes, bgpRouterBestFlagOff_rt]
  · simp only [noBestRoute] at failed
    refine Ends.error (P := fun _ => True)
      (Q := fun e => Routing e ∨ e = .rtDelRoute ∧ s.rt.lookup (ipPrefixMask p) = none)
      (Ends.bind (P := fun _ => True) ?_ ?_) failed
    · refine Ends.intro (fun _ _ => trivial) fun e failed => ?_
      obtain ⟨kind, unknown⟩ := bgpRouterRtDelRoute_error failed
      exact .inr ⟨kind, by simpa only [bgpRouterBestFlagOff_rt] using unknown⟩
    · intro mid _
      exact (disseminate_ends mid p none).mono (fun _ _ => trivial) fun _ => .inl

/-- What becoming the best route does to the flags of Adj-RIB-In routes. -/
def bestOn (winner a : NetAddr) (f : RouteFlags) : RouteFlags :=
  if a = winner then { f with best := true } else f

theorem setBest_flagged (s : Router) (winner : NetAddr) (p : Pfx) :
    Flagged s (s.setAdjFlags winner p fun f => { f with best := true }) p (bestOn winner) := by
  refine (setAdjFlags_flagged s winner p _).flags_ext fun a f => ?_
  unfold bestOn
  split
  · rfl
  · rfl

theorem unchangedBestRoute_ok (s : Router) {p : Pfx} (winner : NetAddr) {route : Route}
    (same : ipPrefixMask route.pfx = ipPrefixMask p) :
    ∃ s', unchangedBestRoute s p winner route = .ok s' ∧ Flagged s s' p (bestOn winner) ∧
      LocAt s s' p ((s.locRib.findExact p).map
        (Route.setFlags · fun f => { f with dpIgp := route.flags.dpIgp })) ∧
      RtAt s s' p [bgpRtInfo route.pfx route.attr.nextHop] := by
  unfold unchangedBestRoute
  simp only
  obtain ⟨rt', added, routes⟩ := bgpRouterRtAddRoute_ok
    { s.setAdjFlags winner p (fun f => { f with best := true }) with
      locRib := (s.setAdjFlags winner p fun f => { f with best := true }).locRib.setFlags p fun f =>
        { f with dpIgp := route.flags.dpIgp } } route
  refine ⟨_, added, (setBest_flagged s winner p).trans (Flagged.of_peers _ p _ rt'), fun q => ?_,
    fun q => ?_⟩
  · have stored := Rib.findExact_setFlags s.locRib p q fun f => { f with dpIgp := route.flags.dpIgp }
    refine stored.trans ?_
    split
    next sameKey => rw [s.locRib.findExact_congr sameKey]
    · rfl
  · rw [← same]
    exact routes q

/-- The router once the flag of the old best route is off. -/
def oldOff (s : Router) : Option Route → Router
  | none => s
  | some old => bgpRouterBestFlagOff s old

/-- What that does to the flags of Adj-RIB-In routes. -/
def oldBestOff (oldRoute : Option Route) (a : NetAddr) (f : RouteFlags) : RouteFlags :=
  match oldRoute with
  | none => f
  | some old => bestOff old a f

theorem updateBestRoute_ends (s : Router) {p : Pfx} (oldRoute : Option Route) (winner : NetAddr)
    {route : Route} (sameOld : ∀ old, oldRoute = some old → ipPrefixMask old.pfx = ipPrefixMask p)
    (same : ipPrefixMask route.pfx = ipPrefixMask p) :
    Ends (fun s' =>
        Flagged s s' p (fun a f => bestOn winner a (oldBestOff oldRoute a f)) ∧
        LocAt s s' p (some (route.setFlags fun f => { f with best := true })) ∧
        RtAt s s' p [bgpRtInfo route.pfx route.attr.nextHop])
      Routing (updateBestRoute s p oldRoute winner route) := by
  -- First the flag of the old best route goes off, if there was one.
  have off : Flagged s (oldOff s oldRoute) p (oldBestOff oldRoute) := by
    cases oldRoute with
    | none => exact Flagged.of_peers s p s.locRib s.rt
    | some old => exact bgpRouterBestFlagOff_flagged s (sameOld old rfl)
  have offLoc : ∀ q, ipPrefixMask q ≠ ipPrefixMask p →
      (oldOff s oldRoute).locRib.findExact q = s.locRib.findExact q := by
    intro q other
    cases oldRoute with
    | none => rfl
    | some old =>
      rw [oldOff, bgpRouterBestFlagOff_loc, Rib.findExact_setFlags, sameOld old rfl, if_neg other]
  have offRt : (oldOff s oldRoute).rt = s.rt := by
    cases oldRoute with
    | none => rfl
    | some old => exact bgpRouterBestFlagOff_rt s old
  -- Then the winner is marked, copied to the Loc-RIB, installed and announced.
  have shape : updateBestRoute s p oldRoute winner route =
      (bgpRouterRtAddRoute
        { (oldOff s oldRoute).setAdjFlags winner p (fun f => { f with best := true }) with
          locRib := (oldOff s oldRoute).locRib.addRoute
            (route.setFlags fun f => { f with best := true }) }
        (route.setFlags fun f => { f with best := true }) >>= fun s' =>
        disseminate s' p (some (route.setFlags fun f => { f with best := true }))) := by
    cases oldRoute with
    | none => rfl
    | some old => rfl
  obtain ⟨rt', added, routes⟩ := bgpRouterRtAddRoute_ok
    { (oldOff s oldRoute).setAdjFlags winner p (fun f => { f with best := true }) with
      locRib := (oldOff s oldRoute).locRib.addRoute
        (route.setFlags fun f => { f with best := true }) }
    (route.setFlags fun f => { f with best := true })
  rw [shape, added]
  refine (disseminate_ends _ p _).mono (fun s' sends => ?_) fun _ => id
  refine ⟨(off.trans ((setBest_flagged _ winner p).trans (Flagged.of_peers _ p _ rt'))).trans
    (Flagged.of_sends p sends), fun q => ?_, fun q => ?_⟩
  · rw [sends.locRib]
    refine (Rib.findExact_addRoute _ _ q).trans ?_
    simp only [Route.setFlags_pfx, same]
    split
    · rfl
    next other => exact offLoc q other
  · rw [sends.rt]
    refine (routes q).trans ?_
    simp only [Route.setFlags_pfx, same]
    split
    · rfl
    · exact congrArg (bgpRoutesTo · q) offRt

/-! ## The specification -/

/-- Why a decision process can fail: while comparing or exporting routes, or because the routing
table lacks the prefix of a learned route that goes. -/
def DecisionAbort (r : Router) (p : Pfx) (e : Abort) : Prop :=
  Routing e ∨ e = .rtDelRoute ∧ r.rt.lookup (ipPrefixMask p) = none ∧
    ∃ old, r.locRib.findExact p = some old ∧ old.flags.internal = false

theorem LocAt.of_eq {r s s' : Router} {p : Pfx} {entry : Option Route} (at_ : LocAt s s' p entry)
    (same : s.locRib = r.locRib) : LocAt r s' p entry := by
  unfold LocAt at *
  rw [← same]
  exact at_

theorem RtAt.of_eq {r s s' : Router} {p : Pfx} {routes : List RtInfo} (at_ : RtAt s s' p routes)
    (same : s.rt = r.rt) : RtAt r s' p routes := by
  unfold RtAt at *
  rw [← same]
  exact at_

theorem KeepsFlags.comp {g g' : NetAddr → RouteFlags → RouteFlags} (first : KeepsFlags g)
    (second : KeepsFlags g') : KeepsFlags fun a f => g' a (g a f) := by
  intro a f
  obtain ⟨e, i, c⟩ := first a f
  obtain ⟨e', i', c'⟩ := second a (g a f)
  exact ⟨e'.trans e, i'.trans i, c'.trans c⟩

theorem bestOff_keeps (old : Route) : KeepsFlags (bestOff old) := by
  intro a f
  unfold bestOff
  split
  · exact ⟨rfl, rfl, rfl⟩
  · exact ⟨rfl, rfl, rfl⟩

theorem bestOn_keeps (winner : NetAddr) : KeepsFlags (bestOn winner) := by
  intro a f
  unfold bestOn
  split
  · exact ⟨rfl, rfl, rfl⟩
  · exact ⟨rfl, rfl, rfl⟩

theorem bestOff_best (old : Route) (a : NetAddr) (f : RouteFlags) :
    (bestOff old a f).best = (f.best && !decide (old.peer = some a)) := by
  unfold bestOff
  split
  next same => simp [same]
  next differ => simp [differ]

theorem bestOn_best (winner a : NetAddr) (f : RouteFlags) :
    (bestOn winner a f).best = (decide (a = winner) || f.best) := by
  unfold bestOn
  split
  next same => simp [same]
  next differ => simp [differ]

section Install

variable {r : Router} {p : Pfx} (igp : List Cand)

theorem installBest_nil (learned : ∀ old, r.locRib.findExact p = some old →
      old.flags.internal = false)
    (compared : compareRoutes r (bgpRouterGetFeasibleRoutes r p) = .ok []) :
    Ends (fun r' => Outcome r r' p) (DecisionAbort r p)
      (installBest (flagged r p igp) p (r.locRib.findExact p) []) := by
  obtain ⟨g, prepared, keeps, best⟩ := flagged_flagged r p igp
  cases held : r.locRib.findExact p with
  | none => exact .ran g prepared keeps learned [] compared (.nothing held rfl rfl best)
  | some old =>
    refine (noBestRoute_ends (flagged r p igp) (Rib.findExact_pfx held)).mono ?_ ?_
    · rintro r' ⟨cleared, loc, rt⟩
      refine .ran _ (prepared.trans cleared) (keeps.comp (bestOff_keeps old)) learned [] compared
        (.lost old held (loc.of_eq rfl) (rt.of_eq rfl) fun a f => ?_)
      rw [bestOff_best, best]
    · rintro e (routing | ⟨kind, unknown⟩)
      · exact .inl routing
      · exact .inr ⟨kind, unknown, old, held, learned old held⟩

theorem installBest_updated {w : Cand} (learned : ∀ old, r.locRib.findExact p = some old →
      old.flags.internal = false)
    (compared : compareRoutes r (bgpRouterGetFeasibleRoutes r p) = .ok [w])
    {route route' : Route} (won : r.adjRoute w.addr p = some route)
    {g : NetAddr → RouteFlags → RouteFlags} (prepared : Flagged r (flagged r p igp) p g)
    (keeps : KeepsFlags g) (best : ∀ a f, (g a f).best = (f.best && !isCandidate r p a))
    (marked : route' = route.setFlags (g w.addr))
    (differs : ∀ old, r.locRib.findExact p = some old → routeEquals old route = false) :
    Ends (fun r' => Outcome r r' p) (DecisionAbort r p)
      (updateBestRoute (flagged r p igp) p (r.locRib.findExact p) w.addr route') := by
  subst marked
  have pfx : ipPrefixMask route.pfx = ipPrefixMask p := adjRoute_pfx won
  have ends := updateBestRoute_ends (flagged r p igp) (p := p) (r.locRib.findExact p) w.addr
    (fun old held => Rib.findExact_pfx held)
    (show ipPrefixMask (route.setFlags (g w.addr)).pfx = ipPrefixMask p from pfx)
  refine ends.mono (fun r' installed => ?_) fun e => .inl
  obtain ⟨cleared, loc, rt⟩ := installed
  have keepsOld : KeepsFlags (oldBestOff (r.locRib.findExact p)) := by
    cases r.locRib.findExact p with
    | none => exact fun _ _ => ⟨rfl, rfl, rfl⟩
    | some old => exact bestOff_keeps old
  refine .ran _ (prepared.trans cleared) ((keeps.comp keepsOld).comp (bestOn_keeps w.addr)) learned
    [w] compared (.updated w route won differs ?_ (rt.of_eq rfl) fun a f => ?_)
  · -- the stored copy has the flags the winner's own route ends with
    have flags : (route.setFlags (g w.addr)).setFlags (fun f => { f with best := true }) =
        route.setFlags fun f =>
          bestOn w.addr w.addr (oldBestOff (r.locRib.findExact p) w.addr (g w.addr f)) := by
      cases r.locRib.findExact p with
      | none => simp [Route.setFlags, bestOn, oldBestOff]
      | some old =>
        simp only [Route.setFlags, bestOn, if_true, oldBestOff, bestOff]
        split
        · rfl
        · rfl
    rw [← flags]
    exact loc.of_eq rfl
  · cases r.locRib.findExact p with
    | none => simp [bestOn_best, oldBestOff, best]
    | some old => simp [bestOn_best, oldBestOff, bestOff_best, best]

theorem installBest_cons {w : Cand} (learned : ∀ old, r.locRib.findExact p = some old →
      old.flags.internal = false)
    (compared : compareRoutes r (bgpRouterGetFeasibleRoutes r p) = .ok [w]) :
    Ends (fun r' => Outcome r r' p) (DecisionAbort r p)
      (installBest (flagged r p igp) p (r.locRib.findExact p) [w]) := by
  obtain ⟨g, prepared, keeps, best⟩ := flagged_flagged r p igp
  have member : w ∈ bgpRouterGetFeasibleRoutes r p :=
    ((compareRoutes_ends r _).value compared).1 List.mem_cons_self
  obtain ⟨_, route, _, _, won, _, _, _⟩ := mem_candidates.mp member
  have marked : (flagged r p igp).adjRoute w.addr p = some (route.setFlags (g w.addr)) := by
    rw [prepared.adj, if_pos rfl, won]
    rfl
  have pfx := adjRoute_pfx won
  cases held : r.locRib.findExact p with
  | none =>
    simp only [installBest, marked]
    have ends := installBest_updated igp learned compared won prepared keeps best rfl
      fun old absent => by simp [held] at absent
    rwa [held] at ends
  | some old =>
    simp only [installBest, marked]
    have sameEquals : routeEquals old (route.setFlags (g w.addr)) = routeEquals old route := rfl
    rw [sameEquals]
    -- The route is compared as it was before the flags of this run, which routeEquals does not read.
    by_cases equals : routeEquals old route = true
    · rw [if_pos equals]
      obtain ⟨s', unchanged, cleared, loc, rt⟩ :=
        unchangedBestRoute_ok (flagged r p igp) w.addr
          (show ipPrefixMask (route.setFlags (g w.addr)).pfx = ipPrefixMask p from pfx)
      rw [unchanged]
      have stored : (flagged r p igp).locRib.findExact p = some old := held
      rw [stored] at loc
      refine .ran _ (prepared.trans cleared) (keeps.comp (bestOn_keeps w.addr)) learned [w] compared
        (.unchanged w old route _ held won ?_ (loc.of_eq rfl) (rt.of_eq rfl) fun a f => ?_)
      · rw [routeEquals, Bool.and_eq_true] at equals
        exact equals.2
      · rw [bestOn_best, best]
    · rw [if_neg equals]
      have ends := installBest_updated igp learned compared won prepared keeps best rfl
        fun old' held' => by
          rw [held] at held'
          cases held'
          simpa using equals
      rwa [held] at ends

end Install

/-- A decision process has an `Outcome`, or fails for one of the reasons of `DecisionAbort`. -/
theorem decisionProcess_ends (r : Router) (p : Pfx) :
    Ends (fun r' => Outcome r r' p) (DecisionAbort r p) (bgpRouterDecisionProcess r p) := by
  unfold bgpRouterDecisionProcess
  simp only
  by_cases shadow : (r.locRib.findExact p).any (·.flags.internal) = true
  · rw [if_pos shadow]
    cases held : r.locRib.findExact p with
    | none => simp [held] at shadow
    | some old => exact Outcome.shadowed old held (by simpa [held] using shadow) rfl
  · rw [if_neg shadow]
    have learned : ∀ old, r.locRib.findExact p = some old → old.flags.internal = false := by
      intro old held
      simpa [held] using shadow
    have compared : compareRoutes
        (setListFlags (updateFeasible r p) (bgpRouterGetFeasibleRoutes r p) p
          fun f => { f with dpIgp := false, best := false }) (bgpRouterGetFeasibleRoutes r p) =
        compareRoutes r (bgpRouterGetFeasibleRoutes r p) :=
      (compareRoutes_perm r _ (List.Perm.refl _)).symm
    rw [compared]
    refine Ends.bind
      (P := fun left => compareRoutes r (bgpRouterGetFeasibleRoutes r p) = .ok left) ?_ ?_
    · exact Ends.intro (fun _ ran => ran) fun e failed =>
        .inl ((compareRoutes_ends r _).error failed)
    · intro left compared
      refine Ends.bind (P := fun _ => True) ?_ ?_
      · exact Ends.mono (igpDependent_ends _ _) (fun _ _ => trivial) fun _ => .inl
      · intro igp _
        have single := ((compareRoutes_ends r _).value compared).2
        cases left with
        | nil => exact installBest_nil igp learned compared
        | cons w rest =>
          obtain rfl : rest = [] := by simpa using single
          exact installBest_cons igp learned compared

end Cbgp.Verified
