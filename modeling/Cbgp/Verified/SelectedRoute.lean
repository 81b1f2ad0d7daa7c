import Cbgp.Verified.LocalNetwork

/-! # The route the Loc-RIB should hold

On a network whose next-hops keep their reachability and costs, the decision process selects the
same route from the same Adj-RIB-Ins at any time.  `SelectedAt` says that the Loc-RIB holds that
route and that it carries `ROUTE_FLAG_BEST`; a decision process establishes it for its prefix
(`Outcome.selectedAt`) and changes nothing for the others (`Outcome.sameAt`).
-/

namespace Cbgp.Verified

open Cbgp.Lib Cbgp.Net Cbgp.Bgp

/-! ## What the selection for a prefix reads -/

/-- The view of the peer with an address. -/
def viewAt (r : Router) (p : Pfx) (a : NetAddr) :
    Option (Asn × NetAddr × SessionState × Option (Attr × Bool)) :=
  (r.peers.lookup a).map (peerView p)

theorem viewAt_eq (r : Router) (p : Pfx) (a : NetAddr) :
    viewAt r p a = (sessionAt r a).map fun session =>
      (session.asn, session.routerId, session.sessionState,
        (r.adjRoute a p).map fun route => (route.attr, route.flags.eligible)) := by
  unfold viewAt sessionAt Router.adjRoute
  cases r.peers.lookup a with
  | none => rfl
  | some peer => rfl

theorem candAt_of_view {r s : Router} {p q : Pfx} {a : NetAddr} (rt : s.rt = r.rt)
    (same : viewAt s q a = viewAt r p a) : candAt s q a = candAt r p a := by
  unfold viewAt at same
  unfold candAt
  cases heldR : r.peers.lookup a with
  | none =>
    cases heldS : s.peers.lookup a with
    | none => rfl
    | some peer => simp [heldR, heldS] at same
  | some peer =>
    cases heldS : s.peers.lookup a with
    | none => simp [heldR, heldS] at same
    | some peer' =>
      simp only [heldR, heldS, Option.map_some, Option.some.injEq] at same
      exact candidate_of_view rt a same

/-- Two routers look alike to the selection, one for the prefix `p` and the other for `q`. -/
structure SameAt (r : Router) (p : Pfx) (s : Router) (q : Pfx) : Prop where
  asn : s.asn = r.asn
  env : s.env = r.env
  loc : s.locRib.findExact q = r.locRib.findExact p
  view : ∀ a, viewAt s q a = viewAt r p a
  best : ∀ a, bestAt s a q = bestAt r a p

theorem SameAt.of_key (r : Router) {p q : Pfx} (same : ipPrefixMask q = ipPrefixMask p) :
    SameAt r p r q where
  asn := rfl
  env := rfl
  loc := r.locRib.findExact_congr same
  view a := by rw [viewAt_eq, viewAt_eq, adjRoute_congr r a same]
  best a := by rw [bestAt, bestAt, adjRoute_congr r a same]

theorem SameAt.of_adj {r s : Router} {q : Pfx} (asn : s.asn = r.asn) (env : s.env = r.env)
    (loc : s.locRib.findExact q = r.locRib.findExact q) (session : ∀ a, sessionAt s a = sessionAt r a)
    (adj : ∀ a, s.adjRoute a q = r.adjRoute a q) : SameAt r q s q where
  asn := asn
  env := env
  loc := loc
  view a := by rw [viewAt_eq, viewAt_eq, session, adj]
  best a := bestAt_congr (adj a)

theorem SameAt.trans {r s t : Router} {q : Pfx} (first : SameAt r q s q) (second : SameAt s q t q) :
    SameAt r q t q where
  asn := second.asn.trans first.asn
  env := second.env.trans first.env
  loc := second.loc.trans first.loc
  view a := (second.view a).trans (first.view a)
  best a := (second.best a).trans (first.best a)

/-- A change of a peer that leaves its identity, its session state and its Adj-RIB-In alone. -/
theorem SameAt.of_modify (r : Router) (addr : NetAddr) (q : Pfx) {f : Peer → Peer}
    (same : ∀ peer, (f peer).asn = peer.asn ∧ (f peer).routerId = peer.routerId ∧
      (f peer).sessionState = peer.sessionState ∧ (f peer).adjRibIn = peer.adjRibIn) :
    SameAt r q (r.modifyPeer addr f) q where
  asn := rfl
  env := rfl
  loc := rfl
  view a := by
    rw [viewAt, viewAt, modifyPeer_lookup]
    split
    · rw [Option.map_map]
      congr 1
      funext peer
      obtain ⟨asn, routerId, state, rib⟩ := same peer
      simp only [Function.comp_apply, peerView, asn, routerId, state, rib]
    · rfl
  best a := bestAt_congr (modifyPeer_adjRoute r addr a q fun peer => (same peer).2.2.2)

theorem sessionAt_of_lookup {r : Router} {a : NetAddr} {peer : Peer} (held : r.peers.lookup a = some peer) :
    sessionAt r a = some (session peer) := by
  rw [sessionAt, held]
  rfl

theorem sessionAt_modify (r : Router) (addr a : NetAddr) {f : Peer → Peer}
    (same : ∀ peer, session (f peer) = session peer) :
    sessionAt (r.modifyPeer addr f) a = sessionAt r a := by
  rw [sessionAt, sessionAt, modifyPeer_lookup]
  split
  · rw [Option.map_map]
    congr 1
    exact funext same
  · rfl

section Received

variable (r : Router) (addr : NetAddr) {p q : Pfx}

theorem stored_sameAt {route : Route} {attr : Attr}
    (elsewhere : ipPrefixMask q ≠ ipPrefixMask route.pfx) :
    SameAt r q (stored r addr route attr) q := by
  refine .of_adj rfl rfl rfl (fun a => sessionAt_modify r addr a fun _ => rfl) fun a => ?_
  rw [stored_adjRoute, if_neg fun here => elsewhere here.2]

theorem dropped_sameAt (elsewhere : ipPrefixMask q ≠ ipPrefixMask p) :
    SameAt r q (dropped r addr p) q := by
  refine .of_adj rfl rfl rfl (fun a => sessionAt_modify r addr a fun _ => rfl) fun a => ?_
  rw [dropped_adjRoute, if_neg fun here => elsewhere here.2]

theorem retired_sameAt (elsewhere : ipPrefixMask q ≠ ipPrefixMask p) :
    SameAt r q (retired r addr p) q := by
  refine .of_adj rfl rfl rfl (fun a => sessionAt_modify r addr a fun _ => rfl) fun a => ?_
  rw [retired, setAdjFlags_adjRoute, if_neg fun here => elsewhere here.2]

end Received

/-- A decision process does not change what a selection reads of the peers. -/
theorem Outcome.view {r r' : Router} {p : Pfx} (outcome : Outcome r r' p) (q : Pfx) (a : NetAddr) :
    viewAt r' q a = viewAt r q a := by
  cases outcome with
  | shadowed _ _ _ same => rw [same]
  | ran g flagged keeps =>
    rw [viewAt_eq, viewAt_eq, flagged.session, flagged.adj]
    split
    · rw [Option.map_map]
      congr 1
      funext session
      congr 4
      funext route
      exact Prod.ext rfl (keeps a route.flags).1
    · rfl

/-- A decision process changes nothing for the other prefixes. -/
theorem Outcome.sameAt {r r' : Router} {p q : Pfx} (outcome : Outcome r r' p)
    (elsewhere : ipPrefixMask q ≠ ipPrefixMask p) : SameAt r q r' q := by
  cases outcome with
  | shadowed _ _ _ same =>
    subst same
    exact .of_key _ rfl
  | ran g flagged keeps learned left compared installed =>
    have adj (a : NetAddr) : r'.adjRoute a q = r.adjRoute a q := flagged.adj_ne a elsewhere
    refine ⟨flagged.asn, flagged.env, ?_, fun a => ?_, fun a => bestAt_congr (adj a)⟩
    · cases installed with
      | nothing _ loc => rw [loc]
      | lost _ _ loc => rw [loc q, if_neg elsewhere]
      | unchanged _ _ _ _ _ _ _ loc => rw [loc q, if_neg elsewhere]
      | updated _ _ _ _ loc => rw [loc q, if_neg elsewhere]
    · exact Outcome.view (.ran g flagged keeps learned left compared installed) q a

/-! ## A network that stays -/

/-- The router on a given network. -/
def onNet (net : NetRt) (r : Router) : Router := { r with rt := net }

/-- The cost towards a next-hop, if there is a route. -/
def nextHopCost (rt : NetRt) (nextHop : NetAddr) : Option UInt32 :=
  (rtFindBest rt nextHop netRouteAny).map (·.metric)

/-- The next-hops of the received routes are as far as on the given network. -/
def SeesNet (net : NetRt) (r : Router) : Prop :=
  ∀ a p route, r.adjRoute a p = some route →
    nextHopCost r.rt route.attr.nextHop = nextHopCost net route.attr.nextHop

/-- So are those of the routes for a prefix. -/
def SeesNetAt (net : NetRt) (r : Router) (p : Pfx) : Prop :=
  ∀ a route, r.adjRoute a p = some route →
    nextHopCost r.rt route.attr.nextHop = nextHopCost net route.attr.nextHop

/-- The candidates on a given network. -/
def netCands (net : NetRt) (r : Router) (p : Pfx) : List Cand :=
  bgpRouterGetFeasibleRoutes (onNet net r) p

theorem nextHopReachable_eq (r : Router) (route : Route) :
    nextHopReachable r route = (nextHopCost r.rt route.attr.nextHop).isSome := by
  simp [nextHopReachable, nodeRtLookup, nextHopCost]

theorem SeesNet.forPfx {net : NetRt} {r : Router} (sees : SeesNet net r) (p : Pfx) : SeesNetAt net r p :=
  fun a route held => sees a p route held

theorem SeesNetAt.candAt {net : NetRt} {r : Router} {p : Pfx} (sees : SeesNetAt net r p) (a : NetAddr) :
    candAt (onNet net r) p a = Verified.candAt r p a := by
  refine candAt_congr rfl rfl fun route held => ?_
  rw [nextHopReachable_eq, nextHopReachable_eq, sees a route held]
  rfl

theorem SeesNetAt.candidates {net : NetRt} {r : Router} {p : Pfx} (sees : SeesNetAt net r p) :
    (netCands net r p).Perm (bgpRouterGetFeasibleRoutes r p) :=
  candidates_perm fun a => sees.candAt a

theorem SeesNet.candidates {net : NetRt} {r : Router} (sees : SeesNet net r) (p : Pfx) :
    (netCands net r p).Perm (bgpRouterGetFeasibleRoutes r p) :=
  (sees.forPfx p).candidates

/-- On the given network the rules compare the candidates in the same way. -/
theorem SeesNetAt.leftAfter {net : NetRt} {r : Router} {p : Pfx} (sees : SeesNetAt net r p) (n : Nat)
    {routes : List Cand} (sub : routes ⊆ bgpRouterGetFeasibleRoutes r p) :
    leftAfter (onNet net r) n routes = Verified.leftAfter r n routes := by
  have cost (c : Cand) (member : c ∈ routes) : igpCost net c = igpCost r.rt c := by
    obtain ⟨_, route, _, _, held, _, _, same⟩ := mem_candidates.mp (sub member)
    have attr : c.attr = route.attr := by rw [same]
    have seen := sees c.addr route held
    unfold nextHopCost at seen
    rw [igpCost, igpCost, attr, seen]
  have reads (dom : Cand → Cand → Bool) :
      ∀ d ∈ routes, ∀ c ∈ routes, dom d c = dom d c := fun _ _ _ _ => rfl
  have igp : ∀ d ∈ routes, ∀ c ∈ routes, igpDom net d c = igpDom r.rt d c := by
    intro d memberD c memberC
    rw [igpDom, igpDom, cost d memberD, cost c memberC]
  unfold Verified.leftAfter
  refine survivors_congr (List.forall₂_take n ?_)
  exact .cons (reads _) (.cons (reads _) (.cons (reads _) (.cons (reads _) (.cons (reads _)
    (.cons igp (.cons (reads _) (.cons (reads _) (.cons (reads _) .nil))))))))

theorem SeesNet.leftAfter {net : NetRt} {r : Router} (sees : SeesNet net r) (p : Pfx) (n : Nat)
    {routes : List Cand} (sub : routes ⊆ bgpRouterGetFeasibleRoutes r p) :
    leftAfter (onNet net r) n routes = Verified.leftAfter r n routes :=
  (sees.forPfx p).leftAfter n sub

theorem leftAfter_onNet (net : NetRt) {r s : Router} (asn : s.asn = r.asn) (env : s.env = r.env)
    (n : Nat) (routes : List Cand) :
    leftAfter (onNet net s) n routes = leftAfter (onNet net r) n routes := by
  unfold leftAfter dpOrder rulePairs onNet
  rw [asn, env]

theorem candidates_reachable (r : Router) (p : Pfx) :
    NextHopsReachable r (bgpRouterGetFeasibleRoutes r p) := by
  intro c member
  obtain ⟨_, route, _, _, _, _, reachable, same⟩ := mem_candidates.mp member
  rw [show c.attr = route.attr by rw [same]]
  simpa [nextHopReachable, nodeRtLookup] using reachable

/-! ## The invariant -/

/-- The Loc-RIB holds for the prefix what the nine rules select on the network, and the flag is on
the route selected. -/
structure SelectedAt (net : NetRt) (r : Router) (p : Pfx) : Prop where
  none_iff : r.locRib.findExact p = none ↔ netCands net r p = []
  selected : ∀ route, r.locRib.findExact p = some route →
    ∃ w, leftAfter (onNet net r) 9 (netCands net r p) = [w] ∧ Attr.Same route.attr w.attr ∧
      bestAt r w.addr p = true
  fits : SelectionFits (onNet net r) (netCands net r p)

/-- No local route is in the Loc-RIB. -/
def NoLocal (r : Router) : Prop :=
  ∀ p route, r.locRib.findExact p = some route → route.flags.internal = false

theorem netCands_perm (net : NetRt) {r s : Router} {p q : Pfx}
    (view : ∀ a, viewAt s q a = viewAt r p a) : (netCands net s q).Perm (netCands net r p) := by
  refine candidates_perm fun a => ?_
  exact candAt_of_view (r := onNet net r) (s := onNet net s) rfl (view a)

/-- The same candidates select the same route. -/
theorem SelectedAt.of_perm {net : NetRt} {r s : Router} {p q : Pfx} (selected : SelectedAt net r p)
    (asn : s.asn = r.asn) (env : s.env = r.env)
    (loc : s.locRib.findExact q = r.locRib.findExact p)
    (candidates : (netCands net s q).Perm (netCands net r p))
    (best : ∀ c ∈ netCands net r p, bestAt r c.addr p = true → bestAt s c.addr q = true) :
    SelectedAt net s q := by
  have left (n : Nat) : (leftAfter (onNet net s) n (netCands net s q)).Perm
      (leftAfter (onNet net r) n (netCands net r p)) := by
    rw [leftAfter_onNet net asn env]
    exact survivors_perm _ candidates
  refine ⟨?_, fun route held => ?_, selected.fits.congr (by rw [onNet, onNet, env]) left⟩
  · rw [loc, selected.none_iff, ← List.length_eq_zero_iff, ← List.length_eq_zero_iff,
      candidates.length_eq]
  · obtain ⟨w, single, attr, marked⟩ := selected.selected route (loc ▸ held)
    have member : w ∈ netCands net r p :=
      leftAfter_subset _ 9 (single ▸ List.mem_singleton_self w)
    exact ⟨w, List.perm_singleton.mp (single ▸ left 9), attr, best w member marked⟩

theorem SelectedAt.congr {net : NetRt} {r s : Router} {p q : Pfx} (selected : SelectedAt net r p)
    (same : SameAt r p s q) : SelectedAt net s q :=
  selected.of_perm same.asn same.env same.loc (netCands_perm net same.view)
    fun c _ marked => (same.best c.addr).trans marked

/-- What the Loc-RIB holds is what the decision process selects from scratch. -/
theorem SelectedAt.locAgrees {net : NetRt} {r : Router} {p : Pfx} (selected : SelectedAt net r p)
    (sees : SeesNetAt net r p) : LocAgreesAt r p := by
  have perm := sees.candidates
  have left (n : Nat) : (leftAfter r n (bgpRouterGetFeasibleRoutes r p)).Perm
      (leftAfter (onNet net r) n (netCands net r p)) := by
    rw [← sees.leftAfter n (List.Subset.refl _)]
    exact survivors_perm _ perm.symm
  refine ⟨?_, fun route held => ?_⟩
  · rw [selected.none_iff, ← List.length_eq_zero_iff, ← List.length_eq_zero_iff, perm.length_eq]
  · obtain ⟨w, single, attr, _⟩ := selected.selected route held
    refine ⟨w, ?_, attr⟩
    rw [compareRoutes_eq (getFeasibleRoutes_distinct r p) (candidates_reachable r p)
      (selected.fits.congr rfl left)]
    exact congrArg Except.ok (List.perm_singleton.mp (single ▸ left 9))

/-! ## Decision processes -/

/-- If the decision process is going to keep the Loc-RIB route, then that route has the winner's
attributes. -/
def KeepsAttr (r : Router) (p : Pfx) : Prop :=
  ∀ old w route, r.locRib.findExact p = some old →
    compareRoutes r (bgpRouterGetFeasibleRoutes r p) = .ok [w] →
    r.adjRoute w.addr p = some route → bgpAttrCmp old.attr route.attr = true →
    Attr.Same old.attr route.attr

/-- What is asked of each decision process: the network is the given one, and the comparisons of the
code are exact on the routes at hand. -/
structure Compares (net : NetRt) (r : Router) (p : Pfx) : Prop where
  sees : SeesNet net r
  fits : SelectionFits r (bgpRouterGetFeasibleRoutes r p)
  attr : KeepsAttr r p

section Decides

variable {net : NetRt} {r r' : Router} {p : Pfx}

theorem NoLocal.outcome (noLocal : NoLocal r) (owned : Owned r) (outcome : Outcome r r' p) :
    NoLocal r' := by
  intro q route held
  by_cases elsewhere : ipPrefixMask q = ipPrefixMask p
  · cases outcome with
    | shadowed _ _ _ same => exact noLocal q route (same ▸ held)
    | ran g flagged keeps learned left compared installed =>
      cases installed with
      | nothing _ loc => exact noLocal q route (loc ▸ held)
      | lost _ _ loc =>
        rw [loc q, if_pos elsewhere] at held
        cases held
      | unchanged w old _ _ heldOld _ _ loc =>
        rw [loc q, if_pos elsewhere] at held
        cases held
        exact learned old heldOld
      | updated w won _ _ loc =>
        rw [loc q, if_pos elsewhere] at held
        cases held
        rename_i stored _ _ _
        exact (keeps w.addr won.flags).2.1.trans (owned.adj stored).2
  · exact noLocal q route ((outcome.sameAt elsewhere).loc ▸ held)

/-- What the rules select on the network after a decision process is what they selected before. -/
theorem Compares.transfer (compares : Compares net r p) (asn : r'.asn = r.asn) (env : r'.env = r.env)
    (view : ∀ a, viewAt r' p a = viewAt r p a) :
    (netCands net r' p).Perm (bgpRouterGetFeasibleRoutes r p) ∧
      ∀ n, (leftAfter (onNet net r') n (netCands net r' p)).Perm
        (leftAfter r n (bgpRouterGetFeasibleRoutes r p)) := by
  have candidates : (netCands net r' p).Perm (bgpRouterGetFeasibleRoutes r p) :=
    (netCands_perm net view).trans (compares.sees.candidates p)
  refine ⟨candidates, fun n => ?_⟩
  rw [leftAfter_onNet net asn env, ← compares.sees.leftAfter p n (List.Subset.refl _)]
  exact survivors_perm _ candidates

theorem Compares.compared (compares : Compares net r p) :
    compareRoutes r (bgpRouterGetFeasibleRoutes r p) =
      .ok (leftAfter r 9 (bgpRouterGetFeasibleRoutes r p)) :=
  compareRoutes_eq (getFeasibleRoutes_distinct r p) (candidates_reachable r p) compares.fits

/-- The route selected is marked after a decision process, and has the attributes the rules read. -/
theorem Flagged.winner {g : NetAddr → RouteFlags → RouteFlags} (flagged : Flagged r r' p g) {w : Cand}
    {route : Route} (member : w ∈ bgpRouterGetFeasibleRoutes r p)
    (won : r.adjRoute w.addr p = some route) (best : ∀ f, (g w.addr f).best = true) :
    w.attr = route.attr ∧ bestAt r' w.addr p = true := by
  obtain ⟨_, route', _, _, won', _, _, same⟩ := mem_candidates.mp member
  rw [won] at won'
  cases won'
  have stored : r'.adjRoute w.addr p = some (route.setFlags (g w.addr)) := by
    rw [flagged.adj, if_pos rfl, won]
    rfl
  exact ⟨by rw [same], bestAt_of_flag stored (best _)⟩

/-- A decision process that found no route leaves none. -/
theorem SelectedAt.of_nothing (compares : Compares net r p) (asn : r'.asn = r.asn)
    (env : r'.env = r.env) (view : ∀ a, viewAt r' p a = viewAt r p a)
    (left : leftAfter r 9 (bgpRouterGetFeasibleRoutes r p) = [])
    (absent : r'.locRib.findExact p = none) : SelectedAt net r' p := by
  obtain ⟨candidates, leftPerm⟩ := compares.transfer asn env view
  have empty : bgpRouterGetFeasibleRoutes r p = [] := by
    by_contra nonempty
    exact survivors_ne_nil (dpOrder_strict r) nonempty left
  refine ⟨iff_of_true absent (List.perm_nil.mp (empty ▸ candidates)), fun route held => ?_, ?_⟩
  · rw [absent] at held
    cases held
  · exact compares.fits.congr (by rw [onNet, env]) leftPerm

/-- A decision process that selected a route leaves it. -/
theorem SelectedAt.of_winner (compares : Compares net r p) (asn : r'.asn = r.asn)
    (env : r'.env = r.env) (view : ∀ a, viewAt r' p a = viewAt r p a) {w : Cand} {route : Route}
    (left : leftAfter r 9 (bgpRouterGetFeasibleRoutes r p) = [w])
    (installed : r'.locRib.findExact p = some route) (attr : Attr.Same route.attr w.attr)
    (marked : bestAt r' w.addr p = true) : SelectedAt net r' p := by
  obtain ⟨candidates, leftPerm⟩ := compares.transfer asn env view
  have member : w ∈ bgpRouterGetFeasibleRoutes r p :=
    leftAfter_subset r 9 (left ▸ List.mem_singleton_self w)
  have nonempty : netCands net r' p ≠ [] := List.ne_nil_of_mem (candidates.mem_iff.mpr member)
  refine ⟨iff_of_false (by simp [installed]) nonempty, fun kept held => ?_, ?_⟩
  · rw [installed] at held
    cases held
    exact ⟨w, List.perm_singleton.mp (left ▸ leftPerm 9), attr, marked⟩
  · exact compares.fits.congr (by rw [onNet, env]) leftPerm

/-- A decision process puts into the Loc-RIB what the rules select. -/
theorem Outcome.selectedAt (outcome : Outcome r r' p) (noLocal : NoLocal r)
    (compares : Compares net r p) : SelectedAt net r' p := by
  have view := outcome.view p
  cases outcome with
  | shadowed old held internal =>
    rw [noLocal p old held] at internal
    cases internal
  | ran g flagged keeps learned left compared installed =>
    have final : leftAfter r 9 (bgpRouterGetFeasibleRoutes r p) = left :=
      Except.ok.inj (compares.compared.symm.trans compared)
    have here {entry : Option Route} (loc : LocAt r r' p entry) : r'.locRib.findExact p = entry := by
      rw [loc p, if_pos rfl]
    have selected {w : Cand} (single : left = [w]) : w ∈ bgpRouterGetFeasibleRoutes r p :=
      leftAfter_subset r 9 (by rw [final, single]; exact List.mem_singleton_self w)
    cases installed with
    | nothing absent loc =>
      exact .of_nothing compares flagged.asn flagged.env view final (by rw [loc, absent])
    | lost old held loc =>
      exact .of_nothing compares flagged.asn flagged.env view final (here loc)
    | unchanged w old route dpIgp held won equals loc rt best =>
      obtain ⟨attr, marked⟩ := flagged.winner (selected rfl) won fun f => by simp [best]
      refine .of_winner compares flagged.asn flagged.env view final (here loc) ?_ marked
      rw [attr]
      exact compares.attr old w route held compared won equals
    | updated w route won differs loc rt best =>
      obtain ⟨attr, marked⟩ := flagged.winner (selected rfl) won fun f => by simp [best]
      refine .of_winner compares flagged.asn flagged.env view final (here loc) ?_ marked
      rw [attr]
      exact Attr.same_refl _

end Decides

end Cbgp.Verified
