import Cbgp.Bgp.LoadRib
import Cbgp.Verified.Lookups
import Cbgp.Verified.SkippedRuns

/-! # Loading a RIB dump

Each route of a dump is stored and its prefix decided again, so that the selection state of that prefix
is consistent (`MarkInv.step`).  As long as no next-hop lies in a prefix of the dump, the lookups of the
next-hops stay as they were before the load, and the Loc-RIB holds for every prefix what the rules select
from the Adj-RIB-Ins (`LoadInv`); what is in the Adj-RIB-Ins at the end does not depend on the order of
the routes.
-/

namespace Cbgp.Verified

open Cbgp.Lib Cbgp.Net Cbgp.Bgp

/-! ## One route of a dump -/

/-- The filter reads the routing table at the next-hop of the route only, and keeps that next-hop. -/
structure PlainFilter (filter : Filter) : Prop where
  reads : ∀ asn rt rt' route, rtFindBest rt' route.attr.nextHop netRouteAny =
    rtFindBest rt route.attr.nextHop netRouteAny → filter.apply asn rt' route = filter.apply asn rt route
  keeps : ∀ {asn rt route attr}, filter.apply asn rt route = .ok (some attr) →
    attr.nextHop = route.attr.nextHop
  keepsDenied : ∀ asn rt route, (filter.denied asn rt route).nextHop = route.attr.nextHop

/-- The router in which the decision process for a route of a dump starts. -/
def loaded (r : Router) (d : DumpRoute) (verdict : Option Attr) : Router :=
  r.modifyPeer d.attr.nextHop fun peer =>
    { peer with
      adjRibIn := peer.adjRibIn.addRoute (loadedRoute r peer (d.route d.attr.nextHop) verdict) }

theorem loadRoute_cases {r r' : Router} {d : DumpRoute} {peer : Peer}
    (h : loadRoute r d.attr.nextHop peer d = .ok r') :
    ∃ verdict, bgpPeerRouteEligible r peer (d.route d.attr.nextHop) = .ok verdict ∧
      bgpRouterDecisionProcess (loaded r d verdict) d.pfx = .ok r' := by
  simp only [loadRoute, except_bind_eq_ok] at h
  exact h

theorem loaded_adjRoute (r : Router) (d : DumpRoute) (verdict : Option Attr) (a : NetAddr) (q : Pfx) :
    (loaded r d verdict).adjRoute a q =
      if a = d.attr.nextHop ∧ ipPrefixMask q = ipPrefixMask d.pfx then
        (r.peers.lookup d.attr.nextHop).map fun peer =>
          loadedRoute r peer (d.route d.attr.nextHop) verdict
      else r.adjRoute a q := by
  simp only [loaded, Router.adjRoute, modifyPeer_lookup]
  by_cases same : a = d.attr.nextHop
  · subst same
    simp only [if_true, true_and]
    cases r.peers.lookup d.attr.nextHop with
    | none => simp
    | some peer => simp [Rib.findExact_addRoute, loadedRoute, DumpRoute.route]
  · simp [same]

theorem loaded_session (r : Router) (d : DumpRoute) (verdict : Option Attr) (a : NetAddr) :
    sessionAt (loaded r d verdict) a = sessionAt r a :=
  sessionAt_modify r _ a fun _ => rfl

theorem loaded_sameAt (r : Router) {d : DumpRoute} (verdict : Option Attr) {q : Pfx}
    (elsewhere : ipPrefixMask q ≠ ipPrefixMask d.pfx) : SameAt r q (loaded r d verdict) q := by
  refine .of_adj rfl rfl rfl (loaded_session r d verdict) fun a => ?_
  rw [loaded_adjRoute, if_neg fun here => elsewhere here.2]

theorem loaded_owned {r : Router} (owned : Owned r) (d : DumpRoute) (verdict : Option Attr) :
    Owned (loaded r d verdict) where
  adj held := by
    rw [loaded_adjRoute] at held
    split at held
    next here =>
      obtain ⟨_, _, rfl⟩ := Option.map_eq_some_iff.mp held
      exact ⟨congrArg some here.1.symm, rfl⟩
    next => exact owned.adj held
  loc held := owned.loc held

/-- The comparisons of the decision process are exact on the routes at hand. -/
def LoadFits (r : Router) (d : DumpRoute) : Prop :=
  ∀ peer verdict, r.peers.lookup d.attr.nextHop = some peer →
    bgpPeerRouteEligible r peer (d.route d.attr.nextHop) = .ok verdict →
    SelectionFits (loaded r d verdict) (bgpRouterGetFeasibleRoutes (loaded r d verdict) d.pfx) ∧
      KeepsAttr (loaded r d verdict) d.pfx

/-! ## The verdict on a route -/

theorem eligible_nextHop {r : Router} {peer : Peer} (plain : PlainFilter peer.filterIn) {route : Route}
    {attr : Attr} (accepted : bgpPeerRouteEligible r peer route = .ok (some attr)) :
    attr.nextHop = route.attr.nextHop := by
  unfold bgpPeerRouteEligible at accepted
  split at accepted
  · cases accepted
  · split at accepted
    · cases accepted
    · split at accepted
      · cases accepted
      · rw [except_bind_eq_ok] at accepted
        obtain ⟨verdict, filtered, accepted⟩ := accepted
        cases verdict with
        | none => cases accepted
        | some kept =>
          simp only at accepted
          split at accepted
          · cases accepted
            exact plain.keeps filtered
          · cases accepted

theorem rejectedAttr_nextHop (r : Router) {peer : Peer} (plain : PlainFilter peer.filterIn) (route : Route) :
    (rejectedAttr r peer route).nextHop = route.attr.nextHop := by
  unfold rejectedAttr
  split
  · rfl
  · split
    · rfl
    · split
      · rfl
      · split
        next filtered => exact plain.keeps filtered
        next => exact plain.keepsDenied _ _ _

theorem loadedRoute_nextHop {r : Router} {peer : Peer} (plain : PlainFilter peer.filterIn) {route : Route}
    {verdict : Option Attr} (checked : bgpPeerRouteEligible r peer route = .ok verdict) :
    (loadedRoute r peer route verdict).attr.nextHop = route.attr.nextHop := by
  cases verdict with
  | none => exact rejectedAttr_nextHop r plain route
  | some attr => exact eligible_nextHop plain checked

/-- The verdict depends on the configuration and on the lookup of the next-hop. -/
theorem eligible_congr {r s : Router} {peer peer' : Peer} {route : Route} (plain : PlainFilter peer.filterIn)
    (filter : peer'.filterIn = peer.filterIn) (asn : s.asn = r.asn) (rid : s.rid = r.rid)
    (clusterId : s.clusterId = r.clusterId)
    (lookup : rtFindBest s.rt route.attr.nextHop netRouteAny =
      rtFindBest r.rt route.attr.nextHop netRouteAny) :
    bgpPeerRouteEligible s peer' route = bgpPeerRouteEligible r peer route := by
  unfold bgpPeerRouteEligible
  rw [asn, rid, clusterId, filter, plain.reads r.asn r.rt s.rt route lookup]

/-! ## The invariant -/

/-- Among the eligible routes, only the one the rules select has `ROUTE_FLAG_BEST`. -/
def SoleBest (net : NetRt) (r : Router) (p : Pfx) : Prop :=
  ∀ a route, r.adjRoute a p = some route → route.flags.eligible = true → route.flags.best = true →
    ∃ w, leftAfter (onNet net r) 9 (netCands net r p) = [w] ∧ w.addr = a

/-- What holds after each route of a dump, loaded into the router `r₀`; the next-hops are among `hops`. -/
structure LoadInv (r₀ : Router) (hops : NetAddr → Prop) (r : Router) : Prop where
  skip : SkipInv r₀.rt r
  sole : ∀ p, SoleBest r₀.rt r p
  asn : r.asn = r₀.asn
  rid : r.rid = r₀.rid
  clusterId : r.clusterId = r₀.clusterId
  env : r.env = r₀.env
  session : ∀ a, sessionAt r a = sessionAt r₀ a
  masked : MaskedKeys r.rt
  lookups : ∀ addr, hops addr → rtFindBest r.rt addr netRouteAny = rtFindBest r₀.rt addr netRouteAny
  nextHops : ∀ a p route, r.adjRoute a p = some route → hops route.attr.nextHop

/-- All sessions are established, and the filters are plain. -/
structure LoadPeers (r₀ : Router) : Prop where
  established : ∀ a peer, sessionAt r₀ a = some peer → peer.sessionState = .established
  plain : ∀ a peer, sessionAt r₀ a = some peer → PlainFilter peer.filterIn

theorem SoleBest.congr {net : NetRt} {r s : Router} {p q : Pfx} (sole : SoleBest net r p)
    (asn : s.asn = r.asn) (env : s.env = r.env) (view : ∀ a, viewAt s q a = viewAt r p a)
    (adj : ∀ a, s.adjRoute a q = r.adjRoute a p) : SoleBest net s q := by
  intro a route held eligible best
  obtain ⟨w, single, here⟩ := sole a route (adj a ▸ held) eligible best
  refine ⟨w, ?_, here⟩
  have left : (leftAfter (onNet net s) 9 (netCands net s q)).Perm
      (leftAfter (onNet net r) 9 (netCands net r p)) := by
    rw [leftAfter_onNet net asn env]
    exact survivors_perm _ (netCands_perm net view)
  exact List.perm_singleton.mp (single ▸ left)

/-- The attributes of an eligible route. -/
def eligibleAttr (r : Router) (a : NetAddr) (p : Pfx) : Option Attr :=
  (r.adjRoute a p).bind fun route => if route.flags.eligible then some route.attr else none

theorem isCandidate_iff {r : Router} {p : Pfx} {a : NetAddr} :
    isCandidate r p a = true ↔ ∃ c, candAt r p a = some c := by
  rw [isCandidate, List.any_eq_true]
  constructor
  · rintro ⟨c, member, here⟩
    rw [decide_eq_true_eq] at here
    rw [mem_candidates_iff, here] at member
    exact ⟨c, member⟩
  · rintro ⟨c, candidate⟩
    have here : c.addr = a := by
      rw [candAt_eq] at candidate
      obtain ⟨session, _, candidate⟩ := Option.bind_eq_some_iff.mp candidate
      split at candidate
      · obtain ⟨route, _, candidate⟩ := Option.bind_eq_some_iff.mp candidate
        split at candidate
        · cases candidate
          rfl
        · cases candidate
      · cases candidate
    exact ⟨c, mem_candidates_iff.mpr (here.symm ▸ candidate), by simpa using here⟩

section Step

variable {r₀ r r' : Router} {hops : NetAddr → Prop} {d : DumpRoute} {peer : Peer} {verdict : Option Attr}

theorem LoadInv.sees (inv : LoadInv r₀ hops r) : SeesNet r₀.rt r := by
  intro a p route held
  rw [nextHopCost, nextHopCost, inv.lookups _ (inv.nextHops a p route held)]

theorem LoadInv.plain (inv : LoadInv r₀ hops r) (peers : LoadPeers r₀)
    (held : r.peers.lookup d.attr.nextHop = some peer) : PlainFilter peer.filterIn := by
  have known : sessionAt r₀ d.attr.nextHop = some (Verified.session peer) := by
    rw [← inv.session, sessionAt, held]
    rfl
  have plain := peers.plain _ _ known
  exact plain

/-- The next-hops of the stored routes, the new one included. -/
theorem LoadInv.loaded_nextHops (inv : LoadInv r₀ hops r) (peers : LoadPeers r₀)
    (hop : hops d.attr.nextHop) (held : r.peers.lookup d.attr.nextHop = some peer)
    (checked : bgpPeerRouteEligible r peer (d.route d.attr.nextHop) = .ok verdict) (a : NetAddr) (p : Pfx)
    (route : Route) (stored : (loaded r d verdict).adjRoute a p = some route) :
    hops route.attr.nextHop := by
  rw [loaded_adjRoute, held] at stored
  split at stored
  · cases stored
    rw [loadedRoute_nextHop (inv.plain peers held) checked]
    exact hop
  · exact inv.nextHops a p route stored

/-- The new route is marked if its next-hop is reachable. -/
theorem loaded_candidate_own (held : r.peers.lookup d.attr.nextHop = some peer)
    (up : ∀ a session, sessionAt r a = some session → session.sessionState = .established) {route : Route}
    (stored : (loaded r d verdict).adjRoute d.attr.nextHop d.pfx = some route)
    (eligible : route.flags.eligible = true) (best : route.flags.best = true) :
    isCandidate (loaded r d verdict) d.pfx d.attr.nextHop = true := by
  have known : sessionAt (loaded r d verdict) d.attr.nextHop = some (Verified.session peer) := by
    rw [loaded_session, sessionAt, held]
    rfl
  have established : (Verified.session peer).sessionState = .established := by
    refine up d.attr.nextHop _ ?_
    rw [← loaded_session r d verdict]
    exact known
  have reachable : nextHopReachable (loaded r d verdict) route = true := by
    rw [loaded_adjRoute, if_pos ⟨rfl, rfl⟩, held] at stored
    cases stored
    exact best
  rw [isCandidate_iff, candAt_eq, known, Option.bind_some, if_pos established, stored,
    Option.bind_some, eligible, reachable]
  exact ⟨_, rfl⟩

/-- Before the decision process, a marked route that is eligible is a candidate: the others are marked
if they were selected. -/
theorem LoadInv.loaded_candidate (inv : LoadInv r₀ hops r) (peers : LoadPeers r₀)
    (held : r.peers.lookup d.attr.nextHop = some peer) {a : NetAddr} {route : Route}
    (stored : (loaded r d verdict).adjRoute a d.pfx = some route) (eligible : route.flags.eligible = true)
    (best : route.flags.best = true) : isCandidate (loaded r d verdict) d.pfx a = true := by
  by_cases here : a = d.attr.nextHop
  · subst here
    refine loaded_candidate_own held (fun a session known => ?_) stored eligible best
    exact peers.established a session (inv.session a ▸ known)
  · rw [isCandidate_iff]
    have same : (loaded r d verdict).adjRoute a d.pfx = r.adjRoute a d.pfx := by
      rw [loaded_adjRoute, if_neg fun both => here both.1]
    obtain ⟨w, single, addr⟩ := inv.sole d.pfx a route (same ▸ stored) eligible best
    have member : w ∈ netCands r₀.rt r d.pfx := leftAfter_subset _ 9 (single ▸ List.mem_singleton_self w)
    have candidate := (inv.sees.candidates d.pfx).mem_iff.mp member
    rw [mem_candidates_iff, addr] at candidate
    refine ⟨w, ?_⟩
    rw [← candidate]
    exact candAt_congr (loaded_session r d verdict a) (by rw [same]) fun _ _ => rfl

/-- The Loc-RIB still has the route of the peer, and the candidates have other next-hops. -/
def Stale (r : Router) (p : Pfx) (a : NetAddr) : Prop :=
  ∃ old, r.locRib.findExact p = some old ∧ old.peer = some a ∧
    ∀ w route, w ∈ bgpRouterGetFeasibleRoutes r p → r.adjRoute w.addr p = some route →
      old.attr.nextHop ≠ route.attr.nextHop

/-- The decision process leaves the mark on the selected route, as far as the eligible routes are
concerned. -/
theorem Outcome.soleBest {net : NetRt} {p : Pfx} (outcome : Outcome r r' p) (noLocal : NoLocal r)
    (compares : Compares net r p)
    (known : ∀ a route, r.adjRoute a p = some route → route.flags.eligible = true →
      route.flags.best = true → isCandidate r p a = true ∨ Stale r p a) : SoleBest net r' p := by
  have view := outcome.view p
  cases outcome with
  | shadowed old held internal =>
    rw [noLocal p old held] at internal
    cases internal
  | ran g flagged keeps learned left compared installed =>
    have final : leftAfter r 9 (bgpRouterGetFeasibleRoutes r p) = left :=
      Except.ok.inj (compares.compared.symm.trans compared)
    obtain ⟨_, transferred⟩ := compares.transfer flagged.asn flagged.env view
    intro a route stored eligible best
    rw [flagged.adj, if_pos rfl] at stored
    obtain ⟨before, held, rfl⟩ := Option.map_eq_some_iff.mp stored
    have wasEligible : before.flags.eligible = true := (keeps a before.flags).1 ▸ eligible
    have marked : (g a before.flags).best = true := best
    -- the mark of a candidate is taken away, so that it is the winner's
    have unmarked (on : before.flags.best = true) (off : isCandidate r p a = false) : Stale r p a :=
      (known a before held wasEligible on).resolve_left (by simp [off])
    have selected {w : Cand} (single : left = [w]) (isWinner : a = w.addr) :
        ∃ w, leftAfter (onNet net r') 9 (netCands net r' p) = [w] ∧ w.addr = a := by
      refine ⟨w, List.perm_singleton.mp ?_, isWinner.symm⟩
      rw [← single, ← final]
      exact transferred 9
    cases installed with
    | nothing absent _ _ flags =>
      rw [flags, Bool.and_eq_true, Bool.not_eq_true'] at marked
      obtain ⟨old, there, _⟩ := unmarked marked.1 marked.2
      rw [absent] at there
      cases there
    | lost _ there _ _ flags =>
      rw [flags, Bool.and_eq_true, Bool.and_eq_true, Bool.not_eq_true', Bool.not_eq_true'] at marked
      obtain ⟨old, there', named, _⟩ := unmarked marked.1.1 marked.1.2
      rw [there] at there'
      cases there'
      simp [named] at marked
    | unchanged w _ _ _ there won equals _ _ flags =>
      rw [flags, Bool.or_eq_true, Bool.and_eq_true, decide_eq_true_eq, Bool.not_eq_true'] at marked
      rcases marked with isWinner | ⟨on, off⟩
      · exact selected rfl isWinner
      · obtain ⟨old, there', _, elsewhere⟩ := unmarked on off
        rw [there] at there'
        cases there'
        have same := compares.attr _ w _ there compared won equals
        have member : w ∈ leftAfter r 9 (bgpRouterGetFeasibleRoutes r p) := by simp [final]
        exact absurd same.nextHop (elsewhere w _ (leftAfter_subset r 9 member) won)
    | updated w _ _ _ _ _ flags =>
      rw [flags, Bool.or_eq_true, Bool.and_eq_true, Bool.and_eq_true, decide_eq_true_eq,
        Bool.not_eq_true', Bool.not_eq_true'] at marked
      rcases marked with isWinner | ⟨⟨on, off⟩, other⟩
      · exact selected rfl isWinner
      · obtain ⟨old, there, named, _⟩ := unmarked on off
        simp [there, named] at other

/-- Loading a route changes nothing of the configuration and the sessions. -/
theorem loaded_config (outcome : Outcome (loaded r d verdict) r' d.pfx) :
    r'.asn = r.asn ∧ r'.rid = r.rid ∧ r'.clusterId = r.clusterId ∧ r'.env = r.env ∧
      ∀ a, sessionAt r' a = sessionAt r a := by
  cases outcome with
  | shadowed _ _ _ same =>
    subst same
    exact ⟨rfl, rfl, rfl, rfl, loaded_session r d verdict⟩
  | ran g flagged =>
    refine ⟨flagged.asn, ?_, ?_, flagged.env, fun a => ?_⟩
    · rw [flagged.router]
      rfl
    · rw [flagged.router]
      rfl
    · rw [flagged.session, loaded_session]

/-- The routes for the other prefixes stay. -/
theorem loaded_adj_ne (outcome : Outcome (loaded r d verdict) r' d.pfx) {q : Pfx}
    (other : ipPrefixMask q ≠ ipPrefixMask d.pfx) (a : NetAddr) : r'.adjRoute a q = r.adjRoute a q := by
  have before : (loaded r d verdict).adjRoute a q = r.adjRoute a q := by
    rw [loaded_adjRoute, if_neg fun both => other both.2]
  cases outcome with
  | shadowed _ _ _ same => rw [same, before]
  | ran g flagged => rw [flagged.adj_ne a other, before]

/-- One route of the dump. -/
theorem LoadInv.step (inv : LoadInv r₀ hops r) (peers : LoadPeers r₀) (hop : hops d.attr.nextHop)
    (outside : ∀ addr, hops addr → ipAddressInPrefix addr (ipPrefixMask d.pfx) = false)
    (held : r.peers.lookup d.attr.nextHop = some peer) (fits : LoadFits r d)
    (h : loadRoute r d.attr.nextHop peer d = .ok r') : LoadInv r₀ hops r' := by
  obtain ⟨verdict, checked, ran⟩ := loadRoute_cases h
  obtain ⟨selectionFits, keepsAttr⟩ := fits peer verdict held checked
  have owned := loaded_owned inv.skip.owned d verdict
  have noLocal : NoLocal (loaded r d verdict) := inv.skip.noLocal
  have nextHops := inv.loaded_nextHops peers hop held checked
  -- The dumps before this one changed no lookup of a next-hop, so costs are those of the start.
  have sees : SeesNet r₀.rt (loaded r d verdict) := by
    intro a p route stored
    rw [nextHopCost, nextHopCost, show (loaded r d verdict).rt = r.rt from rfl,
      inv.lookups _ (nextHops a p route stored)]
  have compares : Compares r₀.rt (loaded r d verdict) d.pfx := ⟨sees, selectionFits, keepsAttr⟩
  have outcome := (decisionProcess_ends (loaded r d verdict) d.pfx).value ran
  have only := decisionProcess_onlyBgp ran
  have elsewhere {q : Pfx} (other : ipPrefixMask q ≠ ipPrefixMask d.pfx) : SameAt r q r' q :=
    (loaded_sameAt r verdict other).trans (outcome.sameAt other)
  obtain ⟨asn, rid, clusterId, env, session⟩ := loaded_config outcome
  constructor
  case skip =>
    exact SkipInv.decides owned noLocal
      (fun q other => (inv.skip.selected q).congr (loaded_sameAt r verdict other)) compares ran
  -- At the prefix of the dump the decision process marks anew; elsewhere nothing has moved.
  case sole =>
    intro q
    by_cases here : ipPrefixMask q = ipPrefixMask d.pfx
    · have sole := outcome.soleBest noLocal compares fun a route stored eligible best =>
        .inl (inv.loaded_candidate peers held stored eligible best)
      have same := SameAt.of_key r' here
      exact sole.congr rfl rfl same.view fun a => adjRoute_congr r' a here
    · exact (inv.sole q).congr asn env (elsewhere here).view (loaded_adj_ne outcome here)
  case asn => exact asn.trans inv.asn
  case rid => exact rid.trans inv.rid
  case clusterId => exact clusterId.trans inv.clusterId
  case env => exact env.trans inv.env
  case session => exact fun a => (session a).trans (inv.session a)
  case masked => exact only.maskedKeys inv.masked
  -- The route installed covers none of the next-hops.
  case lookups =>
    intro addr isHop
    rw [only.rtFindBest inv.masked (outside addr isHop)]
    exact inv.lookups addr isHop
  case nextHops =>
    intro a q route stored
    cases outcome with
    | shadowed _ _ _ same =>
      subst same
      exact nextHops a q route stored
    | ran g flagged =>
      rw [flagged.adj] at stored
      split at stored
      · obtain ⟨before, heldBefore, rfl⟩ := Option.map_eq_some_iff.mp stored
        exact nextHops a q before heldBefore
      · exact nextHops a q route stored

/-- What the step does to the eligible routes. -/
theorem loadRoute_eligible (h : loadRoute r d.attr.nextHop peer d = .ok r')
    (held : r.peers.lookup d.attr.nextHop = some peer) :
    ∃ verdict, bgpPeerRouteEligible r peer (d.route d.attr.nextHop) = .ok verdict ∧
      ∀ a q, eligibleAttr r' a q =
        if a = d.attr.nextHop ∧ ipPrefixMask q = ipPrefixMask d.pfx then verdict
        else eligibleAttr r a q := by
  obtain ⟨verdict, checked, ran⟩ := loadRoute_cases h
  refine ⟨verdict, checked, fun a q => ?_⟩
  have outcome := (decisionProcess_ends (loaded r d verdict) d.pfx).value ran
  have kept : eligibleAttr r' a q = eligibleAttr (loaded r d verdict) a q := by
    cases outcome with
    | shadowed _ _ _ same => rw [same]
    | ran g flagged keeps =>
      rw [eligibleAttr, eligibleAttr, flagged.adj]
      split
      · cases (loaded r d verdict).adjRoute a q with
        | none => rfl
        | some route => simp [(keeps a route.flags).1]
      · rfl
  rw [kept, eligibleAttr, loaded_adjRoute, held]
  split
  · cases verdict with
    | none => simp [loadedRoute]
    | some attr => simp [loadedRoute]
  · rfl

end Step

/-! ## Whole dumps -/

/-- The handler accepts the route: the header matches or is not looked at, and there is a peer with the
route's next-hop. -/
structure Passes (ctx : LoadCtx) (d : DumpRoute) : Prop where
  status : d.status = .ok
  header : ctx.force = true ∨ (ctx.router.rid = d.peerAddr ∧ ctx.router.asn = d.peerAsn)
  peer : (sessionAt ctx.router d.attr.nextHop).isSome

theorem handler_passes {ctx ctx' : LoadCtx} {d : DumpRoute} (passes : Passes ctx d)
    (h : (bgpRouterLoadRibHandler ctx d).map (·.2) = .ok ctx') :
    ∃ peer, ctx.router.peers.lookup d.attr.nextHop = some peer ∧
      loadRoute ctx.router d.attr.nextHop peer d = .ok ctx'.router ∧ ctx'.force = ctx.force := by
  have target : (!ctx.force && (ctx.router.rid ≠ d.peerAddr || ctx.router.asn ≠ d.peerAsn)) = false := by
    rcases passes.header with forced | ⟨rid, asn⟩
    · simp [forced]
    · simp [rid, asn]
  have known := passes.peer
  rw [sessionAt, Option.isSome_map] at known
  obtain ⟨peer, held⟩ := Option.isSome_iff_exists.mp known
  refine ⟨peer, held, ?_⟩
  simp only [bgpRouterLoadRibHandler, passes.status, target, held, ne_eq, not_true_eq_false, if_false,
    Bool.false_eq_true, except_map_eq_ok, except_bind_eq_ok, Except.ok.injEq] at h
  obtain ⟨_, ⟨router, loadedRouter, rfl⟩, rfl⟩ := h
  exact ⟨loadedRouter, rfl⟩

/-- The selection state for a prefix: the Loc-RIB holds what the decision process selects from the
eligible and feasible routes, and among the eligible routes exactly that one has `ROUTE_FLAG_BEST`. -/
structure SelectionState (r : Router) (p : Pfx) : Prop where
  agrees : LocAgreesAt r p
  best : ∀ a route, r.adjRoute a p = some route → route.flags.eligible = true →
    (route.flags.best = true ↔
      ∃ w, compareRoutes r (bgpRouterGetFeasibleRoutes r p) = .ok [w] ∧ w.addr = a)

/-- A router without local networks, whose selection state is consistent. -/
structure LoadStart (r : Router) : Prop where
  selection : ∀ p, SelectionState r p
  noLocal : NoLocal r
  owned : Owned r
  peers : LoadPeers r
  masked : MaskedKeys r.rt

/-- No next-hop, of the router or of the dump, lies in a prefix of the dump. -/
structure HopsOutside (r : Router) (dumps : List DumpRoute) : Prop where
  held : ∀ d ∈ dumps, ∀ a p route, r.adjRoute a p = some route →
    ipAddressInPrefix route.attr.nextHop (ipPrefixMask d.pfx) = false
  loaded : ∀ d ∈ dumps, ∀ d' ∈ dumps, ipAddressInPrefix d'.attr.nextHop (ipPrefixMask d.pfx) = false

/-- The dump is loaded, and the comparisons of each decision process are exact. -/
structure Loads (ctx : LoadCtx) (dumps : List DumpRoute) (ctx' : LoadCtx) : Prop where
  ran : loadRib ctx dumps = .ok ctx'
  fits : ∀ entry ∈ loopStates (fun ctx d => (bgpRouterLoadRibHandler ctx d).map (·.2)) ctx dumps,
    LoadFits entry.1.router entry.2

/-- The next-hops at hand. -/
def KnownHop (r : Router) (dumps : List DumpRoute) (addr : NetAddr) : Prop :=
  (∃ a p route, r.adjRoute a p = some route ∧ route.attr.nextHop = addr) ∨
    ∃ d ∈ dumps, d.attr.nextHop = addr

theorem HopsOutside.knownHop {r : Router} {dumps : List DumpRoute} (outside : HopsOutside r dumps)
    {d : DumpRoute} (member : d ∈ dumps) (addr : NetAddr) (known : KnownHop r dumps addr) :
    ipAddressInPrefix addr (ipPrefixMask d.pfx) = false := by
  rcases known with ⟨a, p, route, held, rfl⟩ | ⟨d', member', rfl⟩
  · exact outside.held d member a p route held
  · exact outside.loaded d member d' member'

theorem compareRoutes_iff {net : NetRt} {r : Router} {p : Pfx} (selected : SelectedAt net r p)
    (sees : SeesNetAt net r p) {w : Cand} :
    compareRoutes r (bgpRouterGetFeasibleRoutes r p) = .ok [w] ↔
      leftAfter (onNet net r) 9 (netCands net r p) = [w] := by
  have left (n : Nat) : (leftAfter r n (bgpRouterGetFeasibleRoutes r p)).Perm
      (leftAfter (onNet net r) n (netCands net r p)) := by
    rw [← sees.leftAfter n (List.Subset.refl _)]
    exact survivors_perm _ sees.candidates.symm
  rw [compareRoutes_eq (getFeasibleRoutes_distinct r p) (candidates_reachable r p)
    (selected.fits.congr rfl left), Except.ok.injEq]
  constructor
  · intro single
    exact List.perm_singleton.mp (single ▸ (left 9).symm)
  · intro single
    exact List.perm_singleton.mp (single ▸ left 9)

/-- A route that is selected is the one the Loc-RIB has. -/
theorem SelectedAt.held {net : NetRt} {r : Router} {p : Pfx} (selected : SelectedAt net r p) {w : Cand}
    (single : leftAfter (onNet net r) 9 (netCands net r p) = [w]) :
    ∃ best, r.locRib.findExact p = some best ∧ Attr.Same best.attr w.attr ∧ bestAt r w.addr p = true := by
  have nonempty : netCands net r p ≠ [] := by
    intro empty
    rw [empty] at single
    have member := leftAfter_subset _ 9 (single ▸ List.mem_singleton_self w)
    cases member
  obtain ⟨best, holds⟩ := Option.ne_none_iff_exists'.mp (mt selected.none_iff.mp nonempty)
  obtain ⟨w', single', attr, marked⟩ := selected.selected best holds
  rw [single, List.cons.injEq] at single'
  obtain ⟨rfl, _⟩ := single'
  exact ⟨best, holds, attr, marked⟩

theorem SelectedAt.selectionState {net : NetRt} {r : Router} {p : Pfx} (selected : SelectedAt net r p)
    (sole : SoleBest net r p) (sees : SeesNetAt net r p) : SelectionState r p := by
  refine ⟨selected.locAgrees sees, fun a route held eligible => ?_⟩
  simp only [compareRoutes_iff selected sees]
  constructor
  · exact sole a route held eligible
  · rintro ⟨w, single, rfl⟩
    obtain ⟨_, _, _, marked⟩ := selected.held single
    rw [bestAt, held] at marked
    exact marked

theorem LoadStart.loadInv {r : Router} (start : LoadStart r) (dumps : List DumpRoute) :
    LoadInv r (KnownHop r dumps) r := by
  have settled : Settled r := by
    refine ⟨fun p => (start.selection p).agrees, fun p w compared => ?_, start.noLocal, start.owned⟩
    have member : w ∈ bgpRouterGetFeasibleRoutes r p :=
      ((compareRoutes_ends r _).value compared).1 List.mem_cons_self
    obtain ⟨_, route, _, _, held, eligible, _⟩ := mem_candidates.mp member
    exact bestAt_of_flag held (((start.selection p).best w.addr route held eligible).mpr
      ⟨w, compared, rfl⟩)
  have skip := settled.skipInv
  have sees : SeesNet r.rt r := fun _ _ _ _ => rfl
  refine ⟨skip, fun p a route held eligible best => ?_, rfl, rfl, rfl, rfl, fun _ => rfl, start.masked,
    fun _ _ => rfl, fun a p route held => .inl ⟨a, p, route, held, rfl⟩⟩
  obtain ⟨w, compared, here⟩ := ((start.selection p).best a route held eligible).mp best
  exact ⟨w, (compareRoutes_iff (skip.selected p) (sees.forPfx p)).mp compared, here⟩

theorem LoadInv.selectionState {r₀ r : Router} {hops : NetAddr → Prop} (inv : LoadInv r₀ hops r) (p : Pfx) :
    SelectionState r p :=
  (inv.skip.selected p).selectionState (inv.sole p) (inv.sees.forPfx p)

/-- The verdict on a route of the dump, in the router before the load. -/
def verdictAt (r : Router) (d : DumpRoute) : Option Attr :=
  (sessionAt r d.attr.nextHop).bind fun peer =>
    match bgpPeerRouteEligible r peer (d.route d.attr.nextHop) with
    | .ok verdict => verdict
    | .error _ => none

/-- The eligible routes after some routes of a dump: those of the dump, and the old ones for which the
dump has no route. -/
def EligibleAfter (r₀ : Router) (done : List DumpRoute) (r : Router) : Prop :=
  ∀ a q, (∃ d ∈ done, d.attr.nextHop = a ∧ ipPrefixMask q = ipPrefixMask d.pfx ∧
      eligibleAttr r a q = verdictAt r₀ d) ∨
    (∀ d ∈ done, ¬ (d.attr.nextHop = a ∧ ipPrefixMask q = ipPrefixMask d.pfx)) ∧
      eligibleAttr r a q = eligibleAttr r₀ a q

theorem EligibleAfter.start (r₀ : Router) : EligibleAfter r₀ [] r₀ :=
  fun _ _ => .inr ⟨fun _ member => (nomatch member), rfl⟩

theorem EligibleAfter.step {r₀ r r' : Router} {done : List DumpRoute} {d : DumpRoute}
    (after : EligibleAfter r₀ done r)
    (changed : ∀ a q, eligibleAttr r' a q =
      if a = d.attr.nextHop ∧ ipPrefixMask q = ipPrefixMask d.pfx then verdictAt r₀ d
      else eligibleAttr r a q) : EligibleAfter r₀ (done ++ [d]) r' := by
  intro a q
  by_cases here : a = d.attr.nextHop ∧ ipPrefixMask q = ipPrefixMask d.pfx
  · left
    refine ⟨d, by simp, here.1.symm, here.2, ?_⟩
    rw [changed, if_pos here]
  · have same : eligibleAttr r' a q = eligibleAttr r a q := by rw [changed, if_neg here]
    rcases after a q with ⟨d', member, isHop, isPfx, verdict⟩ | ⟨fresh, old⟩
    · exact .inl ⟨d', List.mem_append_left _ member, isHop, isPfx, same.trans verdict⟩
    · right
      refine ⟨fun d' member => ?_, same.trans old⟩
      rcases List.mem_append.mp member with before | last
      · exact fresh d' before
      · rw [List.mem_singleton] at last
        subst last
        exact fun match' => here ⟨match'.1.symm, match'.2⟩

theorem LoadInv.passes {ctx₀ ctx : LoadCtx} {hops : NetAddr → Prop} {d : DumpRoute}
    (inv : LoadInv ctx₀.router hops ctx.router) (force : ctx.force = ctx₀.force)
    (passes : Passes ctx₀ d) : Passes ctx d where
  status := passes.status
  header := by
    rw [force, inv.rid, inv.asn]
    exact passes.header
  peer := by
    rw [inv.session]
    exact passes.peer

/-- The verdict does not change during the load. -/
theorem LoadInv.verdict {r₀ r : Router} {hops : NetAddr → Prop} (inv : LoadInv r₀ hops r)
    (peers : LoadPeers r₀) {d : DumpRoute} {peer : Peer} (hop : hops d.attr.nextHop)
    (held : r.peers.lookup d.attr.nextHop = some peer) {verdict : Option Attr}
    (checked : bgpPeerRouteEligible r peer (d.route d.attr.nextHop) = .ok verdict) :
    verdictAt r₀ d = verdict := by
  have known : sessionAt r₀ d.attr.nextHop = some (Verified.session peer) := by
    rw [← inv.session, sessionAt, held]
    rfl
  have same : bgpPeerRouteEligible r₀ (Verified.session peer) (d.route d.attr.nextHop) = .ok verdict := by
    rw [← checked]
    exact eligible_congr (inv.plain peers held) rfl inv.asn.symm inv.rid.symm inv.clusterId.symm
      (inv.lookups _ hop).symm
  rw [verdictAt, known, Option.bind_some, same]

/-- The rest of a dump is loaded. -/
theorem loadRib_inv {ctx₀ : LoadCtx} {dumps : List DumpRoute} (peers : LoadPeers ctx₀.router)
    (passes : ∀ d ∈ dumps, Passes ctx₀ d) (outside : HopsOutside ctx₀.router dumps)
    {done todo : List DumpRoute} (parts : dumps = done ++ todo) {ctx ctx' : LoadCtx}
    (inv : LoadInv ctx₀.router (KnownHop ctx₀.router dumps) ctx.router) (force : ctx.force = ctx₀.force)
    (after : EligibleAfter ctx₀.router done ctx.router) (loads : Loads ctx todo ctx') :
    LoadInv ctx₀.router (KnownHop ctx₀.router dumps) ctx'.router ∧
      EligibleAfter ctx₀.router dumps ctx'.router := by
  -- by induction on what is left of the dump
  induction todo generalizing done ctx with
  | nil =>
    have ended : ctx = ctx' := Except.ok.inj loads.ran
    rw [List.append_nil] at parts
    exact ⟨ended ▸ inv, by rw [← ended, parts]; exact after⟩
  | cons d todo inductionHypothesis =>
    have member : d ∈ dumps := by
      rw [parts]
      simp
    have ran := loads.ran
    rw [loadRib, List.foldlM_cons, except_bind_eq_ok] at ran
    obtain ⟨next, stepped, rest⟩ := ran
    obtain ⟨peer, held, loadedOne, forceNext⟩ := handler_passes (inv.passes force (passes d member)) stepped
    have hop : KnownHop ctx₀.router dumps d.attr.nextHop := .inr ⟨d, member, rfl⟩
    have fits : LoadFits ctx.router d := loads.fits (ctx, d) List.mem_cons_self
    have invNext := inv.step peers hop (outside.knownHop member) held fits loadedOne
    obtain ⟨verdict, checked, changed⟩ := loadRoute_eligible loadedOne held
    have afterNext : EligibleAfter ctx₀.router (done ++ [d]) next.router := by
      refine after.step ?_
      rw [inv.verdict peers hop held checked]
      exact changed
    have loadsNext : Loads next todo ctx' := by
      refine ⟨rest, fun entry inside => loads.fits entry ?_⟩
      rw [loopStates, stepped]
      exact List.mem_cons_of_mem _ inside
    exact inductionHypothesis (by rw [parts, List.append_assoc]; rfl) invNext (forceNext.trans force)
      afterNext loadsNext

/-! ## The prefix of a route -/

/-- An eligible route that is marked is the one in the Loc-RIB. -/
def OwnMarks (r : Router) : Prop :=
  ∀ a p route, r.adjRoute a p = some route → route.flags.eligible = true → route.flags.best = true →
    ∃ old, r.locRib.findExact p = some old ∧ old.peer = some a ∧
      old.attr.nextHop = route.attr.nextHop

/-- The decision process for the route keeps a Loc-RIB route only if it is the winner's. -/
def OwnKept (r : Router) (d : DumpRoute) : Prop :=
  ∀ peer verdict, r.peers.lookup d.attr.nextHop = some peer →
    bgpPeerRouteEligible r peer (d.route d.attr.nextHop) = .ok verdict →
    KeepsAnnouncer (loaded r d verdict) d.pfx

/-- The dump is loaded, and the route that wins is the one that the Loc-RIB names. -/
structure LoadsOwn (ctx : LoadCtx) (dumps : List DumpRoute) (ctx' : LoadCtx) : Prop
    extends Loads ctx dumps ctx' where
  own : ∀ entry ∈ loopStates (fun ctx d => (bgpRouterLoadRibHandler ctx d).map (·.2)) ctx dumps,
    OwnKept entry.1.router entry.2

/-- The selection state for the prefix of a route that has just been loaded: on the routing table on
which the decision process ran, and on the one it left if the next-hops are found without the
prefix. -/
structure Decided (r r' : Router) (p : Pfx) : Prop where
  before : SelectionState (onNet r.rt r') p
  after : (∀ a route, r'.adjRoute a p = some route →
    ipAddressInPrefix route.attr.nextHop (ipPrefixMask p) = false) → SelectionState r' p

/-- What holds after each route of a dump, wherever the next-hops lie. -/
structure MarkInv (r₀ r : Router) : Prop where
  owned : Owned r
  noLocal : NoLocal r
  masked : MaskedKeys r.rt
  asn : r.asn = r₀.asn
  rid : r.rid = r₀.rid
  session : ∀ a, sessionAt r a = sessionAt r₀ a
  own : OwnMarks r

section Prefix

variable {r₀ r r' : Router} {d : DumpRoute} {peer : Peer} {verdict : Option Attr}

/-- Before the decision process, a marked route that is eligible is a candidate, or the one in the
Loc-RIB whose next-hop got lost. -/
theorem MarkInv.candidate_or_stale (inv : MarkInv r₀ r)
    (up : ∀ a session, sessionAt r a = some session → session.sessionState = .established)
    (held : r.peers.lookup d.attr.nextHop = some peer) {a : NetAddr} {route : Route}
    (stored : (loaded r d verdict).adjRoute a d.pfx = some route) (eligible : route.flags.eligible = true)
    (best : route.flags.best = true) :
    isCandidate (loaded r d verdict) d.pfx a = true ∨ Stale (loaded r d verdict) d.pfx a := by
  by_cases here : a = d.attr.nextHop
  · subst here
    exact .inl (loaded_candidate_own held up stored eligible best)
  · have same : (loaded r d verdict).adjRoute a d.pfx = r.adjRoute a d.pfx := by
      rw [loaded_adjRoute, if_neg fun both => here both.1]
    obtain ⟨old, there, named, hop⟩ := inv.own a d.pfx route (same ▸ stored) eligible best
    cases candidate : isCandidate (loaded r d verdict) d.pfx a with
    | true => exact .inl rfl
    | false =>
      refine .inr ⟨old, there, named, fun w winner member won equal => ?_⟩
      -- with the next-hop of a candidate the route would be one
      obtain ⟨_, route', _, _, stored', _, reachable, _⟩ := mem_candidates.mp member
      rw [won] at stored'
      cases stored'
      obtain ⟨known, present, _⟩ := adjRoute_eq_some.mp stored
      have session : sessionAt (loaded r d verdict) a = some (Verified.session known) :=
        sessionAt_of_lookup present
      have established := up a _ ((loaded_session r d verdict a).symm.trans session)
      have found : nextHopReachable (loaded r d verdict) route = true := by
        rw [nextHopReachable, ← hop, equal]
        exact reachable
      have isCand : isCandidate (loaded r d verdict) d.pfx a = true := by
        rw [isCandidate_iff, candAt_eq, session, Option.bind_some, if_pos established, stored,
          Option.bind_some, eligible, found]
        exact ⟨_, rfl⟩
      rw [isCand] at candidate
      cases candidate

/-- The route that wins is the one the Loc-RIB names afterwards. -/
theorem Outcome.names {p : Pfx} {w : Cand} (outcome : Outcome r r' p) (owned : Owned r)
    (noLocal : NoLocal r) (announcer : KeepsAnnouncer r p)
    (won : compareRoutes r (bgpRouterGetFeasibleRoutes r p) = .ok [w]) {best : Route}
    (held : r'.locRib.findExact p = some best) : best.peer = some w.addr := by
  cases outcome with
  | shadowed old there internal =>
    rw [noLocal p old there] at internal
    cases internal
  | ran g flagged keeps learned left compared installed =>
    rw [won] at compared
    cases compared
    cases installed with
    | unchanged _ old route dpIgp there won' equals loc =>
      rw [loc p, if_pos rfl] at held
      cases held
      exact (announcer old w route there (learned old there) won won' equals).1
    | updated _ route won' _ loc =>
      rw [loc p, if_pos rfl] at held
      cases held
      exact (owned.adj won').1

/-- One route of the dump. -/
theorem MarkInv.step (inv : MarkInv r₀ r)
    (up : ∀ a session, sessionAt r₀ a = some session → session.sessionState = .established)
    (held : r.peers.lookup d.attr.nextHop = some peer) (fits : LoadFits r d) (own : OwnKept r d)
    (h : loadRoute r d.attr.nextHop peer d = .ok r') : MarkInv r₀ r' ∧ Decided r r' d.pfx := by
  obtain ⟨verdict, checked, ran⟩ := loadRoute_cases h
  obtain ⟨selectionFits, keepsAttr⟩ := fits peer verdict held checked
  have owned := loaded_owned inv.owned d verdict
  have noLocal : NoLocal (loaded r d verdict) := inv.noLocal
  have compares : Compares r.rt (loaded r d verdict) d.pfx :=
    ⟨fun _ _ _ _ => rfl, selectionFits, keepsAttr⟩
  have outcome := (decisionProcess_ends (loaded r d verdict) d.pfx).value ran
  have only := decisionProcess_onlyBgp ran
  obtain ⟨asn, rid, _, env, session⟩ := loaded_config outcome
  have selected : SelectedAt r.rt r' d.pfx := outcome.selectedAt noLocal compares
  have sole : SoleBest r.rt r' d.pfx := outcome.soleBest noLocal compares fun a route =>
    inv.candidate_or_stale (fun a session known => up a session (inv.session a ▸ known)) held
  -- The decision was made with the routing table before the installation; the table after it gives
  -- the same costs when no next-hop lies inside the prefix.
  have decided : Decided r r' d.pfx := by
    constructor
    · have here : SelectedAt r.rt (onNet r.rt r') d.pfx :=
        ⟨selected.none_iff, selected.selected, selected.fits⟩
      exact here.selectionState sole fun _ _ _ => rfl
    · refine fun outside => selected.selectionState sole fun a route stored => ?_
      rw [nextHopCost, nextHopCost, only.rtFindBest inv.masked (outside a route stored)]
      rfl
  refine ⟨⟨owned.outcome outcome, noLocal.outcome owned outcome, only.maskedKeys inv.masked,
    asn.trans inv.asn, rid.trans inv.rid, fun a => (session a).trans (inv.session a), ?_⟩, decided⟩
  intro a q route stored eligible best
  -- At the prefix the sole route marked is the one installed; elsewhere nothing has moved.
  by_cases here : ipPrefixMask q = ipPrefixMask d.pfx
  · rw [adjRoute_congr r' a here] at stored
    rw [r'.locRib.findExact_congr here]
    obtain ⟨w, single, rfl⟩ := sole a route stored eligible best
    obtain ⟨old, there, attr, _⟩ := selected.held single
    have won : compareRoutes (loaded r d verdict)
        (bgpRouterGetFeasibleRoutes (loaded r d verdict) d.pfx) = .ok [w] := by
      obtain ⟨_, transferred⟩ := compares.transfer asn env (outcome.view d.pfx)
      have left := transferred 9
      rw [single] at left
      rw [compares.compared, List.perm_singleton.mp left.symm]
    have member : w ∈ netCands r.rt r' d.pfx := leftAfter_subset _ 9 (single ▸ List.mem_singleton_self w)
    obtain ⟨_, route', _, _, stored', _, _, shape⟩ := mem_candidates.mp member
    have same : route' = route := Option.some.inj (stored'.symm.trans stored)
    refine ⟨old, there, outcome.names owned noLocal (own peer verdict held checked) won there, ?_⟩
    rw [attr.nextHop, shape, same]
  · have same : SameAt r q r' q := (loaded_sameAt r verdict here).trans (outcome.sameAt here)
    rw [loaded_adj_ne outcome here] at stored
    rw [same.loc]
    exact inv.own a q route stored eligible best

theorem MarkInv.passes {ctx₀ ctx : LoadCtx} (inv : MarkInv ctx₀.router ctx.router)
    (force : ctx.force = ctx₀.force) (passes : Passes ctx₀ d) : Passes ctx d where
  status := passes.status
  header := by
    rw [force, inv.rid, inv.asn]
    exact passes.header
  peer := by
    rw [inv.session]
    exact passes.peer

/-- The routes of a dump. -/
theorem MarkInv.load {ctx₀ ctx ctx' : LoadCtx} {dumps : List DumpRoute}
    (up : ∀ a session, sessionAt ctx₀.router a = some session → session.sessionState = .established)
    (passes : ∀ d ∈ dumps, Passes ctx₀ d) (inv : MarkInv ctx₀.router ctx.router)
    (force : ctx.force = ctx₀.force) (loads : LoadsOwn ctx dumps ctx') :
    MarkInv ctx₀.router ctx'.router ∧ ctx'.force = ctx₀.force := by
  induction dumps generalizing ctx with
  | nil =>
    have ended : ctx = ctx' := Except.ok.inj loads.ran
    exact ended ▸ ⟨inv, force⟩
  | cons d dumps inductionHypothesis =>
    have ran := loads.ran
    rw [loadRib, List.foldlM_cons, except_bind_eq_ok] at ran
    obtain ⟨next, stepped, rest⟩ := ran
    obtain ⟨peer, held, loadedOne, forceNext⟩ :=
      handler_passes (inv.passes force (passes d List.mem_cons_self)) stepped
    have later (entry : LoadCtx × DumpRoute) (inside : entry ∈ loopStates
        (fun ctx d => (bgpRouterLoadRibHandler ctx d).map (·.2)) next dumps) : entry ∈ loopStates
        (fun ctx d => (bgpRouterLoadRibHandler ctx d).map (·.2)) ctx (d :: dumps) := by
      rw [loopStates, stepped]
      exact List.mem_cons_of_mem _ inside
    have invNext := (inv.step up held (loads.fits (ctx, d) List.mem_cons_self)
      (loads.own (ctx, d) List.mem_cons_self) loadedOne).1
    exact inductionHypothesis (fun d' member => passes d' (List.mem_cons_of_mem _ member)) invNext
      (forceNext.trans force)
      ⟨⟨rest, fun entry inside => loads.fits entry (later entry inside)⟩,
        fun entry inside => loads.own entry (later entry inside)⟩

/-- `ROUTE_FLAG_BEST` is set where `ROUTE_FLAG_FEASIBLE` is meant: the decision process takes it from the
candidates only, so that a rejected route with a reachable next-hop keeps it. -/
theorem loadRoute_rejected_best (noLocal : NoLocal r) (held : r.peers.lookup d.attr.nextHop = some peer)
    (rejected : bgpPeerRouteEligible r peer (d.route d.attr.nextHop) = .ok none)
    (reachable : (nodeRtLookup r.rt (rejectedAttr r peer (d.route d.attr.nextHop)).nextHop).isSome)
    (other : ∀ old, r.locRib.findExact d.pfx = some old → old.peer ≠ some d.attr.nextHop)
    (h : loadRoute r d.attr.nextHop peer d = .ok r') :
    ∃ route, r'.adjRoute d.attr.nextHop d.pfx = some route ∧ route.flags.eligible = false ∧
      route.flags.best = true := by
  obtain ⟨verdict, checked, ran⟩ := loadRoute_cases h
  cases rejected.symm.trans checked
  have stored : (loaded r d none).adjRoute d.attr.nextHop d.pfx =
      some (loadedRoute r peer (d.route d.attr.nextHop) none) := by
    rw [loaded_adjRoute, if_pos ⟨rfl, rfl⟩, held, Option.map_some]
  -- A route that the filter rejects is no candidate, so no run of the rules touches its flag.
  have off : isCandidate (loaded r d none) d.pfx d.attr.nextHop = false := by
    rw [Bool.eq_false_iff]
    intro candidate
    obtain ⟨c, candidate⟩ := isCandidate_iff.mp candidate
    rw [candAt_eq, stored] at candidate
    obtain ⟨_, _, candidate⟩ := Option.bind_eq_some_iff.mp candidate
    split at candidate
    · simp [loadedRoute] at candidate
    · cases candidate
  cases (decisionProcess_ends (loaded r d none) d.pfx).value ran with
  | shadowed old there internal =>
    rw [noLocal d.pfx old there] at internal
    cases internal
  | ran g flagged keeps _ left _ installed =>
    refine ⟨_, (flagged.adj _ _).trans (by rw [if_pos rfl, stored, Option.map_some]), ?_, ?_⟩
    · exact (keeps d.attr.nextHop _).1
    · have best : (loadedRoute r peer (d.route d.attr.nextHop) none).flags.best = true := reachable
      have named (old : Route) (there : r.locRib.findExact d.pfx = some old) :
          decide (old.peer = some d.attr.nextHop) = false := decide_eq_false (other old there)
      have marked : (g d.attr.nextHop (loadedRoute r peer (d.route d.attr.nextHop) none).flags).best = true := by
        cases installed with
        | nothing _ _ _ flags => rw [flags, best, off]; rfl
        | lost old there _ _ flags => rw [flags, best, off, named old there]; rfl
        | unchanged _ _ _ _ _ _ _ _ _ flags => rw [flags, best, off]; simp
        | updated w _ _ _ _ _ flags =>
          have unnamed : (loaded r d none).locRib.findExact d.pfx = r.locRib.findExact d.pfx := rfl
          rw [flags, best, off, unnamed]
          cases there : r.locRib.findExact d.pfx with
          | none => simp
          | some old => simp [other old there]
      exact marked

end Prefix

/-! ## The order of the routes -/

/-- The routes have different next-hops or prefixes. -/
def DumpsApart (d d' : DumpRoute) : Prop :=
  ¬ (d.attr.nextHop = d'.attr.nextHop ∧ ipPrefixMask d.pfx = ipPrefixMask d'.pfx)

instance : Std.Symm DumpsApart where
  symm _ _ apart equal := apart ⟨equal.1.symm, equal.2.symm⟩

theorem EligibleAfter.unique {r₀ r r' : Router} {dumps dumps' : List DumpRoute}
    (apart : dumps.Pairwise DumpsApart) (order : dumps'.Perm dumps)
    (after : EligibleAfter r₀ dumps r) (after' : EligibleAfter r₀ dumps' r') (a : NetAddr) (q : Pfx) :
    eligibleAttr r' a q = eligibleAttr r a q := by
  rcases after a q with ⟨d, member, isHop, isPfx, verdict⟩ | ⟨fresh, old⟩
  · rcases after' a q with ⟨d', member', isHop', isPfx', verdict'⟩ | ⟨fresh', _⟩
    · have same : d' = d := by
        by_contra differ
        exact apart.forall (order.mem_iff.mp member') member differ
          ⟨isHop'.trans isHop.symm, isPfx'.symm.trans isPfx⟩
      rw [verdict, verdict', same]
    · exact absurd ⟨isHop, isPfx⟩ (fresh' d (order.mem_iff.mpr member))
  · rcases after' a q with ⟨d', member', isHop', isPfx', _⟩ | ⟨_, old'⟩
    · exact absurd ⟨isHop', isPfx'⟩ (fresh d' (order.mem_iff.mp member'))
    · rw [old, old']

/-- A candidate is an eligible route of an established peer, with a reachable next-hop. -/
theorem candAt_eligible (r : Router) (p : Pfx) (a : NetAddr) :
    candAt r p a = (sessionAt r a).bind fun session =>
      if session.sessionState = .established then
        (eligibleAttr r a p).bind fun attr =>
          if (nodeRtLookup r.rt attr.nextHop).isSome then
            some ⟨a, session.asn, session.routerId, attr⟩
          else none
      else none := by
  rw [candAt_eq]
  congr 1
  funext session
  unfold eligibleAttr
  split
  · cases r.adjRoute a p with
    | none => rfl
    | some route =>
      by_cases eligible : route.flags.eligible = true
      · simp only [Option.bind_some, eligible, Bool.true_and, if_true]
        rfl
      · simp [eligible]
  · rfl

/-- With the same eligible routes, the Loc-RIBs are the same. -/
theorem LoadInv.sameLoc {r₀ r r' : Router} {hops : NetAddr → Prop} {p : Pfx} (inv : LoadInv r₀ hops r)
    (inv' : LoadInv r₀ hops r') (same : ∀ a, eligibleAttr r' a p = eligibleAttr r a p) :
    Option.Rel (fun route route' => Attr.Same route.attr route'.attr) (r.locRib.findExact p)
      (r'.locRib.findExact p) := by
  have selected := inv.skip.selected p
  have selected' := inv'.skip.selected p
  -- The candidates are the same up to order, and the rules leave the same one route of them.
  have candidates : (netCands r₀.rt r' p).Perm (netCands r₀.rt r p) := by
    refine candidates_perm fun a => ?_
    rw [candAt_eligible, candAt_eligible]
    have session : sessionAt (onNet r₀.rt r') a = sessionAt (onNet r₀.rt r) a :=
      (inv'.session a).trans (inv.session a).symm
    have eligible : eligibleAttr (onNet r₀.rt r') a p = eligibleAttr (onNet r₀.rt r) a p := same a
    rw [session, eligible]
    rfl
  have left : (leftAfter (onNet r₀.rt r') 9 (netCands r₀.rt r' p)).Perm
      (leftAfter (onNet r₀.rt r) 9 (netCands r₀.rt r p)) := by
    rw [leftAfter_onNet r₀.rt (inv'.asn.trans inv.asn.symm) (inv'.env.trans inv.env.symm)]
    exact survivors_perm _ candidates
  cases held : r.locRib.findExact p with
  | none =>
    have empty : netCands r₀.rt r' p = [] :=
      List.perm_nil.mp (selected.none_iff.mp held ▸ candidates)
    rw [selected'.none_iff.mpr empty]
    exact .none
  | some route =>
    have nonempty : netCands r₀.rt r' p ≠ [] := by
      intro empty
      rw [empty] at candidates
      have none' := selected.none_iff.mpr (List.nil_perm.mp candidates)
      rw [held] at none'
      cases none'
    obtain ⟨route', held'⟩ := Option.ne_none_iff_exists'.mp (mt selected'.none_iff.mp nonempty)
    obtain ⟨w, single, attr, _⟩ := selected.selected route held
    obtain ⟨w', single', attr', _⟩ := selected'.selected route' held'
    rw [single, single'] at left
    obtain rfl : w' = w := by simpa using List.perm_singleton.mp left
    rw [held']
    exact .some (Attr.same_trans attr (Attr.same_symm attr'))

theorem plainFilter_acceptAll : PlainFilter Filter.acceptAll where
  reads _ _ _ _ _ := rfl
  keeps accepted := by
    cases accepted
    rfl
  keepsDenied _ _ _ := rfl

theorem loadPeers_create (asn : Asn) (rid : NetAddr) (rt : NetRt) (env : Env) :
    LoadPeers (bgpRouterCreate asn rid rt env) where
  established a peer held := by simp [sessionAt, bgpRouterCreate] at held
  plain a peer held := by simp [sessionAt, bgpRouterCreate] at held

theorem LoadPeers.addPeer {r : Router} (peers : LoadPeers r) (addr : NetAddr) {peer : Peer}
    (established : peer.sessionState = .established) (plain : PlainFilter peer.filterIn) :
    LoadPeers (bgpRouterAddPeer r addr peer) := by
  unfold bgpRouterAddPeer
  split
  · exact peers
  · have known (a : NetAddr) (session' : Peer)
        (held : sessionAt { r with peers := r.peers.insert addr peer } a = some session') :
        session' = session peer ∨ sessionAt r a = some session' := by
      by_cases same : a = addr
      · subst same
        rw [sessionAt, AList.lookup_insert] at held
        exact .inl (Option.some.inj held).symm
      · rw [sessionAt, AList.lookup_insert_ne same] at held
        exact .inr held
    constructor
    · intro a session' held
      rcases known a session' held with rfl | old
      · exact established
      · exact peers.established a session' old
    · intro a session' held
      rcases known a session' held with rfl | old
      · exact plain
      · exact peers.plain a session' old

theorem Fresh.loadStart {r : Router} (fresh : Fresh r) (peers : LoadPeers r) (masked : MaskedKeys r.rt) :
    LoadStart r where
  selection p := ⟨fresh.locAgrees p, fun a route held => by simp [fresh.adj] at held⟩
  noLocal p route held := by simp [fresh.loc] at held
  owned := fresh.owned
  peers := peers
  masked := masked

theorem twoPeers_loadStart : LoadStart twoPeers :=
  twoPeers_fresh.loadStart
    (((loadPeers_create 1 1 defaultRt Env.default).addPeer 3 rfl plainFilter_acceptAll).addPeer 2 rfl
      plainFilter_acceptAll) (by unfold MaskedKeys; decide)

/-- A context for loading with the option to force. -/
def forced (r : Router) : LoadCtx where
  router := r
  force := true
  returnCode := 0
  routesOk := 0
  routesBadTarget := 0
  routesBadPeer := 0
  routesIgnored := 0

/-- A route of a dump. -/
def dumped (pfx : Pfx) (nextHop : NetAddr) (asn : Asn) : DumpRoute where
  status := .ok
  pfx := pfx
  attr := { bgpAttrCreate nextHop .igp 0 0 with path := some [sequenceOf asn] }
  peerAddr := 0
  peerAsn := 0

/-- A test for `LoadFits`. -/
def loadFitsTest (r : Router) (d : DumpRoute) : Bool :=
  (r.peers.lookup d.attr.nextHop).all fun peer =>
    match bgpPeerRouteEligible r peer (d.route d.attr.nextHop) with
    | .error _ => true
    | .ok verdict => (bgpRouterGetFeasibleRoutes (loaded r d verdict) d.pfx).all withinBoundsTest &&
        keepsAttrTest (loaded r d verdict) d.pfx

theorem loadFits_of_test {r : Router} {d : DumpRoute} (passed : loadFitsTest r d = true) :
    LoadFits r d := by
  intro peer verdict held checked
  simp only [loadFitsTest, held, Option.all_some, checked, Bool.and_eq_true] at passed
  exact ⟨selectionFits_of_test passed.1, keepsAttr_of_test passed.2⟩

/-- A test for `OwnKept`. -/
def ownKeptTest (r : Router) (d : DumpRoute) : Bool :=
  (r.peers.lookup d.attr.nextHop).all fun peer =>
    match bgpPeerRouteEligible r peer (d.route d.attr.nextHop) with
    | .error _ => true
    | .ok verdict => sameAnnouncer (loaded r d verdict) d.pfx

theorem ownKept_of_test {r : Router} {d : DumpRoute} (passed : ownKeptTest r d = true) : OwnKept r d := by
  intro peer verdict held checked
  simp only [ownKeptTest, held, Option.all_some, checked] at passed
  exact keepsAnnouncer_of_test passed

theorem loads_of_test {ctx : LoadCtx} {dumps : List DumpRoute}
    (tested : ((loopStates (fun ctx d => (bgpRouterLoadRibHandler ctx d).map (·.2)) ctx dumps).all fun entry =>
      loadFitsTest entry.1.router entry.2) = true)
    {ctx' : LoadCtx} (ran : loadRib ctx dumps = .ok ctx') : Loads ctx dumps ctx' :=
  ⟨ran, fun entry member => loadFits_of_test (List.all_eq_true.mp tested entry member)⟩

/-- Two routes for 10.0.0.0/8: the second one replaces the first one in the Loc-RIB. -/
def twoDumps : List DumpRoute := [dumped tenNet 3 7, dumped tenNet 2 7]

/-- A router with two virtual peers: the address of one is in the table, that of the other, 20.0.0.1,
is not. -/
def chained : Router :=
  bgpRouterAddPeer
    (bgpRouterAddPeer (bgpRouterCreate 1 1 ((∅ : NetRt).insert ⟨3, 32, short32⟩ (RtInfos.single
      { pfx := ⟨3, 32, short32⟩, metric := 10, type := .static, entries := [⟨none, 1⟩] })) Env.default)
      3 (virtualPeer 7)) 0x14000001 (virtualPeer 8)

theorem chained_fresh : Fresh chained :=
  ((fresh_create 1 1 _ Env.default).addPeer 3 rfl).addPeer 0x14000001 rfl

theorem chained_loadStart : LoadStart chained :=
  chained_fresh.loadStart
    (((loadPeers_create 1 1 _ Env.default).addPeer 3 rfl plainFilter_acceptAll).addPeer 0x14000001 rfl
      plainFilter_acceptAll) (by unfold MaskedKeys; decide)

/-- A route for 20.0.0.0/8, and one for 10.0.0.0/8 whose next-hop is reached through the former. -/
def chainedDumps : List DumpRoute := [dumped ⟨0x14000000, 8, short8⟩ 3 7, dumped tenNet 0x14000001 8]

theorem loadsOwn_of_test {ctx : LoadCtx} {dumps : List DumpRoute}
    (tested : ((loopStates (fun ctx d => (bgpRouterLoadRibHandler ctx d).map (·.2)) ctx dumps).all fun entry =>
      loadFitsTest entry.1.router entry.2 && ownKeptTest entry.1.router entry.2) = true)
    {ctx' : LoadCtx} (ran : loadRib ctx dumps = .ok ctx') : LoadsOwn ctx dumps ctx' := by
  simp only [List.all_eq_true, Bool.and_eq_true] at tested
  exact ⟨⟨ran, fun entry member => loadFits_of_test (tested entry member).1⟩,
    fun entry member => ownKept_of_test (tested entry member).2⟩

theorem passes_twoDumps : ∀ d ∈ twoDumps, Passes (forced twoPeers) d := by
  intro d member
  simp only [twoDumps, List.mem_cons, List.not_mem_nil, or_false] at member
  rcases member with rfl | rfl
  · exact ⟨rfl, .inl rfl, rfl⟩
  · exact ⟨rfl, .inl rfl, rfl⟩

theorem passes_chainedDumps : ∀ d ∈ chainedDumps, Passes (forced chained) d := by
  intro d member
  simp only [chainedDumps, List.mem_cons, List.not_mem_nil, or_false] at member
  rcases member with rfl | rfl
  · exact ⟨rfl, .inl rfl, rfl⟩
  · exact ⟨rfl, .inl rfl, rfl⟩

theorem Fresh.ownMarks {r : Router} (fresh : Fresh r) : OwnMarks r := by
  intro a p route held
  rw [fresh.adj] at held
  cases held

end Cbgp.Verified
