import Cbgp.Verified.DecisionProcess

/-! # Steps of a router and the decision processes they run

`dpRuns r op` lists the decision processes of a step, each with the state it starts from and its
prefix.  An `Invariant` of single decision processes, and of what happens around them, is kept by
the session operations and by `bgp_router_rerun`; a `DataInvariant` also by received UPDATE and
WITHDRAW messages (`DataInvariant.exec`).  Conditions on the decision processes of a step are stated
over `dpRuns`.
-/

namespace Cbgp.Verified

open Cbgp.Lib Cbgp.Net Cbgp.Bgp

/-! ## Changes of an Adj-RIB-In -/

/-- An accepted UPDATE is stored. -/
def stored (router : Router) (addr : NetAddr) (route : Route) (attr : Attr) : Router :=
  router.modifyPeer addr fun peer =>
    { peer with adjRibIn := peer.adjRibIn.addRoute (acceptedRoute router peer route attr) }

/-- The route of a peer goes. -/
def dropped (router : Router) (addr : NetAddr) (p : Pfx) : Router :=
  router.modifyPeer addr fun peer => { peer with adjRibIn := peer.adjRibIn.removeRoute p }

/-- The route of a peer is no longer eligible. -/
def retired (router : Router) (addr : NetAddr) (p : Pfx) : Router :=
  router.setAdjFlags addr p fun f => { f with eligible := false }

/-! ## The decision processes of a step -/

/-- Those of `_bgp_peer_rescan_adjribin`. -/
def rescanRuns (router : Router) (addr : NetAddr) : List (Router × Pfx) :=
  match router.peers.lookup addr with
  | none => []
  | some peer =>
    let keys := peer.adjRibIn.keysInOrder router.env.traversal
    if peer.sessionState = .established then
      (loopStates (bgpPeerEnableAdjribin addr) router keys).filterMap fun entry =>
        (entry.1.adjRoute addr entry.2).map fun route => (entry.1, route.pfx)
    else
      (loopStates (bgpPeerDisableAdjribin addr) router keys).filterMap fun entry =>
        ((entry.1.adjRoute addr entry.2).filter (·.flags.best)).map fun route =>
          (entry.1, route.pfx)

/-- Those of `_bgp_peer_process_update`. -/
def updateRuns (router : Router) (addr : NetAddr) (peer : Peer) (route : Route) :
    List (Router × Pfx) :=
  let route := receivedRoute router addr peer route
  match bgpPeerRouteEligible router peer route with
  | .error _ => []
  | .ok (some attr) => [(stored router addr route attr, route.pfx)]
  | .ok none =>
    if (peer.adjRibIn.findExact route.pfx).any (·.flags.best) then
      [(dropped router addr route.pfx, route.pfx)]
    else []

/-- Those of `_bgp_peer_process_withdraw`. -/
def withdrawRuns (router : Router) (addr : NetAddr) (peer : Peer) (p : Pfx) : List (Router × Pfx) :=
  match peer.adjRibIn.findExact p with
  | none => []
  | some _ => [(retired router addr p, p)]

/-- A message was received in order. -/
def counted (router : Router) (addr : NetAddr) : Router :=
  router.modifyPeer addr fun peer => { peer with recvSeqNum := peer.recvSeqNum + 1 }

/-- Those of `_bgp_peer_session_close_rcvd`. -/
def closeRcvdRuns (router : Router) (addr : NetAddr) (peer : Peer) : List (Router × Pfx) :=
  if peer.virtual then []
  else
    match peer.sessionState with
    | .established | .openWait =>
      rescanRuns (router.modifyPeer addr fun peer => peer.resetSession .active) addr
    | .active | .idle => []

/-- Those of `bgp_peer_handle_message`. -/
def messageRuns (router : Router) (addr : NetAddr) (peer : Peer) (msg : Msg) :
    List (Router × Pfx) :=
  if !bgpPeerSeqnumCheck peer msg then []
  else
    let peer := { peer with recvSeqNum := peer.recvSeqNum + 1 }
    match msg.body with
    | .update route =>
      match sessionDataRcvd (counted router addr) addr peer .updateInState with
      | .error _ => []
      | .ok (peer, router) => updateRuns router addr peer route
    | .withdraw p =>
      match sessionDataRcvd (counted router addr) addr peer .withdrawInState with
      | .error _ => []
      | .ok (peer, router) => withdrawRuns router addr peer p
    | .close => closeRcvdRuns (counted router addr) addr peer
    | .open _ => []

/-- The router in which `bgp_peer_close_session` rescans. -/
def closed (router : Router) (addr : NetAddr) (peer : Peer) : Router :=
  Router.modifyPeer
    (if (peer.sessionState = .openWait ∨ peer.sessionState = .established) ∧ !peer.virtual then
      (bgpPeerSend router addr .close).2
    else router) addr fun peer => peer.resetSession .idle

/-- The router in which `bgp_peer_open_session` rescans the Adj-RIB-In of a virtual peer. -/
def reopened (router : Router) (addr : NetAddr) : Router :=
  (router.modifyPeer addr fun peer => peer.resetSession peer.sessionState).modifyPeer addr
    fun peer => { peer with sessionState := .established, routerId := addr }

/-- Those of `bgp_peer_close_session`. -/
def closeRuns (router : Router) (addr : NetAddr) : List (Router × Pfx) :=
  match router.peers.lookup addr with
  | none => []
  | some peer =>
    if peer.sessionState = .idle then [] else rescanRuns (closed router addr peer) addr

/-- Those of `bgp_peer_open_session`. -/
def openRuns (router : Router) (addr : NetAddr) : List (Router × Pfx) :=
  match router.peers.lookup addr with
  | none => []
  | some peer =>
    if peer.sessionState ≠ .idle ∧ peer.sessionState ≠ .active then []
    else if peer.virtual && router.env.sessionOk addr && peer.softRestart then
      rescanRuns (reopened router addr) addr
    else []

/-- Those of a step. -/
def dpRuns (router : Router) : Op → List (Router × Pfx)
  | .handleMessage src msg =>
    match router.peers.lookup src with
    | none => []
    | some peer => messageRuns router src peer msg
  | .openSession addr => openRuns router addr
  | .closeSession addr => closeRuns router addr
  | .sessionRefresh addr =>
    match router.peers.lookup addr with
    | none => []
    | some peer =>
      if peer.sessionState = .established ∨ peer.sessionState = .openWait then
        if !router.env.sessionOk addr then closeRuns router addr else []
      else if peer.sessionState = .active then
        if router.env.sessionOk addr then openRuns router addr else []
      else []
  | .rerun p =>
    loopStates bgpRouterDecisionProcess router
      (if p.mask = 0 then router.env.traversal.order (bgpRouterPrefixes router)
      else [ipPrefixMask p])
  | .addNetwork _ | .delNetwork _ | .clearRib | .netChange _ _ => []

/-! ## Invariants of decision processes -/

/-- `inv` holds between the steps, `pre r p` is enough for a decision process for `p` to establish
it, `ok` is asked of each decision process, and `err` of each failure. -/
structure Invariant (inv : Router → Prop) (pre ok : Router → Pfx → Prop) (err : Abort → Prop) :
    Prop where
  start : ∀ {r p}, inv r → pre r p
  quiet : ∀ {r r'}, inv r → Quiet r r' → inv r'
  decides : ∀ {r p}, pre r p → ok r p → Ends inv err (bgpRouterDecisionProcess r p)
  fails : ∀ {e}, e ≠ .rtDelRoute → err e

theorem routing_ne_rtDelRoute {e : Abort} (routing : Routing e) : e ≠ .rtDelRoute := by
  rintro rfl
  simp [Routing] at routing

namespace Invariant

variable {inv : Router → Prop} {pre ok : Router → Pfx → Prop} {err : Abort → Prop}

theorem sends (rules : Invariant inv pre ok err) {r : Router} {x : Except Abort Router} (holds : inv r)
    (ends : Ends (Quiet r) Routing x) : Ends inv err x :=
  ends.mono (fun _ quiet => rules.quiet holds quiet)
    fun _ routing => rules.fails (routing_ne_rtDelRoute routing)

theorem rescan (rules : Invariant inv pre ok err) {r : Router} {addr : NetAddr} (clear : Bool)
    (holds : inv r) (allowed : ∀ run ∈ rescanRuns r addr, ok run.1 run.2) :
    Ends inv err (bgpPeerRescanAdjribin r addr clear) := by
  unfold bgpPeerRescanAdjribin
  unfold rescanRuns at allowed
  cases held : r.peers.lookup addr with
  | none => exact holds
  | some peer =>
    simp only [held] at allowed ⊢
    split at allowed
    -- Each key is decided in the state the loop has reached, which rescanRuns lists with it.
    next established =>
      rw [if_pos established]
      refine Ends.loop (fun s key member kept => ?_) holds
      unfold bgpPeerEnableAdjribin
      cases stored : s.adjRoute addr key with
      | none => exact kept
      | some route =>
        refine rules.decides (rules.start kept) (allowed (s, route.pfx) ?_)
        exact List.mem_filterMap.mpr ⟨(s, key), member, by simp [stored]⟩
    next down =>
      rw [if_neg down]
      refine Ends.bind (P := inv) (Ends.loop (fun s key member kept => ?_) holds) fun s kept => ?_
      · unfold bgpPeerDisableAdjribin
        cases stored : s.adjRoute addr key with
        | none => exact kept
        | some route =>
          simp only
          split
          next best =>
            refine rules.decides (rules.start kept) (allowed (s, route.pfx) ?_)
            exact List.mem_filterMap.mpr ⟨(s, key), member, by simp [stored, best]⟩
          next => exact kept
      · split
        · exact rules.quiet kept ((Quiet.refl s).modify fun _ => rfl)
        · exact kept

theorem openSession (rules : Invariant inv pre ok err) {r : Router} {addr : NetAddr} (holds : inv r)
    (allowed : ∀ run ∈ openRuns r addr, ok run.1 run.2) :
    Ends (fun result => inv result.2) err (bgpPeerOpenSession r addr) := by
  unfold bgpPeerOpenSession
  unfold openRuns at allowed
  cases held : r.peers.lookup addr with
  | none => exact holds
  | some peer =>
    simp only [held] at allowed ⊢
    split
    · exact holds
    next startable =>
      rw [if_neg startable] at allowed
      have reset : Quiet r (r.modifyPeer addr fun peer => peer.resetSession peer.sessionState) :=
        (Quiet.refl r).modify fun _ => rfl
      split
      · split
        next sent =>
          have opened := reset.send addr fun _ => .open
          rw [sent] at opened
          exact rules.quiet holds (opened.modify fun _ => rfl)
        next sent =>
          have opened := reset.send addr fun _ => .open
          rw [sent] at opened
          exact rules.quiet holds (opened.modify fun _ => rfl)
      -- A virtual peer is up at once, and its routes are judged again if it keeps them over restarts.
      next isVirtual =>
        split
        next reachable =>
          have up : inv (reopened r addr) :=
            rules.quiet holds (reset.modify fun _ => rfl)
          split
          next soft =>
            refine (rules.rescan false up fun run member => allowed run ?_).bind fun _ kept => kept
            have all : (peer.virtual && r.env.sessionOk addr && peer.softRestart) = true := by
              simp only [Bool.and_eq_true]
              exact ⟨⟨by simpa using isVirtual, reachable⟩, soft⟩
            rw [if_pos all]
            exact member
          · exact up
        · exact rules.quiet holds (reset.modify fun _ => rfl)

theorem closed_quiet (r : Router) (addr : NetAddr) (peer : Peer) : Quiet r (closed r addr peer) := by
  unfold closed
  split
  · exact ((Quiet.refl r).send addr fun _ => .close).modify fun _ => rfl
  · exact (Quiet.refl r).modify fun _ => rfl

theorem closeSession (rules : Invariant inv pre ok err) {r : Router} {addr : NetAddr} (holds : inv r)
    (allowed : ∀ run ∈ closeRuns r addr, ok run.1 run.2) :
    Ends (fun result => inv result.2) err (bgpPeerCloseSession r addr) := by
  unfold bgpPeerCloseSession
  unfold closeRuns at allowed
  cases held : r.peers.lookup addr with
  | none => exact holds
  | some peer =>
    simp only [held] at allowed ⊢
    split
    · exact holds
    next open_ =>
      rw [if_neg open_] at allowed
      refine Ends.bind (rules.rescan _ ?_ allowed) fun _ kept => kept
      exact rules.quiet holds (closed_quiet r addr peer)

theorem refresh (rules : Invariant inv pre ok err) {r : Router} {addr : NetAddr} (holds : inv r)
    (allowed : ∀ run ∈ dpRuns r (.sessionRefresh addr), ok run.1 run.2) :
    Ends inv err (bgpPeerSessionRefresh r addr) := by
  unfold bgpPeerSessionRefresh
  unfold dpRuns at allowed
  cases held : r.peers.lookup addr with
  | none => exact holds
  | some peer =>
    simp only [held] at allowed ⊢
    split
    next up =>
      rw [if_pos up] at allowed
      split
      next unreachable =>
        rw [if_pos unreachable] at allowed
        refine (rules.closeSession holds allowed).bind fun result kept => ?_
        split
        · exact rules.quiet kept ((Quiet.refl _).modify fun _ => rfl)
        · exact rules.fails (by simp)
      · exact holds
    next down =>
      rw [if_neg down] at allowed
      split
      next active =>
        rw [if_pos active] at allowed
        split
        next reachable =>
          rw [if_pos reachable] at allowed
          refine (rules.openSession holds allowed).bind fun result kept => ?_
          split
          · exact kept
          · exact rules.fails (by simp)
        · exact holds
      · exact holds

theorem openRcvd (rules : Invariant inv pre ok err) {r : Router} {addr : NetAddr} {peer : Peer}
    (routerId : NetAddr) (holds : inv r) :
    Ends inv err (bgpPeerSessionOpenRcvd r addr peer routerId) := by
  unfold bgpPeerSessionOpenRcvd
  split
  · exact rules.fails (by simp)
  · split
    · refine rules.sends ?_ (disseminateLocRib_quiet _ addr)
      refine rules.quiet holds (Quiet.send ?_ addr fun _ => .open)
      exact (Quiet.refl r).modify fun _ => rfl
    · refine rules.sends ?_ (disseminateLocRib_quiet _ addr)
      exact rules.quiet holds ((Quiet.refl r).modify fun _ => rfl)
    · exact rules.fails (by simp)

theorem closeRcvd (rules : Invariant inv pre ok err) {r : Router} {addr : NetAddr} {peer : Peer}
    (holds : inv r) (allowed : ∀ run ∈ closeRcvdRuns r addr peer, ok run.1 run.2) :
    Ends inv err (bgpPeerSessionCloseRcvd r addr peer) := by
  unfold bgpPeerSessionCloseRcvd
  unfold closeRcvdRuns at allowed
  split
  · exact rules.fails (by simp)
  next real =>
    rw [if_neg real] at allowed
    cases state : peer.sessionState with
    | established | openWait =>
      simp only [state] at allowed ⊢
      exact rules.rescan _ (rules.quiet holds ((Quiet.refl r).modify fun _ => rfl)) allowed
    | active | idle => exact holds

theorem rerun (rules : Invariant inv pre ok err) {r : Router} {p : Pfx} (holds : inv r)
    (allowed : ∀ run ∈ dpRuns r (.rerun p), ok run.1 run.2) :
    Ends inv err (bgpRouterRerun r p) :=
  Ends.loop (fun s q member kept => rules.decides (rules.start kept) (allowed (s, q) member)) holds

end Invariant

/-! ## Local networks -/

/-- The prefix is among the local networks. -/
def isLocal (router : Router) (p : Pfx) : Bool :=
  router.localNets.any fun route => ipPrefixEq route.pfx p

/-- The router that originates one more network. -/
def originated (router : Router) (p : Pfx) : Router :=
  { router with
    localNets := router.localNets ++ [localRoute router p]
    locRib := router.locRib.addRoute (localRoute router p) }

/-- The router that no longer originates a network. -/
def unoriginated (router : Router) (p : Pfx) : Router :=
  { router with
    locRib := router.locRib.removeRoute p
    localNets := router.localNets.eraseP fun route => ipPrefixEq route.pfx p }

theorem exec_addNetwork (r : Router) (p : Pfx) :
    exec r (.addNetwork p) =
      if isLocal r p then .ok r else disseminate (originated r p) p (some (localRoute r p)) := by
  unfold exec execCode bgpRouterAddNetwork isLocal originated
  simp only
  split
  · rfl
  · cases disseminate _ p (some (localRoute r p)) with
    | error e => rfl
    | ok r' => rfl

theorem exec_delNetwork (r : Router) (p : Pfx) :
    exec r (.delNetwork p) = if isLocal r p then disseminate (unoriginated r p) p none else .ok r := by
  unfold exec execCode bgpRouterDelNetwork isLocal unoriginated
  simp only
  split
  · cases disseminate _ p none with
    | error e => rfl
    | ok r' => rfl
  · rfl

theorem isLocal_iff {r : Router} {p : Pfx} :
    isLocal r p = true ↔ ∃ net ∈ r.localNets, ipPrefixMask net.pfx = ipPrefixMask p := by
  simp only [isLocal, List.any_eq_true, ipPrefixEq_iff]

theorem originated_findExact (r : Router) (p : Pfx) :
    (originated r p).locRib.findExact p = some (localRoute r p) := by
  simp only [originated, Rib.findExact_addRoute]
  exact if_pos rfl

theorem Invariant.addNetwork {inv : Router → Prop} {pre ok : Router → Pfx → Prop}
    {err : Abort → Prop} (rules : Invariant inv pre ok err) {r : Router} {p : Pfx} (holds : inv r)
    (added : isLocal r p = false → inv (originated r p)) : Ends inv err (exec r (.addNetwork p)) := by
  rw [exec_addNetwork]
  split
  · exact holds
  next fresh =>
    refine rules.sends (added (by simpa using fresh)) (disseminate_quiet _ _ _ fun best isBest => ?_)
    cases isBest
    exact originated_findExact r p

theorem Invariant.delNetwork {inv : Router → Prop} {pre ok : Router → Pfx → Prop}
    {err : Abort → Prop} (rules : Invariant inv pre ok err) {r : Router} {p : Pfx} (holds : inv r)
    (deleted : isLocal r p = true → inv (unoriginated r p)) :
    Ends inv err (exec r (.delNetwork p)) := by
  rw [exec_delNetwork]
  split
  next local_ => exact rules.sends (deleted local_) (disseminate_quiet _ _ _ (by simp))
  · exact holds

/-! ## Invariants of received routes -/

/-- What a received UPDATE or WITHDRAW does to `inv` besides decision processes. -/
structure DataInvariant (inv : Router → Prop) (pre ok : Router → Pfx → Prop) (err : Abort → Prop) :
    Prop extends Invariant inv pre ok err where
  store : ∀ {r addr route attr}, inv r → route.peer = some addr → route.flags.best = false →
    route.flags.internal = false → pre (stored r addr route attr) route.pfx
  drop : ∀ {r addr p}, inv r → bestAt r addr p = false → inv (dropped r addr p)
  dropBest : ∀ {r addr p}, inv r → bestAt r addr p = true → pre (dropped r addr p) p
  retire : ∀ {r addr p}, inv r → pre (retired r addr p) p
  dropRetired : ∀ {r addr p}, inv r →
    (∀ route, r.adjRoute addr p = some route → route.flags.eligible = false) →
    inv (dropped r addr p)

/-- A decision process leaves alone what it was given, up to flags. -/
theorem Outcome.adjRoute_eligible {r r' : Router} {p : Pfx} (outcome : Outcome r r' p)
    {a : NetAddr} {q : Pfx} {route' : Route} (held : r'.adjRoute a q = some route') :
    ∃ route, r.adjRoute a q = some route ∧ route'.flags.eligible = route.flags.eligible := by
  cases outcome with
  | shadowed _ _ _ same => exact ⟨route', same ▸ held, rfl⟩
  | ran g flagged keeps _ _ _ _ =>
    rw [flagged.adj] at held
    split at held
    · obtain ⟨route, stored, rfl⟩ := Option.map_eq_some_iff.mp held
      exact ⟨route, stored, (keeps a route.flags).1⟩
    · exact ⟨route', held, rfl⟩

theorem adjRoute_of_lookup {r : Router} {addr : NetAddr} {peer : Peer}
    (held : r.peers.lookup addr = some peer) (p : Pfx) :
    r.adjRoute addr p = peer.adjRibIn.findExact p := by
  simp [Router.adjRoute, held]

theorem setAdjFlags_adjRoute (r : Router) (addr a : NetAddr) (p q : Pfx)
    (f : RouteFlags → RouteFlags) :
    (r.setAdjFlags addr p f).adjRoute a q =
      if a = addr ∧ ipPrefixMask q = ipPrefixMask p then (r.adjRoute a q).map (Route.setFlags · f)
      else r.adjRoute a q := by
  rw [(setAdjFlags_flagged r addr p f).adj]
  by_cases same : a = addr
  · simp [same]
  · simp only [same, false_and, if_false]
    split
    · exact Option.map_id'
    · rfl

/-- What `_bgp_peer_process_update` does: it stores the route and runs the decision process, or it
drops the old route and runs the decision process if that one was marked. -/
theorem processUpdate_cases {r r' : Router} {addr : NetAddr} {peer : Peer} {route : Route}
    (held : r.peers.lookup addr = some peer)
    (h : bgpPeerProcessUpdate r addr peer route = .ok r') :
    (∃ attr, bgpPeerRouteEligible r peer (receivedRoute r addr peer route) = .ok (some attr) ∧
      bgpRouterDecisionProcess (stored r addr (receivedRoute r addr peer route) attr) route.pfx =
        .ok r') ∨
    (bgpPeerRouteEligible r peer (receivedRoute r addr peer route) = .ok none ∧
      ((bestAt r addr route.pfx = true ∧
        bgpRouterDecisionProcess (dropped r addr route.pfx) route.pfx = .ok r') ∨
      (bestAt r addr route.pfx = false ∧
        r' = if (r.adjRoute addr route.pfx).isSome then dropped r addr route.pfx else r))) := by
  simp only [bgpPeerProcessUpdate, except_bind_eq_ok] at h
  obtain ⟨verdict, checked, h⟩ := h
  have pfx : (receivedRoute r addr peer route).pfx = route.pfx := rfl
  rw [pfx] at h
  cases verdict with
  | some attr => exact .inl ⟨attr, checked, h⟩
  | none =>
    refine .inr ⟨checked, ?_⟩
    simp only [← adjRoute_of_lookup held] at h
    split at h
    next best =>
      refine .inl ⟨best, ?_⟩
      cases absent : r.adjRoute addr route.pfx with
      | none => simp [absent] at best
      | some old =>
        simp only [absent, Option.isSome_some, if_true] at h
        exact h
    next off =>
      cases h
      exact .inr ⟨by simpa [bestAt] using off, rfl⟩

/-- What `_bgp_peer_process_withdraw` does with a route that is there. -/
theorem processWithdraw_cases {r r' : Router} {addr : NetAddr} {peer : Peer} {p : Pfx}
    (held : r.peers.lookup addr = some peer) (h : bgpPeerProcessWithdraw r addr peer p = .ok r') :
    (r.adjRoute addr p = none ∧ r' = r) ∨
      ∃ old s, r.adjRoute addr p = some old ∧
        bgpRouterDecisionProcess (retired r addr p) p = .ok s ∧ r' = dropped s addr p := by
  simp only [bgpPeerProcessWithdraw, ← adjRoute_of_lookup held] at h
  cases absent : r.adjRoute addr p with
  | none =>
    simp only [absent, Except.ok.injEq] at h
    exact .inl ⟨rfl, h.symm⟩
  | some old =>
    simp only [absent, except_bind_eq_ok, Except.ok.injEq] at h
    obtain ⟨s, decided, rfl⟩ := h
    exact .inr ⟨old, s, rfl, decided, rfl⟩

/-- After the decision process of a WITHDRAW the route is still there, and not eligible. -/
theorem retired_ineligible {r s : Router} {addr : NetAddr} {p : Pfx}
    (outcome : Outcome (retired r addr p) s p) {q : Pfx} (same : ipPrefixMask q = ipPrefixMask p)
    {route : Route} (held : s.adjRoute addr q = some route) : route.flags.eligible = false := by
  obtain ⟨old, heldOld, eligible⟩ := outcome.adjRoute_eligible held
  rw [retired, setAdjFlags_adjRoute, if_pos ⟨rfl, same⟩] at heldOld
  obtain ⟨_, _, rfl⟩ := Option.map_eq_some_iff.mp heldOld
  exact eligible

/-- The import checks fail only inside the input filter. -/
theorem bgpPeerRouteEligible_ends (r : Router) (peer : Peer) (route : Route) :
    Ends (fun _ => True) Routing (bgpPeerRouteEligible r peer route) := by
  simp only [bgpPeerRouteEligible]
  split
  · trivial
  · split
    · trivial
    · split
      · trivial
      · apply Ends.bind (Filter.apply_ends peer.filterIn r.asn r.rt route)
        intro verdict _
        cases verdict with
        | none => trivial
        | some attr => trivial

namespace DataInvariant

variable {inv : Router → Prop} {pre ok : Router → Pfx → Prop} {err : Abort → Prop}

theorem update (rules : DataInvariant inv pre ok err) {r : Router} {addr : NetAddr} {peer : Peer}
    {route : Route} (held : r.peers.lookup addr = some peer) (holds : inv r)
    (allowed : ∀ run ∈ updateRuns r addr peer route, ok run.1 run.2) :
    Ends inv err (bgpPeerProcessUpdate r addr peer route) := by
  unfold bgpPeerProcessUpdate
  unfold updateRuns at allowed
  simp only at allowed ⊢
  cases checked : bgpPeerRouteEligible r peer (receivedRoute r addr peer route) with
  | error e =>
    exact rules.fails (routing_ne_rtDelRoute ((bgpPeerRouteEligible_ends r peer _).error checked))
  | ok verdict =>
    simp only [checked] at allowed
    simp only [bind, Except.bind]
    -- A route let in is stored and decided; one that is rejected takes away what was stored before it.
    cases verdict with
    | some attr =>
      refine rules.decides (rules.store holds rfl rfl rfl) ?_
      exact allowed (_, _) List.mem_cons_self
    | none =>
      simp only at allowed ⊢
      have flag : bestAt r addr (receivedRoute r addr peer route).pfx =
          (peer.adjRibIn.findExact (receivedRoute r addr peer route).pfx).any (·.flags.best) := by
        rw [bestAt, adjRoute_of_lookup held]
      rw [← flag] at allowed ⊢
      cases found : peer.adjRibIn.findExact (receivedRoute r addr peer route).pfx with
      | none =>
        have off : bestAt r addr (receivedRoute r addr peer route).pfx = false := by
          rw [flag, found]
          rfl
        simp only [off, Option.isSome_none, Bool.false_eq_true, if_false]
        exact holds
      | some old =>
        simp only [Option.isSome_some, if_true]
        split
        next best =>
          rw [if_pos best] at allowed
          exact rules.decides (rules.dropBest holds best) (allowed (_, _) List.mem_cons_self)
        next off => exact rules.drop holds (by simpa using off)

theorem withdraw (rules : DataInvariant inv pre ok err) {r : Router} {addr : NetAddr} {peer : Peer}
    {p : Pfx} (holds : inv r) (allowed : ∀ run ∈ withdrawRuns r addr peer p, ok run.1 run.2) :
    Ends inv err (bgpPeerProcessWithdraw r addr peer p) := by
  unfold bgpPeerProcessWithdraw
  unfold withdrawRuns at allowed
  cases found : peer.adjRibIn.findExact p with
  | none => exact holds
  | some old =>
    simp only [found] at allowed ⊢
    have decided : Ends inv err (bgpRouterDecisionProcess (retired r addr p) p) :=
      rules.decides (rules.retire holds) (allowed (_, _) List.mem_cons_self)
    refine Ends.bind ((decided.and (decisionProcess_ends _ p)).mono (fun _ both => both)
      fun _ both => both.1) fun r' both => rules.dropRetired both.1 ?_
    exact fun route stored => retired_ineligible both.2 rfl stored

theorem dataRcvd_quiet {r r' : Router} {addr : NetAddr} {peer peer' : Peer} {failure : Abort}
    (held : r.peers.lookup addr = some peer)
    (h : sessionDataRcvd r addr peer failure = .ok (peer', r')) :
    Quiet r r' ∧ r'.peers.lookup addr = some peer' := by
  unfold sessionDataRcvd at h
  split at h
  · cases h
    refine ⟨(Quiet.refl r).modify fun _ => rfl, ?_⟩
    rw [modifyPeer_lookup, if_pos rfl, held]
    rfl
  · cases h
    exact ⟨Quiet.refl r, held⟩
  · cases h

theorem dataRcvd_error {r : Router} {addr : NetAddr} {peer : Peer} {failure e : Abort}
    (h : sessionDataRcvd r addr peer failure = .error e) : e = failure := by
  unfold sessionDataRcvd at h
  split at h
  · cases h
  · cases h
  · cases h
    rfl

theorem message (rules : DataInvariant inv pre ok err) {r : Router} {addr : NetAddr} {peer : Peer}
    {msg : Msg} (held : r.peers.lookup addr = some peer) (holds : inv r)
    (allowed : ∀ run ∈ messageRuns r addr peer msg, ok run.1 run.2) :
    Ends (fun result => inv result.2) err (bgpPeerHandleMessage r addr peer msg) := by
  have quiet : Quiet r (counted r addr) := (Quiet.refl r).modify fun _ => rfl
  have received : (counted r addr).peers.lookup addr =
      some { peer with recvSeqNum := peer.recvSeqNum + 1 } := by
    rw [counted, modifyPeer_lookup, if_pos rfl, held]
    rfl
  unfold bgpPeerHandleMessage
  unfold messageRuns at allowed
  -- A message out of order is dropped before its body is looked at.
  split
  · exact holds
  next inOrder =>
    rw [if_neg inOrder] at allowed
    refine Ends.map ?_
    cases body : msg.body with
    | update route =>
      simp only [body] at allowed ⊢
      unfold bgpPeerSessionUpdateRcvd
      refine Ends.bind (P := fun result => sessionDataRcvd (counted r addr) addr
        { peer with recvSeqNum := peer.recvSeqNum + 1 } .updateInState = .ok result) ?_ ?_
      · refine Ends.intro (fun _ same => same) fun e failed => rules.fails ?_
        rw [dataRcvd_error failed]
        simp
      · rintro ⟨peer', r'⟩ state
        obtain ⟨quiet', held'⟩ := dataRcvd_quiet received state
        simp only [state] at allowed
        exact rules.update held' (rules.quiet holds (quiet.trans quiet')) allowed
    | withdraw p =>
      simp only [body] at allowed ⊢
      unfold bgpPeerSessionWithdrawRcvd
      refine Ends.bind (P := fun result => sessionDataRcvd (counted r addr) addr
        { peer with recvSeqNum := peer.recvSeqNum + 1 } .withdrawInState = .ok result) ?_ ?_
      · refine Ends.intro (fun _ same => same) fun e failed => rules.fails ?_
        rw [dataRcvd_error failed]
        simp
      · rintro ⟨peer', r'⟩ state
        obtain ⟨quiet', _⟩ := dataRcvd_quiet received state
        simp only [state] at allowed
        exact rules.withdraw (rules.quiet holds (quiet.trans quiet')) allowed
    | close =>
      simp only [body] at allowed
      exact rules.closeRcvd (rules.quiet holds quiet) allowed
    | «open» routerId => exact rules.openRcvd routerId (rules.quiet holds quiet)

/-- The steps a data invariant covers: all but those on local networks, clears and changes of the
network. -/
theorem exec (rules : DataInvariant inv pre ok err) {r : Router} {op : Op} (holds : inv r)
    (allowed : ∀ run ∈ dpRuns r op, ok run.1 run.2)
    (addNetwork : ∀ p, op = .addNetwork p → Ends inv err (exec r op))
    (delNetwork : ∀ p, op = .delNetwork p → Ends inv err (exec r op))
    (clearRib : op = .clearRib → Ends inv err (exec r op))
    (netChange : ∀ rt env, op = .netChange rt env → Ends inv err (exec r op)) :
    Ends inv err (exec r op) := by
  cases op with
  | handleMessage src msg =>
    refine Ends.map ?_
    unfold dpRuns at allowed
    simp only [execCode, bgpRouterHandleMessage]
    cases held : r.peers.lookup src with
    | none => exact holds
    | some peer =>
      simp only [held] at allowed
      exact rules.message held holds allowed
  | openSession addr => exact Ends.map (rules.openSession holds allowed)
  | closeSession addr => exact Ends.map (rules.closeSession holds allowed)
  | sessionRefresh addr => exact Ends.map (Ends.map (rules.refresh holds allowed))
  | addNetwork p => exact addNetwork p rfl
  | delNetwork p => exact delNetwork p rfl
  | rerun p => exact Ends.map (Ends.map (rules.rerun holds allowed))
  | clearRib => exact clearRib rfl
  | netChange rt env => exact netChange rt env rfl

end DataInvariant

/-! ## Configuration -/

/-- A peer as it is configured, without session and RIBs. -/
def peerConfig (peer : Peer) : Peer :=
  { settled peer with adjRibIn := Rib.create }

/-- The identity of the router and the configuration of its peers are as before. -/
structure Configured (r r' : Router) : Prop where
  asn : r'.asn = r.asn
  rid : r'.rid = r.rid
  clusterId : r'.clusterId = r.clusterId
  reflector : r'.reflector = r.reflector
  peers : ∀ a, (r'.peers.lookup a).map peerConfig = (r.peers.lookup a).map peerConfig

namespace Configured

variable {r s t : Router}

theorem refl (r : Router) : Configured r r := ⟨rfl, rfl, rfl, rfl, fun _ => rfl⟩

theorem trans (first : Configured r s) (second : Configured s t) : Configured r t where
  asn := second.asn.trans first.asn
  rid := second.rid.trans first.rid
  clusterId := second.clusterId.trans first.clusterId
  reflector := second.reflector.trans first.reflector
  peers a := (second.peers a).trans (first.peers a)

theorem symm (configured : Configured r s) : Configured s r where
  asn := configured.asn.symm
  rid := configured.rid.symm
  clusterId := configured.clusterId.symm
  reflector := configured.reflector.symm
  peers a := (configured.peers a).symm

theorem of_alike (alike : Alike r s) : Configured r s := by
  have through (t : Router) (a : NetAddr) : (t.peers.lookup a).map peerConfig =
      ((t.peers.lookup a).map settled).map peerConfig := by
    rw [Option.map_map]
    rfl
  refine ⟨?_, ?_, ?_, ?_, fun a => ?_⟩
  · rw [alike.router]
  · rw [alike.router]
  · rw [alike.router]
  · rw [alike.router]
  · rw [through, through r, alike.ribs]

theorem of_outcome {p : Pfx} (outcome : Outcome r s p) : Configured r s := by
  cases outcome with
  | shadowed _ _ _ same => exact same ▸ refl r
  | ran g flagged =>
    have through (t : Router) (a : NetAddr) : (t.peers.lookup a).map peerConfig =
        (sessionAt t a).map peerConfig := by
      rw [sessionAt, Option.map_map]
      rfl
    refine ⟨?_, ?_, ?_, ?_, fun a => ?_⟩
    · rw [flagged.router]
    · rw [flagged.router]
    · rw [flagged.router]
    · rw [flagged.router]
    · rw [through, through r, flagged.session]

theorem modify (addr : NetAddr) {f : Peer → Peer}
    (same : ∀ peer, peerConfig (f peer) = peerConfig peer) : Configured r (r.modifyPeer addr f) := by
  refine ⟨rfl, rfl, rfl, rfl, fun a => ?_⟩
  rw [modifyPeer_lookup]
  split
  · rw [Option.map_map]
    congr 1
    funext peer
    exact same peer
  · rfl

theorem rules (r : Router) :
    DataInvariant (Configured r) (fun s _ => Configured r s) (fun _ _ => True) fun _ => True where
  start kept := kept
  quiet kept quiet := kept.trans (of_alike quiet.toAlike)
  decides kept _ := (decisionProcess_ends _ _).mono (fun _ outcome => kept.trans (of_outcome outcome))
    fun _ _ => trivial
  fails _ := trivial
  store kept _ _ _ := kept.trans (modify _ fun _ => rfl)
  drop kept _ := kept.trans (modify _ fun _ => rfl)
  dropBest kept _ := kept.trans (modify _ fun _ => rfl)
  retire kept := kept.trans (modify _ fun _ => rfl)
  dropRetired kept _ := kept.trans (modify _ fun _ => rfl)

end Configured

/-- No step changes the configuration. -/
theorem exec_configured {r r' : Router} {op : Op} (h : exec r op = .ok r') : Configured r r' := by
  have rules := Configured.rules r
  have start := Configured.refl r
  refine Ends.value (rules.exec start (fun _ _ => trivial) ?_ ?_ ?_ ?_) h
  · rintro p rfl
    exact rules.addNetwork start fun _ => ⟨rfl, rfl, rfl, rfl, fun _ => rfl⟩
  · rintro p rfl
    exact rules.delNetwork start fun _ => ⟨rfl, rfl, rfl, rfl, fun _ => rfl⟩
  · rintro rfl
    refine ⟨rfl, rfl, rfl, rfl, fun a => ?_⟩
    simp only [bgpRouterClearRib, Table.lookup_mapVals, Option.map_map]
    rfl
  · rintro rt env rfl
    exact ⟨rfl, rfl, rfl, rfl, fun _ => rfl⟩

end Cbgp.Verified
