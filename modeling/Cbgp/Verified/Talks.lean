import Cbgp.Verified.Emission

/-! # Every step talks

Whatever a router does that is not an operation on the session with a peer, towards that peer it
sends UPDATEs and WITHDRAWs in the way of `Tells`, and only while the session is established
(`exec_talks`).
-/

namespace Cbgp.Verified

open Cbgp.Lib Cbgp.Net Cbgp.Bgp

/-- Between two states the peer with an address was told something. -/
def Talks (a : NetAddr) (r r' : Router) : Prop := ∃ bodies, Tells a r r' bodies

/-- Only Adj-RIB-Ins, the Loc-RIB and the routing table changed. -/
structure Still (a : NetAddr) (r s : Router) : Prop where
  env : s.env = r.env
  peer : ∀ peer, r.peers.lookup a = some peer →
    ∃ rib, s.peers.lookup a = some { peer with adjRibIn := rib }
  outbox : s.outbox = r.outbox

namespace Talks

variable {a : NetAddr} {r s t : Router}

theorem refl (a : NetAddr) (r : Router) : Talks a r r := ⟨[], .refl a r⟩

theorem trans (first : Talks a r s) (second : Talks a s t) : Talks a r t := by
  obtain ⟨bodies, tells⟩ := first
  obtain ⟨bodies', tells'⟩ := second
  exact ⟨bodies ++ bodies', tells.trans tells'⟩

theorem of_untouched (untouched : Untouched a r s) : Talks a r s := ⟨[], untouched.tells⟩

theorem of_still (still : Still a r s) : Talks a r s := by
  refine ⟨[], .of_same still.env (fun peer held => ?_) (by rw [still.outbox])⟩
  obtain ⟨rib, held'⟩ := still.peer peer held
  exact ⟨_, held', rfl⟩

end Talks

/-! ## Decision processes -/

namespace Still

variable {a : NetAddr} {r s t : Router}

theorem refl (a : NetAddr) (r : Router) : Still a r r :=
  ⟨rfl, fun peer held => ⟨peer.adjRibIn, held⟩, rfl⟩

theorem trans (first : Still a r s) (second : Still a s t) : Still a r t := by
  refine ⟨second.env.trans first.env, fun peer held => ?_, second.outbox.trans first.outbox⟩
  obtain ⟨rib, held'⟩ := first.peer peer held
  obtain ⟨rib', held''⟩ := second.peer _ held'
  exact ⟨rib', held''⟩

/-- The Loc-RIB and the routing table are not the peer's. -/
theorem tables (still : Still a r s) (peers : t.peers = s.peers) (env : t.env = s.env)
    (outbox : t.outbox = s.outbox) : Still a r t :=
  ⟨env.trans still.env, fun peer held => peers ▸ still.peer peer held, outbox.trans still.outbox⟩

theorem of_mapVals {f : NetAddr → Peer → Peer}
    (same : ∀ b peer, ∃ rib, f b peer = { peer with adjRibIn := rib }) :
    Still a r { r with peers := r.peers.mapVals f } := by
  refine ⟨rfl, fun peer held => ?_, rfl⟩
  obtain ⟨rib, changed⟩ := same a peer
  exact ⟨rib, by simp [held, changed]⟩

theorem modify {b : NetAddr} {f : Peer → Peer}
    (same : ∀ peer, ∃ rib, f peer = { peer with adjRibIn := rib }) : Still a r (r.modifyPeer b f) := by
  refine ⟨rfl, fun peer held => ?_, rfl⟩
  rw [modifyPeer_lookup]
  split
  · obtain ⟨rib, changed⟩ := same peer
    exact ⟨rib, by simp [held, changed]⟩
  · exact ⟨peer.adjRibIn, held⟩

end Still

section Decides

variable {a : NetAddr} {r r' : Router} {p : Pfx}

theorem updateFeasible_still (a : NetAddr) (r : Router) (p : Pfx) :
    Still a r (updateFeasible r p) := by
  apply Still.of_mapVals
  intro _ peer
  -- The flag is set for the eligible routes of established peers; the rest is left alone.
  split
  · split
    · exact ⟨peer.adjRibIn, rfl⟩
    · split
      · exact ⟨_, rfl⟩
      · exact ⟨peer.adjRibIn, rfl⟩
  · exact ⟨peer.adjRibIn, rfl⟩

theorem setListFlags_still (a : NetAddr) (r : Router) (routes : List Cand) (p : Pfx)
    (f : RouteFlags → RouteFlags) : Still a r (setListFlags r routes p f) := by
  apply Still.of_mapVals
  intro b peer
  cases routes.any (·.addr = b) with
  | true => exact ⟨_, rfl⟩
  | false => exact ⟨peer.adjRibIn, rfl⟩

theorem setAdjFlags_still (a : NetAddr) (r : Router) (b : NetAddr) (p : Pfx)
    (f : RouteFlags → RouteFlags) : Still a r (r.setAdjFlags b p f) :=
  Still.modify fun _ => ⟨_, rfl⟩

theorem bestFlagOff_still (a : NetAddr) (r : Router) (old : Route) :
    Still a r (bgpRouterBestFlagOff r old) := by
  simp only [bgpRouterBestFlagOff]
  cases old.peer with
  | none => exact (Still.refl a r).tables rfl rfl rfl
  | some b =>
    refine Still.trans ?_ (setAdjFlags_still a _ b old.pfx _)
    exact (Still.refl a r).tables rfl rfl rfl

theorem rtAddRoute_still {route : Route} (h : bgpRouterRtAddRoute r route = .ok r') :
    Still a r r' := by
  simp only [bgpRouterRtAddRoute] at h
  split at h
  · cases h
    exact (Still.refl a r).tables rfl rfl rfl
  · cases h

theorem rtDelRoute_still (h : bgpRouterRtDelRoute r p = .ok r') : Still a r r' := by
  simp only [bgpRouterRtDelRoute] at h
  split at h
  · cases h
    exact (Still.refl a r).tables rfl rfl rfl
  · cases h

theorem disseminate_talks {route : Option Route} (h : disseminate r p route = .ok r') :
    Talks a r r' := by
  cases held : r.peers.lookup a with
  | none =>
    -- Without the peer there is nothing to tell; only the options have to stay.
    refine ⟨[], ⟨((disseminate_ends r p route).value h).env, fun {peer} found => ?_⟩⟩
    rw [held] at found
    cases found
  | some peer =>
    obtain ⟨bodies, _, _, tells⟩ := disseminate_told held h
    exact ⟨bodies, tells⟩

theorem noBestRoute_talks {old : Option Route} (h : noBestRoute r p old = .ok r') :
    Talks a r r' := by
  cases old with
  | none =>
    cases h
    exact Talks.refl a r
  | some old =>
    simp only [noBestRoute, except_bind_eq_ok] at h
    obtain ⟨s, deleted, told⟩ := h
    have removed : Still a r s := by
      refine Still.trans ?_ (rtDelRoute_still deleted)
      exact (bestFlagOff_still a r old).tables rfl rfl rfl
    exact (Talks.of_still removed).trans (disseminate_talks told)

theorem unchangedBestRoute_talks {winner : NetAddr} {route : Route}
    (h : unchangedBestRoute r p winner route = .ok r') : Talks a r r' := by
  simp only [unchangedBestRoute] at h
  have marked := setAdjFlags_still a r winner p fun f => { f with best := true }
  refine Talks.of_still (Still.trans ?_ (rtAddRoute_still h))
  exact marked.tables rfl rfl rfl

theorem updateBestRoute_talks {old : Option Route} {winner : NetAddr} {route : Route}
    (h : updateBestRoute r p old winner route = .ok r') : Talks a r r' := by
  simp only [updateBestRoute, except_bind_eq_ok] at h
  obtain ⟨s, added, told⟩ := h
  have installed : Still a r s := by
    refine Still.trans ?_ (rtAddRoute_still added)
    cases old with
    | none =>
      have marked := setAdjFlags_still a r winner p fun f => { f with best := true }
      exact marked.tables rfl rfl rfl
    | some old =>
      have marked := (bestFlagOff_still a r old).trans
        (setAdjFlags_still a _ winner p fun f => { f with best := true })
      exact marked.tables rfl rfl rfl
  exact (Talks.of_still installed).trans (disseminate_talks told)

theorem installBest_talks {old : Option Route} {left : List Cand}
    (h : installBest r p old left = .ok r') : Talks a r r' := by
  cases left with
  | nil => exact noBestRoute_talks h
  | cons w rest =>
    simp only [installBest] at h
    cases won : r.adjRoute w.addr p with
    | none => simp [won] at h
    | some route =>
      simp only [won] at h
      cases old with
      | none => exact updateBestRoute_talks h
      | some old =>
        simp only at h
        split at h
        · exact unchangedBestRoute_talks h
        · exact updateBestRoute_talks h

/-- A decision process talks. -/
theorem decisionProcess_talks (h : bgpRouterDecisionProcess r p = .ok r') : Talks a r r' := by
  simp only [bgpRouterDecisionProcess] at h
  split at h
  · cases h
    exact Talks.refl a r
  · simp only [except_bind_eq_ok] at h
    obtain ⟨left, _, igp, _, installed⟩ := h
    have prepared := (updateFeasible_still a r p).trans (setListFlags_still a _
      (bgpRouterGetFeasibleRoutes r p) p fun f => { f with dpIgp := false, best := false })
    have flagged := prepared.trans (setListFlags_still a _ igp p fun f => { f with dpIgp := true })
    exact (Talks.of_still flagged).trans (installBest_talks installed)

/-! ## How steps fail -/

/-- The `abort()` branches of the session state machine. -/
def SessionAbort (e : Abort) : Prop :=
  e = .openInState ∨ e = .updateInState ∨ e = .withdrawInState

instance (e : Abort) : Decidable (SessionAbort e) :=
  inferInstanceAs (Decidable (_ ∨ _ ∨ _))

theorem routing_not_session {e : Abort} (routing : Routing e) : ¬SessionAbort e := by
  rintro (rfl | rfl | rfl) <;> simp [Routing] at routing

/-- A decision process talks, and does not fail as a session does. -/
theorem decisionProcess_ends_talking (a : NetAddr) (r : Router) (p : Pfx) :
    Ends (Talks a r) (¬SessionAbort ·) (bgpRouterDecisionProcess r p) := by
  apply Ends.intro
  · intro r' decided
    exact decisionProcess_talks decided
  · intro e failed
    cases (decisionProcess_ends r p).error failed with
    | inl routing => exact routing_not_session routing
    | inr deleting =>
      rw [deleting.1]
      simp [SessionAbort]

end Decides

/-! ## Rescans -/

section Rescans

variable {a b : NetAddr} {r : Router}

theorem Talks.loop {f : Router → Pfx → Except Abort Router} {keys : List Pfx}
    (body : ∀ s key, Ends (Talks a s) (¬SessionAbort ·) (f s key)) :
    Ends (Talks a r) (¬SessionAbort ·) (keys.foldlM f r) := by
  apply Ends.loop
  · intro s key _ talked
    exact (body s key).mono (fun _ talks => talked.trans talks) fun _ => id
  · exact Talks.refl a r

theorem enableAdjribin_talks (a b : NetAddr) (r : Router) (key : Pfx) :
    Ends (Talks a r) (¬SessionAbort ·) (bgpPeerEnableAdjribin b r key) := by
  simp only [bgpPeerEnableAdjribin]
  split
  · exact Talks.refl a r
  · exact decisionProcess_ends_talking a r _

theorem disableAdjribin_talks (a b : NetAddr) (r : Router) (key : Pfx) :
    Ends (Talks a r) (¬SessionAbort ·) (bgpPeerDisableAdjribin b r key) := by
  simp only [bgpPeerDisableAdjribin]
  split
  · exact Talks.refl a r
  · split
    · exact decisionProcess_ends_talking a r _
    · exact Talks.refl a r

/-- The Adj-RIB-Out of a peer whose session went down is cleared without a word. -/
def Clears (a : NetAddr) (r r' : Router) : Prop :=
  ∃ s, Talks a r s ∧
    (r' = s ∨ r' = s.modifyPeer a fun peer => { peer with adjRibOut := Rib.create })

theorem rescan_clears (a : NetAddr) (r : Router) (clear : Bool) :
    Ends (Clears a r) (¬SessionAbort ·) (bgpPeerRescanAdjribin r a clear) := by
  simp only [bgpPeerRescanAdjribin]
  split
  · exact ⟨r, Talks.refl a r, .inl rfl⟩
  · split
    · apply Ends.mono (Talks.loop (enableAdjribin_talks a a))
      · intro s talks
        exact ⟨s, talks, .inl rfl⟩
      · exact fun _ => id
    · apply Ends.bind (Talks.loop (disableAdjribin_talks a a))
      intro s talks
      split
      · exact ⟨s, talks, .inr rfl⟩
      · exact ⟨s, talks, .inl rfl⟩

/-- A rescan of another peer's routes talks. -/
theorem rescan_talks (differ : a ≠ b) (r : Router) (clear : Bool) :
    Ends (Talks a r) (¬SessionAbort ·) (bgpPeerRescanAdjribin r b clear) := by
  simp only [bgpPeerRescanAdjribin]
  split
  · exact Talks.refl a r
  · split
    · exact Talks.loop (enableAdjribin_talks a b)
    · apply Ends.bind (Talks.loop (disableAdjribin_talks a b))
      intro s talks
      split
      · exact talks.trans (.of_untouched (modifyPeer_other differ))
      · exact talks

/-! ## Sessions with others -/

theorem openSession_talks (differ : a ≠ b) (r : Router) :
    Ends (fun result => Talks a r result.2) (¬SessionAbort ·) (bgpPeerOpenSession r b) := by
  have modified {s : Router} (untouched : Untouched a r s) (f : Peer → Peer) :
      Untouched a r (s.modifyPeer b f) := untouched.trans (modifyPeer_other differ)
  simp only [bgpPeerOpenSession]
  split
  · exact Talks.refl a r
  next peer _ =>
    split
    · exact Talks.refl a r
    · have reset := modified (.refl a r) fun peer => peer.resetSession peer.sessionState
      have opened := reset.trans (bgpPeerSend_other differ (.open r.rid))
      split
      · split
        next sent =>
          rw [show bgpPeerSend _ b (.open r.rid) = _ from sent] at opened
          exact .of_untouched (modified opened _)
        next sent =>
          rw [show bgpPeerSend _ b (.open r.rid) = _ from sent] at opened
          exact .of_untouched (modified opened _)
      · split
        · have up := modified reset fun peer => { peer with sessionState := .established, routerId := b }
          split
          · apply Ends.bind (rescan_talks differ _ false)
            intro s talks
            exact (Talks.of_untouched up).trans talks
          · exact .of_untouched up
        · exact .of_untouched (modified reset _)

theorem closed_untouched (differ : a ≠ b) (r : Router) (peer : Peer) :
    Untouched a r (closed r b peer) := by
  simp only [closed]
  split
  · exact (bgpPeerSend_other differ .close).trans (modifyPeer_other differ)
  · exact modifyPeer_other differ

theorem closeSession_talks (differ : a ≠ b) (r : Router) :
    Ends (fun result => Talks a r result.2) (¬SessionAbort ·) (bgpPeerCloseSession r b) := by
  simp only [bgpPeerCloseSession]
  split
  · exact Talks.refl a r
  next peer _ =>
    split
    · exact Talks.refl a r
    · apply Ends.bind (rescan_talks differ _ _)
      intro s talks
      exact (Talks.of_untouched (closed_untouched differ r peer)).trans talks

theorem sessionRefresh_talks (differ : a ≠ b) (r : Router) :
    Ends (Talks a r) (¬SessionAbort ·) (bgpPeerSessionRefresh r b) := by
  simp only [bgpPeerSessionRefresh]
  split
  · exact Talks.refl a r
  · split
    · split
      · apply Ends.bind (closeSession_talks differ r)
        intro result talks
        split
        · exact talks.trans (.of_untouched (modifyPeer_other differ))
        · simp [Ends, SessionAbort]
      · exact Talks.refl a r
    · split
      · split
        · apply Ends.bind (openSession_talks differ r)
          intro result talks
          split
          · exact talks
          · simp [Ends, SessionAbort]
        · exact Talks.refl a r
      · exact Talks.refl a r

/-! ## The Loc-RIB for one peer -/

theorem disseminateToPeer_talks (a b : NetAddr) (r : Router) (p : Pfx) (route : Option Route) :
    Ends (Talks a r) (¬SessionAbort ·) (disseminateToPeer r p route b) := by
  apply Ends.intro
  · intro r' told
    by_cases same : a = b
    · subst same
      cases held : r.peers.lookup a with
      | none =>
        simp only [disseminateToPeer, held] at told
        cases told
        exact Talks.refl a r
      | some peer =>
        obtain ⟨bodies, _, tells⟩ := disseminateToPeer_told held told
        exact ⟨bodies, tells⟩
    · exact .of_untouched (disseminateToPeer_other same told)
  · intro e failed
    exact routing_not_session ((disseminateToPeer_ends r p route b).error failed)

theorem disseminateLocRib_talks (a b : NetAddr) (r : Router) :
    Ends (Talks a r) (¬SessionAbort ·) (disseminateLocRib r b) := by
  apply Talks.loop
  intro s key
  split
  · exact Talks.refl a s
  · exact disseminateToPeer_talks a b s _ _

/-! ## Received routes -/

theorem adjRibIn_still (a b : NetAddr) (r : Router) (f : Peer → Rib) :
    Still a r (r.modifyPeer b fun peer => { peer with adjRibIn := f peer }) :=
  Still.modify fun _ => ⟨_, rfl⟩

/-- Taking the route of an UPDATE talks. -/
theorem processUpdate_talks (a b : NetAddr) (r : Router) (peer : Peer) (route : Route) :
    Ends (Talks a r) (¬SessionAbort ·) (bgpPeerProcessUpdate r b peer route) := by
  have decided {s : Router} (still : Still a r s) (p : Pfx) :
      Ends (Talks a r) (¬SessionAbort ·) (bgpRouterDecisionProcess s p) :=
    (decisionProcess_ends_talking a s p).mono (fun _ talks => (Talks.of_still still).trans talks)
      fun _ => id
  have checks := (bgpPeerRouteEligible_ends r peer (receivedRoute r b peer route)).mono
    (fun _ => id) fun _ => routing_not_session
  simp only [bgpPeerProcessUpdate]
  apply Ends.bind checks
  intro verdict _
  cases verdict with
  | some attr => exact decided (adjRibIn_still a b r _) _
  | none =>
    have gone : Still a r (if (peer.adjRibIn.findExact (receivedRoute r b peer route).pfx).isSome then
        r.modifyPeer b fun peer =>
          { peer with adjRibIn := peer.adjRibIn.removeRoute (receivedRoute r b peer route).pfx }
        else r) := by
      split
      · exact adjRibIn_still a b r _
      · exact Still.refl a r
    simp only
    -- the decision process runs only if the old route was marked
    split
    · exact decided gone _
    · exact Talks.of_still gone

/-- Taking a WITHDRAW talks. -/
theorem processWithdraw_talks (a b : NetAddr) (r : Router) (peer : Peer) (p : Pfx) :
    Ends (Talks a r) (¬SessionAbort ·) (bgpPeerProcessWithdraw r b peer p) := by
  simp only [bgpPeerProcessWithdraw]
  split
  · exact Talks.refl a r
  · have retired := setAdjFlags_still a r b p fun f => { f with eligible := false }
    apply Ends.bind (decisionProcess_ends_talking a _ p)
    intro s talks
    exact ((Talks.of_still retired).trans talks).trans (.of_still (adjRibIn_still a b s _))

theorem dataRcvd_talks {r' : Router} {peer peer' : Peer} {failure : Abort} (differ : a ≠ b)
    (h : sessionDataRcvd r b peer failure = .ok (peer', r')) : Talks a r r' := by
  simp only [sessionDataRcvd] at h
  split at h
  · cases h
    exact .of_untouched (modifyPeer_other differ)
  · cases h
    exact Talks.refl a r
  · cases h

theorem closeRcvd_talks {r' : Router} {clear : Bool} {f : Peer → Peer} (differ : a ≠ b)
    (h : bgpPeerRescanAdjribin (r.modifyPeer b f) b clear = .ok r') : Talks a r r' :=
  (Talks.of_untouched (modifyPeer_other differ)).trans ((rescan_talks differ _ clear).value h)

theorem rerun_talks (r : Router) (p : Pfx) :
    Ends (Talks a r) (¬SessionAbort ·) (bgpRouterRerun r p) := by
  apply Talks.loop
  intro s key
  exact decisionProcess_ends_talking a s key

/-- A message from another peer talks. -/
theorem message_talks {r' : Router} {peer : Peer} {msg : Msg} {code : NetError} (differ : a ≠ b)
    (h : bgpPeerHandleMessage r b peer msg = .ok (code, r')) : Talks a r r' := by
  have counted : Talks a r (counted r b) := .of_untouched (modifyPeer_other differ)
  simp only [bgpPeerHandleMessage] at h
  split at h
  · cases h
    exact Talks.refl a r
  · simp only [except_map_eq_ok, Prod.mk.injEq] at h
    obtain ⟨_, h, _, rfl⟩ := h
    apply counted.trans
    -- The session of b is all that the checks write; what follows speaks through disseminations.
    cases body : msg.body with
    | update route =>
      simp only [body, bgpPeerSessionUpdateRcvd, except_bind_eq_ok] at h
      obtain ⟨⟨peer', s⟩, state, h⟩ := h
      exact (dataRcvd_talks differ state).trans ((processUpdate_talks a b s peer' route).value h)
    | withdraw p =>
      simp only [body, bgpPeerSessionWithdrawRcvd, except_bind_eq_ok] at h
      obtain ⟨⟨peer', s⟩, state, h⟩ := h
      exact (dataRcvd_talks differ state).trans ((processWithdraw_talks a b s peer' p).value h)
    | close =>
      simp only [body, bgpPeerSessionCloseRcvd] at h
      split at h
      · cases h
      · split at h
        · exact closeRcvd_talks differ h
        · exact closeRcvd_talks differ h
        · cases h
          exact Talks.refl a _
        · cases h
          exact Talks.refl a _
    | «open» routerId =>
      simp only [body, bgpPeerSessionOpenRcvd] at h
      split at h
      · cases h
      · split at h
        · apply Talks.trans _ ((disseminateLocRib_talks a b _).value h)
          exact .of_untouched ((modifyPeer_other differ).trans (bgpPeerSend_other differ _))
        · apply Talks.trans _ ((disseminateLocRib_talks a b _).value h)
          exact .of_untouched (modifyPeer_other differ)
        · cases h

/-! ## Steps -/

/-- The step is about the session with the peer. -/
def concerns (a : NetAddr) : Op → Bool
  | .handleMessage src _ => src = a
  | .openSession b | .closeSession b | .sessionRefresh b => b = a
  | _ => false

/-- Every step that is not about the session with the peer talks; a clear of the RIBs forgets, and
the network is outside. -/
theorem exec_talks {r' : Router} {op : Op} (elsewhere : concerns a op = false)
    (kept : op ≠ .clearRib) (inside : ∀ rt env, op ≠ .netChange rt env) (h : exec r op = .ok r') :
    Talks a r r' := by
  -- Writing the Loc-RIB or the routing table says nothing to anybody.
  have quiet {s : Router} (peers : s.peers = r.peers) (env : s.env = r.env)
      (outbox : s.outbox = r.outbox) : Talks a r s :=
    .of_still ((Still.refl a r).tables peers env outbox)
  cases op with
  | handleMessage src msg =>
    have differ : a ≠ src := fun same => by simp [concerns, same] at elsewhere
    simp only [exec, execCode, bgpRouterHandleMessage, except_map_eq_ok] at h
    obtain ⟨⟨code, _⟩, h, rfl⟩ := h
    split at h
    · exact message_talks differ h
    · cases h
      exact Talks.refl a r
  | openSession b =>
    have differ : a ≠ b := fun same => by simp [concerns, same] at elsewhere
    exact Ends.value (Ends.map (openSession_talks differ r)) h
  | closeSession b =>
    have differ : a ≠ b := fun same => by simp [concerns, same] at elsewhere
    exact Ends.value (Ends.map (closeSession_talks differ r)) h
  | sessionRefresh b =>
    have differ : a ≠ b := fun same => by simp [concerns, same] at elsewhere
    exact Ends.value (Ends.map (Ends.map (sessionRefresh_talks differ r))) h
  | addNetwork p =>
    rw [exec_addNetwork] at h
    split at h
    · cases h
      exact Talks.refl a r
    · apply Talks.trans _ (disseminate_talks h)
      exact quiet rfl rfl rfl
  | delNetwork p =>
    rw [exec_delNetwork] at h
    split at h
    · apply Talks.trans _ (disseminate_talks h)
      exact quiet rfl rfl rfl
    · cases h
      exact Talks.refl a r
  | rerun p => exact Ends.value (Ends.map (Ends.map (rerun_talks r p))) h
  | clearRib => exact absurd rfl kept
  | netChange rt env => exact absurd rfl (inside rt env)

end Rescans

end Cbgp.Verified
