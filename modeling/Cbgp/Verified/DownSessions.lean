import Cbgp.Verified.SessionFsm

/-! # Sessions that are down

Whatever a router does, the Adj-RIB-Out of a real peer is empty unless its session is established
(`exec_downEmpty`): before the OPEN nothing is announced, and every way out of an established session clears
the Adj-RIB-Out.
-/

namespace Cbgp.Verified

open Cbgp.Lib Cbgp.Net Cbgp.Bgp

/-- The Adj-RIB-Out of the real peer is empty. -/
def Emptied (a : NetAddr) (r : Router) : Prop :=
  ∃ peer, r.peers.lookup a = some peer ∧ peer.virtual = false ∧ ∀ q, outKeys peer q = false

/-- The Adj-RIB-Out of the real peer is empty unless its session is established. -/
def DownEmpty (a : NetAddr) (r : Router) : Prop :=
  ∃ peer, r.peers.lookup a = some peer ∧ peer.virtual = false ∧
    (peer.sessionState ≠ .established → ∀ q, outKeys peer q = false)

section Down

variable {a : NetAddr} {r s r' : Router} {peer : Peer} {f : Peer → Peer}

theorem Emptied.downEmpty (emptied : Emptied a r) : DownEmpty a r := by
  obtain ⟨peer, held, real, keys⟩ := emptied
  exact ⟨peer, held, real, fun _ => keys⟩

theorem Emptied.modify (emptied : Emptied a r) (virtual : ∀ peer, (f peer).virtual = peer.virtual)
    (out : ∀ peer, (f peer).adjRibOut = peer.adjRibOut) : Emptied a (r.modifyPeer a f) := by
  obtain ⟨peer, held, real, keys⟩ := emptied
  refine ⟨f peer, ?_, (virtual peer).trans real, fun q => ?_⟩
  · rw [modifyPeer_lookup, if_pos rfl, held]
    rfl
  · rw [outKeys, out]
    exact keys q

theorem Emptied.send (emptied : Emptied a r) (body : MsgBody) : Emptied a (bgpPeerSend r a body).2 := by
  obtain ⟨peer, held, real, keys⟩ := emptied
  exact ⟨_, bgpPeerSend_lookup held body, real, keys⟩

theorem DownEmpty.modify (before : DownEmpty a r) (virtual : ∀ peer, (f peer).virtual = peer.virtual)
    (kept : ∀ peer, (f peer).sessionState ≠ .established →
      peer.sessionState ≠ .established ∧ (f peer).adjRibOut = peer.adjRibOut) :
    DownEmpty a (r.modifyPeer a f) := by
  obtain ⟨peer, held, real, keys⟩ := before
  refine ⟨f peer, ?_, (virtual peer).trans real, fun down q => ?_⟩
  · rw [modifyPeer_lookup, if_pos rfl, held]
    rfl
  · obtain ⟨down', out⟩ := kept peer down
    rw [outKeys, out]
    exact keys down' q

theorem DownEmpty.send (before : DownEmpty a r) (body : MsgBody) : DownEmpty a (bgpPeerSend r a body).2 := by
  obtain ⟨peer, held, real, keys⟩ := before
  exact ⟨_, bgpPeerSend_lookup held body, real, keys⟩

/-- Only an established peer is told anything. -/
theorem DownEmpty.of_talks (before : DownEmpty a r) (talks : Talks a r s) : DownEmpty a s := by
  obtain ⟨peer, held, real, keys⟩ := before
  obtain ⟨bodies, tells⟩ := talks
  obtain ⟨peer', held', told⟩ := tells.told held
  have frame := told.frame
  refine ⟨peer', held', ?_, fun down q => ?_⟩
  · rw [frame]
    exact real
  · have still : peer.sessionState ≠ .established := by
      rw [frame] at down
      exact down
    rw [told.keys, told.silent still]
    exact keys still q

/-! ## Sessions that end -/

/-- The rescan after the end of a session clears the Adj-RIB-Out. -/
theorem rescan_empties (held : r.peers.lookup a = some peer) (real : peer.virtual = false)
    (down : peer.sessionState ≠ .established) (h : bgpPeerRescanAdjribin r a true = .ok r') : Emptied a r' := by
  simp only [bgpPeerRescanAdjribin, held, if_neg down, if_true, except_bind_eq_ok] at h
  obtain ⟨s, looped, cleared⟩ := h
  obtain ⟨bodies, tells⟩ : Talks a r s := (Talks.loop (disableAdjribin_talks a a)).value looped
  obtain ⟨peer', held', told⟩ := tells.told held
  cases cleared
  refine ⟨{ peer' with adjRibOut := Rib.create }, ?_, ?_, fun q => rfl⟩
  · rw [modifyPeer_lookup, if_pos rfl, held']
    rfl
  · show peer'.virtual = false
    rw [told.frame]
    exact real

theorem closed_unestablished (held : r.peers.lookup a = some peer) (real : peer.virtual = false) :
    ∃ peer', (closed r a peer).peers.lookup a = some peer' ∧ peer'.virtual = false ∧
      peer'.sessionState ≠ .established := by
  have idle (peer : Peer) : (peer.resetSession .idle).sessionState ≠ .established := by simp [Peer.resetSession]
  unfold closed
  rw [modifyPeer_lookup, if_pos rfl]
  split
  · rw [bgpPeerSend_lookup held]
    exact ⟨_, rfl, real, idle _⟩
  · rw [held]
    exact ⟨_, rfl, real, idle _⟩

theorem closeSession_empties {code : NetError} (held : r.peers.lookup a = some peer)
    (real : peer.virtual = false) (h : bgpPeerCloseSession r a = .ok (code, r')) :
    (code ≠ .success ∧ r' = r) ∨ Emptied a r' := by
  simp only [bgpPeerCloseSession, held] at h
  split at h
  · cases h
    exact .inl ⟨by simp, rfl⟩
  · simp only [except_bind_eq_ok, Except.ok.injEq, Prod.mk.injEq] at h
    obtain ⟨s, rescanned, _, rfl⟩ := h
    obtain ⟨peer', held', real', down⟩ := closed_unestablished held real
    -- only a virtual peer with a soft restart keeps its Adj-RIB-Out
    have clear : (!(peer.virtual && peer.softRestart)) = true := by
      rw [real]
      rfl
    rw [clear] at rescanned
    exact .inr (rescan_empties held' real' down rescanned)

/-! ## Sessions that start -/

/-- An OPEN says nothing of routes. -/
theorem openSession_downEmpty {code : NetError} (before : DownEmpty a r)
    (h : bgpPeerOpenSession r a = .ok (code, r')) : DownEmpty a r' := by
  obtain ⟨peer, held, real, keys⟩ := id before
  simp only [bgpPeerOpenSession, held, real, Bool.not_false, if_true] at h
  split at h
  · cases h
    exact before
  next state =>
    -- the session is idle or active, and the OPEN leaves the Adj-RIB-Out as it is
    have down : peer.sessionState ≠ .established := fun up => state (by simp [up])
    have reset : Emptied a (r.modifyPeer a fun peer => peer.resetSession peer.sessionState) :=
      Emptied.modify ⟨peer, held, real, keys down⟩ (fun _ => rfl) fun _ => rfl
    have opened := reset.send (.open r.rid)
    split at h
    next sent =>
      rw [show bgpPeerSend _ a (.open r.rid) = _ from sent] at opened
      cases h
      exact Emptied.downEmpty (opened.modify (fun _ => rfl) fun _ => rfl)
    next sent =>
      rw [show bgpPeerSend _ a (.open r.rid) = _ from sent] at opened
      cases h
      exact Emptied.downEmpty (opened.modify (fun _ => rfl) fun _ => rfl)

theorem sessionRefresh_downEmpty (before : DownEmpty a r) (h : bgpPeerSessionRefresh r a = .ok r') :
    DownEmpty a r' := by
  obtain ⟨peer, held, real, keys⟩ := id before
  simp only [bgpPeerSessionRefresh, held] at h
  split at h
  · split at h
    · simp only [except_bind_eq_ok] at h
      obtain ⟨⟨code, s⟩, closes, h⟩ := h
      split at h
      next same =>
        cases same
        cases h
        obtain ⟨failed, _⟩ | emptied := closeSession_empties held real closes
        · exact absurd rfl failed
        · exact Emptied.downEmpty (emptied.modify (fun _ => rfl) fun _ => rfl)
      · cases h
    · cases h
      exact before
  · split at h
    · split at h
      · simp only [except_bind_eq_ok] at h
        obtain ⟨⟨code, s⟩, opens, h⟩ := h
        split at h
        next same =>
          cases same
          cases h
          exact openSession_downEmpty before opens
        · cases h
      · cases h
        exact before
    · cases h
      exact before

/-! ## Messages of the peer -/

theorem dataRcvd_downEmpty {peer' : Peer} {failure : Abort} (before : DownEmpty a r)
    (h : sessionDataRcvd r a peer failure = .ok (peer', s)) : DownEmpty a s := by
  simp only [sessionDataRcvd] at h
  split at h
  · cases h
    exact before.modify (fun _ => rfl) fun _ down => absurd rfl down
  · cases h
    exact before
  · cases h

/-- The peer closes the session. -/
theorem closeRcvd_empties (held : r.peers.lookup a = some peer) (real : peer.virtual = false)
    (h : bgpPeerRescanAdjribin (r.modifyPeer a fun peer => peer.resetSession .active) a (!peer.virtual) = .ok r') :
    Emptied a r' := by
  have held' : (r.modifyPeer a fun peer => peer.resetSession .active).peers.lookup a =
      some (peer.resetSession .active) := by
    rw [modifyPeer_lookup, if_pos rfl, held]
    rfl
  rw [real] at h
  exact rescan_empties held' real (by simp [Peer.resetSession]) h

theorem message_downEmpty {msg : Msg} {code : NetError} (before : DownEmpty a r)
    (held : r.peers.lookup a = some peer) (h : bgpPeerHandleMessage r a peer msg = .ok (code, r')) :
    DownEmpty a r' := by
  have counting : DownEmpty a (counted r a) := before.modify (fun _ => rfl) fun _ down => ⟨down, rfl⟩
  have received : (counted r a).peers.lookup a = some (countedPeer peer) := by
    rw [counted, modifyPeer_lookup, if_pos rfl, held]
    rfl
  simp only [bgpPeerHandleMessage] at h
  split at h
  · cases h
    exact before
  · simp only [except_map_eq_ok, Prod.mk.injEq] at h
    obtain ⟨_, h, _, rfl⟩ := h
    cases body : msg.body with
    | update route =>
      simp only [body, bgpPeerSessionUpdateRcvd, except_bind_eq_ok] at h
      obtain ⟨⟨peer', s⟩, state, h⟩ := h
      -- the session is up from here on: an UPDATE that comes in place of the OPEN establishes it
      exact (dataRcvd_downEmpty counting state).of_talks ((processUpdate_talks a a s peer' route).value h)
    | withdraw p =>
      simp only [body, bgpPeerSessionWithdrawRcvd, except_bind_eq_ok] at h
      obtain ⟨⟨peer', s⟩, state, h⟩ := h
      exact (dataRcvd_downEmpty counting state).of_talks ((processWithdraw_talks a a s peer' p).value h)
    | close =>
      simp only [body, bgpPeerSessionCloseRcvd] at h
      split at h
      · cases h
      next real =>
        have real : (countedPeer peer).virtual = false := Bool.eq_false_iff.mpr real
        split at h
        · exact (closeRcvd_empties received real h).downEmpty
        · exact (closeRcvd_empties received real h).downEmpty
        · cases h
          exact counting
        · cases h
          exact counting
    | «open» routerId =>
      simp only [body, bgpPeerSessionOpenRcvd] at h
      split at h
      · cases h
      · split at h
        · apply DownEmpty.of_talks _ ((disseminateLocRib_talks a a _).value h)
          have up : DownEmpty a ((counted r a).modifyPeer a fun peer => { peer with sessionState := .established }) :=
            counting.modify (fun _ => rfl) fun _ down => absurd rfl down
          exact up.send _
        · apply DownEmpty.of_talks _ ((disseminateLocRib_talks a a _).value h)
          exact counting.modify (fun _ => rfl) fun _ down => absurd rfl down
        · cases h

/-! ## Runs -/

theorem exec_downEmpty {op : Op} (before : DownEmpty a r) (h : exec r op = .ok r') : DownEmpty a r' := by
  obtain ⟨peer, held, real, keys⟩ := id before
  -- What does not concern the peer's session neither opens it nor announces anything on it.
  have elsewhere (other : concerns a op = false) (kept : op ≠ .clearRib)
      (inside : ∀ rt env, op ≠ .netChange rt env) : DownEmpty a r' :=
    before.of_talks (exec_talks other kept inside h)
  cases op with
  | handleMessage src msg =>
    by_cases own : src = a
    · subst own
      simp only [exec, execCode, bgpRouterHandleMessage, held, except_map_eq_ok] at h
      obtain ⟨⟨code, _⟩, h, rfl⟩ := h
      exact message_downEmpty before held h
    · exact elsewhere (by simp [concerns, own]) (by simp) (by simp)
  | openSession b =>
    by_cases own : b = a
    · subst own
      obtain ⟨⟨code, _⟩, opened, rfl⟩ := except_map_eq_ok.mp h
      exact openSession_downEmpty before opened
    · exact elsewhere (by simp [concerns, own]) (by simp) (by simp)
  | closeSession b =>
    by_cases own : b = a
    · subst own
      obtain ⟨⟨code, _⟩, closes, rfl⟩ := except_map_eq_ok.mp h
      obtain ⟨_, rfl⟩ | emptied := closeSession_empties held real closes
      · exact before
      · exact emptied.downEmpty
    · exact elsewhere (by simp [concerns, own]) (by simp) (by simp)
  | sessionRefresh b =>
    by_cases own : b = a
    · subst own
      simp only [exec, execCode, map_code] at h
      exact sessionRefresh_downEmpty before h
    · exact elsewhere (by simp [concerns, own]) (by simp) (by simp)
  | addNetwork p => exact elsewhere rfl (by simp) (by simp)
  | delNetwork p => exact elsewhere rfl (by simp) (by simp)
  | rerun p => exact elsewhere rfl (by simp) (by simp)
  | clearRib =>
    cases h
    refine ⟨{ peer with adjRibIn := Rib.create, adjRibOut := Rib.create }, ?_, real, fun _ _ => rfl⟩
    simp [bgpRouterClearRib, held]
  | netChange rt env =>
    cases h
    exact before

theorem run_downEmpty {ops : List Op} (before : DownEmpty a r) (ran : ops.foldlM exec r = .ok r') :
    DownEmpty a r' :=
  foldlM_invariant (fun _ sofar stepped => exec_downEmpty sofar stepped) before ran

end Down

end Cbgp.Verified
