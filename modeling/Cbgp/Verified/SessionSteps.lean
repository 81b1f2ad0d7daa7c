import Cbgp.Verified.SessionFsm

/-! # Sessions that stay up

What a step of a router is for a peer to which its session is open, unless it closes the session: the peer is told
UPDATEs and WITHDRAWs (`exec_spoken`).  The state machine sends no CLOSE then, and a session that is down waits for the
OPEN of the peer.
-/

namespace Cbgp.Verified

open Cbgp.Lib Cbgp.Net Cbgp.Bgp

/-! ## Steps of a router -/

/-- The step takes the session with the peer down, or empties the RIBs without a word to the peer. -/
def interrupts (a : NetAddr) (r : Router) : Op → Bool
  | .closeSession c => c = a
  | .sessionRefresh c => c = a && !r.env.sessionOk a
  | .clearRib => true
  | _ => false

/-- The step hands the router a CLOSE of the peer. -/
def handsClose (a : NetAddr) : Op → Bool
  | .handleMessage src msg => src = a && msg.body = .close
  | _ => false

/-- The messages of the peer that the step counts. -/
def counts (a : NetAddr) (peer : Peer) : Op → ℕ
  | .handleMessage src msg => if src = a ∧ bgpPeerSeqnumCheck peer msg = true then 1 else 0
  | _ => 0

/-- What a step of a router is for a peer to which the session is open: the peer is told `bodies`. -/
structure Spoken (a : NetAddr) (r r' : Router) (peer peer' : Peer) (bodies : List MsgBody) : Prop where
  lookup : r'.peers.lookup a = some peer'
  state : peer'.sessionState = .established ∨
    peer'.sessionState = .openWait ∧ peer.sessionState = .openWait ∧ bodies = []
  sends : peer'.sendSeqNum = peer.sendSeqNum + bodies.length
  sent : toward a r'.outbox = toward a r.outbox ++
    if delivers r.env a peer then numbered peer.srcAddr a peer.sendSeqNum bodies else []
  keys : ∀ q, outKeys peer' q = replay (outKeys peer) bodies q
  legit : Legit (outKeys peer) bodies

/-- A message of the peer is counted, and the session with it is up; the peer was told nothing yet. -/
structure Raised (a : NetAddr) (r s : Router) (peer risen : Peer) : Prop where
  held : s.peers.lookup a = some risen
  up : risen.sessionState = .established
  frame : risen = { peer with
    sessionState := risen.sessionState, routerId := risen.routerId, recvSeqNum := peer.recvSeqNum + 1 }
  env : s.env = r.env
  outbox : s.outbox = r.outbox

section Router

variable {a : NetAddr} {r s r' : Router} {peer peer' : Peer}

/-- An established session stays established. -/
theorem Spoken.up {bodies : List MsgBody} (spoken : Spoken a r r' peer peer' bodies)
    (up : peer.sessionState = .established) : peer'.sessionState = .established := by
  obtain established | ⟨_, waits, _⟩ := spoken.state
  · exact established
  · rw [up] at waits
    cases waits

theorem Tells.spoken {bodies : List MsgBody} (tells : Tells a r r' bodies) (held : r.peers.lookup a = some peer)
    (opened : peer.sessionState = .openWait ∨ peer.sessionState = .established) :
    ∃ peer', Spoken a r r' peer peer' bodies ∧ peer'.recvSeqNum = peer.recvSeqNum := by
  obtain ⟨peer', held', told⟩ := tells.told held
  have frame := told.frame
  refine ⟨peer', ⟨held', ?_, ?_, told.sent, told.keys, told.legit⟩, ?_⟩
  · rw [frame]
    obtain waits | up := opened
    · exact .inr ⟨waits, waits, told.silent (by rw [waits]; simp)⟩
    · exact .inl up
  · rw [frame]
  · rw [frame]

/-- A step that leaves the peer and the messages alone. -/
theorem Spoken.still (held : r.peers.lookup a = some peer)
    (opened : peer.sessionState = .openWait ∨ peer.sessionState = .established) (same : r'.peers = r.peers)
    (outbox : r'.outbox = r.outbox) : Spoken a r r' peer peer [] := by
  refine ⟨same ▸ held, ?_, rfl, ?_, fun q => rfl, trivial⟩
  · exact opened.symm.imp_right fun waits => ⟨waits, waits, rfl⟩
  · rw [outbox]
    split <;> exact (List.append_nil _).symm

/-- What is said after the session is up. -/
theorem Raised.spoken {risen : Peer} (raised : Raised a r s peer risen) (talks : Talks a s r') :
    ∃ peer' bodies, Spoken a r r' peer peer' bodies ∧ peer'.recvSeqNum = peer.recvSeqNum + 1 := by
  obtain ⟨bodies, tells⟩ := talks
  obtain ⟨peer', spoken, recv⟩ := tells.spoken raised.held (.inr raised.up)
  have frame := raised.frame
  have keys : outKeys risen = outKeys peer := by rw [frame]; rfl
  refine ⟨peer', bodies, ⟨spoken.lookup, .inl (spoken.up raised.up), ?_, ?_, fun q => ?_, ?_⟩, ?_⟩
  · rw [spoken.sends, frame]
  · rw [spoken.sent, raised.outbox, raised.env, frame]
    rfl
  · rw [spoken.keys, keys]
  · exact keys ▸ spoken.legit
  · rw [recv, frame]

/-- A message with routes raises a session that is open. -/
theorem dataRcvd_raised {risen : Peer} {failure : Abort} (held : r.peers.lookup a = some peer)
    (h : sessionDataRcvd (counted r a) a (countedPeer peer) failure = .ok (risen, s)) :
    Raised a r s peer risen := by
  have received : (counted r a).peers.lookup a = some (countedPeer peer) := by
    rw [counted, modifyPeer_lookup, if_pos rfl, held]
    rfl
  unfold sessionDataRcvd at h
  split at h
  · cases h
    refine ⟨?_, rfl, rfl, rfl, rfl⟩
    rw [modifyPeer_lookup, if_pos rfl, received]
    rfl
  next up =>
    cases h
    exact ⟨received, up, rfl, rfl, rfl⟩
  · cases h

/-- A message of the peer other than a CLOSE, in a session that is open. -/
theorem handleMessage_spoken {msg : Msg} (held : r.peers.lookup a = some peer)
    (opened : peer.sessionState = .openWait ∨ peer.sessionState = .established) (stays : msg.body ≠ .close)
    (h : exec r (.handleMessage a msg) = .ok r') :
    ∃ peer' bodies, Spoken a r r' peer peer' bodies ∧
      peer'.recvSeqNum = peer.recvSeqNum + if bgpPeerSeqnumCheck peer msg then 1 else 0 := by
  simp only [exec, execCode, bgpRouterHandleMessage, held, except_map_eq_ok] at h
  obtain ⟨⟨code, _⟩, h, rfl⟩ := h
  simp only [bgpPeerHandleMessage] at h
  cases inOrder : bgpPeerSeqnumCheck peer msg with
  | false =>
    simp only [inOrder, Bool.not_false, if_true, Except.ok.injEq, Prod.mk.injEq] at h
    exact ⟨peer, [], .still held opened (by rw [h.2]) (by rw [h.2]), rfl⟩
  | true =>
    simp only [inOrder, Bool.not_true, Bool.false_eq_true, if_false, except_map_eq_ok, Prod.mk.injEq] at h
    obtain ⟨t, h, _, rfl⟩ := h
    rw [if_pos rfl]
    cases body : msg.body with
    | update route =>
      simp only [body, bgpPeerSessionUpdateRcvd, except_bind_eq_ok] at h
      obtain ⟨⟨risen, s⟩, state, h⟩ := h
      exact (dataRcvd_raised held state).spoken ((processUpdate_talks a a _ _ route).value h)
    | withdraw p =>
      simp only [body, bgpPeerSessionWithdrawRcvd, except_bind_eq_ok] at h
      obtain ⟨⟨risen, s⟩, state, h⟩ := h
      exact (dataRcvd_raised held state).spoken ((processWithdraw_talks a a _ _ p).value h)
    | close => exact absurd body stays
    | «open» routerId =>
      simp only [body, bgpPeerSessionOpenRcvd] at h
      split at h
      · cases h
      · obtain waits | up := opened
        · -- the OPEN was waited for
          have raised : Raised a r ((counted r a).modifyPeer a fun peer =>
              { peer with sessionState := .established, routerId := routerId }) peer
              { countedPeer peer with sessionState := .established, routerId := routerId } := by
            refine ⟨?_, rfl, rfl, rfl, rfl⟩
            rw [modifyPeer_lookup, if_pos rfl, counted, modifyPeer_lookup, if_pos rfl, held]
            rfl
          simp only [waits] at h
          exact raised.spoken ((disseminateLocRib_talks a a _).value h)
        · simp only [up] at h
          cases h

/-- Whatever the router does while the session stays open, it speaks to the peer. -/
theorem exec_spoken {op : Op} (held : r.peers.lookup a = some peer)
    (opened : peer.sessionState = .openWait ∨ peer.sessionState = .established)
    (stays : interrupts a r op = false) (others : handsClose a op = false) (h : exec r op = .ok r') :
    ∃ peer' bodies, Spoken a r r' peer peer' bodies ∧ peer'.recvSeqNum = peer.recvSeqNum + counts a peer op := by
  have still (same : r' = r) : ∃ peer' bodies, Spoken a r r' peer peer' bodies ∧
      peer'.recvSeqNum = peer.recvSeqNum + 0 :=
    ⟨peer, [], .still held opened (by rw [same]) (by rw [same]), rfl⟩
  have elsewhere (other : concerns a op = false) (kept : op ≠ .clearRib)
      (inside : ∀ rt env, op ≠ .netChange rt env) : ∃ peer' bodies, Spoken a r r' peer peer' bodies ∧
      peer'.recvSeqNum = peer.recvSeqNum + 0 := by
    obtain ⟨bodies, tells⟩ := exec_talks other kept inside h
    obtain ⟨peer', spoken, recv⟩ := tells.spoken held opened
    exact ⟨peer', bodies, spoken, recv⟩
  cases op with
  | handleMessage src msg =>
    by_cases same : src = a
    · subst same
      have noClose : msg.body ≠ .close := by simpa [handsClose] using others
      simpa [counts] using handleMessage_spoken held opened noClose h
    · simpa [counts, same] using elsewhere (by simp [concerns, same]) (by simp) (by simp)
  | openSession c =>
    by_cases same : c = a
    · subst same
      -- an open session is not opened again
      have refused : bgpPeerOpenSession r c = .ok (.bgpPeerInvalidState, r) := by
        obtain waits | up := opened
        · simp [bgpPeerOpenSession, held, waits]
        · simp [bgpPeerOpenSession, held, up]
      apply still
      simpa [exec, execCode, refused, Except.map] using h.symm
    · exact elsewhere (by simp [concerns, same]) (by simp) (by simp)
  | closeSession c =>
    have other : c ≠ a := by simpa [interrupts] using stays
    exact elsewhere (by simp [concerns, other]) (by simp) (by simp)
  | sessionRefresh c =>
    by_cases same : c = a
    · subst same
      have reachable : r.env.sessionOk c = true := by simpa [interrupts] using stays
      have refreshed : bgpPeerSessionRefresh r c = .ok r := by
        simp [bgpPeerSessionRefresh, held, opened.symm, reachable]
      apply still
      simpa [exec, execCode, refreshed, Except.map] using h.symm
    · exact elsewhere (by simp [concerns, same]) (by simp) (by simp)
  | addNetwork p | delNetwork p | rerun p => exact elsewhere rfl (by simp) (by simp)
  | clearRib => cases stays
  | netChange rt env =>
    have changed : r' = { r with rt := rt, env := env } := by
      simpa [exec, execCode, Except.map] using h.symm
    exact ⟨peer, [], .still held opened (by rw [changed]) (by rw [changed]), rfl⟩

end Router

/-! ## Steps of an end -/

section Endpoints

variable {rid : NetAddr} {line ok : Bool} {e e' : Endpoint} {input : Input} {sent : List Msg}

theorem letters_body {k : ℕ} {bodies : List MsgBody} {msg : Msg} (member : msg ∈ letters k bodies) :
    msg.body ∈ bodies := by
  induction bodies generalizing k with
  | nil => cases member
  | cons body bodies inductionHypothesis =>
    rw [letters, List.mem_cons] at member
    obtain rfl | later := member
    · exact List.mem_cons_self
    · exact List.mem_cons_of_mem _ (inductionHypothesis later)

/-- Only the end of a session is told with a CLOSE. -/
theorem Endpoint.Step.no_close (step : Endpoint.Step rid line ok e input e' sent) (stays : input ≠ .close)
    (reachable : input = .refresh → ok = true) : ∀ msg ∈ sent, msg.body ≠ .close := by
  cases step with
  | mk controlled routes silent =>
    next f said data =>
    have controls : ∀ msg ∈ said, msg.body ≠ .close := by
      cases control_reacts controlled with
      | stays | unsent | hears | ignores | closed | meets => exact List.forall_mem_nil _
      | opens => simp
      -- A CLOSE is said by a close, and by a refresh that finds the peer unreachable.
      | closes asked => exact absurd asked stays
      | loses asked unreachable => exact absurd ((reachable asked).symm.trans unreachable) (by simp)
      | answers =>
        split
        · simp
        · exact List.forall_mem_nil _
    intro msg member
    obtain old | new := List.mem_append.mp member
    · exact controls msg old
    · split at new
      · intro same
        have data := routes _ (letters_body new)
        rw [same] at data
        cases data
      · cases new

/-- Without a message of the peer, a session that is down stays down, and counts nothing. -/
theorem Endpoint.Step.stays_down (step : Endpoint.Step rid line ok e input e' sent) (down : e.state ≠ .established)
    (uncounted : e.recvSeqNum = 0) (unheard : ∀ msg, input ≠ .recv msg) :
    e'.state ≠ .established ∧ e'.recvSeqNum = 0 := by
  cases step with
  | mk controlled routes silent =>
    next f said data =>
    -- The routes sent afterwards change neither the state nor the number expected.
    suffices control : f.state ≠ .established ∧ f.recvSeqNum = 0 from control
    cases control_reacts controlled with
    | stays => exact ⟨down, uncounted⟩
    | opens => exact ⟨by simp, rfl⟩
    | unsent | closes | loses => exact ⟨by simp [Endpoint.reset], rfl⟩
    | hears heard | ignores heard | closed heard | answers heard | meets heard => exact absurd heard (unheard _)

/-- The first OPEN of the peer establishes the session. -/
theorem Endpoint.Step.hears_open {routerId : NetAddr}
    (step : Endpoint.Step rid line ok e (.recv ⟨0, .open routerId⟩) e' sent) (uncounted : e.recvSeqNum = 0) :
    e'.state = .established ∧ e'.recvSeqNum = 1 := by
  have inOrder : e.inOrder ⟨0, .open routerId⟩ = true := by simp [Endpoint.inOrder, uncounted]
  cases step with
  | mk controlled routes silent =>
    simp only [control, inOrder, if_true, Endpoint.receive] at controlled
    split at controlled
    · cases controlled
      exact ⟨rfl, congrArg (· + 1) uncounted⟩
    · cases controlled
      exact ⟨rfl, congrArg (· + 1) uncounted⟩
    · cases controlled

/-- An idle end stays idle, or opens its session. -/
theorem Endpoint.Step.idle (step : Endpoint.Step rid true ok (.reset .idle) input e' sent)
    (stays : ∀ msg, input = .recv msg → msg.body ≠ .close) :
    e' = .reset .idle ∧ sent = [] ∨ e' = ⟨.openWait, netAddrAny, 1, 0⟩ ∧ sent = [⟨0, .open rid⟩] := by
  have isIdle : (Endpoint.reset .idle).state = .idle := rfl
  cases step with
  | mk controlled routes silent =>
    next f said data =>
    have control : f = .reset .idle ∧ said = [] ∨ f = ⟨.openWait, netAddrAny, 1, 0⟩ ∧ said = [⟨0, .open rid⟩] := by
      cases control_reacts controlled with
      | stays => exact .inl ⟨rfl, rfl⟩
      | opens => exact .inr ⟨rfl, rfl⟩
      | unsent asked down cut => cases cut
      | closes asked started => exact absurd isIdle started
      | ignores heard isClose | closed heard isClose => exact absurd isClose (stays _ heard)
      | loses asked unreachable live => simp [isIdle] at live
      | hears heard inOrder data live => simp [isIdle] at live
      | answers heard opening isActive => simp [isIdle] at isActive
      | meets heard opening waits => simp [isIdle] at waits
    obtain ⟨rfl, rfl⟩ | ⟨rfl, rfl⟩ := control
    · rw [silent (by simp [Endpoint.reset])]
      exact .inl ⟨rfl, rfl⟩
    · rw [silent (by simp)]
      exact .inr ⟨rfl, rfl⟩

end Endpoints

end Cbgp.Verified
