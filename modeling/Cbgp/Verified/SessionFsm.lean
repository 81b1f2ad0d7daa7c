import Cbgp.Verified.Talks

/-! # The session state machine

What a router does to its session with one peer, with the routes left out: an `Endpoint` takes
inputs (`control`), may then tell the peer UPDATEs and WITHDRAWs when it is established
(`Endpoint.Step`), and every step of a router is such a step for each of its peers (`exec_step`).
The state machine aborts exactly where the router does (`exec_aborts_iff`).
-/

namespace Cbgp.Verified

open Cbgp.Lib Cbgp.Net Cbgp.Bgp

/-! ## Endpoints -/

/-- What the session state machine keeps of a peer. -/
structure Endpoint where
  state : SessionState
  routerId : NetAddr
  sendSeqNum : Nat
  recvSeqNum : Nat
  deriving DecidableEq

def endpoint (peer : Peer) : Endpoint :=
  ⟨peer.sessionState, peer.routerId, peer.sendSeqNum, peer.recvSeqNum⟩

/-- The state machine of a session that starts or ends. -/
def Endpoint.reset (state : SessionState) : Endpoint := ⟨state, netAddrAny, 0, 0⟩

/-- What happens to a session; `other` is everything that is not about it. -/
inductive Input where
  | open
  | close
  | refresh
  | recv (msg : Msg)
  | other

def inputOf (a : NetAddr) : Op → Input
  | .openSession b => if b = a then .open else .other
  | .closeSession b => if b = a then .close else .other
  | .sessionRefresh b => if b = a then .refresh else .other
  | .handleMessage src msg => if src = a then .recv msg else .other
  | _ => .other

theorem inputOf_open {a : NetAddr} {op : Op} (isOpen : inputOf a op = .open) : op = .openSession a := by
  cases op with
  | openSession b =>
    by_cases same : b = a
    · rw [same]
    · simp [inputOf, same] at isOpen
  | handleMessage b msg | closeSession b | sessionRefresh b =>
    simp only [inputOf] at isOpen
    split at isOpen <;> cases isOpen
  | addNetwork p | delNetwork p | rerun p | clearRib | netChange rt env => cases isOpen

theorem inputOf_refresh {a : NetAddr} {op : Op} (isRefresh : inputOf a op = .refresh) :
    op = .sessionRefresh a := by
  cases op with
  | sessionRefresh b =>
    by_cases same : b = a
    · rw [same]
    · simp [inputOf, same] at isRefresh
  | handleMessage b msg | openSession b | closeSession b =>
    simp only [inputOf] at isRefresh
    split at isRefresh <;> cases isRefresh
  | addNetwork p | delNetwork p | rerun p | clearRib | netChange rt env => cases isRefresh

theorem inputOf_recv {a : NetAddr} {op : Op} {msg : Msg} (isRecv : inputOf a op = .recv msg) :
    op = .handleMessage a msg := by
  cases op with
  | handleMessage b msg' =>
    by_cases same : b = a
    · simp only [inputOf, if_pos same, Input.recv.injEq] at isRecv
      rw [same, isRecv]
    · simp [inputOf, same] at isRecv
  | openSession b | closeSession b | sessionRefresh b =>
    simp only [inputOf] at isRecv
    split at isRecv <;> cases isRecv
  | addNetwork p | delNetwork p | rerun p | clearRib | netChange rt env => cases isRecv

/-- Messages numbered on from a counter. -/
def letters : Nat → List MsgBody → List Msg
  | _, [] => []
  | n, body :: bodies => ⟨n % seqMod, body⟩ :: letters (n + 1) bodies

/-- UPDATEs and WITHDRAWs. -/
def isData : MsgBody → Bool
  | .update _ | .withdraw _ => true
  | _ => false

/-- One message goes out if the line is up; its number is used either way. -/
def Endpoint.send (line : Bool) (e : Endpoint) (body : MsgBody) : Endpoint × List Msg :=
  ({ e with sendSeqNum := e.sendSeqNum + 1 },
    if line then [⟨e.sendSeqNum % seqMod, body⟩] else [])

/-- Opening a session. -/
def Endpoint.open (rid : NetAddr) (line : Bool) (e : Endpoint) : Endpoint × List Msg :=
  if e.state ≠ .idle ∧ e.state ≠ .active then (e, [])
  else if line then (⟨.openWait, netAddrAny, 1, 0⟩, [⟨0, .open rid⟩])
  else (.reset .active, [])

/-- The CLOSE that goes out when a session is closed. -/
def Endpoint.farewell (line : Bool) (e : Endpoint) : List Msg :=
  if (e.state = .openWait ∨ e.state = .established) ∧ line then
    [⟨e.sendSeqNum % seqMod, .close⟩]
  else []

/-- The check of the sequence number. -/
def Endpoint.inOrder (e : Endpoint) (msg : Msg) : Bool :=
  e.recvSeqNum % seqMod = msg.seqNum || msg.body = .close

/-- A message with the right number, already counted. -/
def Endpoint.receive (rid : NetAddr) (line : Bool) (e : Endpoint) :
    MsgBody → Except Abort (Endpoint × List Msg)
  | .update _ =>
    match e.state with
    | .openWait | .established => .ok ({ e with state := .established }, [])
    | _ => .error .updateInState
  | .withdraw _ =>
    match e.state with
    | .openWait | .established => .ok ({ e with state := .established }, [])
    | _ => .error .withdrawInState
  | .close =>
    match e.state with
    | .openWait | .established => .ok (.reset .active, [])
    | _ => .ok (e, [])
  | .open routerId =>
    match e.state with
    | .active => .ok (Endpoint.send line { e with state := .established } (.open rid))
    | .openWait => .ok ({ e with state := .established, routerId := routerId }, [])
    | _ => .error .openInState

/-- The state machine.  `line` says whether messages to the peer leave, `ok` whether the session can
be up. -/
def control (rid : NetAddr) (line ok : Bool) (e : Endpoint) :
    Input → Except Abort (Endpoint × List Msg)
  | .other => .ok (e, [])
  | .open => .ok (e.open rid line)
  | .close => .ok (if e.state = .idle then (e, []) else (.reset .idle, e.farewell line))
  | .refresh =>
    match e.state with
    | .established | .openWait =>
      .ok (if ok then (e, []) else (.reset .active, e.farewell line))
    | .active => .ok (if ok then e.open rid line else (e, []))
    | .idle => .ok (e, [])
  | .recv msg =>
    if e.inOrder msg then
      Endpoint.receive rid line { e with recvSeqNum := e.recvSeqNum + 1 } msg.body
    else .ok (e, [])

/-- What the state machine can do. -/
inductive Endpoint.Reacts (rid : NetAddr) (line ok : Bool) (e : Endpoint) (input : Input) :
    Endpoint → List Msg → Prop where
  | stays : Endpoint.Reacts rid line ok e input e []
  | opens (asked : input = .open ∨ input = .refresh) (down : e.state = .idle ∨ e.state = .active)
      (up : line = true) :
      Endpoint.Reacts rid line ok e input ⟨.openWait, netAddrAny, 1, 0⟩ [⟨0, .open rid⟩]
  | unsent (asked : input = .open ∨ input = .refresh) (down : e.state = .idle ∨ e.state = .active)
      (cut : line = false) : Endpoint.Reacts rid line ok e input (.reset .active) []
  | closes (asked : input = .close) (started : e.state ≠ .idle) :
      Endpoint.Reacts rid line ok e input (.reset .idle) (e.farewell line)
  | loses (asked : input = .refresh) (unreachable : ok = false)
      (live : e.state = .openWait ∨ e.state = .established) :
      Endpoint.Reacts rid line ok e input (.reset .active) (e.farewell line)
  | hears {msg : Msg} (heard : input = .recv msg) (inOrder : e.inOrder msg = true)
      (data : isData msg.body = true) (live : e.state = .openWait ∨ e.state = .established) :
      Endpoint.Reacts rid line ok e input
        { e with state := .established, recvSeqNum := e.recvSeqNum + 1 } []
  | ignores {msg : Msg} (heard : input = .recv msg) (isClose : msg.body = .close)
      (down : e.state = .idle ∨ e.state = .active) :
      Endpoint.Reacts rid line ok e input { e with recvSeqNum := e.recvSeqNum + 1 } []
  | closed {msg : Msg} (heard : input = .recv msg) (isClose : msg.body = .close)
      (live : e.state = .openWait ∨ e.state = .established) :
      Endpoint.Reacts rid line ok e input (.reset .active) []
  | answers {msg : Msg} {routerId : NetAddr} (heard : input = .recv msg)
      (opening : msg.body = .open routerId) (isActive : e.state = .active) :
      Endpoint.Reacts rid line ok e input
        { e with state := .established, sendSeqNum := e.sendSeqNum + 1, recvSeqNum := e.recvSeqNum + 1 }
        (if line then [⟨e.sendSeqNum % seqMod, .open rid⟩] else [])
  | meets {msg : Msg} {routerId : NetAddr} (heard : input = .recv msg)
      (opening : msg.body = .open routerId) (waits : e.state = .openWait) :
      Endpoint.Reacts rid line ok e input
        { e with state := .established, routerId := routerId, recvSeqNum := e.recvSeqNum + 1 } []

theorem open_reacts {rid : NetAddr} {line ok : Bool} {e : Endpoint} {input : Input}
    (asked : input = .open ∨ input = .refresh) :
    e.Reacts rid line ok input (e.open rid line).1 (e.open rid line).2 := by
  unfold Endpoint.open
  split
  · exact .stays
  next startable =>
    have down : e.state = .idle ∨ e.state = .active := by
      by_cases isIdle : e.state = .idle
      · exact .inl isIdle
      · exact .inr (by simpa [isIdle] using startable)
    split
    next up => exact .opens asked down up
    next cut => exact .unsent asked down (by simpa using cut)

theorem receive_reacts {rid : NetAddr} {line ok : Bool} {e e' : Endpoint} {msg : Msg} {sent : List Msg}
    (inOrder : e.inOrder msg = true)
    (h : Endpoint.receive rid line { e with recvSeqNum := e.recvSeqNum + 1 } msg.body = .ok (e', sent)) :
    e.Reacts rid line ok (.recv msg) e' sent := by
  cases body : msg.body with
  | update route | withdraw p =>
    cases state : e.state with
    | idle | active => simp [body, Endpoint.receive, state] at h
    | openWait | established =>
      simp only [body, Endpoint.receive, state, Except.ok.injEq, Prod.mk.injEq] at h
      obtain ⟨rfl, rfl⟩ := h
      exact .hears rfl inOrder (by rw [body]; rfl) (by simp [state])
  | close =>
    cases state : e.state with
    | idle | active =>
      simp only [body, Endpoint.receive, state, Except.ok.injEq, Prod.mk.injEq] at h
      obtain ⟨rfl, rfl⟩ := h
      exact state ▸ .ignores rfl body (by simp [state])
    | openWait | established =>
      simp only [body, Endpoint.receive, state, Except.ok.injEq, Prod.mk.injEq] at h
      obtain ⟨rfl, rfl⟩ := h
      exact .closed rfl body (by simp [state])
  | «open» routerId =>
    cases state : e.state with
    | idle | established => simp [body, Endpoint.receive, state] at h
    | active =>
      simp only [body, Endpoint.receive, state, Endpoint.send, Except.ok.injEq, Prod.mk.injEq] at h
      obtain ⟨rfl, rfl⟩ := h
      exact .answers rfl body state
    | openWait =>
      simp only [body, Endpoint.receive, state, Except.ok.injEq, Prod.mk.injEq] at h
      obtain ⟨rfl, rfl⟩ := h
      exact .meets rfl body state

theorem control_reacts {rid : NetAddr} {line ok : Bool} {e e' : Endpoint} {input : Input} {sent : List Msg}
    (h : control rid line ok e input = .ok (e', sent)) : e.Reacts rid line ok input e' sent := by
  cases input with
  | other =>
    cases h
    exact .stays
  | «open» =>
    have opened := @open_reacts rid line ok e .open (.inl rfl)
    rw [Except.ok.inj h] at opened
    exact opened
  | close =>
    simp only [control, Except.ok.injEq] at h
    split at h
    · cases h
      exact .stays
    next started =>
      cases h
      exact .closes rfl started
  | refresh =>
    simp only [control] at h
    cases state : e.state with
    | idle =>
      simp only [state, Except.ok.injEq, Prod.mk.injEq] at h
      obtain ⟨rfl, rfl⟩ := h
      exact .stays
    | active =>
      simp only [state, Except.ok.injEq] at h
      split at h
      · have opened := @open_reacts rid line ok e .refresh (.inr rfl)
        rw [h] at opened
        exact opened
      · cases h
        exact .stays
    | openWait | established =>
      simp only [state, Except.ok.injEq] at h
      split at h
      · cases h
        exact .stays
      next unreachable =>
        cases h
        exact .loses rfl (by simpa using unreachable) (by simp [state])
  | recv msg =>
    simp only [control] at h
    split at h
    next inOrder => exact receive_reacts inOrder h
    · cases h
      exact .stays

/-- A step of an endpoint: the state machine takes the input, and what the router decides on that
account is told to an established peer. -/
inductive Endpoint.Step (rid : NetAddr) (line ok : Bool) (e : Endpoint) (input : Input) :
    Endpoint → List Msg → Prop where
  | mk {e' : Endpoint} {sent : List Msg} {data : List MsgBody}
      (controlled : control rid line ok e input = .ok (e', sent))
      (routes : ∀ body ∈ data, isData body = true)
      (silent : e'.state ≠ .established → data = []) :
      Endpoint.Step rid line ok e input
        { e' with sendSeqNum := e'.sendSeqNum + data.length }
        (sent ++ if line then letters e'.sendSeqNum data else [])

/-! ## Routers take these steps -/

section Refines

variable {a : NetAddr} {r s r' : Router} {peer : Peer}

/-- The messages of an endpoint as the network sees them. -/
def addressed (a : NetAddr) (peer : Peer) (msgs : List Msg) : List Sent :=
  msgs.map fun msg => ⟨peer.srcAddr, a, msg⟩

theorem addressed_letters (a : NetAddr) (peer : Peer) (n : Nat) (bodies : List MsgBody) :
    addressed a peer (letters n bodies) = numbered peer.srcAddr a n bodies := by
  induction bodies generalizing n with
  | nil => rfl
  | cons body bodies inductionHypothesis =>
    simp only [letters, addressed, List.map_cons, numbered]
    rw [← inductionHypothesis]
    rfl

/-- From `r` to `r'` the session with the peer went to `e`, and `sent` was sent to the peer. -/
structure Turn (a : NetAddr) (r : Router) (peer : Peer) (r' : Router) (e : Endpoint)
    (sent : List Msg) : Prop where
  side : ∃ peer', r'.peers.lookup a = some peer' ∧ endpoint peer' = e ∧
    peer'.virtual = peer.virtual ∧ peer'.srcAddr = peer.srcAddr
  sent : toward a r'.outbox = toward a r.outbox ++ addressed a peer sent

theorem Turn.refl (held : r.peers.lookup a = some peer) : Turn a r peer r (endpoint peer) [] where
  side := ⟨peer, held, rfl, rfl, rfl⟩
  sent := (List.append_nil _).symm

/-- A change of the peer alone. -/
theorem Turn.modify {e : Endpoint} {sent : List Msg} (turn : Turn a r peer s e sent) (f : Peer → Peer)
    (next : Endpoint → Endpoint) (sameSession : ∀ peer, endpoint (f peer) = next (endpoint peer))
    (sameConfig : ∀ peer, (f peer).virtual = peer.virtual ∧ (f peer).srcAddr = peer.srcAddr) :
    Turn a r peer (s.modifyPeer a f) (next e) sent := by
  obtain ⟨peer', held, rfl, isVirtual, src⟩ := turn.side
  refine ⟨⟨f peer', ?_, sameSession peer', ?_, ?_⟩, turn.sent⟩
  · rw [modifyPeer_lookup, if_pos rfl, held]
    rfl
  · exact (sameConfig peer').1.trans isVirtual
  · exact (sameConfig peer').2.trans src

/-- A message is sent. -/
theorem Turn.send {e : Endpoint} {sent : List Msg} (turn : Turn a r peer s e sent)
    (env : s.env = r.env) (body : MsgBody) :
    Turn a r peer (bgpPeerSend s a body).2 (e.send (delivers r.env a peer) body).1
      (sent ++ (e.send (delivers r.env a peer) body).2) := by
  obtain ⟨peer', held, rfl, isVirtual, src⟩ := turn.side
  have line : delivers s.env a peer' = delivers r.env a peer := by
    simp only [delivers, env, isVirtual, src]
  refine ⟨⟨_, bgpPeerSend_lookup held body, rfl, isVirtual, src⟩, ?_⟩
  rw [bgpPeerSend_toward held, turn.sent, line, List.append_assoc]
  simp only [Endpoint.send, addressed, List.map_append]
  split
  · simp [numbered, endpoint, src]
  · rfl

theorem legit_isData {keys : Pfx → Bool} {bodies : List MsgBody} (legit : Legit keys bodies) :
    ∀ body ∈ bodies, isData body = true := by
  induction bodies generalizing keys with
  | nil => simp
  | cons first bodies inductionHypothesis =>
    rw [List.forall_mem_cons]
    refine ⟨?_, inductionHypothesis legit.2⟩
    have kind := legit.1
    cases first with
    | update _ => rfl
    | withdraw _ => rfl
    | close => exact kind.elim
    | «open» _ => exact kind.elim

/-- After the state machine, the router talks; an Adj-RIB-Out may be cleared. -/
theorem Turn.clears {e : Endpoint} {sent : List Msg} (turn : Turn a r peer s e sent)
    (env : s.env = r.env) (clears : Clears a s r') :
    ∃ data, (∀ body ∈ data, isData body = true) ∧ (e.state ≠ .established → data = []) ∧
      Turn a r peer r' { e with sendSeqNum := e.sendSeqNum + data.length }
        (sent ++ if delivers r.env a peer then letters e.sendSeqNum data else []) := by
  obtain ⟨t, ⟨data, tells⟩, cleared⟩ := clears
  obtain ⟨peer', held, rfl, isVirtual, src⟩ := turn.side
  obtain ⟨peer'', held', told⟩ := tells.told held
  have line : delivers s.env a peer' = delivers r.env a peer := by
    simp only [delivers, env, isVirtual, src]
  have next : Turn a r peer t
      { endpoint peer' with sendSeqNum := (endpoint peer').sendSeqNum + data.length }
      (sent ++ if delivers r.env a peer then letters (endpoint peer').sendSeqNum data else []) := by
    refine ⟨⟨peer'', held', ?_, ?_, ?_⟩, ?_⟩
    · rw [told.frame]
      rfl
    · rw [told.frame]
      exact isVirtual
    · rw [told.frame]
      exact src
    · rw [told.sent, turn.sent, line, List.append_assoc, src]
      simp only [addressed, List.map_append]
      split
      · rw [← addressed_letters]
        rfl
      · rfl
  refine ⟨data, legit_isData told.legit, told.silent, ?_⟩
  cases cleared with
  | inl same => exact same ▸ next
  | inr emptied => exact emptied ▸ next.modify _ id (fun _ => rfl) fun _ => ⟨rfl, rfl⟩

/-- Nothing is said over a session that is down. -/
theorem Turn.clears_down {e : Endpoint} {sent : List Msg} (turn : Turn a r peer s e sent)
    (env : s.env = r.env) (down : e.state ≠ .established) (clears : Clears a s r') :
    Turn a r peer r' e sent := by
  obtain ⟨data, _, silent, next⟩ := turn.clears env clears
  rw [silent down] at next
  simpa [letters] using next

/-- What a router did is a step of its session with the peer. -/
def Moved (a : NetAddr) (r : Router) (peer : Peer) (input : Input) (r' : Router) : Prop :=
  ∃ e sent, Endpoint.Step r.rid (delivers r.env a peer) (r.env.sessionOk a) (endpoint peer) input
    e sent ∧ Turn a r peer r' e sent

theorem Talks.clears (talks : Talks a r s) : Clears a r s := ⟨s, talks, .inl rfl⟩

theorem delivers_real (real : peer.virtual = false) (env : Env) :
    delivers env a peer = env.sendReach peer.srcAddr a := by
  simp [delivers, real]

/-- How sending to a real peer ends. -/
theorem bgpPeerSend_fst (held : r.peers.lookup a = some peer) (real : peer.virtual = false)
    (body : MsgBody) : (bgpPeerSend r a body).1 =
      if delivers r.env a peer then .success else .failure := by
  simp only [bgpPeerSend, held, real, delivers_real real]
  simp only [Bool.false_eq_true, if_false]
  split
  · rfl
  · rfl

theorem openSession_turn {code : NetError} (held : r.peers.lookup a = some peer)
    (real : peer.virtual = false) (h : bgpPeerOpenSession r a = .ok (code, r')) :
    Turn a r peer r' ((endpoint peer).open r.rid (delivers r.env a peer)).1
        ((endpoint peer).open r.rid (delivers r.env a peer)).2 ∧
      (code = .success ↔ peer.sessionState = .idle ∨ peer.sessionState = .active) := by
  simp only [bgpPeerOpenSession, held] at h
  by_cases busy : peer.sessionState ≠ .idle ∧ peer.sessionState ≠ .active
  · rw [if_pos busy] at h
    cases h
    refine ⟨?_, by simp [busy.1, busy.2]⟩
    have stays : (endpoint peer).open r.rid (delivers r.env a peer) = (endpoint peer, []) :=
      if_pos busy
    rw [stays]
    exact Turn.refl held
  · have startable : peer.sessionState = .idle ∨ peer.sessionState = .active := by
      by_cases isIdle : peer.sessionState = .idle
      · exact .inl isIdle
      · exact .inr (by simpa [isIdle] using busy)
    have reset := (Turn.refl held).modify (fun peer => peer.resetSession peer.sessionState)
      (fun e => Endpoint.reset e.state) (fun _ => rfl) fun _ => ⟨rfl, rfl⟩
    have sent := reset.send rfl (.open r.rid)
    have held' : (r.modifyPeer a fun peer => peer.resetSession peer.sessionState).peers.lookup a =
        some (peer.resetSession peer.sessionState) := by
      rw [modifyPeer_lookup, if_pos rfl, held]
      rfl
    have left : (bgpPeerSend (r.modifyPeer a fun peer => peer.resetSession peer.sessionState) a
        (.open r.rid)).1 = if delivers r.env a peer then .success else .failure :=
      bgpPeerSend_fst held' real _
    have opens : (endpoint peer).open r.rid (delivers r.env a peer) =
        if delivers r.env a peer then (⟨.openWait, netAddrAny, 1, 0⟩, [⟨0, .open r.rid⟩])
        else (.reset .active, []) := if_neg busy
    rw [if_neg busy] at h
    simp only [real, Bool.not_false, if_true] at h
    rw [opens]
    rw [show (r.modifyPeer a _).rid = r.rid from rfl] at h
    generalize bgpPeerSend _ a _ = result at h sent left
    obtain ⟨error, s⟩ := result
    -- the OPEN left, and the session waits; or it did not, and the session is retried later
    cases up : delivers r.env a peer with
    | true =>
      simp only [up, if_true] at left sent ⊢
      subst left
      cases h
      refine ⟨?_, by simp [startable]⟩
      exact sent.modify _ (fun e => { e with state := .openWait }) (fun _ => rfl) fun _ => ⟨rfl, rfl⟩
    | false =>
      simp only [up, Bool.false_eq_true, if_false] at left sent ⊢
      subst left
      cases h
      refine ⟨?_, by simp [startable]⟩
      exact sent.modify _ (fun _ => .reset .active) (fun _ => rfl) fun _ => ⟨rfl, rfl⟩

theorem closed_turn (held : r.peers.lookup a = some peer) (real : peer.virtual = false) :
    Turn a r peer (closed r a peer) (.reset .idle)
      ((endpoint peer).farewell (delivers r.env a peer)) := by
  simp only [closed, real, Bool.not_false, and_true]
  split
  next up =>
    have sent := (Turn.refl held).send rfl .close
    have left := sent.modify (fun peer => peer.resetSession .idle) (fun _ => .reset .idle)
      (fun _ => rfl) fun _ => ⟨rfl, rfl⟩
    have same : (endpoint peer).farewell (delivers r.env a peer) =
        [] ++ ((endpoint peer).send (delivers r.env a peer) .close).2 := by
      simp [Endpoint.farewell, Endpoint.send, endpoint, up]
    rw [same]
    exact left
  next down =>
    have left := (Turn.refl held).modify (fun peer => peer.resetSession .idle) (fun _ => .reset .idle)
      (fun _ => rfl) fun _ => ⟨rfl, rfl⟩
    have same : (endpoint peer).farewell (delivers r.env a peer) = [] := by
      simp [Endpoint.farewell, endpoint, down]
    rw [same]
    exact left

theorem closeSession_turn {code : NetError} (held : r.peers.lookup a = some peer)
    (real : peer.virtual = false) (h : bgpPeerCloseSession r a = .ok (code, r')) :
    (peer.sessionState = .idle ∧ code ≠ .success ∧ r' = r) ∨
      (peer.sessionState ≠ .idle ∧ code = .success ∧
        Turn a r peer r' (.reset .idle) ((endpoint peer).farewell (delivers r.env a peer))) := by
  simp only [bgpPeerCloseSession, held] at h
  split at h
  next isIdle =>
    cases h
    exact .inl ⟨isIdle, by simp, rfl⟩
  next started =>
    simp only [except_bind_eq_ok, Except.ok.injEq, Prod.mk.injEq] at h
    obtain ⟨s, rescanned, rfl, rfl⟩ := h
    refine .inr ⟨started, rfl, ?_⟩
    have env : (closed r a peer).env = r.env := by rw [(Invariant.closed_quiet r a peer).router]
    refine (closed_turn held real).clears_down env (by simp [Endpoint.reset]) ?_
    exact (rescan_clears a (closed r a peer) _).value rescanned

theorem Moved.of_turn {input : Input} {e : Endpoint} {sent : List Msg}
    (controlled : control r.rid (delivers r.env a peer) (r.env.sessionOk a) (endpoint peer) input =
      .ok (e, sent)) (turn : Turn a r peer r' e sent) : Moved a r peer input r' := by
  have nothing : ∀ body ∈ ([] : List MsgBody), isData body = true := by simp
  have step := Endpoint.Step.mk controlled nothing fun _ => rfl
  refine ⟨_, _, step, ?_⟩
  simpa [letters] using turn

theorem Moved.of_clears {input : Input} {e : Endpoint} {sent : List Msg}
    (controlled : control r.rid (delivers r.env a peer) (r.env.sessionOk a) (endpoint peer) input =
      .ok (e, sent)) (turn : Turn a r peer s e sent) (env : s.env = r.env) (clears : Clears a s r') :
    Moved a r peer input r' := by
  obtain ⟨data, routes, silent, next⟩ := turn.clears env clears
  exact ⟨_, _, .mk controlled routes silent, next⟩

theorem openSession_moved {code : NetError} (held : r.peers.lookup a = some peer)
    (real : peer.virtual = false) (h : bgpPeerOpenSession r a = .ok (code, r')) :
    Moved a r peer .open r' :=
  .of_turn rfl (openSession_turn held real h).1

theorem closeSession_moved {code : NetError} (held : r.peers.lookup a = some peer)
    (real : peer.virtual = false) (h : bgpPeerCloseSession r a = .ok (code, r')) :
    Moved a r peer .close r' := by
  cases closeSession_turn held real h with
  | inl refused =>
    obtain ⟨isIdle, _, rfl⟩ := refused
    exact .of_turn (congrArg Except.ok (if_pos isIdle)) (Turn.refl held)
  | inr closes =>
    obtain ⟨started, _, turn⟩ := closes
    exact .of_turn (congrArg Except.ok (if_neg started)) turn

theorem sessionRefresh_moved (held : r.peers.lookup a = some peer) (real : peer.virtual = false)
    (h : bgpPeerSessionRefresh r a = .ok r') : Moved a r peer .refresh r' := by
  simp only [bgpPeerSessionRefresh, held] at h
  have stays (same : control r.rid (delivers r.env a peer) (r.env.sessionOk a) (endpoint peer)
      .refresh = .ok (endpoint peer, [])) : Moved a r peer .refresh r := .of_turn same (Turn.refl held)
  have toggled (up : peer.sessionState = .established ∨ peer.sessionState = .openWait) :
      control r.rid (delivers r.env a peer) (r.env.sessionOk a) (endpoint peer) .refresh =
        .ok (if r.env.sessionOk a then (endpoint peer, [])
          else (.reset .active, (endpoint peer).farewell (delivers r.env a peer))) := by
    cases up with
    | inl up => simp [control, endpoint, up]
    | inr up => simp [control, endpoint, up]
  -- The session is up: it is kept while the peer is reachable and closed otherwise.
  split at h
  next up =>
    cases ok : r.env.sessionOk a with
    | true =>
      rw [ok] at h toggled
      cases h
      apply stays
      rw [ok, toggled up, if_pos rfl]
    | false =>
      simp only [ok, Bool.not_false, if_true, except_bind_eq_ok] at h
      obtain ⟨⟨code, s⟩, closes, h⟩ := h
      cases closeSession_turn held real closes with
      | inl refused =>
        rw [refused.1] at up
        simp at up
      | inr closed =>
        obtain ⟨_, rfl, turn⟩ := closed
        cases h
        have active := turn.modify (fun peer => { peer with sessionState := .active })
          (fun e => { e with state := .active }) (fun _ => rfl) fun _ => ⟨rfl, rfl⟩
        refine .of_turn ?_ active
        rw [toggled up, ok]
        rfl
  next down =>
    split at h
    next isActive =>
      have opens : control r.rid (delivers r.env a peer) (r.env.sessionOk a) (endpoint peer) .refresh =
          .ok (if r.env.sessionOk a then (endpoint peer).open r.rid (delivers r.env a peer)
            else (endpoint peer, [])) := by
        simp [control, endpoint, isActive]
      cases ok : r.env.sessionOk a with
      | true =>
        simp only [ok, if_true, except_bind_eq_ok] at h
        obtain ⟨⟨code, s⟩, opened, h⟩ := h
        obtain ⟨turn, succeeds⟩ := openSession_turn held real opened
        obtain rfl := succeeds.mpr (.inr isActive)
        cases h
        refine .of_turn ?_ turn
        rw [opens, ok]
        rfl
      | false =>
        simp only [ok, Bool.false_eq_true, if_false, Except.ok.injEq] at h
        subst h
        apply stays
        rw [opens, ok]
        rfl
    next notActive =>
      cases h
      apply stays
      have isIdle : peer.sessionState = .idle := by
        cases state : peer.sessionState with
        | idle => rfl
        | openWait => simp [state] at down
        | established => simp [state] at down
        | active => exact absurd state notActive
      simp [control, endpoint, isIdle]

/-! ## Messages -/

theorem seqnumCheck_real (real : peer.virtual = false) (msg : Msg) :
    bgpPeerSeqnumCheck peer msg = (endpoint peer).inOrder msg := by
  simp only [bgpPeerSeqnumCheck, real, Bool.false_or]
  rfl

/-- The peer after a message was counted. -/
def countedPeer (peer : Peer) : Peer := { peer with recvSeqNum := peer.recvSeqNum + 1 }

theorem counted_turn (held : r.peers.lookup a = some peer) :
    Turn a r peer (counted r a) (endpoint (countedPeer peer)) [] :=
  (Turn.refl held).modify _ (fun e => { e with recvSeqNum := e.recvSeqNum + 1 }) (fun _ => rfl)
    fun _ => ⟨rfl, rfl⟩

/-- What a message with the right number does. -/
def messageResult (r : Router) (a : NetAddr) (peer : Peer) : MsgBody → Except Abort Router
  | .update route => bgpPeerSessionUpdateRcvd (counted r a) a (countedPeer peer) route
  | .withdraw p => bgpPeerSessionWithdrawRcvd (counted r a) a (countedPeer peer) p
  | .close => bgpPeerSessionCloseRcvd (counted r a) a (countedPeer peer)
  | .open routerId => bgpPeerSessionOpenRcvd (counted r a) a (countedPeer peer) routerId

theorem map_code {code : NetError} (x : Except Abort Router) :
    (x.map fun router => (code, router)).map (·.2) = x := by
  cases x with
  | error e => rfl
  | ok r => rfl

theorem handleMessage_eq (held : r.peers.lookup a = some peer) (real : peer.virtual = false)
    (msg : Msg) : exec r (.handleMessage a msg) =
      if (endpoint peer).inOrder msg then messageResult r a peer msg.body else .ok r := by
  simp only [exec, execCode, bgpRouterHandleMessage, held, bgpPeerHandleMessage,
    seqnumCheck_real real]
  cases (endpoint peer).inOrder msg with
  | false => rfl
  | true =>
    simp only [Bool.not_true, Bool.false_eq_true, if_false, if_true]
    cases body : msg.body with
    | update route => exact map_code _
    | withdraw p => exact map_code _
    | close => exact map_code _
    | «open» routerId => exact map_code _

/-- A message that the state machine refuses. -/
def Refuses (e : Abort) (r : Router) (a : NetAddr) (peer : Peer) (body : MsgBody) : Prop :=
  Endpoint.receive r.rid (delivers r.env a peer) (endpoint (countedPeer peer)) body = .error e

/-- A data message is taken in OPENWAIT and ESTABLISHED, and the session is up. -/
theorem dataRcvd_ends (held : r.peers.lookup a = some peer) (failure : Abort) :
    Ends
      (fun result => (peer.sessionState = .openWait ∨ peer.sessionState = .established) ∧
        Turn a r peer result.2 { endpoint (countedPeer peer) with state := .established } [] ∧
        result.2.env = r.env)
      (fun e => e = failure ∧ (peer.sessionState = .idle ∨ peer.sessionState = .active))
      (sessionDataRcvd (counted r a) a (countedPeer peer) failure) := by
  have counts := counted_turn held
  have same : (countedPeer peer).sessionState = peer.sessionState := rfl
  simp only [sessionDataRcvd, same]
  cases state : peer.sessionState with
  | idle => exact ⟨rfl, .inl rfl⟩
  | active => exact ⟨rfl, .inr rfl⟩
  | openWait =>
    have up := counts.modify (fun peer => { peer with sessionState := .established })
      (fun e => { e with state := .established }) (fun _ => rfl) fun _ => ⟨rfl, rfl⟩
    exact ⟨.inl rfl, up, rfl⟩
  | established =>
    refine ⟨.inr rfl, ?_, rfl⟩
    rw [show endpoint (countedPeer peer) = { endpoint (countedPeer peer) with state := .established }
      from by simp [endpoint, countedPeer, state]] at counts
    exact counts

theorem receive_data {rid : NetAddr} {line : Bool} {e : Endpoint} {body : MsgBody}
    (data : isData body = true) (up : e.state = .openWait ∨ e.state = .established) :
    e.receive rid line body = .ok ({ e with state := .established }, []) := by
  cases body with
  | update route => cases up with | inl up | inr up => simp [Endpoint.receive, up]
  | withdraw p => cases up with | inl up | inr up => simp [Endpoint.receive, up]
  | close => cases data
  | «open» routerId => cases data

/-- How a message with the right number ends: the state machine refuses it, or the session takes a
step. -/
theorem messageResult_ends (held : r.peers.lookup a = some peer) (real : peer.virtual = false)
    (body : MsgBody) :
    Ends
      (fun r' => ∃ s e sent, Endpoint.receive r.rid (delivers r.env a peer)
          (endpoint (countedPeer peer)) body = .ok (e, sent) ∧
        Turn a r peer s e sent ∧ s.env = r.env ∧ Clears a s r')
      (fun e => SessionAbort e → Refuses e r a peer body) (messageResult r a peer body) := by
  have counts := counted_turn held
  have same : (countedPeer peer).sessionState = peer.sessionState := rfl
  have real' : (countedPeer peer).virtual = false := real
  cases body with
  -- A route is taken in the two live states and trips the assertion in the others.
  | update route =>
    apply Ends.bind ((dataRcvd_ends held .updateInState).mono (fun _ => id) _)
    · rintro ⟨peer', s⟩ ⟨up, turn, env⟩
      apply Ends.mono (processUpdate_talks a a s peer' route)
      · intro r' talks
        exact ⟨s, _, [], receive_data rfl up, turn, env, talks.clears⟩
      · intro e other session
        exact absurd session other
    · rintro e ⟨rfl, down⟩ _
      cases down with
      | inl down | inr down => simp [Refuses, Endpoint.receive, endpoint, same, down]
  | withdraw p =>
    apply Ends.bind ((dataRcvd_ends held .withdrawInState).mono (fun _ => id) _)
    · rintro ⟨peer', s⟩ ⟨up, turn, env⟩
      apply Ends.mono (processWithdraw_talks a a s peer' p)
      · intro r' talks
        exact ⟨s, _, [], receive_data rfl up, turn, env, talks.clears⟩
      · intro e other session
        exact absurd session other
    · rintro e ⟨rfl, down⟩ _
      cases down with
      | inl down | inr down => simp [Refuses, Endpoint.receive, endpoint, same, down]
  | close =>
    -- A CLOSE resets the session and clears what the peer had announced.
    have ended : Turn a r peer ((counted r a).modifyPeer a fun peer => peer.resetSession .active)
        (.reset .active) [] :=
      counts.modify _ (fun _ => .reset .active) (fun _ => rfl) fun _ => ⟨rfl, rfl⟩
    have closes (up : peer.sessionState = .openWait ∨ peer.sessionState = .established) :
        Endpoint.receive r.rid (delivers r.env a peer) (endpoint (countedPeer peer)) .close =
          .ok (.reset .active, []) := by
      cases up with
      | inl up | inr up => simp [Endpoint.receive, endpoint, same, up]
    simp only [messageResult, bgpPeerSessionCloseRcvd, real', Bool.false_eq_true, if_false, same]
    cases state : peer.sessionState with
    | idle | active =>
      refine ⟨counted r a, _, [], ?_, counts, rfl, (Talks.refl a _).clears⟩
      simp [Endpoint.receive, endpoint, same, state]
    | openWait =>
      apply Ends.mono (rescan_clears a _ _)
      · intro r' clears
        exact ⟨_, _, [], closes (.inl state), ended, rfl, clears⟩
      · intro e other session
        exact absurd session other
    | established =>
      apply Ends.mono (rescan_clears a _ _)
      · intro r' clears
        exact ⟨_, _, [], closes (.inr state), ended, rfl, clears⟩
      · intro e other session
        exact absurd session other
  | «open» routerId =>
    -- An OPEN answers one we did not expect, or completes one we sent; both announce the Loc-RIB.
    simp only [messageResult, bgpPeerSessionOpenRcvd, real', Bool.false_eq_true, if_false, same]
    cases state : peer.sessionState with
    | idle | established =>
      intro _
      simp [Refuses, Endpoint.receive, endpoint, same, state]
    | active =>
      have up := counts.modify (fun peer => { peer with sessionState := .established })
        (fun e => { e with state := .established }) (fun _ => rfl) fun _ => ⟨rfl, rfl⟩
      have answered := up.send rfl (.open r.rid)
      apply Ends.mono (disseminateLocRib_talks a a _)
      · intro r' talks
        refine ⟨_, _, _, ?_, answered, ?_, talks.clears⟩
        · simp [Endpoint.receive, endpoint, same, state]
        · exact (bgpPeerSend_sends _ a _).env
      · intro e other session
        exact absurd session other
    | openWait =>
      have up := counts.modify
        (fun peer => { peer with sessionState := .established, routerId := routerId })
        (fun e => { e with state := .established, routerId := routerId }) (fun _ => rfl)
        fun _ => ⟨rfl, rfl⟩
      apply Ends.mono (disseminateLocRib_talks a a _)
      · intro r' talks
        refine ⟨_, _, [], ?_, up, rfl, talks.clears⟩
        simp [Endpoint.receive, endpoint, same, state]
      · intro e other session
        exact absurd session other

theorem handleMessage_moved {msg : Msg} (held : r.peers.lookup a = some peer)
    (real : peer.virtual = false) (h : exec r (.handleMessage a msg) = .ok r') :
    Moved a r peer (.recv msg) r' := by
  rw [handleMessage_eq held real] at h
  split at h
  next inOrder =>
    obtain ⟨s, e, sent, received, turn, env, clears⟩ :=
      (messageResult_ends held real msg.body).value h
    refine .of_clears ?_ turn env clears
    exact (if_pos inOrder).trans received
  next rejected =>
    cases h
    exact .of_turn (if_neg rejected) (Turn.refl held)

/-! ## Steps -/

/-- Every step of a router is a step of its session with each real peer. -/
theorem exec_step {op : Op} (held : r.peers.lookup a = some peer) (real : peer.virtual = false)
    (h : exec r op = .ok r') : Moved a r peer (inputOf a op) r' := by
  -- What does not concern the peer is no input to its session.
  have elsewhere (other : concerns a op = false) (kept : op ≠ .clearRib)
      (inside : ∀ rt env, op ≠ .netChange rt env) : Moved a r peer .other r' :=
    .of_clears rfl (Turn.refl held) rfl (exec_talks other kept inside h).clears
  cases op with
  | handleMessage src msg =>
    by_cases same : src = a
    · subst same
      simpa [inputOf] using handleMessage_moved held real h
    · simpa [inputOf, same] using elsewhere (by simp [concerns, same]) (by simp) (by simp)
  | openSession b =>
    by_cases same : b = a
    · subst same
      obtain ⟨⟨code, _⟩, opened, rfl⟩ := except_map_eq_ok.mp h
      simpa [inputOf] using openSession_moved held real opened
    · simpa [inputOf, same] using elsewhere (by simp [concerns, same]) (by simp) (by simp)
  | closeSession b =>
    by_cases same : b = a
    · subst same
      obtain ⟨⟨code, _⟩, closed, rfl⟩ := except_map_eq_ok.mp h
      simpa [inputOf] using closeSession_moved held real closed
    · simpa [inputOf, same] using elsewhere (by simp [concerns, same]) (by simp) (by simp)
  | sessionRefresh b =>
    by_cases same : b = a
    · subst same
      simp only [exec, execCode, map_code] at h
      simpa [inputOf] using sessionRefresh_moved held real h
    · simpa [inputOf, same] using elsewhere (by simp [concerns, same]) (by simp) (by simp)
  | addNetwork p => exact elsewhere rfl (by simp) (by simp)
  | delNetwork p => exact elsewhere rfl (by simp) (by simp)
  | rerun p => exact elsewhere rfl (by simp) (by simp)
  | clearRib =>
    cases h
    refine .of_turn rfl ⟨⟨{ peer with adjRibIn := Rib.create, adjRibOut := Rib.create }, ?_, rfl, rfl,
      rfl⟩, (List.append_nil _).symm⟩
    simp [bgpRouterClearRib, held]
  | netChange rt env =>
    cases h
    exact .of_turn rfl ⟨⟨peer, held, rfl, rfl, rfl⟩, (List.append_nil _).symm⟩

theorem Refuses.aborts {e : Abort} {body : MsgBody} (real : peer.virtual = false)
    (refuses : Refuses e r a peer body) : messageResult r a peer body = .error e ∧ SessionAbort e := by
  have same : (endpoint (countedPeer peer)).state = peer.sessionState := rfl
  have state : (countedPeer peer).sessionState = peer.sessionState := rfl
  have real' : (countedPeer peer).virtual = false := real
  simp only [Refuses] at refuses
  -- Each message is refused in exactly two states, by the assertion of its own handler.
  cases body with
  | update route =>
    simp only [Endpoint.receive, same] at refuses
    simp only [messageResult, bgpPeerSessionUpdateRcvd, sessionDataRcvd, state]
    cases down : peer.sessionState with
    | idle | active =>
      simp only [down, Except.error.injEq] at refuses
      subst refuses
      exact ⟨rfl, .inr (.inl rfl)⟩
    | openWait | established => simp [down] at refuses
  | withdraw p =>
    simp only [Endpoint.receive, same] at refuses
    simp only [messageResult, bgpPeerSessionWithdrawRcvd, sessionDataRcvd, state]
    cases down : peer.sessionState with
    | idle | active =>
      simp only [down, Except.error.injEq] at refuses
      subst refuses
      exact ⟨rfl, .inr (.inr rfl)⟩
    | openWait | established => simp [down] at refuses
  | close =>
    simp only [Endpoint.receive] at refuses
    split at refuses <;> cases refuses
  | «open» routerId =>
    simp only [Endpoint.receive, same] at refuses
    simp only [messageResult, bgpPeerSessionOpenRcvd, real', state]
    cases down : peer.sessionState with
    | idle | established =>
      simp only [down, Except.error.injEq] at refuses
      subst refuses
      exact ⟨rfl, .inl rfl⟩
    | active | openWait => simp [down] at refuses

/-- A delivered message aborts in a branch of the state machine exactly when the state machine
refuses it. -/
theorem exec_aborts_iff {msg : Msg} {e : Abort} (held : r.peers.lookup a = some peer)
    (real : peer.virtual = false) :
    (exec r (.handleMessage a msg) = .error e ∧ SessionAbort e) ↔
      control r.rid (delivers r.env a peer) (r.env.sessionOk a) (endpoint peer) (.recv msg) =
        .error e := by
  rw [handleMessage_eq held real]
  simp only [control]
  cases (endpoint peer).inOrder msg with
  | false => simp
  | true =>
    simp only [if_true]
    constructor
    · rintro ⟨failed, session⟩
      exact (messageResult_ends held real msg.body).error failed session
    · intro refused
      exact Refuses.aborts real refused

end Refines

end Cbgp.Verified
