import Cbgp.Verified.Steps

/-! # What a router tells a peer

`Tells a r r' bodies`: between `r` and `r'` the router told the peer `a` exactly `bodies`, UPDATEs
and WITHDRAWs numbered on from the peer's send counter, and the Adj-RIB-Out changed by just these
messages: its prefixes are those the peer was told of and not told to forget (`replay`), and no
prefix was withdrawn that it did not hold (`Legit`).  Dissemination and the decision process are
such steps, for every peer.
-/

namespace Cbgp.Verified

open Cbgp.Lib Cbgp.Net Cbgp.Bgp

/-! ## Conversations -/

/-- The messages sent to an address. -/
def toward (a : NetAddr) (sent : List Sent) : List Sent :=
  sent.filter fun s => decide (s.dst = a)

/-- Messages numbered on from a counter. -/
def numbered (src a : NetAddr) : Nat → List MsgBody → List Sent
  | _, [] => []
  | n, body :: bodies => ⟨src, a, ⟨n % seqMod, body⟩⟩ :: numbered src a (n + 1) bodies

/-- What a message does to the set of announced prefixes. -/
def heard (keys : Pfx → Bool) : MsgBody → Pfx → Bool
  | .update route, q => decide (ipPrefixMask q = ipPrefixMask route.pfx) || keys q
  | .withdraw p, q => !decide (ipPrefixMask q = ipPrefixMask p) && keys q
  | _, q => keys q

/-- What messages do to the set of announced prefixes. -/
def replay (keys : Pfx → Bool) (bodies : List MsgBody) : Pfx → Bool :=
  bodies.foldl heard keys

/-- Only UPDATEs and WITHDRAWs, and none withdraws a prefix that is not announced. -/
def Legit : (Pfx → Bool) → List MsgBody → Prop
  | _, [] => True
  | keys, body :: bodies =>
    (match body with
      | .update _ => True
      | .withdraw p => keys p = true
      | _ => False) ∧ Legit (heard keys body) bodies

theorem numbered_append (src a : NetAddr) (n : Nat) (bodies bodies' : List MsgBody) :
    numbered src a n (bodies ++ bodies') =
      numbered src a n bodies ++ numbered src a (n + bodies.length) bodies' := by
  induction bodies generalizing n with
  | nil => rfl
  | cons body bodies inductionHypothesis =>
    rw [List.cons_append, numbered, inductionHypothesis, numbered, List.length_cons]
    rw [show n + 1 + bodies.length = n + (bodies.length + 1) by omega]
    rfl

theorem replay_append (keys : Pfx → Bool) (bodies bodies' : List MsgBody) :
    replay keys (bodies ++ bodies') = replay (replay keys bodies) bodies' :=
  List.foldl_append

theorem Legit.append {keys : Pfx → Bool} {bodies bodies' : List MsgBody} (first : Legit keys bodies)
    (second : Legit (replay keys bodies) bodies') : Legit keys (bodies ++ bodies') := by
  induction bodies generalizing keys with
  | nil => exact second
  | cons body bodies inductionHypothesis => exact ⟨first.1, inductionHypothesis first.2 second⟩

/-- The prefixes of an Adj-RIB-Out. -/
def outKeys (peer : Peer) (q : Pfx) : Bool :=
  (peer.adjRibOut.findExact q).isSome

/-- Messages to the peer leave. -/
def delivers (env : Env) (a : NetAddr) (peer : Peer) : Bool :=
  !peer.virtual && env.sendReach peer.srcAddr a

/-- Between two states a peer was told `bodies`. -/
structure PeerTold (a : NetAddr) (r r' : Router) (bodies : List MsgBody) (peer peer' : Peer) :
    Prop where
  frame : peer' = { peer with
    sendSeqNum := peer.sendSeqNum + bodies.length
    adjRibIn := peer'.adjRibIn
    adjRibOut := peer'.adjRibOut }
  sent : toward a r'.outbox = toward a r.outbox ++
    if delivers r.env a peer then numbered peer.srcAddr a peer.sendSeqNum bodies else []
  keys : ∀ q, outKeys peer' q = replay (outKeys peer) bodies q
  legit : Legit (outKeys peer) bodies
  silent : peer.sessionState ≠ .established → bodies = []

/-- Between two states the peer with an address was told `bodies`. -/
structure Tells (a : NetAddr) (r r' : Router) (bodies : List MsgBody) : Prop where
  env : r'.env = r.env
  told : ∀ {peer}, r.peers.lookup a = some peer →
    ∃ peer', r'.peers.lookup a = some peer' ∧ PeerTold a r r' bodies peer peer'

namespace Tells

variable {a : NetAddr} {r s t : Router} {bodies bodies' : List MsgBody}

theorem trans (first : Tells a r s bodies) (second : Tells a s t bodies') :
    Tells a r t (bodies ++ bodies') := by
  refine ⟨second.env.trans first.env, fun {peer} held => ?_⟩
  obtain ⟨peer', held', told⟩ := first.told held
  obtain ⟨peer'', held'', told'⟩ := second.told held'
  refine ⟨peer'', held'', ?_, ?_, fun q => ?_, ?_, fun down => ?_⟩
  · rw [told'.frame, told.frame, List.length_append, Nat.add_assoc]
  · have sameLine : delivers s.env a peer' = delivers r.env a peer := by
      rw [first.env, told.frame]
      rfl
    have sameSrc : peer'.srcAddr = peer.srcAddr := by rw [told.frame]
    have counter : peer'.sendSeqNum = peer.sendSeqNum + bodies.length := by rw [told.frame]
    rw [told'.sent, told.sent, List.append_assoc, sameLine, sameSrc, counter]
    cases delivers r.env a peer with
    | true => simp [numbered_append]
    | false => simp
  · rw [told'.keys, replay_append]
    rw [funext told.keys]
  · refine told.legit.append ?_
    have sameKeys : outKeys peer' = replay (outKeys _) bodies := funext told.keys
    exact sameKeys ▸ told'.legit
  · rw [told.silent down]
    refine told'.silent ?_
    rw [told.frame]
    exact down

/-- Nothing the peer sees changed. -/
theorem of_same (env : s.env = r.env)
    (peers : ∀ peer, r.peers.lookup a = some peer →
      ∃ peer', s.peers.lookup a = some peer' ∧ peer' = { peer with adjRibIn := peer'.adjRibIn })
    (outbox : toward a s.outbox = toward a r.outbox) : Tells a r s [] := by
  refine ⟨env, fun {peer} held => ?_⟩
  obtain ⟨peer', held', same⟩ := peers peer held
  refine ⟨peer', held', ?_, ?_, fun q => ?_, trivial, fun _ => rfl⟩
  · rw [same]
    rfl
  · rw [outbox]
    split
    · exact (List.append_nil _).symm
    · exact (List.append_nil _).symm
  · rw [same]
    rfl

theorem refl (a : NetAddr) (r : Router) : Tells a r r [] :=
  of_same rfl (fun peer held => ⟨peer, held, rfl⟩) rfl

end Tells

/-- Nothing about the peer `a` changed. -/
structure Untouched (a : NetAddr) (r s : Router) : Prop where
  env : s.env = r.env
  peer : s.peers.lookup a = r.peers.lookup a
  outbox : toward a s.outbox = toward a r.outbox

namespace Untouched

variable {a : NetAddr} {r s t : Router}

theorem refl (a : NetAddr) (r : Router) : Untouched a r r := ⟨rfl, rfl, rfl⟩

theorem trans (first : Untouched a r s) (second : Untouched a s t) : Untouched a r t :=
  ⟨second.env.trans first.env, second.peer.trans first.peer, second.outbox.trans first.outbox⟩

theorem tells (untouched : Untouched a r s) : Tells a r s [] :=
  Tells.of_same untouched.env (fun peer held => ⟨peer, untouched.peer.trans held, rfl⟩)
    untouched.outbox

end Untouched

/-! ## Sending -/

section Sending

variable {a b : NetAddr} {r : Router}

theorem toward_append (a : NetAddr) (sent sent' : List Sent) :
    toward a (sent ++ sent') = toward a sent ++ toward a sent' :=
  List.filter_append ..

theorem bgpPeerSend_peers {peer : Peer} (held : r.peers.lookup b = some peer) (body : MsgBody) :
    (bgpPeerSend r b body).2.peers =
      r.peers.modify b fun p => { p with sendSeqNum := p.sendSeqNum + 1 } := by
  simp only [bgpPeerSend, held]
  split
  · rfl
  · split
    · rfl
    · rfl

theorem bgpPeerSend_outbox {peer : Peer} (held : r.peers.lookup b = some peer) (body : MsgBody) :
    (bgpPeerSend r b body).2.outbox = r.outbox ++
      if delivers r.env b peer then numbered peer.srcAddr b peer.sendSeqNum [body] else [] := by
  simp only [bgpPeerSend, held, delivers]
  by_cases isVirtual : peer.virtual = true
  · simp [isVirtual, Router.modifyPeer]
  · by_cases reaches : r.env.sendReach peer.srcAddr b = true
    · simp [isVirtual, reaches, Router.modifyPeer, numbered]
    · simp [isVirtual, reaches, Router.modifyPeer]

theorem toward_numbered (a src b : NetAddr) (n : Nat) (bodies : List MsgBody) :
    toward a (numbered src b n bodies) = if b = a then numbered src b n bodies else [] := by
  induction bodies generalizing n with
  | nil => simp [numbered, toward]
  | cons body bodies inductionHypothesis =>
    have rest := inductionHypothesis (n + 1)
    simp only [toward, numbered, List.filter_cons] at rest ⊢
    rw [rest]
    by_cases same : b = a
    · simp [same]
    · simp [same]

theorem bgpPeerSend_other (differ : a ≠ b) (body : MsgBody) :
    Untouched a r (bgpPeerSend r b body).2 := by
  cases held : r.peers.lookup b with
  | none =>
    simp only [bgpPeerSend, held]
    exact Untouched.refl a r
  | some peer =>
    refine ⟨(bgpPeerSend_sends r b body).env, ?_, ?_⟩
    · rw [bgpPeerSend_peers held]
      exact Table.lookup_modify_ne _ differ _
    · rw [bgpPeerSend_outbox held, toward_append]
      split
      · rw [toward_numbered, if_neg (Ne.symm differ), List.append_nil]
      · exact List.append_nil _

theorem bgpPeerSend_lookup {peer : Peer} (held : r.peers.lookup a = some peer) (body : MsgBody) :
    (bgpPeerSend r a body).2.peers.lookup a =
      some { peer with sendSeqNum := peer.sendSeqNum + 1 } := by
  rw [bgpPeerSend_peers held, Table.lookup_modify_self, held]
  rfl

theorem bgpPeerSend_toward {peer : Peer} (held : r.peers.lookup a = some peer) (body : MsgBody) :
    toward a (bgpPeerSend r a body).2.outbox = toward a r.outbox ++
      if delivers r.env a peer then numbered peer.srcAddr a peer.sendSeqNum [body] else [] := by
  rw [bgpPeerSend_outbox held, toward_append]
  split
  · rw [toward_numbered, if_pos rfl]
  · rfl

/-! ## Dissemination to one peer -/

/-- What the dissemination of a route, or of the lack of one, tells an established peer. -/
inductive Told (r : Router) (a : NetAddr) (peer : Peer) (p : Pfx) (route : Option Route) :
    List MsgBody → Prop where
  | down (notUp : peer.sessionState ≠ .established) : Told r a peer p route []
  | silent (up : peer.sessionState = .established) (unheld : outKeys peer p = false)
      (unfit : route = none ∨ ∃ best, route = some best ∧ exportRoute r peer best = .ok none) :
      Told r a peer p route []
  | withdrawn (up : peer.sessionState = .established) (held : outKeys peer p = true)
      (unfit : route = none ∨ ∃ best, route = some best ∧ exportRoute r peer best = .ok none) :
      Told r a peer p route [.withdraw p]
  | announced (up : peer.sessionState = .established) (best announced : Route)
      (some_ : route = some best) (fit : exportRoute r peer best = .ok (some announced)) :
      Told r a peer p route [.update { announced with peer := some a }]

theorem ribOutWithdraw_told {peer : Peer} {p : Pfx} (held : r.peers.lookup a = some peer)
    (up : peer.sessionState = .established) (announced : outKeys peer p = true) :
    Tells a r (ribOutWithdraw r a peer p) [.withdraw p] := by
  obtain ⟨out, stored⟩ := Option.isSome_iff_exists.mp announced
  have removed : (r.modifyPeer a fun q => { q with adjRibOut := q.adjRibOut.removeRoute p }).peers.lookup
      a = some { peer with adjRibOut := peer.adjRibOut.removeRoute p } := by
    rw [modifyPeer_lookup, if_pos rfl, held]
    rfl
  simp only [ribOutWithdraw, stored, bgpPeerWithdrawPrefix]
  refine ⟨(bgpPeerSend_sends _ a _).env, fun {peer'} held' => ?_⟩
  rw [held] at held'
  cases held'
  refine ⟨_, bgpPeerSend_lookup removed _, rfl, bgpPeerSend_toward removed _, fun q => ?_,
    ⟨announced, trivial⟩, fun down => absurd up down⟩
  simp only [outKeys, Rib.findExact_removeRoute, replay, List.foldl_cons, List.foldl_nil, heard]
  by_cases same : ipPrefixMask q = ipPrefixMask p
  · simp [same]
  · simp [same]

theorem announce_told {peer : Peer} {best announced : Route} (held : r.peers.lookup a = some peer)
    (up : peer.sessionState = .established) (pfx : announced.pfx = best.pfx) :
    Tells a r (bgpRouterPeerRibOutReplace (bgpPeerAnnounceRoute r a announced) a best)
      [.update { announced with peer := some a }] := by
  have sent := bgpPeerSend_lookup held (.update { announced with peer := some a })
  simp only [bgpRouterPeerRibOutReplace, bgpPeerAnnounceRoute]
  refine ⟨(bgpPeerSend_sends r a _).env, fun {peer'} held' => ?_⟩
  rw [held] at held'
  cases held'
  refine ⟨{ peer with
      sendSeqNum := peer.sendSeqNum + 1, adjRibOut := peer.adjRibOut.addRoute best },
    ?_, rfl, bgpPeerSend_toward held _, fun q => ?_, ⟨trivial, trivial⟩, fun down => absurd up down⟩
  · rw [modifyPeer_lookup, if_pos rfl, sent]
    rfl
  · simp only [outKeys, Rib.findExact_addRoute, replay, List.foldl_cons, List.foldl_nil, heard, pfx]
    by_cases same : ipPrefixMask q = ipPrefixMask best.pfx
    · simp [same]
    · simp [same]

theorem disseminateToPeer_told {r' : Router} {peer : Peer} {p : Pfx} {route : Option Route}
    (held : r.peers.lookup a = some peer) (h : disseminateToPeer r p route a = .ok r') :
    ∃ bodies, Told r a peer p route bodies ∧ Tells a r r' bodies := by
  cases disseminateToPeer_cases h with
  | inl same => exact ⟨[], .down (same.1 peer held), same.2 ▸ Tells.refl a r⟩
  | inr sent =>
    obtain ⟨peer', held', up, outcome⟩ := sent
    rw [held] at held'
    cases held'
    obtain ⟨unfit, rfl⟩ | ⟨best, announced, rfl, exported, rfl⟩ := outcome
    · cases announced : outKeys peer p with
      | true => exact ⟨_, .withdrawn up announced unfit, ribOutWithdraw_told held up announced⟩
      | false =>
        refine ⟨[], .silent up announced unfit, ?_⟩
        have absent : peer.adjRibOut.findExact p = none := by simpa [outKeys] using announced
        simp only [ribOutWithdraw, absent]
        exact Tells.refl a r
    · have pfx := (exportRoute_ends r peer best).value exported announced rfl
      exact ⟨_, .announced up best announced rfl exported, announce_told held up pfx⟩

theorem modifyPeer_other (differ : a ≠ b) {f : Peer → Peer} : Untouched a r (r.modifyPeer b f) :=
  ⟨rfl, Table.lookup_modify_ne _ differ _, rfl⟩

/-- Dissemination to another peer does not touch this one. -/
theorem disseminateToPeer_other {r' : Router} {p : Pfx} {route : Option Route} (differ : a ≠ b)
    (h : disseminateToPeer r p route b = .ok r') : Untouched a r r' := by
  cases disseminateToPeer_cases h with
  | inl same => exact same.2 ▸ Untouched.refl a r
  | inr sent =>
    obtain ⟨peer, _, _, outcome⟩ := sent
    obtain ⟨_, rfl⟩ | ⟨best, announced, rfl, exported, rfl⟩ := outcome
    · unfold ribOutWithdraw
      cases peer.adjRibOut.findExact p with
      | none => exact Untouched.refl a r
      | some _ => exact (modifyPeer_other differ).trans (bgpPeerSend_other differ _)
    · exact (bgpPeerSend_other differ _).trans (modifyPeer_other differ)

/-! ## Dissemination to all peers -/

theorem Told.of_sends {s : Router} {peer : Peer} {p : Pfx} {route : Option Route}
    {bodies : List MsgBody} (sends : Sends r s) (told : Told s a peer p route bodies) :
    Told r a peer p route bodies := by
  cases told with
  | down notUp => exact .down notUp
  | silent up unheld unfit =>
    simp only [exportRoute_sends sends] at unfit
    exact .silent up unheld unfit
  | withdrawn up held unfit =>
    simp only [exportRoute_sends sends] at unfit
    exact .withdrawn up held unfit
  | announced up best announced some_ fit =>
    rw [exportRoute_sends sends] at fit
    exact .announced up best announced some_ fit

/-- The body of the loop of `disseminate`. -/
def tellPeer (p : Pfx) (route : Option Route) (r : Router) (b : NetAddr) : Except Abort Router :=
  match r.peers.lookup b with
  | none => .ok r
  | some peer => if bgpPeerSendEnabled peer then disseminateToPeer r p route b else .ok r

theorem tellPeer_other {r' : Router} {p : Pfx} {route : Option Route} (differ : a ≠ b)
    (h : tellPeer p route r b = .ok r') : Untouched a r r' := by
  unfold tellPeer at h
  split at h
  · cases h
    exact Untouched.refl a r
  · split at h
    · exact disseminateToPeer_other differ h
    · cases h
      exact Untouched.refl a r

theorem tellPeers_other {r' : Router} {p : Pfx} {route : Option Route} {addrs : List NetAddr}
    (absent : a ∉ addrs) (h : addrs.foldlM (tellPeer p route) r = .ok r') : Untouched a r r' := by
  refine foldlM_invariant (fun member told stepped => ?_)
    (Untouched.refl a r) h
  have differ : a ≠ _ := fun same => absent (same ▸ member)
  exact told.trans (tellPeer_other differ stepped)

theorem tellPeer_ends (r : Router) (p : Pfx) (route : Option Route) (b : NetAddr) :
    Ends (Sends r) Routing (tellPeer p route r b) := by
  unfold tellPeer
  split
  · exact Sends.refl r
  · split
    · exact disseminateToPeer_ends r p route b
    · exact Sends.refl r

/-- What a dissemination tells a peer of the router. -/
theorem disseminate_told {r' : Router} {peer : Peer} {p : Pfx} {route : Option Route}
    (held : r.peers.lookup a = some peer) (h : disseminate r p route = .ok r') :
    ∃ bodies, (bgpPeerSendEnabled peer = true → Told r a peer p route bodies) ∧
      (bgpPeerSendEnabled peer = false → bodies = []) ∧ Tells a r r' bodies := by
  -- the peer is visited once: before and after it, the loop tells others
  have nodup := r.peers.keys_nodup
  have member : a ∈ r.peers.keys := Table.mem_keys_iff.mpr ⟨peer, held⟩
  obtain ⟨before, after, shape⟩ := List.append_of_mem member
  have split_ : (before ++ a :: after).foldlM (tellPeer p route) r = .ok r' := shape ▸ h
  rw [shape, List.nodup_append, List.nodup_cons] at nodup
  rw [List.foldlM_append, except_bind_eq_ok] at split_
  obtain ⟨s, first, rest⟩ := split_
  rw [List.foldlM_cons, except_bind_eq_ok] at rest
  obtain ⟨t, here, last⟩ := rest
  have absentBefore : a ∉ before := fun inBefore => nodup.2.2 a inBefore a List.mem_cons_self rfl
  have early := tellPeers_other absentBefore first
  have late := tellPeers_other nodup.2.1.1 last
  have sends : Sends r s := foldlM_invariant
    (fun _ sends stepped => sends.trans ((tellPeer_ends _ p route _).value stepped))
    (Sends.refl r) first
  have held' : s.peers.lookup a = some peer := early.peer.trans held
  simp only [tellPeer, held'] at here
  cases enabled : bgpPeerSendEnabled peer with
  | true =>
    rw [enabled, if_pos rfl] at here
    obtain ⟨bodies, told, tells⟩ := disseminateToPeer_told held' here
    refine ⟨bodies, fun _ => told.of_sends sends, fun off => (by cases off), ?_⟩
    simpa using (early.tells.trans tells).trans late.tells
  | false =>
    simp only [enabled, Bool.false_eq_true, if_false, Except.ok.injEq] at here
    subst here
    exact ⟨[], fun on => (by cases on), fun _ => rfl, early.tells.trans late.tells⟩

end Sending

end Cbgp.Verified
