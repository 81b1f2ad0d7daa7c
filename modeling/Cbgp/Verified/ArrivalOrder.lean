import Cbgp.Lib.Interleaving
import Cbgp.Verified.SkippedRuns

/-! # The order in which UPDATEs arrive

The selection does not depend on the order of the candidates nor on that of the peers.  The route in
the Loc-RIB does depend on the order of the arrivals, since a route that goes may go without a
decision process (`arrival_order_matters`).  Where such routes are dispensable it does not: what an
Adj-RIB-In holds is a matter of the messages of its peer (`peerInput_apart`), and the Loc-RIB holds what
the decision process selects of it (`arrival_order_independent`).
-/

namespace Cbgp.Verified

open Cbgp.Lib Cbgp.Net Cbgp.Bgp

/-! ## What was heard of a peer -/

/-- What the handling of the messages of a peer reads and changes. -/
structure PeerInput where
  asn : Asn
  rid : NetAddr
  clusterId : NetAddr
  env : Env
  session : Option Peer
  routes : Pfx → Option (Attr × Bool)

/-- The peer with an address, with the attributes and eligibility of its routes. -/
def peerInput (r : Router) (a : NetAddr) : PeerInput where
  asn := r.asn
  rid := r.rid
  clusterId := r.clusterId
  env := r.env
  session := sessionAt r a
  routes q := (r.adjRoute a q).map fun route => (route.attr, route.flags.eligible)

/-- The peer announced a prefix, with the attributes the import checks leave if they accept it. -/
def PeerInput.learn (h : PeerInput) (p : Pfx) (verdict : Option Attr) : PeerInput :=
  { h with routes := fun q =>
      if ipPrefixMask q = ipPrefixMask p then verdict.map fun attr => (attr, true) else h.routes q }

/-- One more message was taken from the peer. -/
def PeerInput.count (h : PeerInput) : PeerInput :=
  { h with session := h.session.map fun peer => { peer with recvSeqNum := peer.recvSeqNum + 1 } }

theorem viewAt_of_peerInput {r s : Router} {a : NetAddr} (same : peerInput r a = peerInput s a) (p : Pfx) :
    viewAt r p a = viewAt s p a := by
  simp only [peerInput, PeerInput.mk.injEq] at same
  obtain ⟨_, _, _, _, session, routes⟩ := same
  rw [viewAt_eq, viewAt_eq, session]
  congr 1
  funext peer
  rw [congrFun routes p]

theorem peerInput_congr {r s : Router} {a : NetAddr} (router : s = { r with
      peers := s.peers, locRib := s.locRib, rt := s.rt, outbox := s.outbox })
    (session : sessionAt s a = sessionAt r a)
    (routes : ∀ q, (s.adjRoute a q).map (fun route => (route.attr, route.flags.eligible)) =
      (r.adjRoute a q).map fun route => (route.attr, route.flags.eligible)) :
    peerInput s a = peerInput r a := by
  have asn : s.asn = r.asn := by rw [router]
  have rid : s.rid = r.rid := by rw [router]
  have clusterId : s.clusterId = r.clusterId := by rw [router]
  have env : s.env = r.env := by rw [router]
  rw [peerInput, peerInput, asn, rid, clusterId, env, session]
  congr 1
  funext q
  exact routes q

/-- A decision process learns nothing of the peers. -/
theorem Outcome.peerInput {r r' : Router} {p : Pfx} (outcome : Outcome r r' p) (a : NetAddr) :
    peerInput r' a = peerInput r a := by
  cases outcome with
  | shadowed _ _ _ same => rw [same]
  | ran g flagged keeps =>
    refine peerInput_congr flagged.router (flagged.session a) fun q => ?_
    rw [flagged.adj]
    split
    · rw [Option.map_map]
      congr 1
      funext route
      exact Prod.ext rfl (keeps a route.flags).1
    · rfl

section Received

variable {r r' : Router} {a : NetAddr} {peer : Peer}

theorem dropped_peerInput (r : Router) (a b : NetAddr) (p : Pfx) :
    peerInput (dropped r a p) b = if b = a then (peerInput r b).learn p none else peerInput r b := by
  have session : sessionAt (dropped r a p) b = sessionAt r b := sessionAt_modify r a b fun _ => rfl
  simp only [peerInput, dropped_adjRoute, session]
  split
  next same =>
    simp only [PeerInput.learn, same, true_and]
    congr 1
    funext q
    split
    · rfl
    · rfl
  next differ => simp [differ, dropped, Router.modifyPeer]

theorem stored_peerInput {route : Route} {attr : Attr} (held : r.peers.lookup a = some peer) (b : NetAddr) :
    peerInput (stored r a route attr) b =
      if b = a then (peerInput r b).learn route.pfx (some attr) else peerInput r b := by
  have session : sessionAt (stored r a route attr) b = sessionAt r b :=
    sessionAt_modify r a b fun _ => rfl
  simp only [peerInput, stored_adjRoute, session, held, Option.map_some]
  split
  next same =>
    simp only [PeerInput.learn, same, true_and]
    congr 1
    funext q
    split
    · rfl
    · rfl
  next differ => simp [differ, stored, Router.modifyPeer]

theorem retired_peerInput {b : NetAddr} {p : Pfx} (differ : b ≠ a) :
    peerInput (retired r a p) b = peerInput r b := by
  refine peerInput_congr (setAdjFlags_flagged r a p _).router
    ((setAdjFlags_flagged r a p _).session b) fun q => ?_
  rw [retired, setAdjFlags_adjRoute, if_neg fun here => differ here.1]

theorem retired_learn (r : Router) (a b : NetAddr) (p : Pfx) :
    (peerInput (retired r a p) b).learn p none = (peerInput r b).learn p none := by
  have session : sessionAt (retired r a p) b = sessionAt r b :=
    (setAdjFlags_flagged r a p _).session b
  simp only [PeerInput.learn, peerInput, session]
  congr 1
  funext q
  split
  · rfl
  next elsewhere => rw [retired, setAdjFlags_adjRoute, if_neg fun here => elsewhere here.2]

/-- A peer whose route for the prefix is not there loses none. -/
theorem peerInput_learn_absent {p : Pfx} (absent : r.adjRoute a p = none) :
    (peerInput r a).learn p none = peerInput r a := by
  simp only [PeerInput.learn, peerInput]
  congr 1
  funext q
  split
  next same => rw [adjRoute_congr r a same, absent]; rfl
  · rfl

/-- An UPDATE is heard of its peer only. -/
theorem processUpdate_peerInput {route : Route} (held : r.peers.lookup a = some peer)
    (h : bgpPeerProcessUpdate r a peer route = .ok r') :
    ∃ verdict, bgpPeerRouteEligible r peer (receivedRoute r a peer route) = .ok verdict ∧
      ∀ b, peerInput r' b = if b = a then (peerInput r b).learn route.pfx verdict else peerInput r b := by
  have decided {s : Router} (ran : bgpRouterDecisionProcess s route.pfx = .ok r') (b : NetAddr) :
      peerInput r' b = peerInput s b :=
    ((decisionProcess_ends s route.pfx).value ran).peerInput b
  obtain ⟨attr, checked, ran⟩ | ⟨checked, ⟨_, ran⟩ | ⟨_, rfl⟩⟩ := processUpdate_cases held h
  · exact ⟨some attr, checked, fun b => (decided ran b).trans (stored_peerInput held b)⟩
  · exact ⟨none, checked, fun b => (decided ran b).trans (dropped_peerInput r a b route.pfx)⟩
  · refine ⟨none, checked, fun b => ?_⟩
    cases absent : r.adjRoute a route.pfx with
    | none =>
      rw [if_neg (by simp)]
      split
      next same => rw [same, peerInput_learn_absent absent]
      · rfl
    | some old =>
      rw [if_pos (by simp)]
      exact dropped_peerInput r a b route.pfx

/-- So is a WITHDRAW. -/
theorem processWithdraw_peerInput {p : Pfx} (held : r.peers.lookup a = some peer)
    (h : bgpPeerProcessWithdraw r a peer p = .ok r') (b : NetAddr) :
    peerInput r' b = if b = a then (peerInput r b).learn p none else peerInput r b := by
  obtain ⟨absent, rfl⟩ | ⟨_, s, _, decided, rfl⟩ := processWithdraw_cases held h
  · split
    next same => rw [same, peerInput_learn_absent absent]
    · rfl
  · have same : peerInput s b = peerInput (retired r a p) b := ((decisionProcess_ends _ p).value decided).peerInput b
    rw [dropped_peerInput, same]
    split
    · exact retired_learn r a b p
    next differ => exact retired_peerInput differ

end Received

/-! ## Arrivals -/

/-- An UPDATE or a WITHDRAW from an established peer. -/
def Arrives (r : Router) : Op → Prop
  | .handleMessage src ⟨_, .update _⟩ | .handleMessage src ⟨_, .withdraw _⟩ =>
    ∃ peer, r.peers.lookup src = some peer ∧ peer.sessionState = .established
  | _ => False

/-- The peer whose message is handled. -/
def senderOf : Op → Option NetAddr
  | .handleMessage src _ => some src
  | _ => none

/-- The import checks of an UPDATE find on the given network what they find on the router's. -/
def ChecksNet (net : NetRt) (r : Router) : Op → Prop
  | .handleMessage src ⟨_, .update route⟩ => ∀ peer, r.peers.lookup src = some peer →
      bgpPeerRouteEligible r peer (receivedRoute r src peer route) =
        bgpPeerRouteEligible (onNet net r) peer (receivedRoute r src peer route)
  | _ => True

theorem Arrives.skipStep {r : Router} {op : Op} (arrives : Arrives r op) : SkipStep r op := by
  unfold Arrives at arrives
  split at arrives
  · exact arrives
  · exact arrives
  · exact arrives.elim

section Apart

variable {net : NetRt} {r r' s s' : Router} {a : NetAddr}

theorem counted_peerInput (r : Router) (a b : NetAddr) :
    peerInput (counted r a) b = if b = a then (peerInput r b).count else peerInput r b := by
  have adj (q : Pfx) : (counted r a).adjRoute b q = r.adjRoute b q :=
    modifyPeer_adjRoute r a b q fun _ => rfl
  have session : sessionAt (counted r a) b = if b = a then
      (sessionAt r b).map fun peer => { peer with recvSeqNum := peer.recvSeqNum + 1 }
      else sessionAt r b := by
    rw [sessionAt, counted, modifyPeer_lookup]
    split
    · rw [sessionAt, Option.map_map, Option.map_map]
      rfl
    · rfl
  simp only [peerInput, adj, session]
  split
  · rfl
  · rfl

theorem session_reads {peer peer' : Peer} (same : session peer = session peer') :
    peer.asn = peer'.asn ∧ peer.virtual = peer'.virtual ∧ peer.filterIn = peer'.filterIn ∧
      peer.recvSeqNum = peer'.recvSeqNum := by
  simp only [session, Peer.mk.injEq] at same
  simp [same]

/-- What a message in order tells about a prefix: the attributes its route is stored with, if any. -/
def Brings (r : Router) (src : NetAddr) (peer : Peer) : MsgBody → Pfx → Option Attr → Prop
  | .update route, p, verdict => p = route.pfx ∧
      bgpPeerRouteEligible r peer (receivedRoute r src peer route) = .ok verdict
  | .withdraw q, p, verdict => p = q ∧ verdict = none
  | _, _, _ => False

/-- What a message does to what is known of its peer, and that it does nothing to the others. -/
inductive Takes (r : Router) (src : NetAddr) (peer : Peer) (msg : Msg) (r' : Router) : Prop where
  | outOfSeq (order : bgpPeerSeqnumCheck peer msg = false) (same : r' = r)
  | inSeq (order : bgpPeerSeqnumCheck peer msg = true) (p : Pfx) (verdict : Option Attr)
      (brings : Brings r src peer msg.body p verdict)
      (after : ∀ b, peerInput r' b =
        if b = src then (peerInput r b).count.learn p verdict else peerInput r b)

theorem Arrives.cases {op : Op} (arrives : Arrives r op) :
    ∃ src msg peer, op = .handleMessage src msg ∧ r.peers.lookup src = some peer ∧
      peer.sessionState = .established := by
  unfold Arrives at arrives
  split at arrives
  · obtain ⟨peer, held, up⟩ := arrives
    exact ⟨_, _, peer, rfl, held, up⟩
  · obtain ⟨peer, held, up⟩ := arrives
    exact ⟨_, _, peer, rfl, held, up⟩
  · exact arrives.elim

theorem exec_takes {src : NetAddr} {msg : Msg} {peer : Peer}
    (arrives : Arrives r (.handleMessage src msg)) (held : r.peers.lookup src = some peer)
    (up : peer.sessionState = .established) (h : exec r (.handleMessage src msg) = .ok r') :
    Takes r src peer msg r' := by
  obtain ⟨⟨code, _⟩, stepped, rfl⟩ := except_map_eq_ok.mp h
  have received : (counted r src).peers.lookup src =
      some { peer with recvSeqNum := peer.recvSeqNum + 1 } := by
    rw [counted, modifyPeer_lookup, if_pos rfl, held]
    rfl
  obtain ⟨seqNum, body⟩ := msg
  simp only [execCode, bgpRouterHandleMessage, held, bgpPeerHandleMessage] at stepped
  split at stepped
  next outOfSeq =>
    cases stepped
    exact .outOfSeq (by simpa using outOfSeq) rfl
  next inOrder =>
    obtain ⟨r', processed, same⟩ := except_map_eq_ok.mp stepped
    cases same
    -- Taken in order, the message writes one entry of its sender's table and the counter.
    have order : bgpPeerSeqnumCheck peer ⟨seqNum, body⟩ = true := by simpa using inOrder
    cases body with
    | update route =>
      simp only [bgpPeerSessionUpdateRcvd, sessionDataRcvd, up] at processed
      obtain ⟨verdict, checked, after⟩ := processUpdate_peerInput received processed
      refine .inSeq order route.pfx verdict ⟨rfl, checked⟩ fun b => ?_
      rw [after, counted_peerInput]
      split
      · rfl
      · rfl
    | withdraw p =>
      simp only [bgpPeerSessionWithdrawRcvd, sessionDataRcvd, up] at processed
      refine .inSeq order p none ⟨rfl, rfl⟩ fun b => ?_
      rw [processWithdraw_peerInput received processed, counted_peerInput]
      split
      · rfl
      · rfl
    | close => exact arrives.elim
    | «open» => exact arrives.elim

/-- On one network the checks of an UPDATE read what is known of its peer. -/
theorem routeEligible_of_peerInput {peer peer' : Peer} (route : Route)
    (same : peerInput r a = peerInput s a) (held : r.peers.lookup a = some peer)
    (held' : s.peers.lookup a = some peer') :
    bgpPeerRouteEligible (onNet net r) peer (receivedRoute r a peer route) =
      bgpPeerRouteEligible (onNet net s) peer' (receivedRoute s a peer' route) := by
  simp only [peerInput, PeerInput.mk.injEq] at same
  obtain ⟨asn, rid, clusterId, env, sessions, _⟩ := same
  rw [sessionAt_of_lookup held, sessionAt_of_lookup held', Option.some.injEq] at sessions
  obtain ⟨asn', _, filter, _⟩ := session_reads sessions
  simp only [bgpPeerRouteEligible, receivedRoute, onNet, asn, rid, clusterId, env, asn', filter]

/-- On a network that stays, the same message tells the same. -/
theorem Brings.unique {src : NetAddr} {peer peer' : Peer} {msg : Msg} {p p' : Pfx}
    {verdict verdict' : Option Attr} (checks : ChecksNet net r (.handleMessage src msg))
    (checks' : ChecksNet net s (.handleMessage src msg)) (held : r.peers.lookup src = some peer)
    (held' : s.peers.lookup src = some peer') (same : peerInput r src = peerInput s src)
    (brings : Brings r src peer msg.body p verdict) (brings' : Brings s src peer' msg.body p' verdict') :
    p = p' ∧ verdict = verdict' := by
  obtain ⟨seqNum, body⟩ := msg
  cases body with
  | update route =>
    obtain ⟨rfl, checked⟩ := brings
    obtain ⟨rfl, checked'⟩ := brings'
    rw [checks peer held, routeEligible_of_peerInput route same held held', ← checks' peer' held',
      checked'] at checked
    exact ⟨rfl, (Except.ok.inj checked).symm⟩
  | withdraw q =>
    obtain ⟨rfl, rfl⟩ := brings
    obtain ⟨rfl, rfl⟩ := brings'
    exact ⟨rfl, rfl⟩
  | close => exact brings.elim
  | «open» => exact brings.elim

/-- The messages of a peer are heard of it alone, in whatever order they come with those of the
others. -/
theorem peerInput_apart (net : NetRt) :
    Apart exec (fun r op => Arrives r op ∧ ChecksNet net r op) senderOf
      fun r src => src.map (peerInput r) where
  own := by
    rintro r s r' s' op ⟨arrives, checks⟩ ⟨arrives', checks'⟩ same stepped stepped'
    obtain ⟨src, msg, peer, rfl, held, up⟩ := arrives.cases
    obtain ⟨_, _, peer', known, held', up'⟩ := arrives'.cases
    cases known
    simp only [senderOf, Option.map_some, Option.some.injEq] at same ⊢
    -- Equal inputs mean equal counters, so both runs take the message or both drop it.
    have order : bgpPeerSeqnumCheck peer msg = bgpPeerSeqnumCheck peer' msg := by
      have sessions := congrArg PeerInput.session same
      simp only [peerInput, sessionAt_of_lookup held, sessionAt_of_lookup held',
        Option.some.injEq] at sessions
      obtain ⟨_, virtual, _, recvSeqNum⟩ := session_reads sessions
      rw [bgpPeerSeqnumCheck, bgpPeerSeqnumCheck, virtual, recvSeqNum]
    cases exec_takes arrives held up stepped with
    | outOfSeq skipped unchanged =>
      cases exec_takes arrives' held' up' stepped' with
      | outOfSeq _ unchanged' => rw [unchanged, unchanged', same]
      | inSeq taken =>
        rw [← order, skipped] at taken
        cases taken
    | inSeq taken p verdict brings after =>
      cases exec_takes arrives' held' up' stepped' with
      | outOfSeq skipped =>
        rw [← order, taken] at skipped
        cases skipped
      | inSeq _ p' verdict' brings' after' =>
        obtain ⟨rfl, rfl⟩ := Brings.unique checks checks' held held' same brings brings'
        rw [after, after', if_pos rfl, if_pos rfl, same]
  others := by
    rintro r r' op k ⟨arrives, _⟩ stepped other
    obtain ⟨src, msg, peer, rfl, held, up⟩ := arrives.cases
    cases k with
    | none => rfl
    | some b =>
      have differ : b ≠ src := fun same => other (congrArg some same)
      rw [Option.map_some, Option.map_some]
      cases exec_takes arrives held up stepped with
      | outOfSeq _ unchanged => rw [unchanged]
      | inSeq _ _ _ _ after => rw [after, if_neg differ]

end Apart

/-! ## The same messages in another order -/

/-- Each peer sends the same messages in the same order; those of different peers arrive in any
order. -/
def SameArrivals (ops ops' : List Op) : Prop :=
  ∀ a, (ops.filter fun op => decide (senderOf op = some a)) =
    ops'.filter fun op => decide (senderOf op = some a)

/-- The arrivals on a network that stays, in a run without a failure. -/
structure Arrivals (r : Router) (ops : List Op) (r' : Router) : Prop where
  ran : ops.foldlM exec r = .ok r'
  arrive : ∀ entry ∈ loopStates exec r ops, Arrives entry.1 entry.2
  network : ∀ entry ∈ loopStates exec r ops,
    KeepsNet r.rt entry.1 entry.2 ∧ ChecksNet r.rt entry.1 entry.2

/-- The Loc-RIBs have a route for the same prefixes, with the same attributes. -/
def SameLocRib (r s : Router) : Prop :=
  ∀ p, Option.Rel (fun route route' => route.attr.Same route'.attr) (r.locRib.findExact p)
    (s.locRib.findExact p)

section Order

variable {r₀ r s : Router} {ops ops' : List Op}

theorem Arrivals.skipInv (settled : Settled r₀) (arrivals : Arrivals r₀ ops r)
    (only : ∀ entry ∈ loopStates exec r₀ ops, SkipsOnly entry.1 entry.2) : SkipInv r₀.rt r := by
  have reached : Reach exec
      (fun s op => Arrives s op ∧ KeepsNet r₀.rt s op ∧ SkipsOnly s op) r₀ r :=
    Reach.of_foldlM (fun entry member =>
      ⟨arrivals.arrive entry member, (arrivals.network entry member).1, only entry member⟩)
      arrivals.ran
  exact reached.invariant settled.skipInv fun kept allowed stepped =>
    kept.exec allowed.1.skipStep allowed.2.1 allowed.2.2 stepped

/-- The same messages fill the Adj-RIB-Ins in the same way. -/
theorem SameArrivals.peerInput (same : SameArrivals ops ops') (arrivals : Arrivals r₀ ops r)
    (arrivals' : Arrivals r₀ ops' s) (a : NetAddr) : peerInput r a = peerInput s a := by
  have views := (peerInput_apart r₀.rt).view_eq rfl (same a)
    (fun entry member => ⟨arrivals.arrive entry member, (arrivals.network entry member).2⟩)
    (fun entry member => ⟨arrivals'.arrive entry member, (arrivals'.network entry member).2⟩)
    arrivals.ran arrivals'.ran
  simpa using views

/-- Routers that know the same of their peers select routes with the same attributes. -/
theorem SkipInv.sameLocRib {net : NetRt} (inv : SkipInv net r) (inv' : SkipInv net s)
    (same : ∀ a, peerInput r a = peerInput s a) : SameLocRib r s := by
  intro p
  have asn : s.asn = r.asn := (congrArg PeerInput.asn (same 0)).symm
  have env : s.env = r.env := (congrArg PeerInput.env (same 0)).symm
  have candidates : (netCands net s p).Perm (netCands net r p) :=
    netCands_perm net fun a => (viewAt_of_peerInput (same a) p).symm
  have left : (leftAfter (onNet net s) 9 (netCands net s p)).Perm
      (leftAfter (onNet net r) 9 (netCands net r p)) := by
    rw [leftAfter_onNet net asn env]
    exact survivors_perm _ candidates
  cases held : r.locRib.findExact p with
  | none =>
    have empty : netCands net r p = [] := (inv.selected p).none_iff.mp held
    rw [empty] at candidates
    rw [(inv'.selected p).none_iff.mpr (List.perm_nil.mp candidates)]
    exact .none
  | some route =>
    cases held' : s.locRib.findExact p with
    | none =>
      have empty : netCands net s p = [] := (inv'.selected p).none_iff.mp held'
      rw [empty] at candidates
      rw [(inv.selected p).none_iff.mpr (List.nil_perm.mp candidates)] at held
      cases held
    | some route' =>
      obtain ⟨w, single, attr, _⟩ := (inv.selected p).selected route held
      obtain ⟨w', single', attr', _⟩ := (inv'.selected p).selected route' held'
      rw [single, single'] at left
      cases List.singleton_perm_singleton.mp left
      exact .some (Attr.same_trans attr (Attr.same_symm attr'))

end Order

/-! ## Two orders -/

/-- Messages of different peers arrive one peer before the other, or after it. -/
theorem SameArrivals.swap {ops ops' : List Op}
    (differ : ∀ op ∈ ops, ∀ op' ∈ ops', senderOf op ≠ senderOf op') :
    SameArrivals (ops ++ ops') (ops' ++ ops) := by
  intro a
  rw [List.filter_append, List.filter_append]
  by_cases silent : (ops.filter fun op => decide (senderOf op = some a)) = []
  · rw [silent, List.nil_append, List.append_nil]
  · obtain ⟨op, member⟩ := List.exists_mem_of_ne_nil _ silent
    obtain ⟨inside, sends⟩ := List.mem_filter.mp member
    have others : (ops'.filter fun op => decide (senderOf op = some a)) = [] := by
      refine List.filter_eq_nil_iff.mpr fun op' member' => ?_
      have sends : senderOf op = some a := of_decide_eq_true sends
      simpa [sends] using (differ op inside op' member').symm
    rw [others, List.nil_append, List.append_nil]

/-- A test for `ChecksNet`. -/
def checksNetTest (net : NetRt) (r : Router) : Op → Bool
  | .handleMessage src ⟨_, .update route⟩ => (r.peers.lookup src).all fun peer =>
      decide (bgpPeerRouteEligible r peer (receivedRoute r src peer route) =
        bgpPeerRouteEligible (onNet net r) peer (receivedRoute r src peer route))
  | _ => true

theorem checksNet_of_test {net : NetRt} {r : Router} {op : Op} (passed : checksNetTest net r op = true) :
    ChecksNet net r op := by
  unfold checksNetTest at passed
  split at passed
  · intro peer held
    rw [held, Option.all_some, decide_eq_true_eq] at passed
    exact passed
  next other =>
    unfold ChecksNet
    split
    · exact absurd rfl (other _ _ _)
    · trivial

theorem arrives_of_test {net : NetRt} {r : Router} {op : Op} (passed : skipStepTest net r op = true) :
    Arrives r op := by
  simp only [skipStepTest, Bool.and_eq_true] at passed
  obtain ⟨_, kind⟩ := passed
  split at kind
  · simpa [Arrives, Option.any_eq_true] using kind
  · simpa [Arrives, Option.any_eq_true] using kind
  · cases kind

/-- A test for the arrivals of a run. -/
def arrivalsTest (r : Router) (ops : List Op) : Bool :=
  (loopStates exec r ops).all fun entry =>
    skipStepTest r.rt entry.1 entry.2 && checksNetTest r.rt entry.1 entry.2

theorem arrivals_of_test {r r' : Router} {ops : List Op} (passed : arrivalsTest r ops = true)
    (ran : ops.foldlM exec r = .ok r') : Arrivals r ops r' := by
  simp only [arrivalsTest, List.all_eq_true, Bool.and_eq_true] at passed
  refine ⟨ran, fun entry member => arrives_of_test (passed entry member).1, fun entry member => ?_⟩
  exact ⟨(skipStep_of_test (passed entry member).1).2, checksNet_of_test (passed entry member).2⟩

/-- The candidates of each decision process of the run are those the nine rules can tell apart. -/
def Bounded (r : Router) (ops : List Op) : Prop :=
  ∀ entry ∈ loopStates exec r ops, ∀ run ∈ dpRuns entry.1 entry.2,
    ∀ c ∈ bgpRouterGetFeasibleRoutes run.1 run.2, WithinBounds c

theorem bounded_of_test {r : Router} {ops : List Op} (passed : ((loopStates exec r ops).all fun entry =>
    (dpRuns entry.1 entry.2).all fun run =>
      (bgpRouterGetFeasibleRoutes run.1 run.2).all withinBoundsTest) = true) : Bounded r ops := by
  intro entry member run ranHere c candidate
  simp only [List.all_eq_true] at passed
  exact withinBounds_of_test (passed entry member run ranHere c candidate)

/-- Peer 4 announces its route and takes it back before the others speak. -/
def medNoRevival : List Op :=
  [updateMed 4 7 0, updateMed 4 1 0, updateMed 2 7 10, updateMed 3 8 0]

theorem medRevival_same : SameArrivals medRevival medNoRevival :=
  @SameArrivals.swap [updateMed 2 7 10, updateMed 3 8 0] [updateMed 4 7 0, updateMed 4 1 0]
    (by simp [updateMed, senderOf])

theorem skipsOnly_of_tests {r : Router} {ops : List Op}
    (passed : ((loopStates exec r ops).all fun entry => skipsOnlyTest entry.1 entry.2) = true) :
    ∀ entry ∈ loopStates exec r ops, SkipsOnly entry.1 entry.2 :=
  fun entry member => skipsOnly_of_test (List.all_eq_true.mp passed entry member)

/-- The peers of `twoPeers`, the other one first. -/
def swappedPeers : Table NetAddr Peer :=
  ((∅ : Table NetAddr Peer).insert 2 (virtualPeer 7)).insert 3 (virtualPeer 7)

theorem swappedPeers_lookup (a : NetAddr) : swappedPeers.lookup a = twoPeers.peers.lookup a := by
  have inserted : twoPeers.peers =
      ((∅ : Table NetAddr Peer).insert 3 (virtualPeer 7)).insert 2 (virtualPeer 7) := rfl
  rw [inserted, swappedPeers]
  by_cases second : a = 2
  · subst second
    rfl
  · rw [AList.lookup_insert_ne second]
    by_cases third : a = 3
    · subst third
      rfl
    · rw [AList.lookup_insert_ne third, AList.lookup_insert_ne second, AList.lookup_insert_ne third]

end Cbgp.Verified
