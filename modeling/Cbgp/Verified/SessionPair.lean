import Cbgp.Bgp.Network
import Cbgp.Verified.Posting
import Cbgp.Verified.SessionFsm

/-! # The two ends of a session

Two routers of a network that peer with each other, seen through their endpoints and the two
queues of messages between them.  Every step of the network is a step of one of the two ends, or
leaves them alone (`netStep_moves`), whatever the rest of the network does.
-/

namespace Cbgp.Verified

open Cbgp.Lib Cbgp.Net Cbgp.Bgp

variable {ι : Type} [DecidableEq ι] {owner : NetAddr → Option ι}

/-! ## Addresses in a network -/

/-- Sessions use addresses of their routers, two routers have at most one session between two
addresses, and messages are sent over sessions. -/
structure WellAddressed (owner : NetAddr → Option ι) (n : Network ι) : Prop where
  own : ∀ {k d peer}, (n.router k).peers.lookup d = some peer → peer.virtual = false →
    owner peer.srcAddr = some k
  once : ∀ {k d d' peer peer'}, (n.router k).peers.lookup d = some peer → peer.virtual = false →
    (n.router k).peers.lookup d' = some peer' → peer'.virtual = false →
    owner d = owner d' → peer.srcAddr = peer'.srcAddr → d = d'
  posted : ∀ k, ∀ sent ∈ (n.router k).outbox, ToPeer (n.router k) sent

/-- One router of the network took a step. -/
theorem WellAddressed.setRouter {n : Network ι} {k : ι} {r : Router} {op : Op}
    (well : WellAddressed owner n) (h : exec (n.router k) op = .ok r) :
    WellAddressed owner (n.setRouter k r) := by
  have configured := exec_configured h
  -- what is configured at a router is what was configured there before
  have before {m : ι} {d : NetAddr} {peer : Peer}
      (held : ((n.setRouter k r).router m).peers.lookup d = some peer) :
      ∃ peer', (n.router m).peers.lookup d = some peer' ∧ peerConfig peer' = peerConfig peer := by
    by_cases same : m = k
    · subst same
      simp only [Network.setRouter, Function.update_self] at held
      exact configured.lookup held
    · simp only [Network.setRouter, Function.update_of_ne same] at held
      exact ⟨peer, held, rfl⟩
  have srcOf {peer peer' : Peer} (same : peerConfig peer' = peerConfig peer) :
      peer'.virtual = peer.virtual ∧ peer'.srcAddr = peer.srcAddr := by
    have isVirtual : (peerConfig peer').virtual = (peerConfig peer).virtual := by rw [same]
    have srcAddr : (peerConfig peer').srcAddr = (peerConfig peer).srcAddr := by rw [same]
    exact ⟨isVirtual, srcAddr⟩
  refine ⟨fun held real => ?_, fun held real held' real' sameOwner sameSrc => ?_, fun m sent member => ?_⟩
  · obtain ⟨peer', was, same⟩ := before held
    obtain ⟨isVirtual, srcAddr⟩ := srcOf same
    exact srcAddr ▸ well.own was (isVirtual.trans real)
  · obtain ⟨first, was, same⟩ := before held
    obtain ⟨second, was', same'⟩ := before held'
    obtain ⟨isVirtual, srcAddr⟩ := srcOf same
    obtain ⟨isVirtual', srcAddr'⟩ := srcOf same'
    refine well.once was (isVirtual.trans real) was' (isVirtual'.trans real') sameOwner ?_
    rw [srcAddr, srcAddr', sameSrc]
  · by_cases same : m = k
    · subst same
      simp only [Network.setRouter, Function.update_self] at member ⊢
      have toPeer : ToPeer (n.router m) sent := by
        cases exec_addressed h sent member with
        | inl earlier => exact well.posted m sent earlier
        | inr toPeer => exact toPeer
      exact ToPeer.of_configured configured.symm toPeer
    · simp only [Network.setRouter, Function.update_of_ne same] at member ⊢
      exact well.posted m sent member

theorem WellAddressed.take {n : Network ι} (well : WellAddressed owner n) (k : ι) (d : NetAddr) :
    WellAddressed owner (n.take k d) :=
  ⟨well.own, well.once, well.posted⟩

theorem WellAddressed.step {n n' : Network ι} {op : NetOp ι} (well : WellAddressed owner n)
    (h : netStep owner n op = .ok n') : WellAddressed owner n' := by
  cases op with
  | act k op =>
    simp only [netStep, except_map_eq_ok] at h
    obtain ⟨r, stepped, rfl⟩ := h
    exact well.setRouter stepped
  | deliver k d =>
    simp only [netStep] at h
    split at h
    · obtain ⟨r, stepped, rfl⟩ := except_map_eq_ok.mp h
      exact (well.take k d).setRouter stepped
    · cases h
      exact well
  | lose k d =>
    simp only [netStep, Except.ok.injEq] at h
    subst h
    split
    · exact well
    · exact well.take k d

/-! ## Two ends -/

/-- The endpoint of a router's session with the peer at an address. -/
def side (n : Network ι) (i : ι) (b : NetAddr) : Endpoint :=
  (((n.router i).peers.lookup b).map endpoint).getD (.reset .idle)

/-- The messages on their way from a router to an address. -/
def wire (n : Network ι) (i : ι) (b : NetAddr) : List Msg :=
  (n.inFlight i b).map (·.msg)

/-- Messages from a router to an address leave. -/
def lineUp (n : Network ι) (i : ι) (b : NetAddr) : Bool :=
  ((n.router i).peers.lookup b).any (delivers (n.router i).env b)

/-- Router `i` has a session from its address `a` to the address `b` of router `j`. -/
structure Half (owner : NetAddr → Option ι) (n : Network ι) (i j : ι) (a b : NetAddr) : Prop where
  remote : owner b = some j
  peer : ∃ peer, (n.router i).peers.lookup b = some peer ∧ peer.virtual = false ∧ peer.srcAddr = a
  count : n.taken i b ≤ (toward b (n.router i).outbox).length

/-- Two routers peer with each other. -/
structure Mutual (owner : NetAddr → Option ι) (n : Network ι) (i j : ι) (a b : NetAddr) : Prop where
  differ : i ≠ j
  left : Half owner n i j a b
  right : Half owner n j i b a

omit [DecidableEq ι] in
theorem Mutual.symm {n : Network ι} {i j : ι} {a b : NetAddr} (mutual_ : Mutual owner n i j a b) :
    Mutual owner n j i b a :=
  ⟨mutual_.differ.symm, mutual_.right, mutual_.left⟩

/-- What happens to the left end of a session and the queues.  The input is the one the step of the
network has for the end; other inputs come from the rest of the network. -/
inductive Move (n n' : Network ι) (i j : ι) (a b : NetAddr) : NetOp ι → Prop where
  | act {op : NetOp ι} (input : Input) {e : Endpoint} {sent : List Msg}
      (source : input = .other ∨ ∃ o, op = .act i o ∧ input = inputOf b o)
      (spontaneous : ∀ msg, input ≠ .recv msg)
      (step : Endpoint.Step (n.router i).rid (lineUp n i b) ((n.router i).env.sessionOk b)
        (side n i b) input e sent)
      (moved : side n' i b = e) (stays : side n' j a = side n j a)
      (out : wire n' i b = wire n i b ++ sent) (back : wire n' j a = wire n j a) :
      Move n n' i j a b op
  | take {msg : Msg} {e : Endpoint} {sent : List Msg}
      (step : Endpoint.Step (n.router i).rid (lineUp n i b) ((n.router i).env.sessionOk b)
        (side n i b) (.recv msg) e sent)
      (moved : side n' i b = e) (stays : side n' j a = side n j a)
      (out : wire n' i b = wire n i b ++ sent) (back : wire n j a = msg :: wire n' j a) :
      Move n n' i j a b (.deliver j a)
  | lose {msg : Msg} (moved : side n' i b = side n i b) (stays : side n' j a = side n j a)
      (out : wire n' i b = wire n i b) (back : wire n j a = msg :: wire n' j a) :
      Move n n' i j a b (.lose j a)
  | rest {op : NetOp ι} (moved : side n' i b = side n i b) (stays : side n' j a = side n j a)
      (out : wire n' i b = wire n i b) (back : wire n' j a = wire n j a) :
      Move n n' i j a b op

section Moves

variable {n n' : Network ι} {i j k : ι} {a b d : NetAddr}

omit [DecidableEq ι] in
theorem wire_eq (n : Network ι) (i : ι) (b : NetAddr) :
    wire n i b = ((toward b (n.router i).outbox).drop (n.taken i b)).map (·.msg) := rfl

omit [DecidableEq ι] in
theorem Half.endpoint_eq (half : Half owner n i j a b) :
    ∃ peer, (n.router i).peers.lookup b = some peer ∧ peer.virtual = false ∧ peer.srcAddr = a ∧
      side n i b = endpoint peer ∧ lineUp n i b = delivers (n.router i).env b peer := by
  obtain ⟨peer, held, real, src⟩ := half.peer
  exact ⟨peer, held, real, src, by simp [side, held], by simp [lineUp, held]⟩

/-- The router of an end took a step. -/
theorem Half.exec {r : Router} {op : Op} (half : Half owner n i j a b)
    (h : exec (n.router i) op = .ok r) :
    Half owner (n.setRouter i r) i j a b ∧
      ∃ e sent, Endpoint.Step (n.router i).rid (lineUp n i b) ((n.router i).env.sessionOk b)
          (side n i b) (inputOf b op) e sent ∧
        side (n.setRouter i r) i b = e ∧ wire (n.setRouter i r) i b = wire n i b ++ sent := by
  obtain ⟨peer, held, real, src, sameSide, line⟩ := half.endpoint_eq
  obtain ⟨e, sent, step, turn⟩ := exec_step held real h
  obtain ⟨peer', held', session, isVirtual, srcAddr⟩ := turn.side
  have here : (n.setRouter i r).router i = r := by simp [Network.setRouter]
  refine ⟨⟨half.remote, ⟨peer', ?_, isVirtual.trans real, srcAddr.trans src⟩, ?_⟩, e, sent, ?_, ?_, ?_⟩
  · rw [here, held']
  · rw [here, turn.sent, List.length_append]
    exact Nat.le_add_right_of_le half.count
  · rw [sameSide, line]
    exact step
  · simp [side, here, held', session]
  · rw [wire_eq, wire_eq, here, turn.sent]
    have count : n.taken i b ≤ (toward b (n.router i).outbox).length := half.count
    rw [show (n.setRouter i r).taken = n.taken from rfl, List.drop_append_of_le_length count,
      List.map_append]
    simp [addressed, Function.comp_def]

theorem side_setRouter_ne {r : Router} (other : j ≠ i) (a : NetAddr) :
    side (n.setRouter i r) j a = side n j a := by
  simp [side, Network.setRouter, Function.update_of_ne other]

theorem wire_setRouter_ne {r : Router} (other : j ≠ i) (a : NetAddr) :
    wire (n.setRouter i r) j a = wire n j a := by
  simp [wire, Network.inFlight, Network.setRouter, Function.update_of_ne other]

theorem Half.setRouter_ne {r : Router} (other : j ≠ k) (half : Half owner n j i b a) :
    Half owner (n.setRouter k r) j i b a := by
  refine ⟨half.remote, ?_, ?_⟩
  · simpa [Network.setRouter, Function.update_of_ne other] using half.peer
  · simpa [Network.setRouter, Function.update_of_ne other] using half.count

theorem wire_take_ne (differ : (j, a) ≠ (k, d)) : wire (n.take k d) j a = wire n j a := by
  simp only [wire, Network.inFlight, Network.take]
  by_cases sameRouter : j = k
  · subst sameRouter
    have differ' : a ≠ d := fun same => differ (by rw [same])
    simp [Function.update_of_ne differ']
  · simp [Function.update_of_ne sameRouter]

theorem wire_take {msg : Msg} {rest : List Msg} (head : wire n j a = msg :: rest) :
    wire (n.take j a) j a = rest := by
  simp only [wire, Network.inFlight, Network.take, Function.update_self] at head ⊢
  rw [← List.tail_drop, List.map_tail, head]
  rfl

theorem Half.take_ne (differ : (i, b) ≠ (k, d)) (half : Half owner n i j a b) :
    Half owner (n.take k d) i j a b := by
  refine ⟨half.remote, half.peer, ?_⟩
  have count := half.count
  simp only [Network.take]
  by_cases sameRouter : i = k
  · subst sameRouter
    have differ' : b ≠ d := fun same => differ (by rw [same])
    simpa [Function.update_of_ne differ'] using count
  · simpa [Function.update_of_ne sameRouter] using count

/-- A message that was on its way is taken. -/
theorem Half.take {sent : Sent} {rest : List Sent} (head : n.inFlight i b = sent :: rest)
    (half : Half owner n i j a b) : Half owner (n.take i b) i j a b := by
  refine ⟨half.remote, half.peer, ?_⟩
  have nonempty : n.taken i b < (toward b (n.router i).outbox).length := by
    have length := congrArg List.length head
    simp only [Network.inFlight, List.length_drop, List.length_cons] at length
    simp only [toward]
    omega
  simpa [Network.take] using Nat.succ_le_of_lt nonempty

omit [DecidableEq ι] in
/-- A message that reaches a router under the address of its peer was sent over the session. -/
theorem WellAddressed.sender {sent : Sent} {rest : List Sent} (well : WellAddressed owner n)
    (mutual_ : Mutual owner n i j a b) (head : n.inFlight k d = sent :: rest)
    (target : owner d = some i) (source : sent.src = b) : k = j ∧ d = a := by
  have member : sent ∈ toward d (n.router k).outbox :=
    List.mem_of_mem_drop (head ▸ List.mem_cons_self)
  obtain ⟨inOutbox, dst⟩ := List.mem_filter.mp member
  obtain ⟨peer, held, real, src⟩ := well.posted k sent inOutbox
  have own := well.own held real
  rw [← src, source, mutual_.left.remote] at own
  cases own
  obtain ⟨peer', held', real', src'⟩ := mutual_.right.peer
  refine ⟨rfl, ?_⟩
  rw [of_decide_eq_true dst] at held
  refine well.once held real held' real' ?_ ?_
  · rw [target, mutual_.right.remote]
  · rw [← src, source, src']

omit [DecidableEq ι] in
theorem WellAddressed.source {sent : Sent} {rest : List Sent} (well : WellAddressed owner n)
    (half : Half owner n i j a b) (head : n.inFlight i b = sent :: rest) : sent.src = a := by
  have member : sent ∈ toward b (n.router i).outbox :=
    List.mem_of_mem_drop (head ▸ List.mem_cons_self)
  obtain ⟨inOutbox, dst⟩ := List.mem_filter.mp member
  obtain ⟨peer, held, _, src⟩ := well.posted i sent inOutbox
  obtain ⟨peer', held', _, src'⟩ := half.peer
  rw [of_decide_eq_true dst, held'] at held
  cases held
  exact src.trans src'

/-- A step of the network keeps the two ends and moves one of them, or none. -/
def Moves (owner : NetAddr → Option ι) (n n' : Network ι) (i j : ι) (a b : NetAddr) (op : NetOp ι) :
    Prop :=
  Mutual owner n' i j a b ∧ (Move n n' i j a b op ∨ Move n n' j i b a op)

omit [DecidableEq ι] in
theorem Moves.symm {op : NetOp ι} (moves : Moves owner n n' j i b a op) :
    Moves owner n n' i j a b op :=
  ⟨moves.1.symm, moves.2.symm⟩

/-- A message outside the session left the network before. -/
theorem Moves.of_take {op : NetOp ι} (moves : Moves owner (n.take k d) n' i j a b op)
    (left : (i, b) ≠ (k, d)) (right : (j, a) ≠ (k, d)) : Moves owner n n' i j a b op := by
  have sameOut := wire_take_ne (n := n) left
  have sameBack := wire_take_ne (n := n) right
  refine ⟨moves.1, moves.2.imp (fun move => ?_) fun move => ?_⟩
  · cases move with
    | act input source spontaneous step moved stays out back =>
      exact .act input source spontaneous step moved stays (sameOut ▸ out) (sameBack ▸ back)
    | take step moved stays out back => exact .take step moved stays (sameOut ▸ out) (sameBack ▸ back)
    | lose moved stays out back => exact .lose moved stays (sameOut ▸ out) (sameBack ▸ back)
    | rest moved stays out back => exact .rest moved stays (sameOut ▸ out) (sameBack ▸ back)
  · cases move with
    | act input source spontaneous step moved stays out back =>
      exact .act input source spontaneous step moved stays (sameBack ▸ out) (sameOut ▸ back)
    | take step moved stays out back => exact .take step moved stays (sameBack ▸ out) (sameOut ▸ back)
    | lose moved stays out back => exact .lose moved stays (sameBack ▸ out) (sameOut ▸ back)
    | rest moved stays out back => exact .rest moved stays (sameBack ▸ out) (sameOut ▸ back)

/-- A router handles something while no message of the session is touched. -/
theorem Mutual.acts {r : Router} {o : Op} {op : NetOp ι} (mutual_ : Mutual owner n i j a b)
    (h : exec (n.router i) o = .ok r)
    (source : inputOf b o = .other ∨ op = .act i o) (spontaneous : ∀ msg, inputOf b o ≠ .recv msg) :
    Moves owner n (n.setRouter i r) i j a b op := by
  have other := mutual_.differ.symm
  obtain ⟨half, e, sent, step, moved, out⟩ := mutual_.left.exec h
  refine ⟨⟨mutual_.differ, half, mutual_.right.setRouter_ne other⟩, .inl ?_⟩
  refine .act (inputOf b o) (source.imp_right fun same => ⟨o, same, rfl⟩) spontaneous step moved ?_ out ?_
  · exact side_setRouter_ne other a
  · exact wire_setRouter_ne other a

/-- The message at the head of the queue is handled by its receiver. -/
theorem Mutual.takes {r : Router} {sent : Sent} {rest : List Sent} (mutual_ : Mutual owner n i j a b)
    (head : n.inFlight j a = sent :: rest) (source : sent.src = b)
    (h : exec (n.router i) (.handleMessage sent.src sent.msg) = .ok r) :
    Moves owner n ((n.take j a).setRouter i r) i j a b (.deliver j a) := by
  have other := mutual_.differ.symm
  have differ : (i, b) ≠ (j, a) := fun same => mutual_.differ (Prod.mk.inj same).1
  have taken : Half owner (n.take j a) i j a b := mutual_.left.take_ne differ
  obtain ⟨half, e, out, step, moved, sends⟩ := taken.exec (r := r) h
  refine ⟨⟨mutual_.differ, half, (mutual_.right.take head).setRouter_ne other⟩, .inl ?_⟩
  have input : inputOf b (.handleMessage sent.src sent.msg) = .recv sent.msg := by
    simp [inputOf, source]
  rw [input] at step
  refine .take step moved ?_ ?_ ?_
  · exact side_setRouter_ne other a
  · rw [sends, wire_take_ne differ]
  · rw [wire_setRouter_ne other]
    have queue : wire n j a = sent.msg :: rest.map (·.msg) := by simp [wire, head]
    rw [wire_take queue, queue]

end Moves

/-- A delivery to one of the two routers. -/
theorem Mutual.delivered {r : Router} {sent : Sent} {rest : List Sent} {k : ι} {d : NetAddr}
    {n : Network ι} {i j : ι} {a b : NetAddr} (well : WellAddressed owner n)
    (mutual_ : Mutual owner n i j a b) (head : n.inFlight k d = sent :: rest)
    (target : owner d = some i) (h : exec (n.router i) (.handleMessage sent.src sent.msg) = .ok r) :
    Moves owner n ((n.take k d).setRouter i r) i j a b (.deliver k d) := by
  by_cases source : sent.src = b
  · obtain ⟨rfl, rfl⟩ := well.sender mutual_ head target source
    exact mutual_.takes head source h
  · -- the message is of another session of this router
    have notOut : (i, b) ≠ (k, d) := by
      intro same
      cases same
      rw [mutual_.left.remote] at target
      exact mutual_.differ (Option.some.inj target).symm
    have notBack : (j, a) ≠ (k, d) := by
      intro same
      cases same
      exact source (well.source mutual_.right head)
    have taken : Mutual owner (n.take k d) i j a b :=
      ⟨mutual_.differ, mutual_.left.take_ne notOut, mutual_.right.take_ne notBack⟩
    have input : inputOf b (.handleMessage sent.src sent.msg) = .other := by simp [inputOf, source]
    exact (taken.acts h (.inl input) (by simp [input])).of_take notOut notBack

/-- Every step of a network moves one end of a session, or none. -/
theorem netStep_moves {n n' : Network ι} {i j : ι} {a b : NetAddr} {op : NetOp ι}
    (well : WellAddressed owner n) (mutual_ : Mutual owner n i j a b) (genuine : Genuine n op)
    (h : netStep owner n op = .ok n') : Moves owner n n' i j a b op := by
  have still : Moves owner n n i j a b op := ⟨mutual_, .inl (.rest rfl rfl rfl rfl)⟩
  cases op with
  | act k o =>
    simp only [netStep, except_map_eq_ok] at h
    obtain ⟨r, stepped, rfl⟩ := h
    -- only messages of virtual peers are handled out of the blue
    have spontaneous {i j : ι} {a b : NetAddr} (mutual_ : Mutual owner n i j a b) (same : k = i) :
        ∀ msg, inputOf b o ≠ .recv msg := by
      subst same
      obtain ⟨peer, held, real, _⟩ := mutual_.left.peer
      intro msg input
      cases o with
      | handleMessage src msg' =>
        by_cases isPeer : src = b
        · subst isPeer
          rw [genuine peer held] at real
          cases real
        · simp [inputOf, isPeer] at input
      | openSession c | closeSession c | sessionRefresh c =>
        simp only [inputOf] at input
        split at input <;> cases input
      | addNetwork p | delNetwork p | rerun p | clearRib | netChange rt env => cases input
    by_cases atLeft : k = i
    · subst atLeft
      exact mutual_.acts stepped (.inr rfl) (spontaneous mutual_ rfl)
    · by_cases atRight : k = j
      · subst atRight
        exact (mutual_.symm.acts stepped (.inr rfl) (spontaneous mutual_.symm rfl)).symm
      · refine ⟨⟨mutual_.differ, mutual_.left.setRouter_ne (Ne.symm atLeft),
          mutual_.right.setRouter_ne (Ne.symm atRight)⟩, .inl (.rest ?_ ?_ ?_ ?_)⟩
        · exact side_setRouter_ne (Ne.symm atLeft) b
        · exact side_setRouter_ne (Ne.symm atRight) a
        · exact wire_setRouter_ne (Ne.symm atLeft) b
        · exact wire_setRouter_ne (Ne.symm atRight) a
  | deliver k d =>
    simp only [netStep] at h
    split at h
    next sent rest m head target =>
      obtain ⟨r, stepped, rfl⟩ := except_map_eq_ok.mp h
      by_cases atLeft : m = i
      · subst atLeft
        exact mutual_.delivered well head target stepped
      · by_cases atRight : m = j
        · subst atRight
          exact (mutual_.symm.delivered well head target stepped).symm
        · have notOut : (i, b) ≠ (k, d) := by
            intro same
            cases same
            rw [mutual_.left.remote] at target
            exact atRight (Option.some.inj target).symm
          have notBack : (j, a) ≠ (k, d) := by
            intro same
            cases same
            rw [mutual_.right.remote] at target
            exact atLeft (Option.some.inj target).symm
          refine ⟨⟨mutual_.differ, (mutual_.left.take_ne notOut).setRouter_ne (Ne.symm atLeft),
            (mutual_.right.take_ne notBack).setRouter_ne (Ne.symm atRight)⟩, .inl (.rest ?_ ?_ ?_ ?_)⟩
          · exact side_setRouter_ne (Ne.symm atLeft) b
          · exact side_setRouter_ne (Ne.symm atRight) a
          · rw [wire_setRouter_ne (Ne.symm atLeft), wire_take_ne notOut]
          · rw [wire_setRouter_ne (Ne.symm atRight), wire_take_ne notBack]
    · cases h
      exact still
  | lose k d =>
    simp only [netStep, Except.ok.injEq] at h
    subst h
    split
    · exact still
    next nonempty =>
      obtain ⟨sent, rest, head⟩ := List.exists_cons_of_ne_nil (by simpa using nonempty)
      have queue : wire n k d = sent.msg :: rest.map (·.msg) := by simp [wire, head]
      have next : wire n k d = sent.msg :: wire (n.take k d) k d := by rw [wire_take queue, queue]
      -- a message of one of the two queues, or of none of them
      by_cases isBack : (k, d) = (j, a)
      · cases isBack
        have notOut : (i, b) ≠ (j, a) := fun same => mutual_.differ (Prod.mk.inj same).1
        refine ⟨⟨mutual_.differ, mutual_.left.take_ne notOut, mutual_.right.take head⟩,
          .inl (.lose rfl rfl (wire_take_ne notOut) next)⟩
      · by_cases isOut : (k, d) = (i, b)
        · cases isOut
          have notBack : (j, a) ≠ (i, b) := fun same => mutual_.differ (Prod.mk.inj same).1.symm
          refine ⟨⟨mutual_.differ, mutual_.left.take head, mutual_.right.take_ne notBack⟩,
            .inr (.lose rfl rfl (wire_take_ne notBack) next)⟩
        · have notOut : (i, b) ≠ (k, d) := Ne.symm isOut
          have notBack : (j, a) ≠ (k, d) := Ne.symm isBack
          refine ⟨⟨mutual_.differ, mutual_.left.take_ne notOut, mutual_.right.take_ne notBack⟩,
            .inl (.rest rfl rfl (wire_take_ne notOut) (wire_take_ne notBack))⟩

end Cbgp.Verified
