import Cbgp.Verified.SessionPair

/-! # Sequence numbers and the aborts of the state machine

However two routers open, close and refresh their session, and whatever messages are lost, an OPEN
has the number 0, and an UPDATE or a WITHDRAW has not; a session that waits for an OPEN takes
nothing else before.  Hence the `abort()` branches are reached in two ways only: an OPEN meets a
peer that is IDLE, or an UPDATE or WITHDRAW meets a peer that went down and then counted stray
CLOSEs up to the number of the message (`delivery_aborts_iff`).
-/

namespace Cbgp.Verified

open Cbgp.Lib Cbgp.Net Cbgp.Bgp

/-! ## Endpoints and their messages -/

/-- The counters of an endpoint fit its state. -/
structure Endpoint.Tidy (e : Endpoint) : Prop where
  down : e.state = .idle ∨ e.state = .active → e.sendSeqNum = 0
  waits : e.state = .openWait → e.sendSeqNum = 1 ∧ e.recvSeqNum = 0
  up : e.state = .established → 0 < e.sendSeqNum ∧ 0 < e.recvSeqNum

/-- A message as an endpoint of the router with an identifier sends it. -/
def MsgOf (rid : NetAddr) (msg : Msg) : Prop :=
  match msg.body with
  | .open routerId => msg.seqNum = 0 ∧ routerId = rid
  | .close => True
  | .update _ | .withdraw _ => msg.seqNum ≠ 0

section Control

variable {rid rid' : NetAddr} {line ok : Bool} {e e' : Endpoint} {sent : List Msg}

theorem Endpoint.tidy_reset {state : SessionState} (down : state = .idle ∨ state = .active) :
    (Endpoint.reset state).Tidy where
  down _ := rfl
  waits isWaiting := by
    rw [show (Endpoint.reset state).state = state from rfl] at isWaiting
    simp [isWaiting] at down
  up isUp := by
    rw [show (Endpoint.reset state).state = state from rfl] at isUp
    simp [isUp] at down

theorem MsgOf.isData {msg : Msg} (of : MsgOf rid msg) (data : isData msg.body = true) :
    msg.seqNum ≠ 0 := by
  simp only [MsgOf] at of
  cases body : msg.body with
  | update route => simpa [body] using of
  | withdraw p => simpa [body] using of
  | close => simp [body, Verified.isData] at data
  | «open» routerId => simp [body, Verified.isData] at data

theorem farewell_of (rid : NetAddr) (line : Bool) (e : Endpoint) :
    ∀ msg ∈ e.farewell line, MsgOf rid msg := by
  simp only [Endpoint.farewell]
  split
  · simp [MsgOf]
  · simp

/-- An endpoint that waits takes no route: it expects the number 0. -/
theorem Endpoint.Tidy.refuses_route {msg : Msg} (tidy : e.Tidy) (of : MsgOf rid' msg)
    (inOrder : e.inOrder msg = true) (data : isData msg.body = true) : e.state ≠ .openWait := by
  intro waiting
  have number := of.isData data
  have notClose : msg.body ≠ .close := fun same => by simp [same, Verified.isData] at data
  simp only [Endpoint.inOrder, Bool.or_eq_true, decide_eq_true_eq] at inOrder
  rw [(tidy.waits waiting).2] at inOrder
  exact number (inOrder.resolve_right notClose).symm

/-- The state machine keeps the counters tidy and sends tidy messages. -/
theorem control_tidy {input : Input} (tidy : e.Tidy) (of : ∀ msg, input = .recv msg → MsgOf rid' msg)
    (h : control rid line ok e input = .ok (e', sent)) :
    e'.Tidy ∧ ∀ msg ∈ sent, MsgOf rid msg := by
  cases control_reacts h with
  | stays => exact ⟨tidy, by simp⟩
  -- An end that opens or closes starts its numbers again; a message in order advances them.
  | opens => exact ⟨⟨by simp, by simp, by simp⟩, by simp [MsgOf]⟩
  | unsent => exact ⟨Endpoint.tidy_reset (.inr rfl), by simp⟩
  | closes => exact ⟨Endpoint.tidy_reset (.inl rfl), farewell_of rid line e⟩
  | loses => exact ⟨Endpoint.tidy_reset (.inr rfl), farewell_of rid line e⟩
  | closed => exact ⟨Endpoint.tidy_reset (.inr rfl), by simp⟩
  | hears heard inOrder data live =>
    have up := live.resolve_left (tidy.refuses_route (of _ heard) inOrder data)
    exact ⟨⟨by simp, by simp, fun _ => ⟨(tidy.up up).1, Nat.succ_pos _⟩⟩, by simp⟩
  | ignores heard isClose down =>
    refine ⟨⟨fun _ => tidy.down down, fun waits => ?_, fun up => ?_⟩, by simp⟩
    · rw [show e.state = .openWait from waits] at down
      simp at down
    · rw [show e.state = .established from up] at down
      simp at down
  | answers heard opening isActive =>
    refine ⟨⟨by simp, by simp, fun _ => ⟨Nat.succ_pos _, Nat.succ_pos _⟩⟩, ?_⟩
    have zero := tidy.down (.inr isActive)
    split
    · simp [MsgOf, zero]
    · simp
  | meets heard opening waits =>
    refine ⟨⟨by simp, by simp, fun _ => ⟨?_, Nat.succ_pos _⟩⟩, by simp⟩
    simp [(tidy.waits waits).1]

theorem letters_of {n : Nat} {data : List MsgBody} (first : 0 < n) (fits : n + data.length ≤ seqMod)
    (routes : ∀ body ∈ data, isData body = true) : ∀ msg ∈ letters n data, MsgOf rid msg := by
  induction data generalizing n with
  | nil => simp [letters]
  | cons body data inductionHypothesis =>
    simp only [List.length_cons] at fits
    rw [letters, List.forall_mem_cons]
    refine ⟨?_, inductionHypothesis (by omega) (by omega) fun b member =>
      routes b (List.mem_cons_of_mem _ member)⟩
    have number : n % seqMod ≠ 0 := by
      rw [Nat.mod_eq_of_lt (by omega)]
      omega
    have kind := routes body List.mem_cons_self
    cases body with
    | update route => exact number
    | withdraw p => exact number
    | close => cases kind
    | «open» routerId => cases kind

/-- A step of an endpoint keeps the counters tidy and sends tidy messages, while its counter has not
wrapped around. -/
theorem Endpoint.Step.tidy {input : Input} (step : Endpoint.Step rid line ok e input e' sent)
    (tidy : e.Tidy) (fits : e'.sendSeqNum ≤ seqMod)
    (of : ∀ msg, input = .recv msg → MsgOf rid' msg) : e'.Tidy ∧ ∀ msg ∈ sent, MsgOf rid msg := by
  cases step with
  | @mk e₁ sent₁ data controlled routes silent =>
    obtain ⟨tidy₁, of₁⟩ := control_tidy tidy of controlled
    by_cases isUp : e₁.state = .established
    · have up := tidy₁.up isUp
      refine ⟨⟨?_, ?_, fun _ => ⟨Nat.add_pos_left up.1 _, up.2⟩⟩, ?_⟩
      · simp [isUp]
      · simp [isUp]
      · intro msg member
        cases List.mem_append.mp member with
        | inl control => exact of₁ msg control
        | inr told =>
          split at told
          · exact letters_of up.1 fits routes msg told
          · cases told
    · rw [silent isUp]
      refine ⟨tidy₁, ?_⟩
      simpa [letters] using of₁

end Control

/-! ## Runs -/

section Runs

variable {ι : Type} [DecidableEq ι] {owner : NetAddr → Option ι} {n n' n₀ : Network ι} {i j : ι}
  {a b : NetAddr} {op : NetOp ι}

/-- The counters of an end are below 2^32. -/
def Fits (n : Network ι) (i : ι) (b : NetAddr) : Prop :=
  (side n i b).sendSeqNum < seqMod ∧ (side n i b).recvSeqNum < seqMod

/-- Both ends and the messages between them are tidy. -/
structure Orderly (n : Network ι) (i j : ι) (a b : NetAddr) : Prop where
  left : (side n i b).Tidy
  right : (side n j a).Tidy
  out : ∀ msg ∈ wire n i b, MsgOf (n.router i).rid msg
  back : ∀ msg ∈ wire n j a, MsgOf (n.router j).rid msg

omit [DecidableEq ι] in
theorem Orderly.symm (orderly : Orderly n i j a b) : Orderly n j i b a :=
  ⟨orderly.right, orderly.left, orderly.back, orderly.out⟩

omit [DecidableEq ι] in
theorem Move.orderly (move : Move n n' i j a b op) (orderly : Orderly n i j a b)
    (rids : ∀ k, (n'.router k).rid = (n.router k).rid) (fits : Fits n' i b) : Orderly n' i j a b := by
  -- Acting and taking are one step of an end; a loss and a rest change no end.
  have kept {e : Endpoint} {input : Input} {sent : List Msg}
      (step : Endpoint.Step (n.router i).rid (lineUp n i b) ((n.router i).env.sessionOk b)
        (side n i b) input e sent)
      (of : ∀ msg, input = .recv msg → MsgOf (n.router j).rid msg) (moved : side n' i b = e)
      (stays : side n' j a = side n j a) (out : wire n' i b = wire n i b ++ sent)
      (back : ∀ msg ∈ wire n' j a, MsgOf (n.router j).rid msg) : Orderly n' i j a b := by
    subst moved
    obtain ⟨tidy, saying⟩ := step.tidy orderly.left (Nat.le_of_lt fits.1) of
    refine ⟨tidy, stays ▸ orderly.right, ?_, by rw [rids]; exact back⟩
    rw [out, rids]
    intro msg member
    cases List.mem_append.mp member with
    | inl earlier => exact orderly.out msg earlier
    | inr new => exact saying msg new
  cases move with
  | act input source spontaneous step moved stays out back =>
    exact kept step (fun msg isRecv => absurd isRecv (spontaneous msg)) moved stays out
      (by rw [back]; exact orderly.back)
  | take step moved stays out back =>
    have queue := orderly.back
    rw [back, List.forall_mem_cons] at queue
    refine kept step (fun msg isRecv => ?_) moved stays out queue.2
    cases isRecv
    exact queue.1
  | lose moved stays out back =>
    have queue := orderly.back
    rw [back, List.forall_mem_cons] at queue
    refine ⟨moved ▸ orderly.left, stays ▸ orderly.right, ?_, ?_⟩
    · rw [out, rids]
      exact orderly.out
    · rw [rids]
      exact queue.2
  | rest moved stays out back =>
    refine ⟨moved ▸ orderly.left, stays ▸ orderly.right, ?_, ?_⟩
    · rw [out, rids]
      exact orderly.out
    · rw [back, rids]
      exact orderly.back

/-- Two routers that have just been configured as peers of each other. -/
structure FreshPair (owner : NetAddr → Option ι) (n : Network ι) (i j : ι) (a b : NetAddr) : Prop where
  addressed : WellAddressed owner n
  paired : Mutual owner n i j a b
  left : side n i b = .reset .idle
  right : side n j a = .reset .idle
  out : wire n i b = []
  back : wire n j a = []

/-- The step comes from the network, and no counter of the session wraps around. -/
def Unwrapped (owner : NetAddr → Option ι) (i j : ι) (a b : NetAddr) (n : Network ι) (op : NetOp ι) :
    Prop :=
  Genuine n op ∧ Ends (fun n' => Fits n' i b ∧ Fits n' j a) (fun _ => True) (netStep owner n op)

/-- What holds of two peers in every run. -/
structure InSession (owner : NetAddr → Option ι) (n : Network ι) (i j : ι) (a b : NetAddr) : Prop where
  addressed : WellAddressed owner n
  paired : Mutual owner n i j a b
  orderly : Orderly n i j a b
  fitsLeft : Fits n i b
  fitsRight : Fits n j a

omit [DecidableEq ι] in
theorem FreshPair.inSession (fresh : FreshPair owner n i j a b) : InSession owner n i j a b where
  addressed := fresh.addressed
  paired := fresh.paired
  orderly := by
    refine ⟨?_, ?_, ?_, ?_⟩
    · rw [fresh.left]
      exact Endpoint.tidy_reset (.inl rfl)
    · rw [fresh.right]
      exact Endpoint.tidy_reset (.inl rfl)
    · simp [fresh.out]
    · simp [fresh.back]
  fitsLeft := by simp [Fits, fresh.left, Endpoint.reset, seqMod]
  fitsRight := by simp [Fits, fresh.right, Endpoint.reset, seqMod]

theorem InSession.step (inSession : InSession owner n i j a b) (allowed : Unwrapped owner i j a b n op)
    (h : netStep owner n op = .ok n') : InSession owner n' i j a b := by
  obtain ⟨genuine, ends⟩ := allowed
  obtain ⟨fitsLeft, fitsRight⟩ := ends.value h
  obtain ⟨paired, moved⟩ := netStep_moves inSession.addressed inSession.paired genuine h
  have rids (k : ι) : (n'.router k).rid = (n.router k).rid := (netStep_configured h k).rid
  refine ⟨inSession.addressed.step h, paired, ?_, fitsLeft, fitsRight⟩
  cases moved with
  | inl left => exact left.orderly inSession.orderly rids fitsLeft
  | inr right => exact (right.orderly inSession.orderly.symm rids fitsRight).symm

theorem inSession_of_reach (fresh : FreshPair owner n₀ i j a b)
    (reached : Reach (netStep owner) (Unwrapped owner i j a b) n₀ n) : InSession owner n i j a b := by
  induction reached with
  | start => exact fresh.inSession
  | next _ allowed stepped inductionHypothesis => exact inductionHypothesis.step allowed stepped

/-! ## The aborts -/

/-- A message the state machine can not take: an OPEN for a peer that is IDLE and has counted no
CLOSE since, an UPDATE or WITHDRAW for a peer that is down and has counted as many CLOSEs as its
number says. -/
def Strays (e : Endpoint) (msg : Msg) : Prop :=
  match msg.body with
  | .open _ => e.state = .idle ∧ e.recvSeqNum = 0
  | .update _ | .withdraw _ =>
    (e.state = .idle ∨ e.state = .active) ∧ 0 < e.recvSeqNum ∧ msg.seqNum = e.recvSeqNum
  | .close => False

/-- The delivery of the next message from router `j` hits an `abort()` of the state machine. -/
def DeliveryAborts (owner : NetAddr → Option ι) (n : Network ι) (j : ι) (a : NetAddr) : Prop :=
  ∃ e, netStep owner n (.deliver j a) = .error e ∧ SessionAbort e

theorem control_strays_iff {rid rid' : NetAddr} {line ok : Bool} {e : Endpoint} {msg : Msg}
    (tidy : e.Tidy) (fits : e.recvSeqNum < seqMod) (of : MsgOf rid' msg) :
    (∃ failure, control rid line ok e (.recv msg) = .error failure) ↔ Strays e msg := by
  have number : e.recvSeqNum % seqMod = e.recvSeqNum := Nat.mod_eq_of_lt fits
  obtain ⟨seqNum, body⟩ := msg
  simp only [control, Endpoint.inOrder, number, Strays]
  cases body with
  | update _ | withdraw _ =>
    have nonzero : seqNum ≠ 0 := of.isData rfl
    by_cases same : e.recvSeqNum = seqNum
    · subst same
      cases e.state <;> simp [Endpoint.receive, Nat.pos_of_ne_zero nonzero]
    · simp [same, Ne.symm same]
  | close => cases e.state <;> simp [Endpoint.receive]
  | «open» routerId =>
    obtain ⟨rfl, _⟩ : seqNum = 0 ∧ routerId = rid' := of
    by_cases zero : e.recvSeqNum = 0
    · cases state : e.state with
      | established => exact absurd zero (Nat.pos_iff_ne_zero.mp (tidy.up state).2)
      | idle | openWait | active => simp [Endpoint.receive, zero, Endpoint.send]
    · simp [zero]

/-- In every run of two peers, the delivery of a message hits an `abort()` of the state machine
exactly when the message strays. -/
theorem delivery_aborts_iff (fresh : FreshPair owner n₀ i j a b)
    (reached : Reach (netStep owner) (Unwrapped owner i j a b) n₀ n) :
    DeliveryAborts owner n j a ↔ ∃ msg rest, wire n j a = msg :: rest ∧ Strays (side n i b) msg := by
  have inSession := inSession_of_reach fresh reached
  obtain ⟨peer, held, real, _, sameSide, _⟩ := inSession.paired.left.endpoint_eq
  cases head : n.inFlight j a with
  | nil =>
    have empty : wire n j a = [] := by simp [wire, head]
    have done : netStep owner n (.deliver j a) = .ok n := by simp [netStep, head]
    simp [DeliveryAborts, done, empty]
  | cons sent rest =>
    have source := inSession.addressed.source inSession.paired.right head
    have queue : wire n j a = sent.msg :: rest.map (·.msg) := by simp [wire, head]
    have of := inSession.orderly.back sent.msg (queue ▸ List.mem_cons_self)
    -- the delivery fails as the step of the receiving router does
    have fails (e : Abort) : netStep owner n (.deliver j a) = .error e ↔
        exec (n.router i) (.handleMessage b sent.msg) = .error e := by
      simp only [netStep, head, inSession.paired.right.remote, source]
      cases exec (n.router i) (.handleMessage b sent.msg) with
      | error e' => simp [Except.map]
      | ok r => simp [Except.map]
    simp only [DeliveryAborts, fails, exec_aborts_iff held real, ← sameSide, queue]
    rw [control_strays_iff inSession.orderly.left inSession.fitsLeft.2 of]
    simp

end Runs

/-! ## Two routers -/

/-- The router `false` of AS 1 and the router `true` of AS 2, with one session between them. -/
def twoRouters : Network Bool where
  router
    | false => bgpRouterAddPeer (bgpRouterCreate 1 1 ∅ Env.default) 2 { bgpPeerCreate 2 with srcAddr := 1 }
    | true => bgpRouterAddPeer (bgpRouterCreate 2 2 ∅ Env.default) 1 { bgpPeerCreate 1 with srcAddr := 2 }
  taken _ _ := 0

/-- The owners of the addresses of the two routers. -/
def twoOwners (addr : NetAddr) : Option Bool :=
  if addr = 1 then some false else if addr = 2 then some true else none

theorem twoRouters_lookup {k : Bool} {d : NetAddr} {peer : Peer}
    (held : (twoRouters.router k).peers.lookup d = some peer) :
    twoOwners d = some !k ∧ twoOwners peer.srcAddr = some k ∧ d = cond k 1 2 := by
  cases k with
  | false =>
    by_cases same : d = 2
    · subst same
      cases held
      exact ⟨rfl, rfl, rfl⟩
    · rw [show (twoRouters.router false).peers.lookup d = none from AList.lookup_insert_ne same] at held
      cases held
  | true =>
    by_cases same : d = 1
    · subst same
      cases held
      exact ⟨rfl, rfl, rfl⟩
    · rw [show (twoRouters.router true).peers.lookup d = none from AList.lookup_insert_ne same] at held
      cases held

theorem twoRouters_fresh : FreshPair twoOwners twoRouters false true 1 2 where
  addressed := by
    refine ⟨fun held _ => (twoRouters_lookup held).2.1, fun held _ held' _ _ _ => ?_, fun k => ?_⟩
    · rw [(twoRouters_lookup held).2.2, (twoRouters_lookup held').2.2]
    · cases k with
      | false => simp [twoRouters, bgpRouterAddPeer, bgpRouterCreate]
      | true => simp [twoRouters, bgpRouterAddPeer, bgpRouterCreate]
  paired := ⟨by simp, ⟨rfl, ⟨_, rfl, rfl, rfl⟩, Nat.zero_le _⟩, ⟨rfl, ⟨_, rfl, rfl, rfl⟩, Nat.zero_le _⟩⟩
  left := rfl
  right := rfl
  out := rfl
  back := rfl

instance {ι : Type} (n : Network ι) (i : ι) (b : NetAddr) : Decidable (Fits n i b) :=
  inferInstanceAs (Decidable (_ ∧ _))

/-- Steps other than messages from outside the network. -/
def NetOp.inside {ι : Type} : NetOp ι → Bool
  | .act _ (.handleMessage _ _) => false
  | _ => true

theorem NetOp.genuine {ι : Type} {op : NetOp ι} (inside : NetOp.inside op = true) (n : Network ι) :
    Genuine n op := by
  cases op with
  | act i o =>
    cases o with
    | handleMessage src msg => cases inside
    | openSession c | closeSession c | sessionRefresh c | addNetwork p | delNetwork p | rerun p
    | clearRib | netChange rt env => trivial
  | deliver i d => trivial
  | lose i d => trivial

theorem unwrapped_of_run {ι : Type} [DecidableEq ι] {owner : NetAddr → Option ι} {i j : ι}
    {a b : NetAddr} {n₀ : Network ι} {ops : List (NetOp ι)} (inside : ops.all NetOp.inside = true)
    (fits : ∀ entry ∈ loopStates (netStep owner) n₀ ops,
      Ends (fun n' => Fits n' i b ∧ Fits n' j a) (fun _ => True) (netStep owner entry.1 entry.2)) :
    ∀ entry ∈ loopStates (netStep owner) n₀ ops, Unwrapped owner i j a b entry.1 entry.2 := by
  intro entry member
  have insideEntry := List.all_eq_true.mp inside entry.2 (loopStates_snd member)
  exact ⟨NetOp.genuine insideEntry entry.1, fits entry member⟩

theorem reach_of_run {ι : Type} [DecidableEq ι] {owner : NetAddr → Option ι} {i j : ι}
    {a b : NetAddr} {n₀ n : Network ι} {ops : List (NetOp ι)} (inside : ops.all NetOp.inside = true)
    (fits : ∀ entry ∈ loopStates (netStep owner) n₀ ops,
      Ends (fun n' => Fits n' i b ∧ Fits n' j a) (fun _ => True) (netStep owner entry.1 entry.2))
    (h : ops.foldlM (netStep owner) n₀ = .ok n) :
    Reach (netStep owner) (Unwrapped owner i j a b) n₀ n :=
  Reach.of_foldlM (unwrapped_of_run inside fits) h

/-- The result is an `abort()` of the state machine. -/
def aborts {α : Type} : Except Abort α → Bool
  | .ok _ => false
  | .error e => decide (SessionAbort e)

theorem deliveryAborts_iff {ι : Type} [DecidableEq ι] {owner : NetAddr → Option ι} {n : Network ι}
    {j : ι} {a : NetAddr} :
    aborts (netStep owner n (.deliver j a)) = true ↔ DeliveryAborts owner n j a := by
  simp only [DeliveryAborts]
  cases netStep owner n (.deliver j a) with
  | ok n' => simp [aborts]
  | error e => simp [aborts]

/-- The router `true` opened its end of the session. -/
theorem open_reached : ∃ n, Reach (netStep twoOwners) (Unwrapped twoOwners false true 1 2) twoRouters n ∧
    DeliveryAborts twoOwners n true 1 := by
  have ran : okAnd ([.act true (.openSession 1)].foldlM (netStep twoOwners) twoRouters) (fun n =>
      aborts (netStep twoOwners n (.deliver true 1))) = true := by
    decide +kernel
  obtain ⟨n, ran, observed⟩ := okAnd_iff.mp ran
  exact ⟨n, reach_of_run (by decide) (by decide +kernel) ran, deliveryAborts_iff.mp observed⟩

/-- An OPEN for a peer whose session was never opened aborts. -/
theorem open_aborts_idle : ¬ ∀ (owner : NetAddr → Option Bool) (n₀ n : Network Bool) (i j : Bool)
    (a b : NetAddr), FreshPair owner n₀ i j a b →
    Reach (netStep owner) (Unwrapped owner i j a b) n₀ n → ¬DeliveryAborts owner n j a := by
  intro never
  obtain ⟨n, reached, aborted⟩ := open_reached
  exact never _ _ n _ _ _ _ twoRouters_fresh reached aborted

theorem delivery_aborts_two : ∃ n, wire n true 1 ≠ [] ∧
    (DeliveryAborts twoOwners n true 1 ↔
      ∃ msg rest, wire n true 1 = msg :: rest ∧ Strays (side n false 2) msg) := by
  have ran : okAnd ([.act true (.openSession 1)].foldlM (netStep twoOwners) twoRouters) (fun n =>
      decide (wire n true 1 ≠ [])) = true := by
    decide +kernel
  obtain ⟨n, ran, observed⟩ := okAnd_iff.mp ran
  refine ⟨n, of_decide_eq_true observed, ?_⟩
  exact delivery_aborts_iff twoRouters_fresh (reach_of_run (by decide) (by decide +kernel) ran)

end Cbgp.Verified
