import Cbgp.Lib.Run
import Cbgp.Net.Ip

/-! # What the hooks leave alone

The hooks of `icmp_options.c` work on traces: they post no message (`Beside`), and where a message is
changed it keeps its payload, its destination and its TTL (`Kept`).
-/

namespace Cbgp.Verified.Ip

open Cbgp.Lib Cbgp.Net.Ip
open Cbgp.Net (EntryRef NetError NetRt Topology)

variable {N I S : Type}

/-- No event is posted, and no copy waits that did not. -/
structure Beside (st st' : State N I S) : Prop where
  events : st'.events = st.events
  fifoTrace : st'.fifoTrace = st.fifoTrace

namespace Beside

variable {st st' st'' : State N I S}

theorem refl (st : State N I S) : Beside st st := ⟨rfl, rfl⟩

theorem trans (first : Beside st st') (second : Beside st' st'') : Beside st st'' :=
  ⟨second.events.trans first.events, second.fifoTrace.trans first.fifoTrace⟩

theorem setTrace (st : State N I S) (id : TraceId) (f : Trace N I S → Trace N I S) :
    Beside st (st.setTrace id f) := ⟨rfl, rfl⟩

theorem setStatus (st : State N I S) (id : TraceId) (status : NetError) :
    Beside st (st.setStatus id status) := ⟨rfl, rfl⟩

theorem enter (st : State N I S) (inner outer : TraceId) : Beside st (st.enter inner outer) :=
  ⟨rfl, rfl⟩

theorem newTrace (st : State N I S) : Beside st st.newTrace.2 := ⟨rfl, rfl⟩

end Beside

/-- How a hook can stop the program. -/
def HookFault (crash : Crash) : Prop :=
  crash = .noOptions ∨ crash = .lastItem ∨ crash = .noCopy

section Hooks

variable {msg : Msg N} {node : N}

theorem attachTraces_ends (msg : Msg N) (st : State N I S) :
    Ends (Beside st) HookFault (attachTraces msg st) := by
  induction msg generalizing st with
  | icmp => exact .refl st
  | upper => exact .refl st
  | ipip header inner inductionHypothesis =>
    unfold attachTraces
    split
    · refine (inductionHypothesis _).mono (fun st' beside => ?_) fun _ => id
      exact ((Beside.setTrace _ _ _).trans (.setStatus _ _ _)).trans beside
    · exact .inl rfl

theorem hookMsgError_ends (st : State N I S) (msg : Msg N) (error : NetError) :
    Ends (Beside st) HookFault (ipOptHookMsgError st msg error) := by
  unfold ipOptHookMsgError
  split
  · exact Beside.refl st
  · exact (attachTraces_ends _ _).mono (fun st' => (Beside.setStatus _ _ _).trans) fun _ => id

theorem processMsgAltFwd_beside (rt : N → NetRt) (st : State N I S) (node : N) (opts : Opts)
    (rtentries : Option (List EntryRef)) : Beside st (processMsgAltFwd rt st node opts rtentries).2.1 := by
  unfold processMsgAltFwd
  split
  · split
    · exact .setStatus _ _ _
    · exact .refl _
  · exact .refl _

theorem hookMsgEncap_beside (st : State N I S) (inner : Header) :
    Beside st (ipOptHookMsgEncap st inner).2 := by
  unfold ipOptHookMsgEncap
  split
  · exact .refl _
  · split
    · exact (Beside.newTrace st).trans (.enter _ _ _)
    · exact .refl _

theorem hookMsgDecap_ends (st : State N I S) (outer inner : Header) :
    Ends (Beside st) HookFault (ipOptHookMsgDecap st outer inner) := by
  unfold ipOptHookMsgDecap
  split
  · exact Beside.refl st
  · split
    · split
      · exact .inl rfl
      · exact (Beside.setStatus st _ _).trans (.setTrace _ _ _)
    · exact Beside.refl st

theorem hookMsgSubnet_beside (st : State N I S) (net : Topology N I S) (msg : Msg N) (subnet : S) :
    Beside st (ipOptHookMsgSubnet st net msg subnet).2 := by
  unfold ipOptHookMsgSubnet
  split
  · exact .refl _
  · dsimp only
    split <;> exact ⟨rfl, rfl⟩

theorem ipTraceCopy_beside (fuel : ℕ) (id : TraceId) (st : State N I S) :
    Beside st (ipTraceCopy fuel id st).2 := by
  induction fuel generalizing id st with
  | zero => exact .newTrace st
  | succ fuel inductionHypothesis =>
    unfold ipTraceCopy
    dsimp only
    generalize ((State.newTrace st).2.trace id).items = items
    have start : Beside st (State.newTrace st).2 := .newTrace st
    generalize (State.newTrace st).2 = st₁ at start ⊢
    induction items generalizing st₁ with
    | nil => exact start
    | cons item items copied =>
      rw [List.foldl_cons]
      apply copied
      split
      · exact ((start.trans (inductionHypothesis _ _)).trans (.setTrace _ _ _)).trans (.enter _ _ _)
      · exact start.trans (.setTrace _ _ _)

theorem ipOptionsCopy_beside (header : Header) (st : State N I S) :
    Beside st (ipOptionsCopy header st).2 := by
  unfold ipOptionsCopy
  split
  · exact .refl _
  · exact ipTraceCopy_beside _ _ _

theorem messageCopy_ends (msg : Msg N) (st : State N I S) :
    Ends (fun copied => Beside st copied.2) HookFault (messageCopy msg st) := by
  induction msg generalizing st with
  | icmp header node type => exact ipOptionsCopy_beside _ _
  | upper => exact .inr (.inr rfl)
  | ipip header inner inductionHypothesis =>
    refine (inductionHypothesis st).bind fun copied beside => ?_
    have second := beside.trans (ipOptionsCopy_beside header copied.2)
    change Beside st _
    dsimp only
    split
    · exact second.trans (.enter _ _ _)
    · exact second

/-! ## The message that is sent -/

/-- The message keeps its payload, destination and TTL. -/
structure Kept (msg msg' : Msg N) : Prop where
  payload : msg' = msg.setHeader msg'.header
  dstAddr : msg'.header.dstAddr = msg.header.dstAddr
  ttl : msg'.header.ttl = msg.header.ttl

@[simp] theorem setHeader_header (msg : Msg N) (header : Header) :
    (msg.setHeader header).header = header := by
  cases msg <;> rfl

@[simp] theorem setHeader_setHeader (msg : Msg N) (header header' : Header) :
    (msg.setHeader header).setHeader header' = msg.setHeader header' := by
  cases msg <;> rfl

@[simp] theorem setHeader_self (msg : Msg N) : msg.setHeader msg.header = msg := by
  cases msg <;> rfl

@[simp] theorem setHeader_isIcmpError (msg : Msg N) (header : Header) :
    (msg.setHeader header).isIcmpError = msg.isIcmpError := by
  cases msg with
  | icmp _ _ type => cases type <;> rfl
  | upper => rfl
  | ipip => rfl

theorem Kept.refl (msg : Msg N) : Kept msg msg := ⟨(setHeader_self msg).symm, rfl, rfl⟩

theorem Kept.trans {msg msg' msg'' : Msg N} (first : Kept msg msg') (second : Kept msg' msg'') :
    Kept msg msg'' where
  payload := by rw [second.payload, first.payload]; simp
  dstAddr := second.dstAddr.trans first.dstAddr
  ttl := second.ttl.trans first.ttl

theorem Kept.set (msg : Msg N) {header : Header} (dstAddr : header.dstAddr = msg.header.dstAddr)
    (ttl : header.ttl = msg.header.ttl) : Kept msg (msg.setHeader header) :=
  ⟨by simp, by simpa using dstAddr, by simpa using ttl⟩

/-- The TTLs of a message and of the ones inside. -/
def ttls : Msg N → List ℕ
  | .ipip header inner => header.ttl :: ttls inner
  | .icmp header .. | .upper header _ => [header.ttl]

theorem Kept.ttls {msg msg' : Msg N} (kept : Kept msg msg') : ttls msg' = ttls msg := by
  have ttl := kept.ttl
  rw [kept.payload]
  cases msg with
  | icmp header node type => exact congrArg (fun ttl => [ttl]) ttl
  | upper header protocol => exact congrArg (fun ttl => [ttl]) ttl
  | ipip header inner => exact congrArg (fun ttl => ttl :: Ip.ttls inner) ttl

theorem ipOptionsCopy_ttl (header : Header) (st : State N I S) :
    (ipOptionsCopy header st).1.ttl = header.ttl := by
  unfold ipOptionsCopy
  split <;> rfl

theorem messageCopy_ttls (msg : Msg N) (st : State N I S) :
    Ends (fun copied => ttls copied.1 = ttls msg) HookFault (messageCopy msg st) := by
  induction msg generalizing st with
  | icmp header node type => exact congrArg (fun ttl => [ttl]) (ipOptionsCopy_ttl header st)
  | upper => exact .inr (.inr rfl)
  | ipip header inner inductionHypothesis =>
    refine (inductionHypothesis st).bind fun copied same => ?_
    change (ipOptionsCopy header copied.2).1.ttl :: ttls copied.1 = header.ttl :: ttls inner
    rw [ipOptionsCopy_ttl, same]

/-- Copies of a message with the TTLs wait, and nothing is posted. -/
structure Queues (copied : List ℕ) (st st' : State N I S) : Prop where
  events : st'.events = st.events
  fifoTrace : ∃ waiting, st'.fifoTrace = st.fifoTrace ++ waiting ∧ ∀ ctx ∈ waiting, ttls ctx.msg = copied

namespace Queues

variable {copied : List ℕ} {st st' st'' : State N I S}

theorem of_beside (beside : Beside st st') : Queues copied st st' :=
  ⟨beside.events, [], by rw [beside.fifoTrace, List.append_nil], nofun⟩

theorem trans (first : Queues copied st st') (second : Queues copied st' st'') :
    Queues copied st st'' := by
  obtain ⟨waiting, fifo, same⟩ := first.fifoTrace
  obtain ⟨waiting', fifo', same'⟩ := second.fifoTrace
  refine ⟨second.events.trans first.events, waiting ++ waiting', ?_, fun ctx member => ?_⟩
  · rw [fifo', fifo, List.append_assoc]
  · exact (List.mem_append.mp member).elim (same ctx) (same' ctx)

end Queues

theorem pushCopy_ends (node : N) (msg : Msg N) (st : State N I S) (ref : EntryRef) :
    Ends (Queues (ttls msg) st) HookFault (pushCopy node msg st ref) := by
  unfold pushCopy
  split
  · refine ((messageCopy_ends msg st).and (messageCopy_ttls msg st)).mono (fun _ => id) (fun _ => And.left)
      |>.bind fun copied ⟨beside, same⟩ => ?_
    refine ⟨beside.events, [⟨node, copied.1, some [ref]⟩], ?_, fun ctx member => ?_⟩
    · exact congrArg (· ++ _) beside.fifoTrace
    · rw [List.mem_singleton.mp member, same]
  · exact Queues.of_beside (.refl st)

theorem hookMsgEcmp_ends (node : N) (refs : List EntryRef) (msg : Msg N) (st : State N I S) :
    Ends (fun after => Kept msg after.1 ∧ Queues (ttls msg) st after.2) HookFault
      (ipOptHookMsgEcmp node refs msg st) := by
  unfold ipOptHookMsgEcmp
  split
  · exact ⟨Kept.refl msg, .of_beside (.refl st)⟩
  · split
    · exact ⟨Kept.refl msg, .of_beside (.refl st)⟩
    next opts _ _ =>
      let opts := { opts with load := opts.load.map (· / UInt32.ofNat refs.length) }
      have kept : Kept msg (msg.setHeader { msg.header with opts := some opts }) := Kept.set msg rfl rfl
      refine Ends.bind (P := Queues (ttls msg) st) ?_ fun st' queues => ⟨kept, queues⟩
      refine Ends.loop (fun st₁ ref _ queues => ?_) (.of_beside (.refl st))
      have pushed := pushCopy_ends node (msg.setHeader { msg.header with opts := some opts }) st₁ ref
      rw [kept.ttls] at pushed
      exact pushed.mono (fun _ => queues.trans) fun _ => id

variable [DecidableEq N]

theorem hookMsgSent_beside (rt : N → NetRt) (st : State N I S) (msg : Msg N) (node : N)
    (rtentries : Option (List EntryRef)) : Beside st (ipOptHookMsgSent rt st msg node rtentries).2.1 := by
  unfold ipOptHookMsgSent
  split
  · exact .refl _
  · refine Beside.trans ?_ (processMsgAltFwd_beside _ _ _ _ _)
    split
    · exact .refl _
    · exact .setTrace _ _ _

theorem setLast_ends (trace : Trace N I S) (node : N) (f : Option I × Option I → Option I × Option I) :
    Ends (fun _ => True) HookFault (trace.setLast node f) := by
  unfold Trace.setLast
  split
  · split
    · trivial
    · exact .inr (.inl rfl)
  · exact .inr (.inl rfl)
  · exact .inr (.inl rfl)
  · exact .inr (.inl rfl)

theorem hookMsgRcvd_ends (st : State N I S) (msg : Msg N) (node : N) (iif : I) :
    Ends (Beside st) HookFault (ipOptHookMsgRcvd st msg node iif) := by
  unfold ipOptHookMsgRcvd
  split
  · exact Beside.refl st
  · exact (setLast_ends _ _ _).bind fun trace _ => Beside.setTrace _ _ _

theorem hookMsgIn_beside (rt : N → NetRt) (st : State N I S) (msg : Msg N) (node : N) (iif : I) :
    Beside st (ipOptHookMsgIn rt st msg node iif).2.1 := by
  unfold ipOptHookMsgIn
  split
  · exact .refl _
  · split
    · exact processMsgAltFwd_beside _ _ _ _ _
    · dsimp only
      split
      · exact (Beside.setTrace _ _ _).trans (.setStatus _ _ _)
      · exact (Beside.setTrace _ _ _).trans (processMsgAltFwd_beside _ _ _ _ _)

theorem hookMsgOut_ends [DecidableEq I] (st : State N I S) (msg : Msg N) (node : N) (oif : I) :
    Ends (Beside st) HookFault (ipOptHookMsgOut st msg node oif) := by
  unfold ipOptHookMsgOut
  split
  · exact Beside.refl st
  · exact (setLast_ends _ _ _).bind fun trace _ => ⟨rfl, rfl⟩

end Hooks

end Cbgp.Verified.Ip
