import Cbgp.Verified.IpHooks

/-! # Hooks that return

The hooks of `icmp_options.c` stop the program where a message has options and the one inside has none,
where a message that cannot be copied has options, and where the node is not the last one of the trace.
None of this happens to a message whose options were given to it by the message inside (`Nested`), while
the node sends it (`AtNode`).
-/

namespace Cbgp.Verified.Ip

open Cbgp.Lib Cbgp.Net.Ip
open Cbgp.Net (EntryRef NetError NetRt Topology)

variable {N I S : Type}

/-- The computation ends with a value in `P`. -/
abbrev Returns {α : Type} (P : α → Prop) : Except Crash α → Prop := Ends P fun _ => False

/-- A message has options only where the message inside has, and those that cannot be copied have none. -/
def Nested : Msg N → Prop
  | .icmp .. => True
  | .upper header _ => header.opts = none
  | .ipip header inner => (header.opts.isSome → inner.header.opts.isSome) ∧ Nested inner

theorem Nested.setHeader {msg : Msg N} (nested : Nested msg) {header : Header}
    (opts : header.opts.isSome → msg.header.opts.isSome) : Nested (msg.setHeader header) := by
  cases msg with
  | icmp => trivial
  | upper old protocol =>
    have none : old.opts = none := nested
    cases content : header.opts with
    | none => exact content
    | some _ =>
      have some := opts (by rw [content]; rfl)
      simp [Msg.header, none] at some
  | ipip old inner => exact ⟨fun some => nested.1 (opts some), nested.2⟩

/-- The trace of the message exists. -/
def Inside (msg : Msg N) (st : State N I S) : Prop :=
  ∀ opts, msg.header.opts = some opts → opts.trace < st.traces.length

theorem Inside.of_none {msg : Msg N} (plain : msg.header.opts = none) (st : State N I S) : Inside msg st := by
  intro opts content
  rw [plain] at content
  cases content

theorem processMsgAltFwd_success {rt : N → NetRt} {st : State N I S} {node : N} {opts : Opts}
    {rtentries : Option (List EntryRef)} (success : (processMsgAltFwd rt st node opts rtentries).1 = .success) :
    (processMsgAltFwd rt st node opts rtentries).2.1 = st := by
  unfold processMsgAltFwd at success ⊢
  split at success
  · split at success
    · cases success
    · rfl
  · rfl

/-- The trace of the message exists, and the node is the last one on it. -/
def AtNode [DecidableEq N] (node : N) (msg : Msg N) (st : State N I S) : Prop :=
  ∀ opts, msg.header.opts = some opts →
    opts.trace < st.traces.length ∧ (st.trace opts.trace).lastIs node = true

/-! ## Errors -/

theorem attachTraces_returns {msg : Msg N} (nested : Nested msg) (some : msg.header.opts.isSome) (st : State N I S) :
    Returns (Beside st) (attachTraces msg st) := by
  induction msg generalizing st with
  | icmp => exact Beside.refl st
  | upper => exact Beside.refl st
  | ipip header inner inductionHypothesis =>
    obtain ⟨outerOpts, outer⟩ := Option.isSome_iff_exists.mp some
    obtain ⟨opts, content⟩ := Option.isSome_iff_exists.mp (nested.1 some)
    have outer : header.opts = Option.some outerOpts := outer
    simp only [attachTraces, outer, content]
    refine (inductionHypothesis nested.2 (by simp [content]) _).mono (fun st' beside => ?_) fun _ => id
    exact ((Beside.setTrace _ _ _).trans (.setStatus _ _ _)).trans beside

theorem hookMsgError_returns {msg : Msg N} (nested : Nested msg) (st : State N I S) (error : NetError) :
    Returns (Beside st) (ipOptHookMsgError st msg error) := by
  unfold ipOptHookMsgError
  split
  · exact Beside.refl st
  next opts content =>
    refine (attachTraces_returns nested (by simp [content]) _).mono (fun st' => ?_) fun _ => id
    exact (Beside.setStatus _ _ _).trans

/-! ## Copies -/

/-- The traces that were there are as they were. -/
structure KeepsTraces (base : List (Trace N I S)) (st : State N I S) : Prop where
  length : base.length ≤ st.traces.length
  same : ∀ id < base.length, st.traces[id]? = base[id]?

theorem KeepsTraces.refl (st : State N I S) : KeepsTraces st.traces st := ⟨Nat.le_refl _, fun _ _ => rfl⟩

theorem KeepsTraces.setTrace {base : List (Trace N I S)} {st : State N I S} (keeps : KeepsTraces base st) {id : TraceId}
    (new : base.length ≤ id) (f : Trace N I S → Trace N I S) : KeepsTraces base (st.setTrace id f) where
  length := by
    rw [State.setTrace, List.length_modify]
    exact keeps.length
  same other old := by
    have apart : id ≠ other := Nat.ne_of_gt (Nat.lt_of_lt_of_le old new)
    simp only [State.setTrace, List.getElem?_modify, if_neg apart, id_map']
    exact keeps.same other old

theorem KeepsTraces.newTrace {base : List (Trace N I S)} {st : State N I S} (keeps : KeepsTraces base st) :
    KeepsTraces base st.newTrace.2 where
  length := by
    rw [State.newTrace, List.length_append]
    exact Nat.le_add_right_of_le keeps.length
  same other old := by
    rw [State.newTrace, List.getElem?_append_left (Nat.lt_of_lt_of_le old keeps.length)]
    exact keeps.same other old

theorem ipTraceCopy_keeps {base : List (Trace N I S)} (fuel : ℕ) (id : TraceId) {st : State N I S}
    (keeps : KeepsTraces base st) : KeepsTraces base (ipTraceCopy fuel id st).2 := by
  induction fuel generalizing id st with
  | zero => exact keeps.newTrace
  | succ fuel inductionHypothesis =>
    unfold ipTraceCopy
    dsimp only
    have new : base.length ≤ (State.newTrace st).1 := keeps.length
    have start := keeps.newTrace
    generalize (State.newTrace st).1 = copy at new ⊢
    generalize ((State.newTrace st).2.trace id).items = items
    generalize (State.newTrace st).2 = st₁ at start ⊢
    induction items generalizing st₁ with
    | nil => exact start
    | cons item items copied =>
      rw [List.foldl_cons]
      apply copied
      split
      next nested =>
        have added := (inductionHypothesis nested start).setTrace new
          (·.add (.trace (ipTraceCopy fuel nested st₁).1))
        exact ⟨added.length, added.same⟩
      · exact start.setTrace new _

theorem ipOptionsCopy_keeps {base : List (Trace N I S)} (header : Header) {st : State N I S}
    (keeps : KeepsTraces base st) : KeepsTraces base (ipOptionsCopy header st).2 := by
  unfold ipOptionsCopy
  split
  · exact keeps
  · exact ipTraceCopy_keeps _ _ keeps

theorem messageCopy_returns {base : List (Trace N I S)} {msg : Msg N} (nested : Nested msg)
    (some : msg.header.opts.isSome) {st : State N I S} (keeps : KeepsTraces base st) :
    Returns (fun copied => KeepsTraces base copied.2) (messageCopy msg st) := by
  induction msg generalizing st with
  | icmp header node type => exact ipOptionsCopy_keeps header keeps
  | upper header protocol =>
    have none : header.opts = none := nested
    simp [Msg.header, none] at some
  | ipip header inner inductionHypothesis =>
    refine (inductionHypothesis nested.2 (nested.1 some) keeps).bind fun copied keeps => ?_
    have second := ipOptionsCopy_keeps header keeps
    change KeepsTraces base _
    dsimp only
    split
    · exact ⟨second.length, second.same⟩
    · exact second

theorem pushCopy_returns {base : List (Trace N I S)} {msg : Msg N} (nested : Nested msg)
    (some : msg.header.opts.isSome) {st : State N I S} (keeps : KeepsTraces base st) (node : N) (ref : EntryRef) :
    Returns (KeepsTraces base) (pushCopy node msg st ref) := by
  unfold pushCopy
  split
  · exact (messageCopy_returns nested some keeps).bind fun copied keeps => ⟨keeps.length, keeps.same⟩
  · exact keeps

variable [DecidableEq N]

/-- Copies of the message do not change its trace. -/
theorem AtNode.keeps {node : N} {msg msg' : Msg N} {st st' : State N I S} (at' : AtNode node msg st)
    (keeps : KeepsTraces st.traces st')
    (same : ∀ opts', msg'.header.opts = some opts' → ∃ opts, msg.header.opts = some opts ∧ opts.trace = opts'.trace) :
    AtNode node msg' st' := by
  intro opts' content'
  obtain ⟨opts, content, trace⟩ := same opts' content'
  obtain ⟨inside, last⟩ := at' opts content
  rw [trace] at inside last
  have old : st'.trace opts'.trace = st.trace opts'.trace := by
    rw [State.trace, State.trace, List.getD_eq_getElem?_getD, List.getD_eq_getElem?_getD, keeps.same _ inside]
  exact ⟨Nat.lt_of_lt_of_le inside keeps.length, old ▸ last⟩

/-- The message that is sent, after its copies were made. -/
structure Ecmped (node : N) (msg : Msg N) (after : Msg N × State N I S) : Prop where
  payload : after.1 = msg.setHeader after.1.header
  net : after.1.header.toNetMsg = msg.header.toNetMsg
  altDest : after.1.header.opts.bind (·.altDest) = msg.header.opts.bind (·.altDest)
  traced : after.1.header.opts.map (·.tunnel) = msg.header.opts.map (·.tunnel)
  nested : Nested after.1
  atNode : AtNode node after.1 after.2

theorem hookMsgEcmp_returns {node : N} {msg : Msg N} {st : State N I S} (nested : Nested msg)
    (at' : AtNode node msg st) (refs : List EntryRef) :
    Returns (Ecmped node msg) (ipOptHookMsgEcmp node refs msg st) := by
  unfold ipOptHookMsgEcmp
  split
  · exact ⟨(setHeader_self msg).symm, rfl, rfl, rfl, nested, at'⟩
  next opts content =>
    split
    · exact ⟨(setHeader_self msg).symm, rfl, rfl, rfl, nested, at'⟩
    · have nested' : Nested (msg.setHeader { msg.header with
          opts := some { opts with load := opts.load.map (· / UInt32.ofNat refs.length) } }) :=
        nested.setHeader fun _ => by simp [content]
      refine Ends.bind (P := KeepsTraces st.traces) ?_ fun st' keeps =>
        ⟨by simp, by simp, by simp [content], by simp [content], nested', at'.keeps keeps fun opts' content' => ?_⟩
      · exact Ends.loop (fun st₁ ref _ keeps => pushCopy_returns nested' (by simp) keeps node ref) (.refl st)
      · simp only [setHeader_header, Option.some.injEq] at content'
        exact ⟨opts, content, by rw [← content']⟩

/-! ## The node of the trace -/

/-- The node becomes the last one of the trace when it sends the message. -/
theorem hookMsgSent_atNode (rt : N → NetRt) {st : State N I S} {msg : Msg N} (node : N) (inside : Inside msg st)
    (rtentries : Option (List EntryRef)) (success : (ipOptHookMsgSent rt st msg node rtentries).1 = .success) :
    AtNode node msg (ipOptHookMsgSent rt st msg node rtentries).2.1 := by
  intro opts content
  have exists' := inside opts content
  simp only [ipOptHookMsgSent, content] at success ⊢
  rw [processMsgAltFwd_success success]
  split
  next last => exact ⟨exists', last⟩
  · refine ⟨?_, ?_⟩
    · rw [State.setTrace, List.length_modify]
      exact exists'
    · have added : (st.setTrace opts.trace (·.add (.node node none none))).trace opts.trace =
          (st.trace opts.trace).add (.node node none none) := by
        simp [State.setTrace, State.trace, exists']
      rw [added]
      simp [Trace.add, Trace.lastIs]

theorem setLast_returns {trace : Trace N I S} {node : N} (last : trace.lastIs node = true)
    (f : Option I × Option I → Option I × Option I) : ∃ trace', trace.setLast node f = .ok trace' := by
  unfold Trace.lastIs at last
  unfold Trace.setLast
  split at last
  next iif oif content =>
    rw [if_pos (of_decide_eq_true last)]
    exact ⟨_, rfl⟩
  · cases last
  · cases last
  · cases last

theorem hookMsgOut_returns [DecidableEq I] {st : State N I S} {msg : Msg N} {node : N} (at' : AtNode node msg st)
    (oif : I) : Returns (Beside st) (ipOptHookMsgOut st msg node oif) := by
  unfold ipOptHookMsgOut
  split
  · exact Beside.refl st
  next opts content =>
    obtain ⟨trace, same⟩ := setLast_returns (at' opts content).2 _
    rw [same]
    exact ⟨rfl, rfl⟩

theorem hookMsgRcvd_returns {st : State N I S} {msg : Msg N} {node : N} (at' : AtNode node msg st) (iif : I) :
    Returns (Beside st) (ipOptHookMsgRcvd st msg node iif) := by
  unfold ipOptHookMsgRcvd
  split
  · exact Beside.refl st
  next opts content =>
    obtain ⟨trace, same⟩ := setLast_returns (at' opts content).2 _
    rw [same]
    exact Beside.setTrace _ _ _

end Cbgp.Verified.Ip
