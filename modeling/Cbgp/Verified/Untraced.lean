import Cbgp.Verified.IpHooks

/-! # Messages without options

A message without options, around messages without options, changes no trace, no load and no FIFO: what it
changes are the events, and the record of the message that was received last (`staticRun_untraced`).
-/

namespace Cbgp.Verified.Ip

open Cbgp.Lib Cbgp.Net.Ip
open Cbgp.Net (EntryRef IcmpError IcmpType NetAddr NetError NetMsg NetRt Topology netAddrAny netRouteAny
  nodeIpOutput rtFindBest)

variable {N I S : Type}

/-- The message and the ones inside have no options. -/
def Plain : Msg N → Prop
  | .icmp header .. | .upper header _ => header.opts = none
  | .ipip header inner => header.opts = none ∧ Plain inner

theorem Plain.icmp {header : Header} (opts : header.opts = none) (node : N) (type : IcmpType) :
    Plain (.icmp header node type) := opts

theorem Plain.opts {msg : Msg N} (plain : Plain msg) : msg.header.opts = none := by
  cases msg with
  | icmp header node type => exact plain
  | upper header protocol => exact plain
  | ipip header inner => exact plain.1

theorem Plain.setHeader {msg : Msg N} (plain : Plain msg) {header : Header} (opts : header.opts = none) :
    Plain (msg.setHeader header) := by
  cases msg with
  | icmp header node type => exact opts
  | upper header protocol => exact opts
  | ipip header inner => exact ⟨opts, plain.2⟩

/-- What is left alone, and what travels. -/
structure Untraced (st st' : State N I S) : Prop where
  traces : st'.traces = st.traces
  fifoTrace : st'.fifoTrace = st.fifoTrace
  load : st'.load = st.load
  entered : st'.entered = st.entered
  delivered : st'.delivered = st.delivered
  events : ∀ event ∈ st'.events, Plain event.2

/-- The result leaves alone what the state does. -/
def StaysUntraced (st : State N I S) : Except Crash (NetError × State N I S) → Prop :=
  Ends (fun after => Untraced st after.2) fun _ => True

/-- The sender does so, too. -/
def SendsUntraced (st₀ : State N I S) (send : Sender N I S) : Prop :=
  ∀ node msg st, Plain msg → Untraced st₀ st → StaysUntraced st₀ (send node msg st)

theorem hookMsgError_plain {msg : Msg N} (plain : Plain msg) (st : State N I S) (error : NetError) :
    ipOptHookMsgError st msg error = .ok st := by
  unfold ipOptHookMsgError
  rw [plain.opts]

section Sending

variable {stack : Stack N I S} {send : Sender N I S} {st₀ st : State N I S} {msg : Msg N} {node : N}

theorem Untraced.networkSend (untraced : Untraced st₀ st) (plain : Plain msg) (dst : I) :
    Untraced st₀ (networkSend msg st dst) where
  traces := untraced.traces
  fifoTrace := untraced.fifoTrace
  load := untraced.load
  entered := untraced.entered
  delivered := untraced.delivered
  events event member := by
    obtain old | last := List.mem_append.mp member
    · exact untraced.events event old
    · rwa [List.mem_singleton.mp last]

theorem nodeIpFwdError_untraced (sends : SendsUntraced st₀ send) (plain : Plain msg)
    (untraced : Untraced st₀ st) (error : NetError) (icmpError : Option IcmpError) :
    Ends (Untraced st₀) (fun _ => True) (nodeIpFwdError send node msg error icmpError st) := by
  have middle : Ends (Untraced st₀) (fun _ => True) (sendErrorFor send node msg icmpError st) := by
    unfold sendErrorFor
    split
    · exact untraced
    · split
      · exact untraced
      · exact (sends node _ st (.icmp rfl node _) untraced).map
  unfold nodeIpFwdError
  rw [hookMsgError_plain plain]
  change Ends _ _ (sendErrorFor send node msg icmpError st >>= _)
  refine middle.bind fun st' untraced => ?_
  rw [hookMsgError_plain plain]
  exact untraced

theorem netIfaceSend_untraced (sends : SendsUntraced st₀ send) (plain : Plain msg)
    (untraced : Untraced st₀ st) (oif : I) (l2Addr : NetAddr) :
    StaysUntraced st₀ (netIfaceSend stack send oif l2Addr msg st) := by
  unfold netIfaceSend
  dsimp only
  split
  · split
    · exact untraced
    · unfold ipipIfaceSend ipOptHookMsgEncap
      split
      · exact untraced
      · simp only [plain.opts]
        have wrapped {outer : Header} (opts : outer.opts = none) : Plain (.ipip outer msg) := ⟨opts, plain⟩
        exact (sends _ _ st (wrapped rfl) untraced).bind fun after untraced => untraced
  · split
    · trivial
    · split
      · exact untraced
      · split
        · exact untraced.networkSend plain _
        · unfold ipOptHookMsgSubnet
          simp only [plain.opts]
          split
          · exact untraced
          · split
            · exact untraced
            · split
              · exact untraced
              · exact untraced.networkSend plain _
        · trivial
        · trivial

variable [DecidableEq N] [DecidableEq I]

theorem nodeIpTransmit_untraced (sends : SendsUntraced st₀ send) (plain : Plain msg)
    (untraced : Untraced st₀ st) (oif : I) (l2Addr : NetAddr) :
    StaysUntraced st₀ (nodeIpTransmit stack send node oif l2Addr msg st) := by
  unfold nodeIpTransmit ipOptHookMsgOut
  rw [plain.opts]
  refine (netIfaceSend_untraced sends plain untraced oif l2Addr).bind fun after untraced => ?_
  dsimp only
  split
  · exact untraced
  · rw [hookMsgError_plain plain]
    exact untraced

theorem nodeIpOutputSend_untraced (sends : SendsUntraced st₀ send) (plain : Plain msg)
    (untraced : Untraced st₀ st) (refs : List EntryRef) :
    StaysUntraced st₀ (nodeIpOutputSend stack send node refs msg st) := by
  unfold nodeIpOutputSend ipOptHookMsgEcmp
  split
  · trivial
  · rw [plain.opts]
    dsimp only [bind, Except.bind]
    split
    · trivial
    · exact (nodeIpFwdError_untraced sends plain untraced _ none).bind fun st' untraced => untraced
    next sent _ =>
      have sent' : Plain (msg.setHeader { msg.header with toNetMsg := sent }) := plain.setHeader plain.opts
      exact nodeIpTransmit_untraced sends sent' untraced _ _

omit [DecidableEq N] [DecidableEq I] in
theorem nodeIpProcessMsg_untraced (sends : SendsUntraced st₀ send) (plain : Plain msg)
    (untraced : Untraced st₀ st) : StaysUntraced st₀ (nodeIpProcessMsg stack send node msg st) := by
  have unreachable : StaysUntraced st₀ (do
      let st ← nodeIpFwdError send node msg .protoUnreach (some .protoUnreach) st
      .ok (.protoUnreach, st)) :=
    (nodeIpFwdError_untraced sends plain untraced _ _).bind fun st' untraced => untraced
  unfold nodeIpProcessMsg
  dsimp only
  split
  next header sender type =>
    have heard (rcvd : Option (Rcvd N)) : Untraced st₀ { st with rcvd := rcvd } :=
      { untraced with }
    unfold icmpProtoHandle
    dsimp only
    split
    · exact (sends node _ _ (.icmp rfl node _) (heard _)).bind fun after untraced => untraced
    · rw [show header.opts = none from plain]
      exact heard _
    · exact heard _
    · exact heard _
  · split
    · exact untraced
    · exact unreachable
  · split
    · exact untraced
    · exact unreachable

omit [DecidableEq I] in
theorem nodeIpInput_untraced (sends : SendsUntraced st₀ send) (plain : Plain msg)
    (untraced : Untraced st₀ st) (lif : I) : StaysUntraced st₀ (nodeIpInput stack send node lif msg st) := by
  unfold nodeIpInput ipOptHookMsgRcvd
  rw [plain.opts]
  exact nodeIpProcessMsg_untraced sends plain untraced

theorem nodeSendWith_untraced (sends : SendsUntraced st₀ send) (plain : Plain msg)
    (untraced : Untraced st₀ st) (rtentries : Option (List EntryRef)) :
    StaysUntraced st₀ (nodeSendWith stack send node msg rtentries st) := by
  unfold nodeSendWith ipOptHookMsgSent
  rw [plain.opts]
  cases rtentries with
  | some refs => exact nodeIpOutputSend_untraced sends plain untraced refs
  | none =>
    dsimp only
    split
    next lif _ =>
      let srcAddr := if msg.header.srcAddr = netAddrAny then (stack.net.iface lif).addr else msg.header.srcAddr
      have sent : Plain (msg.setHeader { msg.header with srcAddr := srcAddr }) := plain.setHeader plain.opts
      exact nodeIpInput_untraced sends sent untraced lif
    · split
      · exact (nodeIpFwdError_untraced sends plain untraced _ none).bind fun st' untraced => untraced
      · exact nodeIpOutputSend_untraced sends plain untraced _

theorem nodeSend_untraced (fuel : ℕ) (plain : Plain msg) (untraced : Untraced st₀ st) (node : N)
    (rtentries : Option (List EntryRef)) :
    StaysUntraced st₀ (nodeSend stack fuel node msg rtentries st) := by
  induction fuel generalizing node msg rtentries st with
  | zero => trivial
  | succ fuel inductionHypothesis =>
    exact nodeSendWith_untraced (fun node msg st plain untraced => inductionHypothesis plain untraced node none)
      plain untraced rtentries

theorem nodeRecvForward_untraced (sends : SendsUntraced st₀ send) (plain : Plain msg)
    (untraced : Untraced st₀ st) (rtentries : Option (List EntryRef)) :
    StaysUntraced st₀ (nodeRecvForward stack send node msg rtentries st) := by
  unfold nodeRecvForward
  have onward : Plain (msg.setHeader { msg.header with ttl := msg.header.ttl - 1 }) :=
    plain.setHeader plain.opts
  split
  · exact (nodeIpFwdError_untraced sends plain untraced _ _).bind fun st' untraced => untraced
  · dsimp only
    split
    · exact nodeIpOutputSend_untraced sends onward untraced _
    · split
      · exact (nodeIpFwdError_untraced sends onward untraced _ _).bind fun st' untraced => untraced
      · exact nodeIpOutputSend_untraced sends onward untraced _

theorem nodeRecvMsg_untraced (sends : SendsUntraced st₀ send) (fuel : ℕ) (plain : Plain msg)
    (untraced : Untraced st₀ st) (iif : I) : StaysUntraced st₀ (nodeRecvMsg stack send fuel iif msg st) := by
  induction fuel generalizing iif msg with
  | zero => trivial
  | succ fuel inductionHypothesis =>
    rw [nodeRecvMsg]
    split
    · trivial
    · unfold ipOptHookMsgIn
      dsimp only
      rw [plain.opts]
      dsimp only
      split
      · split
        · exact nodeIpInput_untraced sends plain untraced _
        · split
          · exact inductionHypothesis plain _
          · split
            next header inner _ =>
              unfold ipOptHookMsgDecap
              rw [plain.2.opts]
              exact inductionHypothesis plain.2 _
            · exact untraced
            · exact untraced
      · exact nodeRecvForward_untraced sends plain untraced none

theorem staticRun_untraced (fuel numSteps : ℕ) (untraced : Untraced st₀ st) :
    Ends (Untraced st₀) (fun _ => True) (staticRun stack fuel numSteps st) := by
  induction numSteps generalizing st with
  | zero => exact untraced
  | succ numSteps inductionHypothesis =>
    unfold staticRun
    split
    · exact untraced
    next iif msg events head =>
      have plain : Plain msg := untraced.events (iif, msg) (by rw [head]; exact List.mem_cons_self)
      have rest : Untraced st₀ { st with events := events } :=
        { untraced with
          events := fun event member =>
            untraced.events event (by rw [head]; exact List.mem_cons_of_mem _ member) }
      have sends : SendsUntraced st₀ (sender stack fuel) :=
        fun node msg st plain untraced => nodeSend_untraced fuel plain untraced node none
      refine (nodeRecvMsg_untraced sends fuel plain rest iif).bind fun after untraced => ?_
      dsimp only
      split
      · exact untraced
      · exact inductionHypothesis untraced

end Sending

end Cbgp.Verified.Ip
