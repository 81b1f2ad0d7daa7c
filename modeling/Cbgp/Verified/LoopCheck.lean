import Cbgp.Verified.HopLimit
import Cbgp.Verified.Ping

/-! # The loop check of record-route

`_check_loop` looks for a node in the trace after `ip_opt_hook_msg_in` has added the node, and always finds it: a
message with `IP_OPT_QUICK_LOOP` stops at the first node that it comes to, with `ENET_FWD_LOOP`.  That is right
when the node has been visited before, and when the message comes to no node (`loopCheck_exact_iff`).
-/

namespace Cbgp.Verified

open Cbgp.Lib Cbgp.Net

variable {N I S : Type} [DecidableEq N] [DecidableEq I] (net : Topology N I S) (rt : N → NetRt)

/-! ## Runs -/

/-- `ip_opt_ecmp_run`, on one message that waits. -/
def ecmpTurn (ctx : EcmpCtx N I S) (st : NetState N I S) : Except Crash (NetState N I S) := do
  let (error, st) ← nodeSend net rt (icmpProtocol net rt) ctx.node ctx.msg ctx.rtentries
    { st with opts := ctx.opts, events := [] }
  if error ≠ .success then .ok { st with opts.trace.status := error } else simRun net rt st

/-- The nodes to which messages with options come. -/
def arrivals : ℕ → NetState N I S → List N
  | 0, _ => []
  | numSteps + 1, st =>
    match st.events with
    | [] => []
    | (iif, msg) :: events =>
      let later :=
        match nodeRecvMsg net rt (icmpProtocol net rt) 2 iif msg { st with events := events } with
        | .ok (.success, st) => arrivals numSteps st
        | .ok _ | .error _ => []
      if msg.options then (net.iface iif).owner :: later else later

/-- The nodes to which a message that waits comes. -/
def turnArrivals (ctx : EcmpCtx N I S) (st : NetState N I S) : List N :=
  match nodeSend net rt (icmpProtocol net rt) ctx.node ctx.msg ctx.rtentries
    { st with opts := ctx.opts, events := [] } with
  | .ok (.success, st) => arrivals net rt (2 ^ 32 - 1) st
  | .ok _ | .error _ => []

/-- What `icmp_trace_send` puts into the FIFO. -/
def traceCtx (node : N) (dstAddr : NetAddr) (maxTtl : UInt8) (opts : IpOpt N I S) : EcmpCtx N I S where
  node := node
  msg := { srcAddr := netAddrAny, dstAddr := dstAddr, ttl := maxTtl.toNat, type := .trace, options := true }
  opts := { opts with trace := IpTrace.create }
  rtentries := none

/-- The states between the turns of `icmp_trace_send`. -/
inductive Waiting (start : EcmpCtx N I S) : NetState N I S → Prop where
  | start (st : NetState N I S) : Waiting start (ipOptEcmpPush { st with fifoTrace := [] } start)
  | turn {st st' : NetState N I S} {ctx : EcmpCtx N I S} {fifoTrace : List (EcmpCtx N I S)} :
      Waiting start st → st.fifoTrace = ctx :: fifoTrace →
      ecmpTurn net rt ctx { st with fifoTrace := fifoTrace } = .ok st' → Waiting start st'

/-! ## Loops -/

/-- The nodes of a trace. -/
def IpTrace.nodes (trace : IpTrace N I S) : List N :=
  trace.items.filterMap fun item =>
    match item with
    | .node node _ _ => some node
    | .subnet _ => none

/-- The nodes that the message has visited when it leaves the node where it waits. -/
def visited (ctx : EcmpCtx N I S) : List N :=
  ctx.node :: IpTrace.nodes ctx.opts.trace

/-- The message comes to a node that it has visited. -/
def Repeats : List N → List N → Prop
  | _, [] => False
  | visited, node :: came => node ∈ visited ∨ Repeats (node :: visited) came

/-- The message without `IP_OPT_QUICK_LOOP`. -/
def unchecked (ctx : EcmpCtx N I S) : EcmpCtx N I S :=
  { ctx with opts.quickLoop := false }

/-- The check is exact: the status of the trace tells whether the message comes to a node that it has visited, at
which it stops, and unless it loops the trace is the same without the check. -/
structure LoopExact (ctx : EcmpCtx N I S) (st st' : NetState N I S) : Prop where
  status : st'.opts.trace.status = .fwdLoop ↔ Repeats (visited ctx) (turnArrivals net rt ctx st)
  stops : ∀ before node after, turnArrivals net rt ctx st = before ++ node :: after →
    node ∈ visited ctx ++ before → after = []
  same : ∀ st'', ecmpTurn net rt (unchecked ctx) st = .ok st'' →
    ¬ Repeats (visited ctx) (turnArrivals net rt (unchecked ctx) st) →
    st'.opts.trace = st''.opts.trace

/-! ## The first arrival -/

/-- The entries along which the message leaves the node where it waits. -/
def leavesAlong (ctx : EcmpCtx N I S) : Option (List EntryRef) :=
  match ctx.rtentries, ctx.opts.altDest with
  | some refs, _ => some refs
  | none, some altDest => (rtFindExact (rt ctx.node) altDest netRouteAny).map (·.refs)
  | none, none =>
    if (net.nodeHasAddress ctx.node ctx.msg.dstAddr).isSome then none
    else (rtFindBest (rt ctx.node) ctx.msg.dstAddr netRouteAny).map (·.refs)

/-- The interface to which a message comes that is sent by another one. -/
def crossing (altDest : Option Pfx) (oif : I) (l2Addr : NetAddr) : Option I :=
  if (net.iface oif).connected && (net.iface oif).enabled then
    match (net.iface oif).dest with
    | some (.iface dst) => some dst
    | some (.subnet subnet) =>
      if altDest.any fun altDest => ipPrefixEq altDest (net.subnetPrefix subnet) then none
      else (net.netSubnetFindLink subnet l2Addr).filter fun dst => (net.iface dst).enabled
    | some (.endPoint _) | none => none
  else none

/-- The interface to which a message comes that leaves a node along the entries. -/
def refsArrival (node : N) (altDest : Option Pfx)
    (refs : List EntryRef) (msg : NetMsg) : Option I :=
  match refs with
  | [] => none
  | ref :: _ =>
    match nodeIpOutput net node (rt node) ref msg with
    | .ok (.send oif l2Addr _) => crossing net altDest oif l2Addr
    | .ok (.error _) | .error _ => none

/-- The interface to which the message comes first. -/
def firstArrival (ctx : EcmpCtx N I S) : Option I :=
  match leavesAlong net rt ctx with
  | some refs => refsArrival net rt ctx.node ctx.opts.altDest refs ctx.msg.toNetMsg
  | none => none

/-! ## Sending -/

section Sending

variable {net rt}

/-- The context of a message that is being traced, with the check. -/
structure CheckedCtx (ctx : EcmpCtx N I S) : Prop where
  type : ctx.msg.type = .trace
  options : ctx.msg.options = true
  quickLoop : ctx.opts.quickLoop = true
  status : ctx.opts.trace.status = .noReply

/-- How a node sends a message that has options: it arrives somewhere, or it is gone. -/
def Forwarded (net : Topology N I S) (arrival : Option I) (after : NetError × NetState N I S) : Prop :=
  match arrival with
  | some iif => ∃ msg, after.1 = .success ∧ after.2.events = [(iif, msg)] ∧ msg.options = true ∧
      after.2.opts.trace.lastIs (net.iface iif).owner = false
  | none => after.2.events = [] ∧ after.2.opts.trace.status ≠ .fwdLoop ∧ after.1 ≠ .fwdLoop

/-- The FIFO and the check are as they were. -/
def Beneath (st : NetState N I S) (after : NetError × NetState N I S) : Prop :=
  after.2.fifoTrace = st.fifoTrace ∧ after.2.opts.quickLoop = st.opts.quickLoop

omit [DecidableEq I] in
theorem setLast_lastItem {trace trace' : IpTrace N I S} {node : N}
    {f : Option I × Option I → Option I × Option I} (set : trace.setLast node f = .ok trace') :
    trace'.status = trace.status ∧ ∃ iif oif, trace'.items.getLast? = some (.node node iif oif) := by
  unfold IpTrace.setLast at set
  split at set
  · split at set
    · cases set
      exact ⟨rfl, _, _, List.getLast?_concat⟩
    · cases set
  · cases set
  · cases set

omit [DecidableEq I] in
theorem netIfaceSend_sent {st : NetState N I S} {msg : IpMsg} {oif : I} (l2Addr : NetAddr)
    (options : msg.options = true) (quiet : st.events = []) (status : st.opts.trace.status ≠ .fwdLoop)
    {iif out : Option I}
    (last : st.opts.trace.items.getLast? = some (.node (net.iface oif).owner iif out)) :
    Ends (fun after => Beneath st after ∧ Forwarded net (crossing net st.opts.altDest oif l2Addr) after)
      (fun _ => True) (netIfaceSend net st msg oif l2Addr) := by
  have gone (st' : NetState N I S) (below : Beneath st (.linkDown, st')) (quiet : st'.events = [])
      (status : st'.opts.trace.status ≠ .fwdLoop) (error : NetError) (other : error ≠ .fwdLoop) :
      Beneath st (error, st') ∧ Forwarded net (none : Option I) (error, st') :=
    ⟨below, quiet, status, other⟩
  have success : NetError.success ≠ .fwdLoop := by decide
  unfold netIfaceSend
  by_cases unsent : (net.iface oif).type = .loopback ∨ (net.iface oif).type = .virtual
  · rw [if_pos unsent]
    trivial
  · rw [if_neg unsent, crossing]
    by_cases up : ((net.iface oif).connected && (net.iface oif).enabled) = true
    · rw [Bool.and_eq_true] at up
      simp only [up.1, up.2, Bool.not_true, Bool.or_self, Bool.and_self, Bool.false_eq_true, if_false, if_true]
      cases dest : (net.iface oif).dest with
      | none => trivial
      | some dest' =>
        cases dest' with
        | endPoint addr => trivial
        | iface dst =>
          -- the other end of a link belongs to another node
          have other := (net.dest_matches oif _ dest).2.2
          refine ⟨⟨rfl, rfl⟩, msg, rfl, ?_, options, ?_⟩
          · exact congrArg (· ++ [(dst, msg)]) quiet
          · unfold IpTrace.lastIs networkSend
            rw [last]
            exact decide_eq_false other.symm
        | subnet subnet =>
          unfold ipOptHookMsgSubnet
          simp only [options, Bool.not_true, Bool.false_eq_true, if_false]
          cases reached : st.opts.altDest.any fun altDest => ipPrefixEq altDest (net.subnetPrefix subnet) with
          | true => exact ⟨⟨rfl, rfl⟩, quiet, success, success⟩
          | false =>
            simp only [Bool.false_eq_true, if_false]
            cases found : net.netSubnetFindLink subnet l2Addr with
            | none => exact gone _ ⟨rfl, rfl⟩ quiet status _ (by decide)
            | some dst =>
              cases enabled : (net.iface dst).enabled with
              | false =>
                simp only [enabled, Option.filter_some, Bool.not_false, if_true]
                exact gone _ ⟨rfl, rfl⟩ quiet status _ (by decide)
              | true =>
                simp only [enabled, Option.filter_some, Bool.not_true, Bool.false_eq_true, if_false, if_true]
                refine ⟨⟨rfl, rfl⟩, msg, rfl, ?_, options, ?_⟩
                · exact congrArg (· ++ [(dst, msg)]) quiet
                · unfold IpTrace.lastIs networkSend IpTrace.addSubnet
                  rw [List.getLast?_concat]
    · rw [if_neg up]
      have down : (!(net.iface oif).connected || !(net.iface oif).enabled) = true := by
        rwa [← Bool.not_and, Bool.not_eq_true', ← Bool.not_eq_true]
      rw [if_pos down]
      exact gone st ⟨rfl, rfl⟩ quiet status _ (by decide)

omit [DecidableEq N] in
theorem hookMsgOut_ok [DecidableEq N] {st st' : NetState N I S} {msg : IpMsg} {node : N} {oif : I}
    (options : msg.options = true) (out : ipOptHookMsgOut st msg node oif = .ok st') :
    ∃ trace load, (∃ f, st.opts.trace.setLast node f = .ok trace) ∧
      st' = { st with opts.trace := trace, load := load } := by
  unfold ipOptHookMsgOut at out
  simp only [options, Bool.not_true, Bool.false_eq_true, if_false] at out
  obtain ⟨trace, set, rest⟩ := except_bind_eq_ok.mp out
  cases rest
  exact ⟨trace, _, ⟨_, set⟩, rfl⟩

theorem nodeIpTransmit_sent {st : NetState N I S} (msg : IpMsg) {node : N} {oif : I} {l2Addr : NetAddr}
    (options : msg.options = true) (quiet : st.events = []) (status : st.opts.trace.status ≠ .fwdLoop)
    (owner : (net.iface oif).owner = node) :
    Ends (fun after => Beneath st after ∧ Forwarded net (crossing net st.opts.altDest oif l2Addr) after)
      (fun _ => True) (nodeIpTransmit net st msg node oif l2Addr) := by
  subst owner
  unfold nodeIpTransmit
  cases out : ipOptHookMsgOut st msg (net.iface oif).owner oif with
  | error crash => trivial
  | ok st' =>
    obtain ⟨trace, load, ⟨_, set⟩, rfl⟩ := hookMsgOut_ok options out
    obtain ⟨sameStatus, iif, out, last⟩ := setLast_lastItem set
    have sent : Ends (fun after => Beneath st after ∧
        Forwarded net (crossing net st.opts.altDest oif l2Addr) after) (fun _ => True)
        (netIfaceSend net { st with opts.trace := trace, load := load } msg oif l2Addr) :=
      netIfaceSend_sent l2Addr options quiet (sameStatus ▸ status) last
    refine sent.bind fun after both => ?_
    obtain ⟨below, gone⟩ := both
    obtain ⟨error, after⟩ := after
    dsimp only
    by_cases success : error = .success
    · rw [if_pos success]
      exact ⟨below, success ▸ gone⟩
    · rw [if_neg success, ipOptHookMsgError, if_pos options]
      cases arrival : crossing net st.opts.altDest oif l2Addr with
      | some iif =>
        rw [arrival] at gone
        exact absurd gone.choose_spec.1 success
      | none =>
        rw [arrival] at gone
        refine ⟨below, gone.1, gone.2.2, ?_⟩
        dsimp only
        split
        · exact gone.2.2
        · decide

/-- Contexts are put into the FIFO for messages that are traced as the message is. -/
def Forks (st : NetState N I S) (fifoTrace : List (EcmpCtx N I S)) : Prop :=
  ∃ new, fifoTrace = st.fifoTrace ++ new ∧ ∀ ctx ∈ new, CheckedCtx ctx

omit [DecidableEq N] [DecidableEq I] in
theorem hookMsgEcmp_forks {st : NetState N I S} {msg : IpMsg} (node : N) (refs : List EntryRef)
    (type : msg.type = .trace) (options : msg.options = true) (quickLoop : st.opts.quickLoop = true)
    (status : st.opts.trace.status = .noReply) :
    Forks st (ipOptHookMsgEcmp st msg node refs).fifoTrace ∧
      ∃ load, (ipOptHookMsgEcmp st msg node refs).opts = { st.opts with load := load } ∧
        (ipOptHookMsgEcmp st msg node refs).events = st.events := by
  unfold ipOptHookMsgEcmp
  by_cases alone : (!msg.options || !st.opts.ecmp || decide (refs.length ≤ 1)) = true
  · simp only [alone, if_true]
    exact ⟨⟨[], (List.append_nil _).symm, List.forall_mem_nil _⟩, st.opts.load, rfl, trivial⟩
  · simp only [alone]
    generalize st.opts.load.map (· / UInt32.ofNat refs.length) = load
    -- One context for each further entry, each with the options as they stand; a full FIFO drops it.
    have pushed (refs : List EntryRef) (st' : NetState N I S) (forks : Forks st st'.fifoTrace)
        (opts : st'.opts = { st.opts with load := load }) (events : st'.events = st.events) :
        let after := refs.foldl (fun st ref => ipOptEcmpPush st ⟨node, msg, st.opts, some [ref]⟩) st'
        Forks st after.fifoTrace ∧ after.opts = { st.opts with load := load } ∧
          after.events = st.events := by
      induction refs generalizing st' with
      | nil => exact ⟨forks, opts, events⟩
      | cons ref refs inductionHypothesis =>
        rw [List.foldl_cons]
        refine inductionHypothesis _ ?_ ?_ ?_
        · unfold ipOptEcmpPush
          split
          · obtain ⟨new, fifo, all⟩ := forks
            refine ⟨new ++ [⟨node, msg, st'.opts, some [ref]⟩], ?_, fun ctx member => ?_⟩
            · rw [← List.append_assoc, ← fifo]
            · obtain old | last := List.mem_append.mp member
              · exact all ctx old
              · rw [List.mem_singleton.mp last]
                exact ⟨type, options, by rw [opts]; exact quickLoop, by rw [opts]; exact status⟩
          · exact forks
        · unfold ipOptEcmpPush
          split <;> exact opts
        · unfold ipOptEcmpPush
          split <;> exact events
    obtain ⟨forks, opts, events⟩ := pushed refs.tail { st with opts.load := load }
      ⟨[], (List.append_nil _).symm, List.forall_mem_nil _⟩ rfl rfl
    exact ⟨forks, load, opts, events⟩

/-- What a node does with a message that is traced. -/
def SendsTraced (net : Topology N I S) (st : NetState N I S) (arrival : Option I) :
    Except Crash (NetError × NetState N I S) → Prop :=
  Ends (fun after => Forks st after.2.fifoTrace ∧ after.2.opts.quickLoop = true ∧ Forwarded net arrival after)
    fun _ => True

theorem nodeIpOutputSend_sent {st : NetState N I S} {msg : IpMsg} {node : N} (refs : List EntryRef)
    (type : msg.type = .trace) (options : msg.options = true) (quickLoop : st.opts.quickLoop = true)
    (status : st.opts.trace.status = .noReply) (quiet : st.events = []) :
    SendsTraced net st (refsArrival net rt node st.opts.altDest refs msg.toNetMsg)
      (nodeIpOutputSend net rt st msg node refs) := by
  unfold nodeIpOutputSend refsArrival
  cases refs with
  | nil => trivial
  | cons ref rest =>
    obtain ⟨forks, load, opts, events⟩ :=
      hookMsgEcmp_forks node (ref :: rest) type options quickLoop status
    dsimp only
    generalize ipOptHookMsgEcmp st msg node (ref :: rest) = st' at forks opts events ⊢
    -- The fork over equal entries pushes contexts and divides the load, and leaves the rest.
    have status' : st'.opts.trace.status = .noReply := by rw [opts]; exact status
    have quickLoop' : st'.opts.quickLoop = true := by rw [opts]; exact quickLoop
    cases output : nodeIpOutput net node (rt node) ref msg.toNetMsg with
    | error fault => trivial
    | ok left =>
      cases left with
      | error error =>
        cases Ip.nodeIpOutput_result output
        have dropped : ipOptHookMsgError st' msg .hostUnreach =
            { st' with opts.trace.status := .hostUnreach } := if_pos options
        change Ends _ _ (.ok (_, ipOptHookMsgError st' msg .hostUnreach))
        rw [dropped]
        have other : NetError.hostUnreach ≠ .fwdLoop := by decide
        exact ⟨forks, quickLoop', events.trans quiet, other, other⟩
      | send oif l2Addr sent =>
        have altDest : st'.opts.altDest = st.opts.altDest := by rw [opts]
        rw [← altDest]
        have waiting : st'.opts.trace.status ≠ .fwdLoop := by
          rw [status']
          decide
        refine (nodeIpTransmit_sent { msg with toNetMsg := sent } options (events.trans quiet) waiting
          (Ip.nodeIpOutput_result output).1).mono (fun after both => ?_) fun _ => id
        obtain ⟨below, gone⟩ := both
        refine ⟨?_, below.2.trans quickLoop', gone⟩
        rw [below.1]
        exact forks

theorem nodeIpInput_sent {st : NetState N I S} {msg : IpMsg} (node : N) (lif : I)
    (type : msg.type = .trace) (options : msg.options = true) (quickLoop : st.opts.quickLoop = true)
    (quiet : st.events = []) :
    SendsTraced net st none (nodeIpInput (icmpProtocol net rt) node lif msg st) := by
  unfold nodeIpInput ipOptHookMsgRcvd
  simp only [options, Bool.not_true, Bool.false_eq_true, if_false]
  cases set : st.opts.trace.setLast node _ with
  | error crash => trivial
  | ok trace =>
    change SendsTraced net st none (icmpProtoHandle net rt 2 node msg { st with opts.trace := trace })
    unfold icmpProtoHandle
    simp only [type, options, if_true]
    have other : NetError.success ≠ .fwdLoop := by decide
    exact ⟨⟨[], (List.append_nil _).symm, List.forall_mem_nil _⟩, quickLoop, quiet, other, other⟩

variable (net rt) in
theorem nodeSend_sent {ctx : EcmpCtx N I S} (traced : CheckedCtx ctx) (st : NetState N I S) :
    SendsTraced net st (firstArrival net rt ctx) (nodeSend net rt (icmpProtocol net rt) ctx.node ctx.msg
      ctx.rtentries { st with opts := ctx.opts, events := [] }) := by
  -- The hook at most adds the sending node to the trace before it looks for an alternate entry.
  obtain ⟨st', items, hooked, opts, quiet, fifo⟩ : ∃ st' items,
      ipOptHookMsgSent rt { st with opts := ctx.opts, events := [] } ctx.msg ctx.node ctx.rtentries =
        processMsgAltFwd rt st' ctx.node ctx.rtentries ∧
      st'.opts = { ctx.opts with trace.items := items } ∧ st'.events = [] ∧
      st'.fifoTrace = st.fifoTrace := by
    unfold ipOptHookMsgSent
    simp only [traced.options, Bool.not_true, Bool.false_eq_true, if_false]
    split
    · exact ⟨_, _, rfl, rfl, rfl, rfl⟩
    · exact ⟨_, _, rfl, rfl, rfl, rfl⟩
  have altDest : st'.opts.altDest = ctx.opts.altDest := by rw [opts]
  have quickLoop : st'.opts.quickLoop = true := by rw [opts]; exact traced.quickLoop
  have status : st'.opts.trace.status = .noReply := by rw [opts]; exact traced.status
  have whole {arrival : Option I} {result : Except Crash (NetError × NetState N I S)}
      (sent : SendsTraced net st' arrival result) : SendsTraced net st arrival result := by
    unfold SendsTraced Forks at sent ⊢
    rwa [← fifo]
  have output {alternate : Option Pfx} (same : ctx.opts.altDest = alternate) (refs : List EntryRef) :
      SendsTraced net st (refsArrival net rt ctx.node alternate refs ctx.msg.toNetMsg)
        (nodeIpOutputSend net rt st' ctx.msg ctx.node refs) := by
    rw [← same, ← altDest]
    exact whole (nodeIpOutputSend_sent refs traced.type traced.options quickLoop status quiet)
  have dropped (st : NetState N I S) (error : NetError) :
      ipOptHookMsgError st ctx.msg error = { st with opts.trace.status := error } :=
    if_pos traced.options
  have unreached : NetError.netUnreach ≠ .fwdLoop := by decide
  have hostGone : NetError.hostUnreach ≠ .fwdLoop := by decide
  unfold nodeSend firstArrival leavesAlong
  rw [hooked]
  unfold processMsgAltFwd
  rw [altDest]
  cases ctx.rtentries with
  | some refs => exact output rfl refs
  | none =>
    -- With an alternate destination the message follows that entry and no lookup is made.
    cases alternate : ctx.opts.altDest with
    | some pfx =>
      dsimp only
      cases rtFindExact (rt ctx.node) pfx netRouteAny with
      | some rtinfo => exact output alternate rtinfo.refs
      | none =>
        change SendsTraced net st none (.ok (_, ipOptHookMsgError { st' with opts.trace.status := .netUnreach }
          ctx.msg .netUnreach))
        rw [dropped]
        exact whole ⟨⟨[], (List.append_nil _).symm, List.forall_mem_nil _⟩, quickLoop, quiet, unreached, unreached⟩
    | none =>
      dsimp only
      cases net.nodeHasAddress ctx.node ctx.msg.dstAddr with
      | some lif => exact whole (nodeIpInput_sent ctx.node lif traced.type traced.options quickLoop quiet)
      | none =>
        simp only [Option.isSome_none, Bool.false_eq_true, if_false]
        cases rtFindBest (rt ctx.node) ctx.msg.dstAddr netRouteAny with
        | some rtinfo => exact output alternate rtinfo.refs
        | none =>
          dsimp only
          rw [dropped]
          exact whole ⟨⟨[], (List.append_nil _).symm, List.forall_mem_nil _⟩, quickLoop, quiet, hostGone, hostGone⟩

/-! ## Without the check -/

/-- A state without the check and the FIFO, which sending does not read. -/
def forget (st : NetState N I S) : NetState N I S :=
  { st with opts.quickLoop := false, fifoTrace := [] }

/-- The same of the result of sending. -/
def shown (result : Except Crash (NetError × NetState N I S)) : Except Crash (NetError × NetState N I S) :=
  result.map fun after => (after.1, forget after.2)

variable {st : NetState N I S} {msg : IpMsg}

omit [DecidableEq N] [DecidableEq I] in
theorem hookMsgError_forget (error : NetError) :
    ipOptHookMsgError (forget st) msg error = forget (ipOptHookMsgError st msg error) := by
  unfold ipOptHookMsgError
  split <;> rfl

omit [DecidableEq N] [DecidableEq I] in
theorem netIfaceSend_forget (oif : I) (l2Addr : NetAddr) :
    netIfaceSend net (forget st) msg oif l2Addr = shown (netIfaceSend net st msg oif l2Addr) := by
  unfold netIfaceSend
  split
  · rfl
  · split
    · rfl
    · cases (net.iface oif).dest with
      | none => rfl
      | some dest =>
        cases dest with
        | endPoint addr => rfl
        | iface dst => rfl
        | subnet subnet =>
          have hook : ipOptHookMsgSubnet net (forget st) msg subnet =
              ((ipOptHookMsgSubnet net st msg subnet).1, forget (ipOptHookMsgSubnet net st msg subnet).2) := by
            unfold ipOptHookMsgSubnet
            split
            · rfl
            · dsimp only [forget]
              split <;> rfl
          dsimp only
          rw [hook]
          dsimp only
          split
          · rfl
          · split
            · rfl
            · split <;> rfl

theorem nodeIpTransmit_forget (node : N) (oif : I) (l2Addr : NetAddr) :
    nodeIpTransmit net (forget st) msg node oif l2Addr = shown (nodeIpTransmit net st msg node oif l2Addr) := by
  have hook : ipOptHookMsgOut (forget st) msg node oif = (ipOptHookMsgOut st msg node oif).map forget := by
    unfold ipOptHookMsgOut
    split
    · rfl
    · change (st.opts.trace.setLast node _ >>= _) = Except.map _ (st.opts.trace.setLast node _ >>= _)
      cases st.opts.trace.setLast node _ with
      | error crash => rfl
      | ok trace => rfl
  unfold nodeIpTransmit
  rw [hook]
  cases ipOptHookMsgOut st msg node oif with
  | error crash => rfl
  | ok st' =>
    change (netIfaceSend net (forget st') msg oif l2Addr >>= _) =
      shown (netIfaceSend net st' msg oif l2Addr >>= _)
    rw [netIfaceSend_forget]
    cases netIfaceSend net st' msg oif l2Addr with
    | error crash => rfl
    | ok after =>
      change (if after.1 = .success then _ else _) = shown (if after.1 = .success then _ else _)
      split
      · rfl
      · rw [hookMsgError_forget]
        rfl

omit [DecidableEq N] [DecidableEq I] in
theorem hookMsgEcmp_forget (node : N) (refs : List EntryRef) :
    forget (ipOptHookMsgEcmp (forget st) msg node refs) = forget (ipOptHookMsgEcmp st msg node refs) := by
  have pushed (refs : List EntryRef) (st : NetState N I S) :
      forget (refs.foldl (fun st ref => ipOptEcmpPush st ⟨node, msg, st.opts, some [ref]⟩) st) = forget st := by
    induction refs generalizing st with
    | nil => rfl
    | cons ref refs inductionHypothesis =>
      rw [List.foldl_cons, inductionHypothesis]
      unfold ipOptEcmpPush
      split <;> rfl
  unfold ipOptHookMsgEcmp
  change forget (if (!msg.options || !st.opts.ecmp || decide (refs.length ≤ 1)) = true then _ else _) = _
  split
  · rfl
  · dsimp only
    rw [pushed, pushed]
    rfl

omit [DecidableEq N] [DecidableEq I] in
theorem shown_forget {f : NetState N I S → Except Crash (NetError × NetState N I S)}
    (commutes : ∀ st, f (forget st) = shown (f st)) {st st' : NetState N I S} (same : forget st = forget st') :
    shown (f st) = shown (f st') := by
  rw [← commutes, same, commutes]

theorem nodeIpOutputSend_forget (node : N) (refs : List EntryRef) :
    shown (nodeIpOutputSend net rt (forget st) msg node refs) =
      shown (nodeIpOutputSend net rt st msg node refs) := by
  unfold nodeIpOutputSend
  cases refs with
  | nil => rfl
  | cons ref rest =>
    have hook : forget (ipOptHookMsgEcmp (forget st) msg node (ref :: rest)) =
        forget (ipOptHookMsgEcmp st msg node (ref :: rest)) := hookMsgEcmp_forget node (ref :: rest)
    dsimp only
    cases nodeIpOutput net node (rt node) ref msg.toNetMsg with
    | error fault => rfl
    | ok left =>
      cases left with
      | error error =>
        change Except.ok (error, forget (ipOptHookMsgError _ msg error)) = Except.ok (error, forget _)
        rw [← hookMsgError_forget, hook, hookMsgError_forget]
      | send oif l2Addr sent =>
        exact shown_forget (f := fun st => nodeIpTransmit net st { msg with toNetMsg := sent } node oif l2Addr)
          (fun _ => nodeIpTransmit_forget node oif l2Addr) hook

theorem nodeIpInput_forget (node : N) (lif : I) (type : msg.type = .trace) :
    nodeIpInput (icmpProtocol net rt) node lif msg (forget st) =
      shown (nodeIpInput (icmpProtocol net rt) node lif msg st) := by
  have hook : ipOptHookMsgRcvd (forget st) msg node lif = (ipOptHookMsgRcvd st msg node lif).map forget := by
    unfold ipOptHookMsgRcvd
    split
    · rfl
    · change (st.opts.trace.setLast node _ >>= _) = Except.map _ (st.opts.trace.setLast node _ >>= _)
      cases st.opts.trace.setLast node _ with
      | error crash => rfl
      | ok trace => rfl
  unfold nodeIpInput
  rw [hook]
  cases ipOptHookMsgRcvd st msg node lif with
  | error crash => rfl
  | ok st' =>
    change icmpProtoHandle net rt 2 node msg (forget st') = shown (icmpProtoHandle net rt 2 node msg st')
    unfold icmpProtoHandle
    simp only [type]
    split <;> rfl

/-- Sending does not depend on the check, nor on the FIFO. -/
theorem nodeSend_forget (node : N) (rtentries : Option (List EntryRef)) (type : msg.type = .trace) :
    shown (nodeSend net rt (icmpProtocol net rt) node msg rtentries (forget st)) =
      shown (nodeSend net rt (icmpProtocol net rt) node msg rtentries st) := by
  -- The hook reads neither the check nor the FIFO, and then no way out does.
  have hook : ipOptHookMsgSent rt (forget st) msg node rtentries =
      ((ipOptHookMsgSent rt st msg node rtentries).1, forget (ipOptHookMsgSent rt st msg node rtentries).2.1,
        (ipOptHookMsgSent rt st msg node rtentries).2.2) := by
    have altFwd (st : NetState N I S) : processMsgAltFwd rt (forget st) node rtentries =
        ((processMsgAltFwd rt st node rtentries).1, forget (processMsgAltFwd rt st node rtentries).2.1,
          (processMsgAltFwd rt st node rtentries).2.2) := by
      have forgotten : (forget st).opts.altDest = st.opts.altDest := rfl
      unfold processMsgAltFwd
      rw [forgotten]
      cases rtentries with
      | some refs => rfl
      | none =>
        cases st.opts.altDest with
        | none => rfl
        | some altDest =>
          dsimp only
          cases rtFindExact (rt node) altDest netRouteAny <;> rfl
    unfold ipOptHookMsgSent
    split
    · rfl
    · rw [← altFwd]
      change processMsgAltFwd rt (if st.opts.trace.lastIs node = true then _ else _) node rtentries = _
      split <;> rfl
  unfold nodeSend
  rw [hook]
  generalize ipOptHookMsgSent rt st msg node rtentries = hooked
  obtain ⟨error, st', refs⟩ := hooked
  have dropped (error : NetError) :
      shown (.ok (error, ipOptHookMsgError (forget st') msg error)) =
        shown (.ok (error, ipOptHookMsgError st' msg error)) := by
    rw [hookMsgError_forget]
    rfl
  cases error with
  | success =>
    cases refs with
    | some refs => exact nodeIpOutputSend_forget node refs
    | none =>
      dsimp only
      cases net.nodeHasAddress node msg.dstAddr with
      | some lif =>
        let srcAddr := if msg.srcAddr = netAddrAny then (net.iface lif).addr else msg.srcAddr
        exact shown_forget (f := nodeIpInput (icmpProtocol net rt) node lif { msg with srcAddr := srcAddr })
          (fun _ => nodeIpInput_forget node lif type) (show forget (forget st') = forget st' from rfl)
      | none =>
        cases rtFindBest (rt node) msg.dstAddr netRouteAny with
        | none => exact dropped _
        | some rtinfo => exact nodeIpOutputSend_forget node rtinfo.refs
  | _ => exact dropped _

/-! ## Turns -/

variable (net rt st) in
/-- The check stops a message at the first node that it comes to. -/
theorem nodeRecvMsg_checked {iif : I} (options : msg.options = true) (quickLoop : st.opts.quickLoop = true)
    (last : st.opts.trace.lastIs (net.iface iif).owner = false) :
    nodeRecvMsg net rt (icmpProtocol net rt) 2 iif msg st = .error .ttlZero ∨
      ∃ st', nodeRecvMsg net rt (icmpProtocol net rt) 2 iif msg st = .ok (.fwdLoop, st') ∧
        st'.opts.trace.status = .fwdLoop ∧ st'.fifoTrace = st.fifoTrace := by
  rw [nodeRecvMsg]
  split
  · exact .inl rfl
  · have found : (st.opts.trace.addNode (net.iface iif).owner (some iif)).search (net.iface iif).owner = true := by
      simp [IpTrace.search, IpTrace.addNode]
    unfold ipOptHookMsgIn
    simp only [options, last, quickLoop, found, Bool.not_true, Bool.false_eq_true, if_false, Bool.and_self, if_true]
    exact .inr ⟨_, rfl, rfl, rfl⟩

/-- What becomes of a message that is traced, with the check. -/
structure Turned (net : Topology N I S) (rt : N → NetRt) (ctx : EcmpCtx N I S) (st st' : NetState N I S) :
    Prop where
  forks : Forks st st'.fifoTrace
  status : st'.opts.trace.status = .fwdLoop ↔ (firstArrival net rt ctx).isSome
  arrivals : turnArrivals net rt ctx st = ((firstArrival net rt ctx).map fun iif => (net.iface iif).owner).toList

theorem staticRun_nil (numSteps : ℕ) (quiet : st.events = []) : staticRun net rt numSteps st = .ok st := by
  cases numSteps with
  | zero => rfl
  | succ numSteps => rw [staticRun, quiet]

theorem arrivals_nil (numSteps : ℕ) (quiet : st.events = []) : arrivals net rt numSteps st = [] := by
  cases numSteps with
  | zero => rfl
  | succ numSteps => rw [arrivals, quiet]

theorem staticRun_checked {numSteps : ℕ} {iif : I} {events : List (I × IpMsg)} (steps : 0 < numSteps)
    (head : st.events = (iif, msg) :: events) (options : msg.options = true)
    (quickLoop : st.opts.quickLoop = true) (last : st.opts.trace.lastIs (net.iface iif).owner = false)
    {st' : NetState N I S} (done : staticRun net rt numSteps st = .ok st') :
    st'.opts.trace.status = .fwdLoop ∧ st'.fifoTrace = st.fifoTrace ∧
      arrivals net rt numSteps st = [(net.iface iif).owner] := by
  obtain ⟨n, rfl⟩ := Nat.exists_eq_succ_of_ne_zero (Nat.ne_of_gt steps)
  rw [staticRun, head] at done
  rw [arrivals, head]
  have received := nodeRecvMsg_checked net rt { st with events := events } options quickLoop last
  dsimp only at done ⊢
  obtain stopped | ⟨st'', looped, status, fifo⟩ := received
  · rw [stopped] at done
    cases done
  · rw [looped] at done ⊢
    cases done
    simp only [options, if_true]
    exact ⟨status, fifo, trivial⟩

theorem ecmpTurn_eq (ctx : EcmpCtx N I S) {st after : NetState N I S} {error : NetError}
    (sending : nodeSend net rt (icmpProtocol net rt) ctx.node ctx.msg ctx.rtentries
      { st with opts := ctx.opts, events := [] } = .ok (error, after)) :
    ecmpTurn net rt ctx st =
      if error ≠ .success then .ok { after with opts.trace.status := error } else simRun net rt after := by
  unfold ecmpTurn
  rw [sending]
  rfl

theorem turnArrivals_eq (ctx : EcmpCtx N I S) {st after : NetState N I S} {error : NetError}
    (sending : nodeSend net rt (icmpProtocol net rt) ctx.node ctx.msg ctx.rtentries
      { st with opts := ctx.opts, events := [] } = .ok (error, after)) :
    turnArrivals net rt ctx st = if error ≠ .success then [] else arrivals net rt (2 ^ 32 - 1) after := by
  unfold turnArrivals
  rw [sending]
  cases error with
  | success => rfl
  | _ => rfl

theorem ecmpTurn_turned {ctx : EcmpCtx N I S} (traced : CheckedCtx ctx) {st st' : NetState N I S}
    (done : ecmpTurn net rt ctx st = .ok st') : Turned net rt ctx st st' := by
  have sent := nodeSend_sent net rt traced st
  obtain ⟨⟨error, after⟩, sending, _⟩ := except_bind_eq_ok.mp done
  obtain ⟨forks, quickLoop, gone⟩ := sent.value sending
  rw [ecmpTurn_eq ctx sending] at done
  have came := turnArrivals_eq ctx sending
  dsimp only at forks quickLoop
  unfold Forwarded at gone
  cases arrival : firstArrival net rt ctx with
  | some iif =>
    rw [arrival] at gone
    obtain ⟨msg, rfl, head, options, last⟩ := gone
    rw [if_neg (not_not.mpr rfl)] at done came
    have steps : 0 < 2 ^ 32 - 1 := by decide
    obtain ⟨status, fifo, first⟩ := staticRun_checked steps head options quickLoop last done
    refine ⟨by rw [fifo]; exact forks, by simp [arrival, status], ?_⟩
    rw [came, arrival]
    exact first
  | none =>
    rw [arrival] at gone
    obtain ⟨quiet, status, other⟩ := gone
    by_cases success : error = .success
    · rw [if_neg (not_not.mpr success)] at done came
      rw [simRun, staticRun_nil _ quiet] at done
      cases done
      refine ⟨forks, by simp [arrival, status], ?_⟩
      rw [came, arrival]
      exact arrivals_nil _ quiet
    · rw [if_pos success] at done came
      cases done
      refine ⟨forks, by simpa [arrival] using other, ?_⟩
      rw [came, arrival]
      rfl

theorem nodeSend_unchecked {ctx : EcmpCtx N I S} (traced : CheckedCtx ctx) {st after : NetState N I S}
    {error : NetError}
    (sending : nodeSend net rt (icmpProtocol net rt) ctx.node ctx.msg ctx.rtentries
      { st with opts := ctx.opts, events := [] } = .ok (error, after)) :
    ∃ after', nodeSend net rt (icmpProtocol net rt) ctx.node ctx.msg ctx.rtentries
        { st with opts := (unchecked ctx).opts, events := [] } = .ok (error, after') ∧
      after'.events = after.events ∧ after'.opts.trace = after.opts.trace := by
  have same : shown (nodeSend net rt (icmpProtocol net rt) ctx.node ctx.msg ctx.rtentries
      { st with opts := (unchecked ctx).opts, events := [] }) = shown (.ok (error, after)) := by
    rw [← sending]
    have forgotten (st : NetState N I S) :
        shown (nodeSend net rt (icmpProtocol net rt) ctx.node ctx.msg ctx.rtentries (forget st)) =
          shown (nodeSend net rt (icmpProtocol net rt) ctx.node ctx.msg ctx.rtentries st) :=
      nodeSend_forget ctx.node ctx.rtentries traced.type
    exact (forgotten { st with opts := (unchecked ctx).opts, events := [] }).symm.trans
      (forgotten { st with opts := ctx.opts, events := [] })
  obtain ⟨⟨error', after'⟩, sent, shows⟩ := except_map_eq_ok.mp same
  obtain ⟨rfl, forgot⟩ := Prod.ext_iff.mp shows
  change forget after' = forget after at forgot
  refine ⟨after', sent, ?_, ?_⟩
  · change (forget after').events = (forget after).events
    rw [forgot]
  · change (forget after').opts.trace = (forget after).opts.trace
    rw [forgot]

theorem Waiting.traced {start : EcmpCtx N I S} (first : CheckedCtx start) {st : NetState N I S}
    (waiting : Waiting net rt start st) : ∀ ctx ∈ st.fifoTrace, CheckedCtx ctx := by
  induction waiting with
  | start st =>
    intro ctx member
    rw [List.mem_singleton.mp (show ctx ∈ [start] from member)]
    exact first
  | turn waiting head done inductionHypothesis =>
    rw [head] at inductionHypothesis
    intro ctx member
    obtain ⟨new, fifo, all⟩ := (ecmpTurn_turned (inductionHypothesis _ List.mem_cons_self) done).forks
    rw [fifo] at member
    exact (List.mem_append.mp member).elim (fun old => inductionHypothesis ctx (List.mem_cons_of_mem _ old))
      (all ctx)

end Sending

/-- The check is exact for the messages that come to no node, or first to one that they have visited. -/
theorem loopCheck_exact_iff {node : N} {dstAddr : NetAddr} {maxTtl : UInt8} {opts : IpOpt N I S}
    (quickLoop : opts.quickLoop = true) {st st' : NetState N I S} {ctx : EcmpCtx N I S}
    {fifoTrace : List (EcmpCtx N I S)}
    (waiting : Waiting net rt (traceCtx node dstAddr maxTtl opts) st) (head : st.fifoTrace = ctx :: fifoTrace)
    (done : ecmpTurn net rt ctx { st with fifoTrace := fifoTrace } = .ok st') :
    LoopExact net rt ctx { st with fifoTrace := fifoTrace } st' ↔
      ∀ iif ∈ firstArrival net rt ctx, (net.iface iif).owner ∈ visited ctx := by
  have traced : CheckedCtx ctx :=
    waiting.traced ⟨rfl, rfl, quickLoop, rfl⟩ ctx (by rw [head]; exact List.mem_cons_self)
  have turned := ecmpTurn_turned traced done
  have came := turned.arrivals
  obtain ⟨⟨error, st₁⟩, sending, _⟩ := except_bind_eq_ok.mp done
  obtain ⟨st₂, sending', events, trace⟩ := nodeSend_unchecked traced sending
  have gone := ((nodeSend_sent net rt traced _).value sending).2.2
  unfold Forwarded at gone
  -- Whether the turn is exact depends only on where its message first arrives.
  cases arrival : firstArrival net rt ctx with
  | none =>
    rw [arrival] at came gone
    -- It arrives nowhere: no receiving node is added and searched for, and nothing differs.
    refine iff_of_true ⟨?_, fun before node after split => ?_, fun st'' done' _ => ?_⟩ nofun
    · rw [turned.status, came, arrival]
      exact iff_of_false Bool.false_ne_true id
    · rw [came] at split
      exact absurd split.symm (List.append_ne_nil_of_right_ne_nil _ (List.cons_ne_nil _ _))
    · rw [ecmpTurn_eq ctx sending] at done
      rw [ecmpTurn_eq (unchecked ctx) sending'] at done'
      split at done
      next failed =>
        rw [if_pos failed] at done'
        cases done
        cases done'
        simp only [trace]
      next success =>
        rw [if_neg success, simRun, staticRun_nil _ (events.trans gone.1)] at done'
        rw [simRun, staticRun_nil _ gone.1] at done
        cases done
        cases done'
        exact trace.symm
  | some iif =>
    rw [arrival] at came gone
    obtain ⟨msg, rfl, posted, options, last⟩ := gone
    change turnArrivals net rt ctx _ = [(net.iface iif).owner] at came
    have first (later : List N) (old : (net.iface iif).owner ∈ visited ctx) :
        Repeats (visited ctx) ((net.iface iif).owner :: later) := .inl old
    -- It arrives: the option adds the receiving node and then finds it in the trace.
    refine ⟨fun exact iif' here => ?_,
      fun old => ⟨?_, fun before node after split => ?_, fun st'' done' loopFree => ?_⟩⟩
    · cases here
      have repeats := exact.status.mp (turned.status.mpr (by rw [arrival]; rfl))
      rw [came] at repeats
      exact repeats.resolve_right id
    · rw [turned.status, came, arrival]
      exact iff_of_true rfl (first [] (old iif rfl))
    · rw [came] at split
      intro _
      cases before with
      | nil => exact (List.cons.inj split).2.symm
      | cons _ before =>
        exact absurd (List.cons.inj split).2.symm (List.append_ne_nil_of_right_ne_nil _ (List.cons_ne_nil _ _))
    · refine absurd ?_ loopFree
      rw [turnArrivals_eq (unchecked ctx) sending', if_neg (not_not.mpr rfl)]
      rw [show 2 ^ 32 - 1 = (2 ^ 32 - 2) + 1 from rfl, arrivals, events.trans posted]
      dsimp only
      rw [if_pos options]
      exact first _ (old iif rfl)

/-- The options of a message with the check. -/
def checkedOpts (N I S : Type) : IpOpt N I S where
  quickLoop := true
  ecmp := false
  load := none
  altDest := none
  trace := IpTrace.create

/-- The first router sends a message to the second. -/
theorem loopCheck_exact_pair :
    ∃ st', ecmpTurn (Ip.routerPair fun _ => 0) (fun b => Ip.defaultRoute (Ip.linkAddr b))
        (traceCtx false 0x0a000002 255 (checkedOpts Bool (Bool × Ip.Port) Empty))
        (quietState Bool (Bool × Ip.Port) Empty) = .ok st' ∧
      firstArrival (Ip.routerPair fun _ => 0) (fun b => Ip.defaultRoute (Ip.linkAddr b))
        (traceCtx false 0x0a000002 255 (checkedOpts Bool (Bool × Ip.Port) Empty)) ≠ none ∧
      (LoopExact (Ip.routerPair fun _ => 0) (fun b => Ip.defaultRoute (Ip.linkAddr b))
          (traceCtx false 0x0a000002 255 (checkedOpts Bool (Bool × Ip.Port) Empty))
          (quietState Bool (Bool × Ip.Port) Empty) st' ↔
        ∀ iif ∈ firstArrival (Ip.routerPair fun _ => 0) (fun b => Ip.defaultRoute (Ip.linkAddr b))
            (traceCtx false 0x0a000002 255 (checkedOpts Bool (Bool × Ip.Port) Empty)),
          ((Ip.routerPair fun _ => 0).iface iif).owner ∈
            visited (traceCtx false 0x0a000002 255 (checkedOpts Bool (Bool × Ip.Port) Empty))) := by
  have done : okAnd (ecmpTurn (Ip.routerPair fun _ => 0) (fun b => Ip.defaultRoute (Ip.linkAddr b))
      (traceCtx false 0x0a000002 255 (checkedOpts Bool (Bool × Ip.Port) Empty))
      (quietState Bool (Bool × Ip.Port) Empty)) (fun _ => true) = true := by
    decide +kernel
  obtain ⟨st', turned, _⟩ := okAnd_iff.mp done
  exact ⟨st', turned, by decide +kernel, loopCheck_exact_iff _ _ rfl (.start (quietState _ _ _)) rfl turned⟩

/-- The first router sends a message to the second, which is on no loop. -/
theorem checkedPair_inexact :
    ∃ st', ecmpTurn (Ip.routerPair fun _ => 0) (fun b => Ip.defaultRoute (Ip.linkAddr b))
        (traceCtx false 0x0a000002 255 (checkedOpts Bool (Bool × Ip.Port) Empty))
        (quietState Bool (Bool × Ip.Port) Empty) = .ok st' ∧
      ¬ LoopExact (Ip.routerPair fun _ => 0) (fun b => Ip.defaultRoute (Ip.linkAddr b))
          (traceCtx false 0x0a000002 255 (checkedOpts Bool (Bool × Ip.Port) Empty))
          (quietState Bool (Bool × Ip.Port) Empty) st' := by
  have done : okAnd (ecmpTurn (Ip.routerPair fun _ => 0) (fun b => Ip.defaultRoute (Ip.linkAddr b))
      (traceCtx false 0x0a000002 255 (checkedOpts Bool (Bool × Ip.Port) Empty))
      (quietState Bool (Bool × Ip.Port) Empty)) (fun st => st.opts.trace.status = .fwdLoop) = true := by
    decide +kernel
  have came : turnArrivals (Ip.routerPair fun _ => 0) (fun b => Ip.defaultRoute (Ip.linkAddr b))
      (traceCtx false 0x0a000002 255 (checkedOpts Bool (Bool × Ip.Port) Empty))
      (quietState Bool (Bool × Ip.Port) Empty) = [true] := by
    decide +kernel
  obtain ⟨st', turned, looped⟩ := okAnd_iff.mp done
  refine ⟨st', turned, fun exact => ?_⟩
  have repeats := exact.status.mp (of_decide_eq_true looped)
  rw [came] at repeats
  simp [Repeats, visited, IpTrace.nodes, traceCtx, IpTrace.create] at repeats

end Cbgp.Verified
