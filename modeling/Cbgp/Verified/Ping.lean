import Cbgp.Verified.MessageFates
import Cbgp.Verified.ShortestPaths

/-! # Pings

A ping answers with success exactly when its request reaches the owner of the destination and the reply
reaches the node that pings, and it passes on the error of a node on the way that comes back, unless one
of its messages gets to a virtual interface that no tunnel uses, where the program stops
(`ping_answers_iff`).  One message is under way at a time, and the simulator brings it to its end
(`fate_runs`, `blocked_runs`), so that the record of received messages is that of the last message of the
exchange.
-/

namespace Cbgp.Verified

open Cbgp.Lib Cbgp.Net

variable {N I S : Type} (net : Topology N I S) (rt : N → NetRt)

/-! ## Messages without options -/

section Untraced

variable {net rt} {node : N} {msg : IpMsg} {st : NetState N I S}

/-- The message after a hop. -/
def IpMsg.hop (msg : IpMsg) (next : NetMsg) : IpMsg :=
  { msg with toNetMsg := next }

@[simp] theorem IpMsg.hop_self (msg : IpMsg) : IpMsg.hop msg msg.toNetMsg = msg := rfl

theorem hookMsgError_untraced (untraced : msg.options = false) (error : NetError) :
    ipOptHookMsgError st msg error = st := by
  simp [ipOptHookMsgError, untraced]

theorem hookMsgEcmp_untraced (untraced : msg.options = false) (refs : List EntryRef) :
    ipOptHookMsgEcmp st msg node refs = st := by
  simp [ipOptHookMsgEcmp, untraced]

theorem hookMsgOut_untraced [DecidableEq N] [DecidableEq I] (untraced : msg.options = false) (oif : I) :
    ipOptHookMsgOut st msg node oif = .ok st := by
  simp [ipOptHookMsgOut, untraced]

theorem hookMsgSubnet_untraced (untraced : msg.options = false) (subnet : S) :
    ipOptHookMsgSubnet net st msg subnet = (false, st) := by
  simp [ipOptHookMsgSubnet, untraced]

/-- The pointers to the entries of a route start with the one to the first. -/
theorem refs_entry0 {rtinfo : RtInfo} (nonempty : rtinfo.entries ≠ []) :
    ∃ rest, rtinfo.refs = rtinfo.entry0 :: rest := by
  obtain ⟨entry, entries, same⟩ := List.exists_cons_of_ne_nil nonempty
  simp only [RtInfo.refs, same, List.length_cons, List.range_succ_eq_map, List.map_cons]
  exact ⟨_, rfl⟩

/-- A message leaves along an entry with an interface. -/
theorem nodeIpOutput_interface {table : NetRt} {ref : EntryRef} {entry : RtEntry} {addr : NetAddr}
    {oif : I} (points : ref.deref = some entry) (has : entry.oif = some addr)
    (known : net.nodeFindIface node addr = some oif) (msg : NetMsg) :
    nodeIpOutput net node table ref msg = .ok (.send oif
      (if (net.iface oif).type = .ptmp ∧ entry.gateway = netAddrAny then msg.dstAddr
        else entry.gateway)
      { msg with
        srcAddr := if msg.srcAddr = netAddrAny then net.netIfaceSrcAddress oif else msg.srcAddr }) := by
  simp only [nodeIpOutput, resolveEntry, points, has, known, bind, Except.bind]
  by_cases unset : msg.srcAddr = netAddrAny
  · simp only [unset, if_true]
    rfl
  · simp only [unset, if_false]
    rfl

variable (st) in
/-- Sending through an interface: the message arrives where it crosses to, or it is gone. -/
theorem netIfaceSend_untraced {oif : I} (untraced : msg.options = false)
    (notLoopback : (net.iface oif).type ≠ .loopback) (noTunnel : (net.iface oif).type ≠ .virtual)
    (l2Addr : NetAddr) :
    (∃ arrived, Crosses net oif l2Addr arrived ∧
      netIfaceSend net st msg oif l2Addr = .ok (.success, networkSend st msg arrived)) ∨
    ((∀ arrived, ¬Crosses net oif l2Addr arrived) ∧
      ∃ error, error ≠ .success ∧ netIfaceSend net st msg oif l2Addr = .ok (error, st)) := by
  have canSend : ¬((net.iface oif).type = .loopback ∨ (net.iface oif).type = .virtual) := by
    simp [notLoopback, noTunnel]
  by_cases up : (net.iface oif).connected = true ∧ (net.iface oif).enabled = true
  · obtain ⟨connected, enabled⟩ := up
    simp only [netIfaceSend, if_neg canSend, connected, enabled, Bool.not_true, Bool.or_false,
      Bool.false_eq_true, if_false]
    cases dest : (net.iface oif).dest with
    | none => exact absurd dest (net.connected_dest oif connected)
    | some place =>
      cases place with
      | iface dst => exact .inl ⟨dst, ⟨connected, enabled, .inl dest⟩, rfl⟩
      | subnet subnet =>
        simp only [hookMsgSubnet_untraced untraced, Bool.false_eq_true, if_false]
        -- the layer-2 address must be that of an enabled interface
        cases found : net.netSubnetFindLink subnet l2Addr with
        | none =>
          refine .inr ⟨?_, .hostUnreach, by simp, rfl⟩
          rintro arrived ⟨-, -, other | ⟨_, same, found', -⟩⟩
          · simp [dest] at other
          · rw [dest] at same
            cases same
            simp [found] at found'
        | some dst =>
          by_cases on : (net.iface dst).enabled = true
          · refine .inl ⟨dst, ⟨connected, enabled, .inr ⟨subnet, dest, found, on⟩⟩, ?_⟩
            simp [on]
          · refine .inr ⟨?_, .linkDown, by simp, by simp [on]⟩
            rintro arrived ⟨-, -, other | ⟨_, same, found', on'⟩⟩
            · simp [dest] at other
            · rw [dest] at same
              cases same
              rw [found, Option.some.injEq] at found'
              exact on (found' ▸ on')
      | endPoint addr => exact absurd (net.dest_matches oif _ dest) noTunnel
  · refine .inr ⟨fun arrived crosses => up ⟨crosses.1, crosses.2.1⟩, .linkDown, by simp, ?_⟩
    have down : (!(net.iface oif).connected || !(net.iface oif).enabled) = true := by
      rw [← Bool.not_and, Bool.not_eq_true', Bool.eq_false_iff, Ne, Bool.and_eq_true]
      exact up
    simp only [netIfaceSend, if_neg canSend, down, if_true]

variable [DecidableEq N] [DecidableEq I]

/-- Handing a message to an interface does not fail. -/
theorem nodeIpTransmit_untraced {oif : I} (untraced : msg.options = false)
    (notLoopback : (net.iface oif).type ≠ .loopback) (noTunnel : (net.iface oif).type ≠ .virtual)
    (l2Addr : NetAddr) :
    (∃ arrived, Crosses net oif l2Addr arrived ∧
      nodeIpTransmit net st msg node oif l2Addr = .ok (.success, networkSend st msg arrived)) ∨
    ((∀ arrived, ¬Crosses net oif l2Addr arrived) ∧
      ∃ error, nodeIpTransmit net st msg node oif l2Addr = .ok (error, st)) := by
  obtain ⟨arrived, crosses, sent⟩ | ⟨stays, error, failed, sent⟩ :=
    netIfaceSend_untraced st untraced notLoopback noTunnel l2Addr
  · refine .inl ⟨arrived, crosses, ?_⟩
    simp only [nodeIpTransmit, hookMsgOut_untraced untraced, bind, Except.bind, sent, if_true]
  · refine .inr ⟨stays, if error = .hostUnreach then error else .success, ?_⟩
    simp only [nodeIpTransmit, hookMsgOut_untraced untraced, bind, Except.bind, sent, if_neg failed,
      hookMsgError_untraced untraced]

/-- A message that is forwarded hops on, or it is gone. -/
theorem outputSend_untraced {rtinfo : RtInfo} (leaves : EntriesLeave net rt)
    (untraced : msg.options = false) (clear : ¬Blocks net rt node msg.dstAddr)
    (found : rtFindBest (rt node) msg.dstAddr netRouteAny = some rtinfo) :
    (∃ i next, HopsTo net rt node msg.toNetMsg i next ∧
      nodeIpOutputSend net rt st msg node rtinfo.refs =
        .ok (.success, networkSend st (IpMsg.hop msg next) i)) ∨
    ((∀ i next, ¬HopsTo net rt node msg.toNetMsg i next) ∧
      ∃ error, nodeIpOutputSend net rt st msg node rtinfo.refs = .ok (error, st)) := by
  obtain ⟨key, inTable⟩ := rtFindBest_inTable found
  obtain ⟨nonempty, interfaces⟩ := leaves node key rtinfo inTable
  obtain ⟨rest, refs⟩ := refs_entry0 nonempty
  obtain ⟨entry, entries, list⟩ := List.exists_cons_of_ne_nil nonempty
  obtain ⟨addr, oif, has, known, notLoopback⟩ := interfaces entry (by simp [list])
  have head : rtinfo.entries.head? = some entry := by simp [list]
  have noTunnel : (net.iface oif).type ≠ .virtual := fun isVirtual =>
    clear ⟨rtinfo, entry, addr, oif, found, head, has, known, isVirtual⟩
  have points : rtinfo.entry0.deref = some entry := (entry0_deref rtinfo).trans head
  -- the only way on is through this interface
  have only {i : I} {next : NetMsg} (hops : HopsTo net rt node msg.toNetMsg i next) :
      Crosses net oif (if entry.gateway = netAddrAny then msg.dstAddr else entry.gateway) i ∧
        next = { msg.toNetMsg with
          srcAddr := if msg.srcAddr = netAddrAny then net.netIfaceSrcAddress oif else msg.srcAddr } := by
    obtain ⟨_, _, _, _, found', head', has', known', crosses, same⟩ := hops
    rw [found, Option.some.injEq] at found'
    subst found'
    rw [head, Option.some.injEq] at head'
    subst head'
    rw [has, Option.some.injEq] at has'
    subst has'
    rw [known, Option.some.injEq] at known'
    subst known'
    exact ⟨crosses, same⟩
  -- off a subnet the layer-2 address does not matter
  have sameWay (arrived : I) : Crosses net oif
      (if (net.iface oif).type = .ptmp ∧ entry.gateway = netAddrAny then msg.dstAddr
        else entry.gateway) arrived ↔
      Crosses net oif (if entry.gateway = netAddrAny then msg.dstAddr else entry.gateway) arrived := by
    by_cases ptmp : (net.iface oif).type = .ptmp
    · simp only [ptmp, true_and]
    · have noSubnet (subnet : S) : (net.iface oif).dest ≠ some (.subnet subnet) :=
        fun dest => ptmp (net.dest_matches oif _ dest)
      simp [Crosses, noSubnet]
  simp only [nodeIpOutputSend, refs, hookMsgEcmp_untraced untraced,
    nodeIpOutput_interface points has known]
  have plain (next : NetMsg) : (IpMsg.hop msg next).options = false := untraced
  obtain ⟨arrived, crosses, sent⟩ | ⟨stays, error, sent⟩ :=
    nodeIpTransmit_untraced (plain _) notLoopback noTunnel
      (if (net.iface oif).type = .ptmp ∧ entry.gateway = netAddrAny then msg.dstAddr
        else entry.gateway)
  · exact .inl ⟨arrived, _, ⟨rtinfo, entry, addr, oif, found, head, has, known,
      (sameWay arrived).mp crosses, rfl⟩, sent⟩
  · exact .inr ⟨fun i next hops => stays i ((sameWay i).mpr (only hops).1), error, sent⟩

/-- A message for a virtual interface is not forwarded: the assertion on its function to send fails. -/
theorem outputSend_blocked {rtinfo : RtInfo} (blocks : Blocks net rt node msg.dstAddr)
    (untraced : msg.options = false)
    (found : rtFindBest (rt node) msg.dstAddr netRouteAny = some rtinfo) :
    nodeIpOutputSend net rt st msg node rtinfo.refs = .error .noSend := by
  obtain ⟨_, entry, addr, oif, found', head, has, known, isVirtual⟩ := blocks
  rw [found, Option.some.injEq] at found'
  subst found'
  have nonempty : rtinfo.entries ≠ [] := by
    intro empty
    simp [empty] at head
  obtain ⟨rest, refs⟩ := refs_entry0 nonempty
  have points : rtinfo.entry0.deref = some entry := (entry0_deref rtinfo).trans head
  simp only [nodeIpOutputSend, refs, hookMsgEcmp_untraced untraced,
    nodeIpOutput_interface points has known]
  have plain (next : NetMsg) : (IpMsg.hop msg next).options = false := untraced
  have fails (next : NetMsg) (l2Addr : NetAddr) :
      nodeIpTransmit net st (IpMsg.hop msg next) node oif l2Addr = .error .noSend := by
    simp only [nodeIpTransmit, hookMsgOut_untraced (plain next), bind, Except.bind, netIfaceSend,
      isVirtual, or_true, if_true]
  exact fails _ _

/-- What a node does with a message that it sends. -/
theorem nodeSend_untraced (handle : ProtocolHandler N I S) (leaves : EntriesLeave net rt)
    (untraced : msg.options = false)
    (clear : ¬Owns net node msg.dstAddr → ¬Blocks net rt node msg.dstAddr) :
    (∃ lif, net.nodeHasAddress node msg.dstAddr = some lif ∧
      nodeSend net rt handle node msg none st = handle node (IpMsg.hop msg { msg.toNetMsg with
        srcAddr := if msg.srcAddr = netAddrAny then (net.iface lif).addr else msg.srcAddr }) st) ∨
    (¬Owns net node msg.dstAddr ∧ ∃ i next, HopsTo net rt node msg.toNetMsg i next ∧
      nodeSend net rt handle node msg none st =
        .ok (.success, networkSend st (IpMsg.hop msg next) i)) ∨
    (¬Owns net node msg.dstAddr ∧ (∀ i next, ¬HopsTo net rt node msg.toNetMsg i next) ∧
      ∃ error, nodeSend net rt handle node msg none st = .ok (error, st)) := by
  simp only [nodeSend, ipOptHookMsgSent, untraced, Bool.not_false, if_true]
  cases has : net.nodeHasAddress node msg.dstAddr with
  | some lif =>
    refine .inl ⟨lif, rfl, ?_⟩
    simp only [nodeIpInput, ipOptHookMsgRcvd, Bool.not_false, if_true, bind, Except.bind]
    rw [← untraced]
    rfl
  | none =>
    have away : ¬Owns net node msg.dstAddr := by
      rintro ⟨lif, owned⟩
      simp [has] at owned
    refine .inr ?_
    cases found : rtFindBest (rt node) msg.dstAddr netRouteAny with
    | none =>
      refine .inr ⟨away, ?_, .hostUnreach, by rw [hookMsgError_untraced untraced]⟩
      rintro i next ⟨_, _, _, _, found', _⟩
      simp [found] at found'
    | some rtinfo =>
      obtain ⟨i, next, hops, sent⟩ | ⟨stays, error, sent⟩ :=
        outputSend_untraced leaves untraced (clear away) found
      · exact .inl ⟨away, i, next, hops, sent⟩
      · exact .inr ⟨away, stays, error, sent⟩

theorem nodeSend_blocked (handle : ProtocolHandler N I S) (away : ¬Owns net node msg.dstAddr)
    (blocks : Blocks net rt node msg.dstAddr) (untraced : msg.options = false) :
    nodeSend net rt handle node msg none st = .error .noSend := by
  have none : net.nodeHasAddress node msg.dstAddr = none := by
    cases has : net.nodeHasAddress node msg.dstAddr with
    | none => rfl
    | some lif => exact absurd ⟨lif, has⟩ away
  obtain ⟨rtinfo, found⟩ : ∃ rtinfo, rtFindBest (rt node) msg.dstAddr netRouteAny = some rtinfo := by
    obtain ⟨rtinfo, _, _, _, found, _⟩ := blocks
    exact ⟨rtinfo, found⟩
  simp only [nodeSend, ipOptHookMsgSent, untraced, Bool.not_false, if_true, none, found]
  exact outputSend_blocked blocks untraced found

/-- A message for the node is handled, at whichever interface it arrived. -/
theorem nodeRecvMsg_own (handle : ProtocolHandler N I S) {i : I} (untraced : msg.options = false)
    (alive : msg.ttl ≠ 0) (owns : Owns net (net.iface i).owner msg.dstAddr) :
    nodeRecvMsg net rt handle 2 i msg st = handle (net.iface i).owner msg st := by
  obtain ⟨lif, has⟩ := owns
  have owner : (net.iface lif).owner = (net.iface i).owner :=
    net.ifaces_owner _ lif (List.mem_of_find?_eq_some has)
  have input : nodeIpInput handle (net.iface i).owner lif msg st =
      handle (net.iface i).owner msg st := by
    simp [nodeIpInput, ipOptHookMsgRcvd, untraced, bind, Except.bind]
  simp only [nodeRecvMsg, alive, if_false, ipOptHookMsgIn, untraced, Bool.not_false, if_true, has, owner,
    input]
  split <;> rfl

theorem nodeRecvMsg_away (handle : ProtocolHandler N I S) {i : I} (untraced : msg.options = false)
    (alive : msg.ttl ≠ 0) (away : ¬Owns net (net.iface i).owner msg.dstAddr) :
    nodeRecvMsg net rt handle 2 i msg st =
      nodeRecvForward net rt handle (net.iface i).owner msg none st := by
  have none : net.nodeHasAddress (net.iface i).owner msg.dstAddr = none := by
    cases has : net.nodeHasAddress (net.iface i).owner msg.dstAddr with
    | none => rfl
    | some lif => exact absurd ⟨lif, has⟩ away
  simp only [nodeRecvMsg, alive, if_false, ipOptHookMsgIn, untraced, Bool.not_false, if_true, none]

end Untraced

/-! ## Runs -/

section Runs

variable [DecidableEq N] [DecidableEq I] {net rt} {node : N} {st : NetState N I S}

/-- A message without options; its TTL does not matter once it is handled. -/
def plainMsg (type : IcmpType) (msg : NetMsg) (ttl : ℕ) : IpMsg :=
  { msg with ttl := ttl, type := type, options := false }

theorem plainMsg_untraced (type : IcmpType) (msg : NetMsg) (ttl : ℕ) :
    (plainMsg type msg ttl).options = false :=
  rfl

theorem icmpProtoHandle_ttl (fuel : ℕ) (type : IcmpType) (msg : NetMsg) (ttl : ℕ) :
    icmpProtoHandle net rt fuel node (plainMsg type msg ttl) st =
      icmpProtoHandle net rt fuel node (plainMsg type msg 0) st := by
  cases fuel with
  | zero => rfl
  | succ fuel => rfl

/-- ICMP reports no error. -/
theorem icmpProtoHandle_success {fuel : ℕ} {msg : IpMsg} {error : NetError} {st' : NetState N I S}
    (handled : icmpProtoHandle net rt fuel node msg st = .ok (error, st')) : error = .success := by
  cases fuel with
  | zero => cases handled
  | succ fuel =>
    simp only [icmpProtoHandle] at handled
    split at handled
    · obtain ⟨_, _, handled⟩ := except_bind_eq_ok.mp handled
      cases handled
      rfl
    · cases handled
      rfl
    · cases handled
      rfl
    · cases handled
      rfl

variable (net rt) in
/-- The last event of a message. -/
def conclude (type : IcmpType) (st : NetState N I S) : Ending N → Except Crash (NetState N I S)
  | .delivered node msg => (icmpProtocol net rt node (plainMsg type msg 0) st).map (·.2)
  | .discarded node msg error =>
    nodeIpFwdError net rt (icmpProtocol net rt) node (plainMsg type msg 0) .success error st
  | .lost => .ok st

theorem staticRun_idle (n : ℕ) (idle : st.events = []) : staticRun net rt n st = .ok st := by
  cases n with
  | zero => rfl
  | succ n => simp only [staticRun, idle]

/-- What an ICMP error is sent for does not matter. -/
theorem nodeIpFwdError_plain (handle : ProtocolHandler N I S) (type : IcmpType) (msg : NetMsg) (ttl : ℕ)
    (error : NetError) (icmpError : IcmpError) :
    nodeIpFwdError net rt handle node (plainMsg type msg ttl) error icmpError st =
      nodeIpFwdError net rt handle node (plainMsg type msg 0) .success icmpError st := rfl

/-- A message that is not for the node and has hops left. -/
theorem nodeRecvForward_alive (handle : ProtocolHandler N I S) (type : IcmpType) (msg : NetMsg)
    (ttl : ℕ) :
    nodeRecvForward net rt handle node (plainMsg type msg (ttl + 2)) none st =
      match rtFindBest (rt node) msg.dstAddr netRouteAny with
      | none =>
        nodeIpFwdError net rt handle node (plainMsg type msg 0) .success .hostUnreach st >>= fun st =>
          .ok (.success, st)
      | some rtinfo => nodeIpOutputSend net rt st (plainMsg type msg (ttl + 1)) node rtinfo.refs := by
  rw [nodeRecvForward, if_neg (by simp [plainMsg])]
  rfl

/-- A message that waits is the next event. -/
theorem staticRun_event (type : IcmpType) {n ttl : ℕ} {i : I} {msg : NetMsg} (idle : st.events = []) :
    staticRun net rt (n + 1) { st with events := [(i, plainMsg type msg ttl)] } =
      (nodeRecvMsg net rt (icmpProtocol net rt) 2 i (plainMsg type msg ttl) st >>= fun after =>
        if after.1 ≠ .success then .ok after.2 else staticRun net rt n after.2) := by
  have same : ({ st with events := [] } : NetState N I S) = st := by rw [← idle]
  simp only [staticRun, same]

omit [DecidableEq N] [DecidableEq I] in
/-- A message that hops on waits at the next interface. -/
theorem networkSend_idle (type : IcmpType) (msg next : NetMsg) (ttl : ℕ) (i : I)
    (idle : st.events = []) : networkSend st (IpMsg.hop (plainMsg type msg ttl) next) i =
      { st with events := [(i, plainMsg type next ttl)] } := by
  simp only [networkSend, idle, List.nil_append]
  rfl

/-- A message that hops on is an event of the next interface. -/
theorem staticRun_hop (type : IcmpType) {n ttl : ℕ} {i j : I} {msg msg' : NetMsg}
    (leaves : EntriesLeave net rt) (away : ¬Owns net (net.iface i).owner msg.dstAddr)
    (hops : HopsTo net rt (net.iface i).owner msg j msg') (idle : st.events = []) :
    staticRun net rt (n + 1) { st with events := [(i, plainMsg type msg (ttl + 2))] } =
      staticRun net rt n { st with events := [(j, plainMsg type msg' (ttl + 1))] } := by
  obtain ⟨rtinfo, _, _, _, found, _⟩ := id hops
  rw [staticRun_event type idle,
    nodeRecvMsg_away _ (plainMsg_untraced type msg _) (by simp [plainMsg]) away,
    nodeRecvForward_alive]
  simp only [found]
  obtain ⟨j', next, hops', sent⟩ | ⟨stays, _⟩ :=
    outputSend_untraced leaves (plainMsg_untraced type msg (ttl + 1)) hops.not_blocks found
  · obtain ⟨rfl, rfl⟩ := hops.unique hops'
    rw [sent, networkSend_idle type msg msg' (ttl + 1) j idle]
    rfl
  · exact absurd hops (stays j msg')

/-- The simulator brings a message to its end. -/
theorem fate_runs (type : IcmpType) {ttl : ℕ} {i : I} {msg : NetMsg} {ending : Ending N}
    (leaves : EntriesLeave net rt) (fate : Fate net rt ttl i msg ending)
    (clear : ¬Blocked net rt ttl i msg) :
    ∃ steps, steps ≤ ttl ∧ ∀ n st, st.events = [] →
      staticRun net rt (n + steps) { st with events := [(i, plainMsg type msg ttl)] } =
        conclude net rt type st ending >>= staticRun net rt n := by
  -- One event of the simulator for each hop; the induction is on the hops the request takes.
  induction fate with
  | @delivered ttl i msg owns =>
    refine ⟨1, by omega, fun n st idle => ?_⟩
    rw [staticRun_event type idle, nodeRecvMsg_own _ (plainMsg_untraced type msg _) (Nat.succ_ne_zero _) owns,
      icmpProtocol, icmpProtoHandle_ttl, conclude, icmpProtocol]
    cases handled : icmpProtoHandle net rt 2 (net.iface i).owner (plainMsg type msg 0) st with
    | error crash => rfl
    | ok after =>
      obtain ⟨error, st'⟩ := after
      cases icmpProtoHandle_success handled
      rfl
  | @expired i msg away =>
    refine ⟨1, by omega, fun n st idle => ?_⟩
    rw [staticRun_event type idle, nodeRecvMsg_away _ (plainMsg_untraced type msg _) (by simp [plainMsg]) away,
      nodeRecvForward, if_pos (by simp [plainMsg]), nodeIpFwdError_plain, conclude]
    cases nodeIpFwdError net rt (icmpProtocol net rt) (net.iface i).owner (plainMsg type msg 0)
      .success .timeExceeded st with
    | error crash => rfl
    | ok after => rfl
  | @noRoute ttl i msg away none =>
    refine ⟨1, by omega, fun n st idle => ?_⟩
    rw [staticRun_event type idle, nodeRecvMsg_away _ (plainMsg_untraced type msg _) (by simp [plainMsg]) away,
      nodeRecvForward_alive, conclude]
    simp only [none]
    cases nodeIpFwdError net rt (icmpProtocol net rt) (net.iface i).owner (plainMsg type msg 0)
      .success .hostUnreach st with
    | error crash => rfl
    | ok after => rfl
  -- The message leaves through an interface that leads to no node and no event is posted.
  | @lost ttl i msg rtinfo away found stays =>
    refine ⟨1, by omega, fun n st idle => ?_⟩
    rw [staticRun_event type idle, nodeRecvMsg_away _ (plainMsg_untraced type msg _) (by simp [plainMsg]) away,
      nodeRecvForward_alive, conclude]
    simp only [found]
    obtain ⟨j, next, hops, _⟩ | ⟨_, error, gone⟩ :=
      outputSend_untraced leaves (plainMsg_untraced type msg (ttl + 1))
        (fun blocks => clear (.here away blocks)) found
    · exact absurd hops (stays j next)
    · rw [gone]
      by_cases fine : error = .success
      · simp [fine, bind, Except.bind]
      · simp [fine, bind, Except.bind, staticRun_idle n idle]
  -- The hop uses one event and one unit of the TTL, and posts the next arrival.
  | @onward ttl i j msg msg' ending away hops fate inductionHypothesis =>
    obtain ⟨steps, few, runs⟩ := inductionHypothesis fun blocked => clear (.onward away hops blocked)
    refine ⟨steps + 1, by omega, fun n st idle => ?_⟩
    rw [← Nat.add_assoc, staticRun_hop type leaves away hops idle, runs n st idle]

/-- A message that gets to a virtual interface ends the run. -/
theorem blocked_runs (type : IcmpType) {ttl : ℕ} {i : I} {msg : NetMsg} (leaves : EntriesLeave net rt)
    (blocked : Blocked net rt ttl i msg) :
    ∃ steps, steps ≤ ttl ∧ ∀ (n : ℕ) (st : NetState N I S), st.events = [] →
      staticRun net rt (n + steps) { st with events := [(i, plainMsg type msg ttl)] } =
        .error .noSend := by
  induction blocked with
  | @here ttl i msg away blocks =>
    refine ⟨1, by omega, fun n st idle => ?_⟩
    obtain ⟨rtinfo, _, _, _, found, _⟩ := id blocks
    rw [staticRun_event type idle,
      nodeRecvMsg_away _ (plainMsg_untraced type msg _) (by simp [plainMsg]) away,
      nodeRecvForward_alive]
    simp only [found]
    rw [outputSend_blocked blocks (plainMsg_untraced type msg (ttl + 1)) found]
    rfl
  | @onward ttl i j msg msg' away hops _ inductionHypothesis =>
    obtain ⟨steps, few, runs⟩ := inductionHypothesis
    refine ⟨steps + 1, by omega, fun n st idle => ?_⟩
    rw [← Nat.add_assoc, staticRun_hop type leaves away hops idle, runs n st idle]

/-! ### What is received -/

/-- The record of received messages, when nothing follows from the last one. -/
def seen (type : IcmpType) (st : NetState N I S) : Ending N → NetState N I S
  | .delivered node msg => { st with rcvd := some ⟨node, msg.srcAddr, msg.dstAddr, type⟩ }
  | .discarded _ _ _ | .lost => st

theorem icmpProtoHandle_record {type : IcmpType} (noRequest : type ≠ .echoRequest) (fuel : ℕ)
    (msg : NetMsg) (ttl : ℕ) :
    icmpProtoHandle net rt (fuel + 1) node (plainMsg type msg ttl) st =
      .ok (.success, seen type st (.delivered node msg)) := by
  cases type with
  | echoRequest => exact absurd rfl noRequest
  | echoReply => rfl
  | error e => rfl
  | trace => rfl

omit [DecidableEq N] [DecidableEq I] in
/-- A node that sends a message may go on, unless it is for a virtual interface. -/
theorem SendBlocked.departing {ttl : ℕ} {msg : NetMsg} (clear : ¬SendBlocked net rt ttl node msg)
    (away : ¬Owns net node msg.dstAddr) : ¬Blocks net rt node msg.dstAddr :=
  fun blocks => clear (.here away blocks)

/-- The simulator brings a message that a node sends to its end. -/
theorem sent_runs (type : IcmpType) (noRequest : type ≠ .echoRequest) (leaves : EntriesLeave net rt)
    (fuel ttl : ℕ) (positive : 0 < ttl) (msg : NetMsg) (clear : ¬SendBlocked net rt ttl node msg)
    (idle : st.events = []) :
    ∃ error st' steps ending,
      nodeSend net rt (icmpProtoHandle net rt (fuel + 1)) node (plainMsg type msg ttl) none st =
        .ok (error, st') ∧ steps ≤ ttl ∧
      (∀ n, staticRun net rt (n + steps) st' = conclude net rt type st ending >>= staticRun net rt n) ∧
      Departs net rt ttl node msg ending := by
  obtain ⟨lif, has, sent⟩ | ⟨away, i, next, hops, sent⟩ | ⟨away, stays, error, sent⟩ :=
    nodeSend_untraced (icmpProtoHandle net rt (fuel + 1)) leaves
      (plainMsg_untraced type msg ttl) (SendBlocked.departing clear)
  · refine ⟨.success, _, 0, _, sent.trans (icmpProtoHandle_record noRequest fuel _ ttl), by omega,
      fun n => ?_, .own has⟩
    rw [conclude, icmpProtocol, icmpProtoHandle_record noRequest 1]
    rfl
  · obtain ⟨t, rfl⟩ : ∃ t, ttl = t + 1 := ⟨ttl - 1, by omega⟩
    obtain ⟨ending, fate⟩ := fate_exists t i next
    obtain ⟨steps, few, runs⟩ :=
      fate_runs type leaves fate fun blocked => clear (.onward away hops blocked)
    refine ⟨.success, _, steps, ending, sent, few, fun n => ?_, .onward away hops fate⟩
    rw [networkSend_idle type msg next (t + 1) i idle]
    exact runs n st idle
  · exact ⟨error, st, 0, .lost, sent, by omega, fun n => rfl, .stays away stays⟩

variable (net rt) in
/-- What follows breaks off at a virtual interface. -/
def Breaks (bound : ℕ) (result : Except Crash (NetState N I S)) : Prop :=
  ∃ steps, steps ≤ bound ∧ ∀ n, result >>= staticRun net rt (n + steps) = .error .noSend

/-- A message that gets to a virtual interface. -/
theorem sent_breaks (type : IcmpType) (leaves : EntriesLeave net rt) (handle : ProtocolHandler N I S)
    {ttl : ℕ} {msg : NetMsg} (blocked : SendBlocked net rt ttl node msg) (idle : st.events = []) :
    Breaks net rt ttl ((nodeSend net rt handle node (plainMsg type msg ttl) none st).map (·.2)) := by
  cases blocked with
  | here away blocks =>
    rw [nodeSend_blocked handle away blocks (plainMsg_untraced type msg ttl)]
    exact ⟨0, Nat.zero_le _, fun n => rfl⟩
  | @onward i next away hops blocked =>
    obtain ⟨steps, few, runs⟩ := blocked_runs type leaves blocked
    obtain ⟨lif, has, _⟩ | ⟨_, i', next', hops', sent⟩ | ⟨_, stays, _⟩ :=
      nodeSend_untraced handle leaves (plainMsg_untraced type msg ttl) fun _ => hops.not_blocks
    · exact absurd ⟨lif, has⟩ away
    · obtain ⟨rfl, rfl⟩ := hops.unique hops'
      rw [sent, networkSend_idle type msg next ttl i idle]
      exact ⟨steps, few, fun n => runs n st idle⟩
    · exact absurd hops (stays i next)

/-- An ICMP error is recorded where it is delivered. -/
theorem error_runs (leaves : EntriesLeave net rt) (fuel : ℕ) (dstAddr : NetAddr) (error : IcmpError)
    (clear : ¬SendBlocked net rt 255 node ⟨netAddrAny, dstAddr⟩) (idle : st.events = []) :
    ∃ code st' steps ending,
      icmpSendError net rt (icmpProtoHandle net rt (fuel + 1)) node dstAddr error st =
        .ok (code, st') ∧ steps ≤ 255 ∧
      (∀ n, staticRun net rt (n + steps) st' = staticRun net rt n (seen (.error error) st ending)) ∧
      Departs net rt 255 node ⟨netAddrAny, dstAddr⟩ ending := by
  obtain ⟨code, st', steps, ending, sent, few, runs, departs⟩ :=
    sent_runs (.error error) (by simp) leaves fuel 255 (by omega)
      ⟨netAddrAny, dstAddr⟩ clear idle
  refine ⟨code, st', steps, ending, sent, few, fun n => (runs n).trans ?_, departs⟩
  cases ending with
  | delivered place msg =>
    rw [conclude, icmpProtocol, icmpProtoHandle_record (by simp) 1]
    rfl
  | discarded place msg other => rfl
  | lost => rfl

/-- The errors that are sent for a message that is not an error. -/
theorem discarded_runs (type : IcmpType) (noError : isIcmpError (plainMsg type ⟨0, 0⟩ 0) = false)
    (leaves : EntriesLeave net rt) (msg : NetMsg) (error : IcmpError)
    (clear : ¬SendBlocked net rt 255 node ⟨netAddrAny, msg.srcAddr⟩) (idle : st.events = []) :
    ∃ st' steps ending, conclude net rt type st (.discarded node msg error) = .ok st' ∧ steps ≤ 255 ∧
      (∀ n, staticRun net rt (n + steps) st' = staticRun net rt n (seen (.error error) st ending)) ∧
      Departs net rt 255 node ⟨netAddrAny, msg.srcAddr⟩ ending := by
  obtain ⟨code, st', steps, ending, sent, few, runs, departs⟩ :=
    error_runs leaves 1 msg.srcAddr error clear idle
  refine ⟨st', steps, ending, ?_, few, runs, departs⟩
  have plain : isIcmpError (plainMsg type msg 0) = false := noError
  simp only [conclude, nodeIpFwdError, plain, Bool.false_eq_true, if_false]
  rw [hookMsgError_untraced (plainMsg_untraced type msg 0)]
  rw [icmpProtocol, show (plainMsg type msg 0).srcAddr = msg.srcAddr from rfl, sent]
  rfl

theorem discarded_breaks (type : IcmpType) (noError : isIcmpError (plainMsg type ⟨0, 0⟩ 0) = false)
    (leaves : EntriesLeave net rt) {msg : NetMsg} (error : IcmpError)
    (blocked : SendBlocked net rt 255 node ⟨netAddrAny, msg.srcAddr⟩) (idle : st.events = []) :
    Breaks net rt 255 (conclude net rt type st (.discarded node msg error)) := by
  have breaks := sent_breaks (.error error) leaves (icmpProtocol net rt) blocked idle
  have plain : isIcmpError (plainMsg type msg 0) = false := noError
  have same : conclude net rt type st (.discarded node msg error) =
      (nodeSend net rt (icmpProtocol net rt) node
        (plainMsg (.error error) ⟨netAddrAny, msg.srcAddr⟩ 255) none st).map (·.2) := by
    have sends : icmpSendError net rt (icmpProtocol net rt) node (plainMsg type msg 0).srcAddr error st =
        nodeSend net rt (icmpProtocol net rt) node
          (plainMsg (.error error) ⟨netAddrAny, msg.srcAddr⟩ 255) none st := rfl
    simp only [conclude, nodeIpFwdError, plain, Bool.false_eq_true, if_false,
      hookMsgError_untraced (plainMsg_untraced type msg 0), sends]
    cases nodeSend net rt (icmpProtocol net rt) node
      (plainMsg (.error error) ⟨netAddrAny, msg.srcAddr⟩ 255) none st with
    | error crash => rfl
    | ok after => rfl
  rw [same]
  exact breaks

/-- The record after a reply: the reply where it is delivered, else what was there or an error. -/
def ReplySeen (st st' : NetState N I S) : Ending N → Prop
  | .delivered node msg => st'.rcvd = some ⟨node, msg.srcAddr, msg.dstAddr, .echoReply⟩
  | .discarded _ _ _ | .lost =>
    st'.rcvd = st.rcvd ∨ ∃ ctx error, st'.rcvd = some ctx ∧ ctx.type = .error error

omit [DecidableEq N] [DecidableEq I] in
theorem seen_events (type : IcmpType) (ending : Ending N) : (seen type st ending).events = st.events := by
  cases ending <;> rfl

variable (st) in
theorem reply_runs (leaves : EntriesLeave net rt) (fuel : ℕ) (msg : NetMsg)
    (clear : ¬ReplyBlocked net rt node msg) (idle : st.events = []) :
    ∃ code st₁ steps st₂ ending,
      nodeSend net rt (icmpProtoHandle net rt (fuel + 1)) node (plainMsg .echoReply msg 255) none st =
        .ok (code, st₁) ∧ steps ≤ 510 ∧ (∀ n, staticRun net rt (n + steps) st₁ = .ok st₂) ∧
      Departs net rt 255 node msg ending ∧ ReplySeen st st₂ ending := by
  obtain ⟨code, st₁, steps, ending, sent, few, runs, departs⟩ :=
    sent_runs .echoReply (by simp) leaves fuel 255 (by omega) msg (fun blocked => clear (.reply blocked))
      idle
  cases ending with
  | delivered place msg' =>
    refine ⟨code, st₁, steps, seen .echoReply st (.delivered place msg'), _, sent, by omega,
      fun n => ?_, departs, rfl⟩
    rw [runs n, conclude, icmpProtocol, icmpProtoHandle_record (by simp) 1]
    exact staticRun_idle n idle
  | discarded place msg' error =>
    -- an error goes back to the node that replies
    obtain ⟨st', more, answer, concluded, few', runs', _⟩ :=
      discarded_runs .echoReply rfl leaves msg' error (fun blocked => clear (.error departs blocked)) idle
    refine ⟨code, st₁, more + steps, seen (.error error) st answer, _, sent, by omega,
      fun n => ?_, departs, ?_⟩
    · rw [← Nat.add_assoc, runs (n + more), concluded]
      refine (runs' n).trans (staticRun_idle n ?_)
      rw [seen_events, idle]
    · cases answer with
      | delivered _ _ => exact .inr ⟨_, error, rfl, rfl⟩
      | discarded _ _ _ => exact .inl rfl
      | lost => exact .inl rfl
  | lost =>
    refine ⟨code, st₁, steps, st, _, sent, by omega, fun n => ?_, departs, .inl rfl⟩
    rw [runs n]
    exact staticRun_idle n idle

theorem reply_breaks (leaves : EntriesLeave net rt) (fuel : ℕ) {msg : NetMsg}
    (blocked : ReplyBlocked net rt node msg) (idle : st.events = []) :
    Breaks net rt 510 ((nodeSend net rt (icmpProtoHandle net rt (fuel + 1)) node
      (plainMsg .echoReply msg 255) none st).map (·.2)) := by
  by_cases atOnce : SendBlocked net rt 255 node msg
  · obtain ⟨steps, few, runs⟩ := sent_breaks .echoReply leaves (icmpProtoHandle net rt (fuel + 1)) atOnce idle
    exact ⟨steps, by omega, runs⟩
  · cases blocked with
    | reply blocked => exact absurd blocked atOnce
    | @error other reply error departs blocked =>
      obtain ⟨code, st₁, steps, ending, sent, few, runs, departs'⟩ :=
        sent_runs .echoReply (by simp) leaves fuel 255 (by omega) msg atOnce idle
      cases departs'.unique departs
      obtain ⟨more, few', breaks⟩ := discarded_breaks .echoReply rfl leaves error blocked idle
      refine ⟨more + steps, by omega, fun n => ?_⟩
      rw [sent, ← Nat.add_assoc]
      exact (runs (n + more)).trans (breaks n)

variable (net rt) in
/-- The record after a request, by what became of it. -/
def RequestSeen (st st' : NetState N I S) : Ending N → Prop
  | .delivered owner msg =>
    ∃ answer, Departs net rt 255 owner ⟨msg.dstAddr, msg.srcAddr⟩ answer ∧
      ReplySeen { st with rcvd := some ⟨owner, msg.srcAddr, msg.dstAddr, .echoRequest⟩ } st' answer
  | .discarded other msg error =>
    ∃ answer, Departs net rt 255 other ⟨netAddrAny, msg.srcAddr⟩ answer ∧
      st'.rcvd = (seen (.error error) st answer).rcvd
  | .lost => st'.rcvd = st.rcvd

variable (net rt) in
/-- What is sent at the end of a request gets to a virtual interface. -/
def AnswerBlocked : Ending N → Prop
  | .delivered owner request => ReplyBlocked net rt owner ⟨request.dstAddr, request.srcAddr⟩
  | .discarded other request _ => SendBlocked net rt 255 other ⟨netAddrAny, request.srcAddr⟩
  | .lost => False

/-- The owner of the destination answers a request. -/
theorem conclude_request (owner : N) (msg : NetMsg) :
    conclude net rt .echoRequest st (.delivered owner msg) =
      (nodeSend net rt (icmpProtoHandle net rt 1) owner
        (plainMsg .echoReply ⟨msg.dstAddr, msg.srcAddr⟩ 255) none
        { st with rcvd := some ⟨owner, msg.srcAddr, msg.dstAddr, .echoRequest⟩ }).map (·.2) := by
  have replies : icmpProtoHandle net rt 2 owner (plainMsg .echoRequest msg 0) st =
      (nodeSend net rt (icmpProtoHandle net rt 1) owner
        (plainMsg .echoReply ⟨msg.dstAddr, msg.srcAddr⟩ 255) none
        { st with rcvd := some ⟨owner, msg.srcAddr, msg.dstAddr, .echoRequest⟩ } >>= fun after =>
          .ok (.success, after.2)) := rfl
  rw [conclude, icmpProtocol, replies]
  cases nodeSend net rt (icmpProtoHandle net rt 1) owner
    (plainMsg .echoReply ⟨msg.dstAddr, msg.srcAddr⟩ 255) none
    { st with rcvd := some ⟨owner, msg.srcAddr, msg.dstAddr, .echoRequest⟩ } with
  | error crash => rfl
  | ok after => rfl

theorem request_runs (leaves : EntriesLeave net rt) (ending : Ending N)
    (clear : ¬AnswerBlocked net rt ending) (idle : st.events = []) :
    ∃ st₁ steps st₂, conclude net rt .echoRequest st ending = .ok st₁ ∧ steps ≤ 510 ∧
      (∀ n, staticRun net rt (n + steps) st₁ = .ok st₂) ∧ RequestSeen net rt st st₂ ending := by
  cases ending with
  | delivered owner msg =>
    obtain ⟨code, st₁, steps, st₂, answer, sent, few, runs, departs, replied⟩ :=
      reply_runs { st with rcvd := some ⟨owner, msg.srcAddr, msg.dstAddr, .echoRequest⟩ } leaves 0
        ⟨msg.dstAddr, msg.srcAddr⟩ clear idle
    refine ⟨st₁, steps, st₂, ?_, few, runs, answer, departs, replied⟩
    rw [conclude_request, sent]
    rfl
  | discarded other msg error =>
    obtain ⟨st₁, steps, answer, concluded, few, runs, departs⟩ :=
      discarded_runs .echoRequest rfl leaves msg error clear idle
    refine ⟨st₁, steps, seen (.error error) st answer, concluded, by omega, fun n => ?_, answer,
      departs, rfl⟩
    refine (runs n).trans (staticRun_idle n ?_)
    rw [seen_events, idle]
  | lost => exact ⟨st, 0, st, rfl, by omega, fun n => staticRun_idle _ idle, rfl⟩

theorem request_breaks (leaves : EntriesLeave net rt) {ending : Ending N}
    (blocked : AnswerBlocked net rt ending) (idle : st.events = []) :
    Breaks net rt 510 (conclude net rt .echoRequest st ending) := by
  cases ending with
  | delivered owner msg =>
    rw [conclude_request]
    exact reply_breaks leaves 0 blocked idle
  | discarded other msg error =>
    obtain ⟨steps, few, runs⟩ := discarded_breaks .echoRequest rfl leaves error blocked idle
    exact ⟨steps, by omega, runs⟩
  | lost => exact blocked.elim

variable (net rt) in
/-- A ping, from the end of its request on. -/
def pingFrom (node : N) (steps : ℕ) (result : Except Crash (NetState N I S)) :
    Except Crash (NetError × NetState N I S) :=
  (result >>= staticRun net rt (2 ^ 32 - 1 - steps)).map fun st => (pingResult node st.rcvd, st)

theorem icmpPingSendRecv_sent {dstAddr : NetAddr} {ttl : UInt8} (positive : ttl ≠ 0)
    {result : Except Crash (NetError × NetState N I S)}
    (sent : nodeSend net rt (icmpProtocol net rt) node
      (plainMsg .echoRequest ⟨netAddrAny, dstAddr⟩ ttl.toNat) none { st with events := [], rcvd := none } =
        result) :
    icmpPingSendRecv net rt node netAddrAny dstAddr ttl st = result >>= fun after =>
      if after.1 ≠ .success then .ok after
      else (simRun net rt after.2).map fun st => (pingResult node st.rcvd, st) := by
  simp only [plainMsg] at sent
  simp only [icmpPingSendRecv, if_neg positive, sent, bind, Except.bind]
  cases result with
  | error crash => rfl
  | ok after =>
    simp only
    split
    · rfl
    · cases simRun net rt after.2 <;> rfl

/-- The request of a node that pings itself does not leave it. -/
theorem ping_own (ttl : ℕ) (msg : NetMsg) (st : NetState N I S) :
    (icmpProtocol net rt node (plainMsg .echoRequest msg ttl) st >>= fun after =>
        if after.1 ≠ .success then .ok after
        else (simRun net rt after.2).map fun st => (pingResult node st.rcvd, st)) =
      pingFrom net rt node 0 (conclude net rt .echoRequest st (.delivered node msg)) := by
  rw [pingFrom, conclude, icmpProtocol, icmpProtoHandle_ttl]
  cases handled : icmpProtoHandle net rt 2 node (plainMsg .echoRequest msg 0) st with
  | error crash => rfl
  | ok after =>
    obtain ⟨code, st'⟩ := after
    cases icmpProtoHandle_success handled
    rfl

/-- A ping whose request comes to its end. -/
theorem ping_request (leaves : EntriesLeave net rt) (dstAddr : NetAddr) {ttl : UInt8}
    (positive : ttl ≠ 0) (clear : ¬SendBlocked net rt ttl.toNat node ⟨netAddrAny, dstAddr⟩)
    (st : NetState N I S) :
    ∃ ending, Departs net rt ttl.toNat node ⟨netAddrAny, dstAddr⟩ ending ∧
      ((∃ steps, steps ≤ 255 ∧ icmpPingSendRecv net rt node netAddrAny dstAddr ttl st =
        pingFrom net rt node steps
          (conclude net rt .echoRequest { st with events := [], rcvd := none } ending)) ∨
      ∃ error, error ≠ .success ∧ ending = .lost ∧
        icmpPingSendRecv net rt node netAddrAny dstAddr ttl st =
          .ok (error, { st with events := [], rcvd := none })) := by
  have few : ttl.toNat < 256 := ttl.toNat_lt
  have alive : 0 < ttl.toNat := by
    rw [Nat.pos_iff_ne_zero]
    exact fun zero => positive (UInt8.toNat_inj.mp zero)
  obtain ⟨lif, has, sent⟩ | ⟨away, i, next, hops, sent⟩ | ⟨away, stays, error, sent⟩ :=
    @nodeSend_untraced _ _ _ net rt node (plainMsg .echoRequest ⟨netAddrAny, dstAddr⟩ ttl.toNat)
      { st with events := [], rcvd := none } _ _ (icmpProtocol net rt) leaves
      (plainMsg_untraced .echoRequest ⟨netAddrAny, dstAddr⟩ ttl.toNat) (SendBlocked.departing clear)
  · -- the node pings itself
    refine ⟨_, .own has, .inl ⟨0, by omega, ?_⟩⟩
    rw [icmpPingSendRecv_sent positive sent]
    exact ping_own ttl.toNat _ _
  · obtain ⟨t, isTtl⟩ : ∃ t, ttl.toNat = t + 1 := ⟨ttl.toNat - 1, by omega⟩
    obtain ⟨ending, fate⟩ := @fate_exists _ _ _ net rt t i next
    rw [← isTtl] at fate
    obtain ⟨steps, short, runs⟩ :=
      fate_runs .echoRequest leaves fate fun blocked => clear (.onward away hops blocked)
    refine ⟨ending, .onward away hops fate, .inl ⟨steps, by omega, ?_⟩⟩
    have ran := runs (2 ^ 32 - 1 - steps) { st with events := [], rcvd := none } rfl
    rw [Nat.sub_add_cancel (by omega)] at ran
    rw [icmpPingSendRecv_sent positive sent, networkSend_idle .echoRequest _ next ttl.toNat i rfl]
    simp only [bind, Except.bind, ne_eq, not_true_eq_false, if_false, simRun]
    rw [ran]
    rfl
  · by_cases fine : error = .success
    · -- the message is gone, and nobody hears of it
      subst fine
      refine ⟨.lost, .stays away stays, .inl ⟨0, by omega, ?_⟩⟩
      rw [icmpPingSendRecv_sent positive sent]
      rfl
    · refine ⟨.lost, .stays away stays, .inr ⟨error, fine, rfl, ?_⟩⟩
      rw [icmpPingSendRecv_sent positive sent]
      exact if_pos fine

/-- A ping none of whose messages gets to a virtual interface returns what the last of them left. -/
theorem ping_runs (leaves : EntriesLeave net rt) (dstAddr : NetAddr) {ttl : UInt8} (positive : ttl ≠ 0)
    (clear : ¬PingBlocked net rt ttl.toNat node dstAddr) (st : NetState N I S) :
    ∃ code st' ending, icmpPingSendRecv net rt node netAddrAny dstAddr ttl st = .ok (code, st') ∧
      Departs net rt ttl.toNat node ⟨netAddrAny, dstAddr⟩ ending ∧
      (code = pingResult node st'.rcvd ∧
          RequestSeen net rt { st with events := [], rcvd := none } st' ending ∨
        code ≠ .success ∧ ending = .lost) := by
  obtain ⟨ending, departs, ⟨before, few, ran⟩ | ⟨error, failed, isLost, ran⟩⟩ :=
    ping_request leaves dstAddr positive (fun blocked => clear (.request blocked)) st
  · have open' : ¬AnswerBlocked net rt ending := by
      intro blocked
      cases ending with
      | delivered owner request => exact clear (.reply departs blocked)
      | discarded other request error => exact clear (.error departs blocked)
      | lost => exact blocked
    obtain ⟨st₁, steps, st₂, concluded, few', runs, seen⟩ :=
      @request_runs _ _ _ net rt _ _ { st with events := [], rcvd := none } leaves ending open' rfl
    refine ⟨_, st₂, ending, ?_, departs, .inl ⟨rfl, seen⟩⟩
    have after := runs (2 ^ 32 - 1 - before - steps)
    rw [Nat.sub_add_cancel (by omega)] at after
    rw [ran, pingFrom, concluded]
    simp only [bind, Except.bind, after]
    rfl
  · exact ⟨error, _, ending, ran, departs, .inr ⟨failed, isLost⟩⟩

/-- A ping with a message that gets to a virtual interface does not return. -/
theorem ping_blocked (leaves : EntriesLeave net rt) {dstAddr : NetAddr} {ttl : UInt8}
    (positive : ttl ≠ 0) (blocked : PingBlocked net rt ttl.toNat node dstAddr) (st : NetState N I S) :
    icmpPingSendRecv net rt node netAddrAny dstAddr ttl st = .error .noSend := by
  have few : ttl.toNat < 256 := ttl.toNat_lt
  -- Either the request itself meets an interface that cannot send, or it is the answer that does.
  by_cases atOnce : SendBlocked net rt ttl.toNat node ⟨netAddrAny, dstAddr⟩
  · cases atOnce with
    | here away blocks =>
      have sent := @nodeSend_blocked _ _ _ net rt node
        (plainMsg .echoRequest ⟨netAddrAny, dstAddr⟩ ttl.toNat) { st with events := [], rcvd := none } _ _
        (icmpProtocol net rt) away blocks rfl
      rw [icmpPingSendRecv_sent positive sent]
      rfl
    | @onward i next away hops blocked =>
      obtain ⟨steps, short, runs⟩ := blocked_runs .echoRequest leaves blocked
      have ran := runs (2 ^ 32 - 1 - steps) { st with events := [], rcvd := none } rfl
      rw [Nat.sub_add_cancel (by omega)] at ran
      obtain ⟨lif, has, _⟩ | ⟨_, i', next', hops', sent⟩ | ⟨_, stays, _⟩ :=
        @nodeSend_untraced _ _ _ net rt node (plainMsg .echoRequest ⟨netAddrAny, dstAddr⟩ ttl.toNat)
          { st with events := [], rcvd := none } _ _ (icmpProtocol net rt) leaves rfl
          fun _ => hops.not_blocks
      · exact absurd ⟨lif, has⟩ away
      · obtain ⟨rfl, rfl⟩ := hops.unique hops'
        rw [icmpPingSendRecv_sent positive sent, networkSend_idle .echoRequest _ next ttl.toNat i rfl]
        simp only [bind, Except.bind, ne_eq, not_true_eq_false, if_false, simRun]
        rw [ran]
        rfl
      · exact absurd hops (stays i next)
  · obtain ⟨ending, departs, ⟨before, short, ran⟩ | ⟨_, _, isLost, _⟩⟩ :=
      ping_request leaves dstAddr positive atOnce st
    · have answer : AnswerBlocked net rt ending := by
        cases blocked with
        | request blocked => exact absurd blocked atOnce
        | reply departs' blocked =>
          cases departs'.unique departs
          exact blocked
        | error departs' blocked =>
          cases departs'.unique departs
          exact blocked
      obtain ⟨steps, short', breaks⟩ :=
        @request_breaks _ _ _ net rt _ _ { st with events := [], rcvd := none } leaves _ answer rfl
      have after := breaks (2 ^ 32 - 1 - before - steps)
      rw [Nat.sub_add_cancel (by omega)] at after
      rw [ran, pingFrom, after]
      rfl
    · subst isLost
      cases blocked with
      | request blocked => exact absurd blocked atOnce
      | reply departs' blocked => cases departs'.unique departs
      | error departs' blocked => cases departs'.unique departs

end Runs

/-! ## Answers -/

/-- The code that stands for an ICMP error. -/
def icmpErrorCode : IcmpError → NetError
  | .netUnreach => .icmpNetUnreach
  | .hostUnreach => .icmpHostUnreach
  | .protoUnreach => .icmpProtoUnreach
  | .timeExceeded => .icmpTimeExceeded

section Answers

variable [DecidableEq N] [DecidableEq I]

/-- A ping is answered: with success if and only if request and reply are delivered, and with the
error of an intermediate node when this error is. -/
structure PingAnswers (node : N) (dstAddr : NetAddr) (ttl : UInt8) (st : NetState N I S) : Prop where
  returns : ∃ code st', icmpPingSendRecv net rt node netAddrAny dstAddr ttl st = .ok (code, st')
  success_iff : (∃ st', icmpPingSendRecv net rt node netAddrAny dstAddr ttl st = .ok (.success, st')) ↔
    ∃ owner request reply,
      Delivers net rt ttl.toNat node ⟨netAddrAny, dstAddr⟩ owner request ∧
      Delivers net rt 255 owner ⟨request.dstAddr, request.srcAddr⟩ node reply
  error : ∀ other request icmpError answer,
    Discards net rt ttl.toNat node ⟨netAddrAny, dstAddr⟩ other request icmpError →
    Delivers net rt 255 other ⟨netAddrAny, request.srcAddr⟩ node answer →
      ∃ st', icmpPingSendRecv net rt node netAddrAny dstAddr ttl st = .ok (icmpErrorCode icmpError, st')

variable {net rt}

omit [DecidableEq I] in
theorem pingResult_error {node : N} {ctx : RcvdCtx N} {error : IcmpError}
    (isError : ctx.type = .error error) :
    pingResult node (some ctx) = if ctx.node = node then icmpErrorCode error else .noReply := by
  rw [pingResult, isError]
  cases error <;> rfl

omit [DecidableEq I] in
theorem pingResult_error_ne {node : N} {ctx : RcvdCtx N} {error : IcmpError}
    (isError : ctx.type = .error error) : pingResult node (some ctx) ≠ .success := by
  rw [pingResult_error isError]
  split
  · cases error <;> simp [icmpErrorCode]
  · simp

omit [DecidableEq I] in
/-- The record tells of success only when the reply is delivered to the node. -/
theorem RequestSeen.success {node : N} {st st' : NetState N I S} {ending : Ending N}
    (unset : st.rcvd = none) (seen : RequestSeen net rt st st' ending)
    (success : pingResult node st'.rcvd = .success) :
    ∃ owner request reply, ending = .delivered owner request ∧
      Delivers net rt 255 owner ⟨request.dstAddr, request.srcAddr⟩ node reply := by
  cases ending with
  | delivered owner request =>
    obtain ⟨answer, departs, replied⟩ := seen
    -- What was seen last decides: only an echo reply at the sender itself counts as success.
    have other (same : st'.rcvd = some ⟨owner, request.srcAddr, request.dstAddr, .echoRequest⟩ ∨
        ∃ ctx error, st'.rcvd = some ctx ∧ ctx.type = .error error) :
        pingResult node st'.rcvd ≠ .success := by
      cases same with
      | inl same =>
        rw [same, pingResult]
        split <;> simp
      | inr isError =>
        obtain ⟨ctx, error, same, isError⟩ := isError
        rw [same]
        exact pingResult_error_ne isError
    cases answer with
    | delivered place reply =>
      have replied : st'.rcvd = _ := replied
      rw [replied, pingResult] at success
      split at success
      · rename_i here
        have here : place = node := here
        subst here
        exact ⟨owner, request, reply, rfl, Departs.delivers_iff.mp departs⟩
      · cases success
    | discarded _ _ _ => exact absurd success (other replied)
    | lost => exact absurd success (other replied)
  | discarded place request error =>
    obtain ⟨answer, _, same⟩ := seen
    rw [same] at success
    cases answer with
    | delivered _ _ => exact absurd success (pingResult_error_ne rfl)
    | discarded _ _ _ =>
      rw [Verified.seen, unset] at success
      cases success
    | lost =>
      rw [Verified.seen, unset] at success
      cases success
  | lost =>
    have same : st'.rcvd = st.rcvd := seen
    rw [same, unset] at success
    cases success

/-- For every network whose routes have an outgoing interface, every node, destination and initial TTL:
virtual interfaces alone are in the way. -/
theorem ping_answers_iff (leaves : EntriesLeave net rt) (node : N) (dstAddr : NetAddr) {ttl : UInt8}
    (positive : ttl ≠ 0) (st : NetState N I S) :
    PingAnswers net rt node dstAddr ttl st ↔ ¬PingBlocked net rt ttl.toNat node dstAddr := by
  constructor
  · rintro ⟨⟨code, st', returns⟩, -, -⟩ blocked
    rw [ping_blocked leaves positive blocked] at returns
    cases returns
  · intro clear
    obtain ⟨code, st', ending, ran, departs, result⟩ := ping_runs leaves dstAddr positive clear st
    have alive : 0 < ttl.toNat := by
      rw [Nat.pos_iff_ne_zero]
      exact fun zero => positive (UInt8.toNat_inj.mp zero)
    refine ⟨⟨code, st', ran⟩, ⟨?_, ?_⟩, ?_⟩
    · rintro ⟨_, ran'⟩
      rw [ran] at ran'
      cases ran'
      obtain ⟨success, seen⟩ | ⟨failed, _⟩ := result
      · obtain ⟨owner, request, reply, rfl, replied⟩ := seen.success rfl success.symm
        exact ⟨owner, request, reply, Departs.delivers_iff.mp departs, replied⟩
      · exact absurd rfl failed
    · rintro ⟨owner, request, reply, delivered, replied⟩
      -- the request comes to one end only, and so does the reply
      cases departs.unique (Departs.delivers_iff.mpr delivered)
      obtain ⟨isResult, answer, departs', seen⟩ | ⟨_, isLost⟩ := result
      · cases departs'.unique (Departs.delivers_iff.mpr replied)
        have seen : st'.rcvd = _ := seen
        rw [isResult, seen, pingResult, if_pos rfl] at ran
        exact ⟨st', ran⟩
      · cases isLost
    · intro other request icmpError answer discards delivered
      cases departs.unique (Departs.of_discards alive discards)
      obtain ⟨isResult, answer', departs', seen⟩ | ⟨_, isLost⟩ := result
      · cases departs'.unique (Departs.delivers_iff.mpr delivered)
        rw [isResult, seen, Verified.seen, pingResult_error rfl, if_pos rfl] at ran
        exact ⟨st', ran⟩
      · cases isLost

end Answers

/-! ## Two routers on a subnet -/

/-- The table with one route. -/
def oneRouteRt (rtinfo : RtInfo) : NetRt :=
  (∅ : NetRt).insert rtinfo.pfx (RtInfos.single rtinfo)

theorem oneRouteRt_only {rtinfo other : RtInfo} {key : Pfx} (inTable : InTable (oneRouteRt rtinfo) key other) :
    other = rtinfo := by
  obtain ⟨infos, stored, member⟩ := inTable
  by_cases same : key = rtinfo.pfx
  · rw [same, oneRouteRt, AList.lookup_insert, Option.some.injEq] at stored
    rw [← stored, RtInfos.single, List.mem_singleton] at member
    exact member
  · rw [oneRouteRt, AList.lookup_insert_ne same] at stored
    cases stored

/-- A router knows the subnet only. -/
def subnetPairRt (b : Bool) : NetRt :=
  oneRouteRt
    { pfx := ⟨0x0a000000, 24, short24⟩, metric := 1, type := .igp,
      entries := [⟨some (if b then 0x0a000002 else 0x0a000001), netAddrAny⟩] }

theorem subnetPair_leaves : EntriesLeave subnetPair subnetPairRt := by
  rintro b key rtinfo inTable
  rw [oneRouteRt_only inTable]
  refine ⟨List.cons_ne_nil _ _, fun entry listed => ?_⟩
  rw [List.mem_singleton] at listed
  subst listed
  cases b
  · exact ⟨0x0a000001, (false, true), rfl, by decide +kernel, by decide⟩
  · exact ⟨0x0a000002, (true, true), rfl, by decide +kernel, by decide⟩

/-- Nothing has been sent. -/
def quietState (N I S : Type) : NetState N I S where
  events := []
  rcvd := none
  opts := { quickLoop := false, ecmp := false, load := none, altDest := none, trace := IpTrace.create }
  fifoTrace := []
  load _ := 0

/-- The first router pings the address of the second. -/
theorem ping_answers_iff_subnet_pair :
    okAnd (icmpPingSendRecv subnetPair subnetPairRt false netAddrAny 0x0a000002 255
      (quietState Bool (Bool × Bool) Unit)) (fun answer => decide (answer.1 = .success)) = true ∧
    PingAnswers subnetPair subnetPairRt false 0x0a000002 255 (quietState Bool (Bool × Bool) Unit) := by
  have success : okAnd (icmpPingSendRecv subnetPair subnetPairRt false netAddrAny 0x0a000002 255
      (quietState Bool (Bool × Bool) Unit)) (fun answer => decide (answer.1 = .success)) = true := by
    decide +kernel
  refine ⟨success, (ping_answers_iff subnetPair_leaves false 0x0a000002 (by decide) _).mpr fun blocked => ?_⟩
  rw [ping_blocked subnetPair_leaves (by decide) blocked] at success
  cases success

/-! ## A virtual interface without a tunnel -/

/-- A router with its loopback interface and a virtual interface. -/
def virtualExit : Topology Unit Bool Empty where
  rid _ := 0x01000000
  ifaces _ := [false, true]
  iface i :=
    { owner := ()
      addr := if i then 0x0a000001 else 0x01000000
      mask := 32
      short := short32
      connected := false
      type := if i then .virtual else .loopback
      dest := none
      enabled := true
      metric := 0 }
  subnetPrefix := Empty.elim
  subnetTransit := Empty.elim
  subnetIfaces := Empty.elim
  dest_matches _ _ h := by cases h
  connected_dest _ h := by cases h
  iface_mask i h := by cases i <;> simp at h
  rid_injective := fun _ _ _ => rfl
  ifaces_owner := by decide
  ifaces_sorted := by decide
  subnet_mask := noSubnet_mask
  subnet_injective := noSubnet_injective
  subnet_dest s := s.elim
  subnet_sorted s := s.elim

/-- The route to 1.0.0.1 leaves through the virtual interface. -/
def virtualExitRt (_ : Unit) : NetRt :=
  oneRouteRt
    { pfx := ⟨0x01000001, 32, short32⟩, metric := 1, type := .static,
      entries := [⟨some 0x0a000001, netAddrAny⟩] }

/-- A ping of 1.0.0.1 stops the program. -/
theorem ping_stops_program :
    EntriesLeave virtualExit virtualExitRt ∧
      icmpPingSendRecv virtualExit virtualExitRt () netAddrAny 0x01000001 255
        (quietState Unit Bool Empty) = .error .noSend ∧
      ¬PingAnswers virtualExit virtualExitRt () 0x01000001 255 (quietState Unit Bool Empty) := by
  have leaves : EntriesLeave virtualExit virtualExitRt := by
    rintro ⟨⟩ key rtinfo inTable
    rw [oneRouteRt_only inTable]
    refine ⟨List.cons_ne_nil _ _, fun entry listed => ?_⟩
    rw [List.mem_singleton] at listed
    subst listed
    exact ⟨0x0a000001, true, rfl, by decide +kernel, by decide⟩
  have away : virtualExit.nodeHasAddress () 0x01000001 = none := by decide +kernel
  have blocked : SendBlocked virtualExit virtualExitRt 255 () ⟨netAddrAny, 0x01000001⟩ := by
    refine .here ?_ ⟨_, _, 0x0a000001, true, rfl, rfl, rfl, by decide +kernel, rfl⟩
    rintro ⟨lif, has⟩
    rw [away] at has
    cases has
  have stops := ping_blocked leaves (by decide : (255 : UInt8) ≠ 0) (.request blocked)
    (quietState Unit Bool Empty)
  refine ⟨leaves, stops, fun answers => ?_⟩
  obtain ⟨code, st', returns⟩ := answers.returns
  rw [stops] at returns
  cases returns

end Cbgp.Verified
