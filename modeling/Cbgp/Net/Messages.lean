import Cbgp.Net.Forwarding
import Mathlib.Logic.Function.Basic

/-! # Messages between nodes

IP messages and the ICMP protocol: `net/network.c`, `net/icmp.c`, and the options of `net/icmp_options.c`
that record the way of a message.  Messages travel in a simulator of their own with the static
scheduler, whose events are messages that arrive at an interface.

One message at most has options; they are kept in the state, where the trace can be read after the
message is gone.  Options are made by `icmp_trace_send`, which sets `IP_OPT_TRACE`.  All nodes speak
ICMP, and nothing else is sent here; tunnels are left out.
-/

namespace Cbgp.Net

/-! ## Messages -/

/-- `icmp_error_type_t`. -/
inductive IcmpError where
  | netUnreach
  | hostUnreach
  | protoUnreach
  | timeExceeded
  deriving DecidableEq, Repr

/-- `icmp_msg_type_t`, with the type of an error. -/
inductive IcmpType where
  | echoRequest
  | echoReply
  | error (subType : IcmpError)
  | trace
  deriving DecidableEq, Repr

/-- `net_msg_t` and the ICMP message that it carries. -/
structure IpMsg extends NetMsg where
  ttl : Nat
  type : IcmpType
  options : Bool -- `opts != NULL`
  deriving DecidableEq

/-- `is_icmp_error`. -/
def isIcmpError (msg : IpMsg) : Bool :=
  match msg.type with
  | .error _ => true
  | .echoRequest | .echoReply | .trace => false

/-! ## Traces and options -/

/-- `ip_trace_item_t`. -/
inductive TraceItem (N I S : Type) where
  | node (node : N) (iif oif : Option I)
  | subnet (subnet : S)
  deriving DecidableEq

/-- `ip_trace_t`, without the delay, weight and capacity of the way. -/
structure IpTrace (N I S : Type) where
  items : List (TraceItem N I S)
  status : NetError
  deriving DecidableEq

/-- `ip_opt_t`; the load is `none` without `IP_OPT_LOAD`, the destination without
`IP_OPT_ALT_DEST`. -/
structure IpOpt (N I S : Type) where
  quickLoop : Bool
  ecmp : Bool
  load : Option UInt32
  altDest : Option Pfx
  trace : IpTrace N I S
  deriving DecidableEq

/-- `_ecmp_ctx_t`, with the options of the message. -/
structure EcmpCtx (N I S : Type) where
  node : N
  msg : IpMsg
  opts : IpOpt N I S
  rtentries : Option (List EntryRef)
  deriving DecidableEq

/-- `MAX_TRACE_FIFO_DEPTH`. -/
def maxTraceFifoDepth : Nat := 100

/-! ## State -/

/-- `_rcvd_ctx`. -/
structure RcvdCtx (N : Type) where
  node : N
  srcAddr : NetAddr
  dstAddr : NetAddr
  type : IcmpType
  deriving DecidableEq

/-- What messages change: the events of the simulator, the record of the last ICMP message received,
the options of the message that has some, the FIFO of these, and the loads of the interfaces. -/
structure NetState (N I S : Type) where
  events : List (I × IpMsg)
  rcvd : Option (RcvdCtx N)
  opts : IpOpt N I S
  fifoTrace : List (EcmpCtx N I S)
  load : I → UInt32

/-- How the program can end. -/
inductive Crash where
  | output (fault : Fault)
  | noSend -- `assert(iface->ops.send != NULL)`
  | ttlZero -- `assert(msg->ttl > 0)`
  | lastItem -- the assertions on the last item of a trace
  | nested -- out of the fuel of the model
  deriving DecidableEq, Repr

variable {N I S : Type} [DecidableEq N] [DecidableEq I] (net : Topology N I S) (rt : N → NetRt)

/-- The pointers to the entries of a route. -/
def RtInfo.refs (rtinfo : RtInfo) : List EntryRef :=
  (List.range rtinfo.entries.length).map fun index => ⟨rtinfo, index⟩

/-! ## Traces -/

namespace IpTrace

/-- `ip_trace_create`. -/
def create : IpTrace N I S where
  items := []
  status := .noReply

/-- `ip_trace_add_node`. -/
def addNode (trace : IpTrace N I S) (node : N) (iif : Option I) : IpTrace N I S :=
  { trace with items := trace.items ++ [.node node iif none] }

/-- `ip_trace_add_subnet`. -/
def addSubnet (trace : IpTrace N I S) (subnet : S) : IpTrace N I S :=
  { trace with items := trace.items ++ [.subnet subnet] }

/-- The last item is the node. -/
def lastIs (trace : IpTrace N I S) (node : N) : Bool :=
  match trace.items.getLast? with
  | some (.node last _ _) => last = node
  | some (.subnet _) | none => false

/-- `ip_trace_search`. -/
def search (trace : IpTrace N I S) (node : N) : Bool :=
  trace.items.any fun item =>
    match item with
    | .node other _ _ => other = node
    | .subnet _ => false

/-- Set the interface by which the last node, which must be the given one, took or sent the
message. -/
def setLast (trace : IpTrace N I S) (node : N) (f : Option I × Option I → Option I × Option I) :
    Except Crash (IpTrace N I S) :=
  match trace.items.getLast? with
  | some (.node last iif oif) =>
    if last = node then
      let (iif, oif) := f (iif, oif)
      .ok { trace with items := trace.items.dropLast ++ [.node node iif oif] }
    else .error .lastItem
  | some (.subnet _) | none => .error .lastItem

end IpTrace

/-! ## Hooks -/

section Hooks

variable (st : NetState N I S) (msg : IpMsg)

/-- `ip_opt_hook_msg_error`. -/
def ipOptHookMsgError (error : NetError) : NetState N I S :=
  if msg.options then { st with opts.trace.status := error } else st

/-- `_process_msg_alt_fwd`: forward according to the alternate destination, if there is one. -/
def processMsgAltFwd (node : N) (rtentries : Option (List EntryRef)) :
    NetError × NetState N I S × Option (List EntryRef) :=
  match rtentries, st.opts.altDest with
  | none, some altDest =>
    match rtFindExact (rt node) altDest netRouteAny with
    | none => (.netUnreach, { st with opts.trace.status := .netUnreach }, none)
    | some rtinfo => (.success, st, some rtinfo.refs)
  | _, _ => (.success, st, rtentries)

/-- `ip_opt_hook_msg_sent`. -/
def ipOptHookMsgSent (node : N) (rtentries : Option (List EntryRef)) :
    NetError × NetState N I S × Option (List EntryRef) :=
  if !msg.options then (.success, st, rtentries)
  else
    let st :=
      if st.opts.trace.lastIs node then st
      else { st with opts.trace := st.opts.trace.addNode node none }
    processMsgAltFwd rt st node rtentries

/-- `ip_opt_hook_msg_rcvd`. -/
def ipOptHookMsgRcvd (node : N) (iif : I) : Except Crash (NetState N I S) :=
  if !msg.options then .ok st
  else do
    let trace ← st.opts.trace.setLast node fun (_, oif) => (some iif, oif)
    .ok { st with opts.trace := trace }

/-- `ip_opt_hook_msg_in`, with `_check_loop`. -/
def ipOptHookMsgIn (node : N) (iif : I) : NetError × NetState N I S × Option (List EntryRef) :=
  if !msg.options then (.success, st, none)
  else if st.opts.trace.lastIs node then processMsgAltFwd rt st node none
  else
    let trace := st.opts.trace.addNode node (some iif)
    -- the search finds the node that has just been added
    if st.opts.quickLoop && trace.search node then
      (.fwdLoop, { st with opts.trace := { trace with status := .fwdLoop } }, none)
    else processMsgAltFwd rt { st with opts.trace := trace } node none

/-- `net_iface_add_load`: the load does not exceed `NET_LINK_MAX_LOAD`. -/
def netIfaceAddLoad (load : I → UInt32) (oif : I) (incLoad : UInt32) : I → UInt32 :=
  Function.update load oif (UInt32.ofNat (min ((load oif).toNat + incLoad.toNat) (2 ^ 32 - 1)))

/-- `ip_opt_hook_msg_out`, with the load of `_info_update_qos`. -/
def ipOptHookMsgOut (node : N) (oif : I) : Except Crash (NetState N I S) :=
  if !msg.options then .ok st
  else do
    let trace ← st.opts.trace.setLast node fun (iif, _) => (iif, some oif)
    let load :=
      match st.opts.load with
      | none => st.load
      | some volume => netIfaceAddLoad st.load oif volume
    .ok { st with opts.trace := trace, load := load }

/-- `ip_opt_hook_msg_subnet`: whether the subnet is the destination. -/
def ipOptHookMsgSubnet (subnet : S) : Bool × NetState N I S :=
  if !msg.options then (false, st)
  else
    let st := { st with opts.trace := st.opts.trace.addSubnet subnet }
    if st.opts.altDest.any fun altDest => ipPrefixEq altDest (net.subnetPrefix subnet) then
      (true, { st with opts.trace.status := .success })
    else (false, st)

/-- `ip_opt_ecmp_push`.  The FIFO does not grow, and nobody looks at what `fifo_push` returns. -/
def ipOptEcmpPush (ctx : EcmpCtx N I S) : NetState N I S :=
  if st.fifoTrace.length < maxTraceFifoDepth then
    { st with fifoTrace := st.fifoTrace ++ [ctx] }
  else st

/-- `ip_opt_hook_msg_ecmp`: a copy of the message waits for every entry but the first. -/
def ipOptHookMsgEcmp (node : N) (refs : List EntryRef) : NetState N I S :=
  if !msg.options || !st.opts.ecmp || decide (refs.length ≤ 1) then st
  else
    let st := { st with opts.load := st.opts.load.map (· / UInt32.ofNat refs.length) }
    refs.tail.foldl (fun st ref =>
      ipOptEcmpPush st ⟨node, msg, st.opts, some [ref]⟩) st

end Hooks

/-! ## Links -/

section Links

variable (st : NetState N I S) (msg : IpMsg)

/-- `network_send`. -/
def networkSend (dst : I) : NetState N I S :=
  { st with events := st.events ++ [(dst, msg)] }

/-- `net_iface_send`, with `_net_iface_rtr_send`, `_net_iface_ptp_send` and `_net_iface_ptmp_send`. -/
def netIfaceSend (oif : I) (l2Addr : NetAddr) : Except Crash (NetError × NetState N I S) :=
  if (net.iface oif).type = .loopback ∨ (net.iface oif).type = .virtual then .error .noSend
  else if !(net.iface oif).connected || !(net.iface oif).enabled then .ok (.linkDown, st)
  else
    match (net.iface oif).dest with
    | some (.iface dst) => .ok (.success, networkSend st msg dst)
    | some (.subnet subnet) =>
      let (reached, st) := ipOptHookMsgSubnet net st msg subnet
      if reached then .ok (.success, st)
      else
        match net.netSubnetFindLink subnet l2Addr with
        | none => .ok (.hostUnreach, st)
        | some dst =>
          if !(net.iface dst).enabled then .ok (.linkDown, st)
          else .ok (.success, networkSend st msg dst)
    | some (.endPoint _) | none => .error .noSend

/-- The last part of `_node_ip_output`: the message goes to the outgoing interface, or is dropped. -/
def nodeIpTransmit (node : N) (oif : I) (l2Addr : NetAddr) :
    Except Crash (NetError × NetState N I S) := do
  let st ← ipOptHookMsgOut st msg node oif
  let (error, st) ← netIfaceSend net st msg oif l2Addr
  if error = .success then .ok (.success, st)
  else
    let st := ipOptHookMsgError st msg error
    -- the node does not see that a link is down
    .ok (if error = .hostUnreach then error else .success, st)

/-- `_node_ip_output`, whose first part is `nodeIpOutput`. -/
def nodeIpOutputSend (node : N) (refs : List EntryRef) :
    Except Crash (NetError × NetState N I S) :=
  match refs with
  | [] => .error (.output .noEntry)
  | ref :: _ =>
    let st := ipOptHookMsgEcmp st msg node refs
    match nodeIpOutput net node (rt node) ref msg.toNetMsg with
    | .error fault => .error (.output fault)
    | .ok (.error error) => .ok (error, ipOptHookMsgError st msg error)
    | .ok (.send oif l2Addr sent) => nodeIpTransmit net st { msg with toNetMsg := sent } node oif l2Addr

end Links

/-! ## Nodes -/

/-- What a protocol does with a message for a node. -/
abbrev ProtocolHandler (N I S : Type) :=
  N → IpMsg → NetState N I S → Except Crash (NetError × NetState N I S)

section Nodes

variable (handle : ProtocolHandler N I S)

/-- `_node_ip_input` at the interface that has the address, and `_node_ip_process_msg`. -/
def nodeIpInput (node : N) (lif : I) (msg : IpMsg) (st : NetState N I S) :
    Except Crash (NetError × NetState N I S) := do
  let st ← ipOptHookMsgRcvd st msg node lif
  handle node msg st

/-- `node_send`. -/
def nodeSend (node : N) (msg : IpMsg) (rtentries : Option (List EntryRef)) (st : NetState N I S) :
    Except Crash (NetError × NetState N I S) :=
  match ipOptHookMsgSent rt st msg node rtentries with
  | (.success, st, some refs) => nodeIpOutputSend net rt st msg node refs
  | (.success, st, none) =>
    match net.nodeHasAddress node msg.dstAddr with
    | some lif =>
      let srcAddr := if msg.srcAddr = netAddrAny then (net.iface lif).addr else msg.srcAddr
      nodeIpInput handle node lif { msg with srcAddr := srcAddr } st
    | none =>
      match rtFindBest (rt node) msg.dstAddr netRouteAny with
      | none => .ok (.hostUnreach, ipOptHookMsgError st msg .hostUnreach)
      | some rtinfo => nodeIpOutputSend net rt st msg node rtinfo.refs
  | (error, st, _) => .ok (error, ipOptHookMsgError st msg error)

/-- `icmp_send_error`. -/
def icmpSendError (node : N) (dstAddr : NetAddr) (error : IcmpError) (st : NetState N I S) :
    Except Crash (NetError × NetState N I S) :=
  nodeSend net rt handle node
    { srcAddr := netAddrAny, dstAddr := dstAddr, ttl := 255, type := .error error, options := false }
    none st

/-- `_node_ip_fwd_error`, where it is given an ICMP error. -/
def nodeIpFwdError (node : N) (msg : IpMsg) (error : NetError) (icmpError : IcmpError)
    (st : NetState N I S) : Except Crash (NetState N I S) := do
  let st := ipOptHookMsgError st msg error
  if isIcmpError msg then .ok (ipOptHookMsgError st msg error)
  else
    let (_, st) ← icmpSendError net rt handle node msg.srcAddr icmpError st
    .ok (ipOptHookMsgError st msg error)

/-- The forwarding part of `node_recv_msg`. -/
def nodeRecvForward (node : N) (msg : IpMsg) (rtentries : Option (List EntryRef))
    (st : NetState N I S) : Except Crash (NetError × NetState N I S) :=
  if msg.ttl ≤ 1 then do
    let st ← nodeIpFwdError net rt handle node msg .timeExceeded .timeExceeded st
    .ok (.success, st)
  else
    let msg := { msg with ttl := msg.ttl - 1 }
    match rtentries with
    | some refs => nodeIpOutputSend net rt st msg node refs
    | none =>
      match rtFindBest (rt node) msg.dstAddr netRouteAny with
      | none => do
        let st ← nodeIpFwdError net rt handle node msg .hostUnreach .hostUnreach st
        .ok (.success, st)
      | some rtinfo => nodeIpOutputSend net rt st msg node rtinfo.refs

/-- `node_recv_msg`, called from the network and once more from `_node_ip_input` when the address is
that of another interface of the node. -/
def nodeRecvMsg : Nat → I → IpMsg → NetState N I S → Except Crash (NetError × NetState N I S)
  | 0, _, _, _ => .error .nested
  | fuel + 1, iif, msg, st =>
    if msg.ttl = 0 then .error .ttlZero
    else
      let node := (net.iface iif).owner
      match ipOptHookMsgIn rt st msg node iif with
      | (.success, st, some refs) => nodeRecvForward net rt handle node msg (some refs) st
      | (.success, st, none) =>
        match net.nodeHasAddress node msg.dstAddr with
        | some lif =>
          if iif = lif then nodeIpInput handle node lif msg st
          else nodeRecvMsg fuel lif msg st
        | none => nodeRecvForward net rt handle node msg none st
      | (error, st, _) => .ok (error, st)

end Nodes

/-! ## ICMP -/

/-- `_icmp_proto_handle`.  A reply to a node's own request is received while the request is being
handled. -/
def icmpProtoHandle : Nat → ProtocolHandler N I S
  | 0, _, _, _ => .error .nested
  | fuel + 1, node, msg, st =>
    let st := { st with rcvd := some ⟨node, msg.srcAddr, msg.dstAddr, msg.type⟩ }
    match msg.type with
    | .echoRequest => do
      -- `icmp_send_echo_reply`
      let (_, st) ← nodeSend net rt (icmpProtoHandle fuel) node
        { srcAddr := msg.dstAddr, dstAddr := msg.srcAddr, ttl := 255, type := .echoReply,
          options := false } none st
      .ok (.success, st)
    | .trace =>
      .ok (.success, if msg.options then { st with opts.trace.status := .success } else st)
    | .echoReply | .error _ => .ok (.success, st)

/-- The ICMP protocol of all nodes. -/
def icmpProtocol : ProtocolHandler N I S :=
  icmpProtoHandle net rt 2

/-- `_run` of the static scheduler, on `_network_send_callback`. -/
def staticRun : Nat → NetState N I S → Except Crash (NetState N I S)
  | 0, st => .ok st
  | numSteps + 1, st =>
    match st.events with
    | [] => .ok st
    | (iif, msg) :: events => do
      let (error, st) ← nodeRecvMsg net rt (icmpProtocol net rt) 2 iif msg { st with events := events }
      if error ≠ .success then .ok st else staticRun numSteps st

/-- `sim_run`. -/
def simRun (st : NetState N I S) : Except Crash (NetState N I S) :=
  staticRun net rt (2 ^ 32 - 1) st

/-! ### Ping -/

/-- What `icmp_ping_send_recv` makes of the record of received messages. -/
def pingResult (node : N) (rcvd : Option (RcvdCtx N)) : NetError :=
  match rcvd with
  | none => .noReply
  | some ctx =>
    if ctx.node = node then
      match ctx.type with
      | .echoReply => .success
      | .error .netUnreach => .icmpNetUnreach
      | .error .hostUnreach => .icmpHostUnreach
      | .error .protoUnreach => .icmpProtoUnreach
      | .error .timeExceeded => .icmpTimeExceeded
      | .echoRequest | .trace => .noReply
    else .noReply

/-- `icmp_ping_send_recv`, in a new simulator. -/
def icmpPingSendRecv (node : N) (srcAddr dstAddr : NetAddr) (ttl : UInt8) (st : NetState N I S) :
    Except Crash (NetError × NetState N I S) := do
  let msg : IpMsg :=
    { srcAddr := srcAddr, dstAddr := dstAddr, ttl := if ttl = 0 then 255 else ttl.toNat,
      type := .echoRequest, options := false }
  let (error, st) ← nodeSend net rt (icmpProtocol net rt) node msg none
    { st with events := [], rcvd := none }
  if error ≠ .success then .ok (error, st)
  else
    let st ← simRun net rt st
    .ok (pingResult node st.rcvd, st)

/-! ### Record route -/

/-- `ip_opt_ecmp_run`: each message that waits travels in a new simulator. -/
def ipOptEcmpRun : Nat → NetState N I S → Except Crash (List (IpTrace N I S) × NetState N I S)
  | 0, _ => .error .nested
  | fuel + 1, st =>
    match st.fifoTrace with
    | [] => .ok ([], st)
    | ctx :: fifoTrace => do
      let st := { st with fifoTrace := fifoTrace, opts := ctx.opts, events := [] }
      let (error, st) ← nodeSend net rt (icmpProtocol net rt) ctx.node ctx.msg ctx.rtentries st
      let st ←
        if error ≠ .success then .ok { st with opts.trace.status := error } else simRun net rt st
      let (traces, st') ← ipOptEcmpRun fuel st
      .ok (st.opts.trace :: traces, st')

/-- `icmp_trace_send`. -/
def icmpTraceSend (fuel : Nat) (node : N) (dstAddr : NetAddr) (maxTtl : UInt8) (opts : IpOpt N I S)
    (st : NetState N I S) : Except Crash (List (IpTrace N I S) × NetState N I S) :=
  let opts := { opts with trace := IpTrace.create }
  let msg : IpMsg :=
    { srcAddr := netAddrAny, dstAddr := dstAddr, ttl := maxTtl.toNat, type := .trace, options := true }
  ipOptEcmpRun net rt fuel (ipOptEcmpPush { st with fifoTrace := [] } ⟨node, msg, opts, none⟩)

end Cbgp.Net
