import Cbgp.Lib.Looping
import Cbgp.Net.Messages

/-! # IP messages of all protocols, and tunnels

The sending and receiving of IP messages in `net/network.c`, with the tunnels of `net/ipip.c`, the hooks of
`net/icmp_options.c` and ICMP, `net/icmp.c`.  `Messages` has the part of it that needs no tunnels, for a
network in which one message has options.

A tunnel interface wraps a message into another one, which its node sends.  Each of them may have
options, and traces refer to the traces of the messages around, so that traces live in a heap.  All
options have `IP_OPT_TRACE`, which `icmp_trace_send` sets.

The state has two history variables, which no function reads: the traces of the messages around a message
(`entered`), and the traces of the messages that were delivered (`delivered`).
-/

namespace Cbgp.Net.Ip

open Cbgp.Lib

/-! ## Messages -/

/-- The values of `net_protocol_id_t` whose handlers are not part of IP. -/
inductive UpperProtocol where
  | raw
  | debug
  | bgp
  deriving DecidableEq, Repr

/-- A pointer to a trace. -/
abbrev TraceId := ℕ

/-- `ip_opt_t`; the load is `none` without `IP_OPT_LOAD`, the destination without `IP_OPT_ALT_DEST`. -/
structure Opts where
  quickLoop : Bool
  ecmp : Bool
  tunnel : Bool
  load : Option UInt32
  altDest : Option Pfx
  trace : TraceId
  deriving DecidableEq

/-- The fields of `net_msg_t` but the payload. -/
structure Header extends NetMsg where
  ttl : ℕ
  opts : Option Opts
  deriving DecidableEq

/-- `net_msg_t`, by what the payload is.  An ICMP message knows the node that made it. -/
inductive Msg (N : Type) where
  | icmp (header : Header) (node : N) (type : IcmpType)
  | upper (header : Header) (protocol : UpperProtocol)
  | ipip (header : Header) (inner : Msg N)
  deriving DecidableEq

namespace Msg

variable {N : Type}

def header : Msg N → Header
  | icmp header _ _ | upper header _ | ipip header _ => header

def setHeader (header : Header) : Msg N → Msg N
  | icmp _ node type => icmp header node type
  | upper _ protocol => upper header protocol
  | ipip _ inner => ipip header inner

/-- `is_icmp_error`. -/
def isIcmpError : Msg N → Bool
  | icmp _ _ (.error _) => true
  | icmp .. | upper .. | ipip .. => false

end Msg

/-! ## State -/

/-- `ip_trace_item_t`. -/
inductive Hop (N I S : Type) where
  | node (node : N) (iif oif : Option I)
  | subnet (subnet : S)
  | trace (trace : TraceId)
  deriving DecidableEq

/-- `ip_trace_t`, without the delay, weight and capacity of the way. -/
structure Trace (N I S : Type) where
  items : List (Hop N I S)
  status : NetError
  deriving DecidableEq

/-- `_rcvd_ctx`, with the node that made the message. -/
structure Rcvd (N : Type) where
  node : N
  srcAddr : NetAddr
  dstAddr : NetAddr
  sender : N
  type : IcmpType
  deriving DecidableEq

/-- `_ecmp_ctx_t`. -/
structure EcmpCtx (N : Type) where
  node : N
  msg : Msg N
  rtentries : Option (List EntryRef)

/-- What messages change. -/
structure State (N I S : Type) where
  events : List (I × Msg N)
  rcvd : Option (Rcvd N)
  traces : List (Trace N I S)
  fifoTrace : List (EcmpCtx N)
  load : I → UInt32
  entered : TraceId → List TraceId
  delivered : List TraceId

/-- How the program can end. -/
inductive Crash where
  | output (fault : Fault)
  | noSend -- `assert(iface->ops.send != NULL)`
  | ttlZero -- `assert(msg->ttl > 0)`
  | lastItem -- the assertions on the last item of a trace
  | noOptions -- options that a message does not have are read
  | noCopy -- the `cbgp_fatal` of `message_copy`
  | nested -- out of the fuel of the model
  deriving DecidableEq, Repr

/-- `ipip_data_t`. -/
structure Tunnel (I : Type) where
  oif : Option I
  srcAddr : NetAddr

/-- The nodes, their routing tables and protocols, and which interfaces are tunnels. -/
structure Stack (N I S : Type) where
  net : Topology N I S
  rt : N → NetRt
  ipip : N → Bool -- `node_ipip_enable`
  upper : N → UpperProtocol → Bool
  tunnel : I → Option (Tunnel I)
  endPoint : I → NetAddr
  tunnel_dest : ∀ i, (tunnel i).isSome → (net.iface i).type = .virtual ∧
    (net.iface i).dest = some (.endPoint (endPoint i))

variable {N I S : Type}

namespace Trace

/-- `ip_trace_create`. -/
def create : Trace N I S where
  items := []
  status := .noReply

/-- `_ip_trace_add`. -/
def add (trace : Trace N I S) (item : Hop N I S) : Trace N I S :=
  { trace with items := trace.items ++ [item] }

/-- The traces of the messages around. -/
def nested (trace : Trace N I S) : List TraceId :=
  trace.items.filterMap fun item =>
    match item with
    | .trace trace => some trace
    | .node .. | .subnet _ => none

variable [DecidableEq N]

/-- The last item is the node. -/
def lastIs (trace : Trace N I S) (node : N) : Bool :=
  match trace.items.getLast? with
  | some (.node last _ _) => last = node
  | some (.subnet _) | some (.trace _) | none => false

/-- `ip_trace_search`. -/
def search (trace : Trace N I S) (node : N) : Bool :=
  trace.items.any fun item =>
    match item with
    | .node other _ _ => other = node
    | .subnet _ | .trace _ => false

/-- Set the interface by which the last node, which must be the given one, took or sent the
message. -/
def setLast (trace : Trace N I S) (node : N) (f : Option I × Option I → Option I × Option I) :
    Except Crash (Trace N I S) :=
  match trace.items.getLast? with
  | some (.node last iif oif) =>
    if last = node then
      let (iif, oif) := f (iif, oif)
      .ok { trace with items := trace.items.dropLast ++ [.node node iif oif] }
    else .error .lastItem
  | some (.subnet _) | some (.trace _) | none => .error .lastItem

end Trace

namespace State

variable (st : State N I S)

/-- The trace that the pointer points to. -/
def trace (id : TraceId) : Trace N I S :=
  st.traces.getD id .create

def setTrace (id : TraceId) (f : Trace N I S → Trace N I S) : State N I S :=
  { st with traces := st.traces.modify id f }

def setStatus (id : TraceId) (status : NetError) : State N I S :=
  st.setTrace id fun trace => { trace with status := status }

/-- `ip_trace_create`, and the pointer to the trace. -/
def newTrace : TraceId × State N I S :=
  (st.traces.length, { st with traces := st.traces ++ [.create] })

/-- A message with the first trace is put into one with the second trace. -/
def enter (inner outer : TraceId) : State N I S :=
  { st with entered := Function.update st.entered inner (st.entered inner ++ [outer]) }

end State

/-! ## Hooks -/

section Hooks

variable (rt : N → NetRt) (st : State N I S)

/-- `ip_opt_hook_msg_error`: the loop over the messages inside. -/
def attachTraces : Msg N → State N I S → Except Crash (State N I S)
  | .ipip header inner, st =>
    match header.opts, inner.header.opts with
    | some outerOpts, some opts =>
      attachTraces inner
        ((st.setTrace opts.trace (·.add (.trace outerOpts.trace))).setStatus opts.trace .noReply)
    | _, _ => .error .noOptions
  | .icmp .., st | .upper .., st => .ok st

/-- `ip_opt_hook_msg_error`. -/
def ipOptHookMsgError (msg : Msg N) (error : NetError) : Except Crash (State N I S) :=
  match msg.header.opts with
  | none => .ok st
  | some opts => attachTraces msg (st.setStatus opts.trace error)

/-- `_process_msg_alt_fwd`: forward according to the alternate destination, if there is one. -/
def processMsgAltFwd (node : N) (opts : Opts) (rtentries : Option (List EntryRef)) :
    NetError × State N I S × Option (List EntryRef) :=
  match rtentries, opts.altDest with
  | none, some altDest =>
    match rtFindExact (rt node) altDest netRouteAny with
    | none => (.netUnreach, st.setStatus opts.trace .netUnreach, none)
    | some rtinfo => (.success, st, some rtinfo.refs)
  | _, _ => (.success, st, rtentries)

/-- `ip_opt_hook_msg_encap`: the options of the message around. -/
def ipOptHookMsgEncap (inner : Header) : Option Opts × State N I S :=
  match inner.opts with
  | none => (none, st)
  | some opts =>
    if opts.tunnel then
      let (trace, st) := st.newTrace
      (some { opts with altDest := none, trace := trace }, st.enter opts.trace trace)
    else (none, st)

/-- `ip_opt_hook_msg_decap`. -/
def ipOptHookMsgDecap (outer inner : Header) : Except Crash (State N I S) :=
  match inner.opts with
  | none => .ok st
  | some opts =>
    if opts.tunnel then
      match outer.opts with
      | none => .error .noOptions
      | some outerOpts =>
        .ok ((st.setStatus outerOpts.trace .success).setTrace opts.trace
          (·.add (.trace outerOpts.trace)))
    else .ok st

variable [DecidableEq N]

/-- `ip_opt_hook_msg_sent`. -/
def ipOptHookMsgSent (msg : Msg N) (node : N) (rtentries : Option (List EntryRef)) :
    NetError × State N I S × Option (List EntryRef) :=
  match msg.header.opts with
  | none => (.success, st, rtentries)
  | some opts =>
    let st :=
      if (st.trace opts.trace).lastIs node then st
      else st.setTrace opts.trace (·.add (.node node none none))
    processMsgAltFwd rt st node opts rtentries

/-- `ip_opt_hook_msg_rcvd`. -/
def ipOptHookMsgRcvd (msg : Msg N) (node : N) (iif : I) : Except Crash (State N I S) :=
  match msg.header.opts with
  | none => .ok st
  | some opts => do
    let trace ← (st.trace opts.trace).setLast node fun (_, oif) => (some iif, oif)
    .ok (st.setTrace opts.trace fun _ => trace)

/-- `ip_opt_hook_msg_in`, with `_check_loop`. -/
def ipOptHookMsgIn (msg : Msg N) (node : N) (iif : I) :
    NetError × State N I S × Option (List EntryRef) :=
  match msg.header.opts with
  | none => (.success, st, none)
  | some opts =>
    if (st.trace opts.trace).lastIs node then processMsgAltFwd rt st node opts none
    else
      let st := st.setTrace opts.trace (·.add (.node node (some iif) none))
      -- the search finds the node that has just been added
      if opts.quickLoop && (st.trace opts.trace).search node then
        (.fwdLoop, st.setStatus opts.trace .fwdLoop, none)
      else processMsgAltFwd rt st node opts none

/-- `ip_opt_hook_msg_out`, with the load of `_info_update_qos`. -/
def ipOptHookMsgOut [DecidableEq I] (msg : Msg N) (node : N) (oif : I) : Except Crash (State N I S) :=
  match msg.header.opts with
  | none => .ok st
  | some opts => do
    let trace ← (st.trace opts.trace).setLast node fun (iif, _) => (iif, some oif)
    let load :=
      match opts.load with
      | none => st.load
      | some volume => netIfaceAddLoad st.load oif volume
    .ok { st.setTrace opts.trace fun _ => trace with load := load }

omit [DecidableEq N] in
/-- `ip_opt_hook_msg_subnet`: whether the subnet is the destination. -/
def ipOptHookMsgSubnet (net : Topology N I S) (msg : Msg N) (subnet : S) : Bool × State N I S :=
  match msg.header.opts with
  | none => (false, st)
  | some opts =>
    let st := st.setTrace opts.trace (·.add (.subnet subnet))
    if opts.altDest.any fun altDest => ipPrefixEq altDest (net.subnetPrefix subnet) then
      (true, { st.setStatus opts.trace .success with delivered := st.delivered ++ [opts.trace] })
    else (false, st)

end Hooks

/-! ## Copies -/

/-- `ip_trace_copy`.  The copy of a message has been in the tunnels that its trace shows. -/
def ipTraceCopy : ℕ → TraceId → State N I S → TraceId × State N I S
  | 0, _, st => st.newTrace
  | fuel + 1, id, st =>
    let (copy, st) := st.newTrace
    let st := (st.trace id).items.foldl (fun st item =>
      match item with
      | .trace nested =>
        let (nested, st) := ipTraceCopy fuel nested st
        (st.setTrace copy (·.add (.trace nested))).enter copy nested
      | item => st.setTrace copy (·.add item)) st
    (copy, st)

/-- `ip_options_copy`, with the trace. -/
def ipOptionsCopy (header : Header) (st : State N I S) : Header × State N I S :=
  match header.opts with
  | none => (header, st)
  | some opts =>
    let (trace, st) := ipTraceCopy st.traces.length opts.trace st
    ({ header with opts := some { opts with trace := trace } }, st)

/-- `message_copy`. -/
def messageCopy : Msg N → State N I S → Except Crash (Msg N × State N I S)
  | .icmp header node type, st =>
    let (header, st) := ipOptionsCopy header st
    .ok (.icmp header node type, st)
  | .upper .., _ => .error .noCopy
  | .ipip header inner, st => do
    let (inner, st) ← messageCopy inner st
    let (header, st) := ipOptionsCopy header st
    let st :=
      match inner.header.opts, header.opts with
      | some opts, some outerOpts => st.enter opts.trace outerOpts.trace
      | _, _ => st
    .ok (.ipip header inner, st)

/-- `ip_opt_ecmp_push`, of a copy of a message.  The FIFO does not grow; a copy for which there is no room
is not seen again, so it is not made. -/
def pushCopy (node : N) (msg : Msg N) (st : State N I S) (ref : EntryRef) :
    Except Crash (State N I S) :=
  if st.fifoTrace.length < maxTraceFifoDepth then do
    let (copy, st) ← messageCopy msg st
    .ok { st with fifoTrace := st.fifoTrace ++ [⟨node, copy, some [ref]⟩] }
  else .ok st

/-- `ip_opt_hook_msg_ecmp`: a copy of the message waits for every entry but the first. -/
def ipOptHookMsgEcmp (node : N) (refs : List EntryRef) (msg : Msg N) (st : State N I S) :
    Except Crash (Msg N × State N I S) :=
  match msg.header.opts with
  | none => .ok (msg, st)
  | some opts =>
    if !opts.ecmp || decide (refs.length ≤ 1) then .ok (msg, st)
    else do
      let opts := { opts with load := opts.load.map (· / UInt32.ofNat refs.length) }
      let msg := msg.setHeader { msg.header with opts := some opts }
      let st ← refs.tail.foldlM (pushCopy node msg) st
      .ok (msg, st)

/-! ## Sending -/

variable [DecidableEq N] [DecidableEq I] (stack : Stack N I S)

/-- `node_send`, for a message that a node sends while it deals with another one. -/
abbrev Sender (N I S : Type) :=
  N → Msg N → State N I S → Except Crash (NetError × State N I S)

section Output

variable (send : Sender N I S)

/-- `icmp_send_error`. -/
def icmpSendError (node : N) (dstAddr : NetAddr) (error : IcmpError) (st : State N I S) :
    Except Crash (NetError × State N I S) :=
  send node (.icmp { srcAddr := netAddrAny, dstAddr := dstAddr, ttl := 255, opts := none } node
    (.error error)) st

/-- The ICMP error of `_node_ip_fwd_error`. -/
def sendErrorFor (node : N) (msg : Msg N) (icmpError : Option IcmpError) (st : State N I S) :
    Except Crash (State N I S) :=
  match icmpError with
  | none => .ok st
  | some icmpError =>
    if msg.isIcmpError then .ok st
    else (icmpSendError send node msg.header.srcAddr icmpError st).map (·.2)

/-- `_node_ip_fwd_error`, which ends with `network_drop`. -/
def nodeIpFwdError (node : N) (msg : Msg N) (error : NetError) (icmpError : Option IcmpError)
    (st : State N I S) : Except Crash (State N I S) := do
  let st ← ipOptHookMsgError st msg error
  let st ← sendErrorFor send node msg icmpError st
  ipOptHookMsgError st msg error

/-- `network_send`. -/
def networkSend (msg : Msg N) (st : State N I S) (dst : I) : State N I S :=
  { st with events := st.events ++ [(dst, msg)] }

/-- `_ipip_iface_send`. -/
def ipipIfaceSend (tunnel : Tunnel I) (self : I) (msg : Msg N) (st : State N I S) :
    Except Crash (NetError × State N I S) :=
  match tunnel.oif with
  | some _ => .ok (.unsupported, st)
  | none => do
    let (opts, st) := ipOptHookMsgEncap st msg.header
    let outer : Header :=
      { srcAddr := tunnel.srcAddr, dstAddr := stack.endPoint self, ttl := 255, opts := opts }
    let (_, st) ← send (stack.net.iface self).owner (.ipip outer msg) st
    .ok (.success, st)

/-- `net_iface_send`, with the functions of the types of interfaces. -/
def netIfaceSend (oif : I) (l2Addr : NetAddr) (msg : Msg N) (st : State N I S) :
    Except Crash (NetError × State N I S) :=
  let iface := stack.net.iface oif
  match stack.tunnel oif with
  | some tunnel =>
    if !iface.connected || !iface.enabled then .ok (.linkDown, st)
    else ipipIfaceSend stack send tunnel oif msg st
  | none =>
    -- These types have no ops.send, and the assertion comes before the test of the link state.
    if iface.type = .loopback ∨ iface.type = .virtual then .error .noSend
    else if !iface.connected || !iface.enabled then .ok (.linkDown, st)
    else
      match iface.dest with
      | some (.iface dst) => .ok (.success, networkSend msg st dst)
      | some (.subnet subnet) =>
        -- The alternate destination may be the subnet itself, and then the message has arrived.
        let (reached, st) := ipOptHookMsgSubnet st stack.net msg subnet
        if reached then .ok (.success, st)
        else
          match stack.net.netSubnetFindLink subnet l2Addr with
          | none => .ok (.hostUnreach, st)
          | some dst =>
            if !(stack.net.iface dst).enabled then .ok (.linkDown, st)
            else .ok (.success, networkSend msg st dst)
      | some (.endPoint _) | none => .error .noSend

/-- The last part of `_node_ip_output`: the message goes to the outgoing interface, or is dropped. -/
def nodeIpTransmit (node : N) (oif : I) (l2Addr : NetAddr) (msg : Msg N) (st : State N I S) :
    Except Crash (NetError × State N I S) := do
  let st ← ipOptHookMsgOut st msg node oif
  let (error, st) ← netIfaceSend stack send oif l2Addr msg st
  if error = .success then .ok (.success, st)
  else
    let st ← ipOptHookMsgError st msg error
    -- the node does not see that a link is down
    .ok (if error = .hostUnreach then error else .success, st)

/-- `_node_ip_output`, whose first part is `nodeIpOutput`. -/
def nodeIpOutputSend (node : N) (refs : List EntryRef) (msg : Msg N) (st : State N I S) :
    Except Crash (NetError × State N I S) :=
  match refs with
  | [] => .error (.output .noEntry)
  | ref :: _ => do
    let (msg, st) ← ipOptHookMsgEcmp node refs msg st
    match nodeIpOutput stack.net node (stack.rt node) ref msg.header.toNetMsg with
    | .error fault => .error (.output fault)
    | .ok (.error error) => do
      let st ← nodeIpFwdError send node msg error none st
      .ok (error, st)
    | .ok (.send oif l2Addr sent) =>
      nodeIpTransmit stack send node oif l2Addr
        (msg.setHeader { msg.header with toNetMsg := sent }) st

/-- `_icmp_proto_handle`. -/
def icmpProtoHandle (node : N) (header : Header) (sender : N) (type : IcmpType) (st : State N I S) :
    Except Crash (NetError × State N I S) :=
  let st := { st with rcvd := some ⟨node, header.srcAddr, header.dstAddr, sender, type⟩ }
  match type with
  | .echoRequest => do
    -- `icmp_send_echo_reply`
    let reply : Header :=
      { srcAddr := header.dstAddr, dstAddr := header.srcAddr, ttl := 255, opts := none }
    let (_, st) ← send node (.icmp reply node .echoReply) st
    .ok (.success, st)
  | .trace =>
    match header.opts with
    | none => .ok (.success, st)
    | some opts =>
      .ok (.success,
        { st.setStatus opts.trace .success with delivered := st.delivered ++ [opts.trace] })
  | .echoReply | .error _ => .ok (.success, st)

/-- `_node_ip_process_msg`.  `_ipip_proto_handle` frees the message inside; what the other protocols do is
not part of IP. -/
def nodeIpProcessMsg (node : N) (msg : Msg N) (st : State N I S) :
    Except Crash (NetError × State N I S) :=
  let unreachable : Except Crash (NetError × State N I S) := do
    let st ← nodeIpFwdError send node msg .protoUnreach (some .protoUnreach) st
    .ok (.protoUnreach, st)
  match msg with
  | .icmp header sender type => icmpProtoHandle send node header sender type st
  | .upper _ protocol => if stack.upper node protocol then .ok (.success, st) else unreachable
  | .ipip _ _ => if stack.ipip node then .ok (.success, st) else unreachable

/-- `_node_ip_input` at the interface that has the address. -/
def nodeIpInput (node : N) (lif : I) (msg : Msg N) (st : State N I S) :
    Except Crash (NetError × State N I S) := do
  let st ← ipOptHookMsgRcvd st msg node lif
  nodeIpProcessMsg stack send node msg st

/-- `node_send`. -/
def nodeSendWith (node : N) (msg : Msg N) (rtentries : Option (List EntryRef)) (st : State N I S) :
    Except Crash (NetError × State N I S) :=
  match ipOptHookMsgSent stack.rt st msg node rtentries with
  -- The hook may have chosen entries in place of a lookup.
  | (.success, st, some refs) => nodeIpOutputSend stack send node refs msg st
  | (.success, st, none) =>
    match stack.net.nodeHasAddress node msg.header.dstAddr with
    | some lif =>
      let header := msg.header
      -- A message to the node itself gets its source address from the interface that has it.
      let srcAddr :=
        if header.srcAddr = netAddrAny then (stack.net.iface lif).addr else header.srcAddr
      nodeIpInput stack send node lif (msg.setHeader { header with srcAddr := srcAddr }) st
    | none =>
      match rtFindBest (stack.rt node) msg.header.dstAddr netRouteAny with
      | none => do
        let st ← nodeIpFwdError send node msg .hostUnreach none st
        .ok (.hostUnreach, st)
      | some rtinfo => nodeIpOutputSend stack send node rtinfo.refs msg st
  | (error, st, _) => do
    let st ← ipOptHookMsgError st msg error
    .ok (error, st)

end Output

/-- `node_send`, with as many messages around each other as the fuel says. -/
def nodeSend : ℕ → N → Msg N → Option (List EntryRef) → State N I S →
    Except Crash (NetError × State N I S)
  | 0, _, _, _, _ => .error .nested
  | fuel + 1, node, msg, rtentries, st =>
    nodeSendWith stack (fun node msg st => nodeSend fuel node msg none st) node msg rtentries st

/-- `node_send`, as a node calls it while it deals with a message. -/
def sender (fuel : ℕ) : Sender N I S :=
  fun node msg st => nodeSend stack fuel node msg none st

/-! ## Receiving -/

section Receive

variable (send : Sender N I S)

/-- The forwarding part of `node_recv_msg`. -/
def nodeRecvForward (node : N) (msg : Msg N) (rtentries : Option (List EntryRef)) (st : State N I S) :
    Except Crash (NetError × State N I S) :=
  if msg.header.ttl ≤ 1 then do
    let st ← nodeIpFwdError send node msg .timeExceeded (some .timeExceeded) st
    .ok (.success, st)
  else
    let msg := msg.setHeader { msg.header with ttl := msg.header.ttl - 1 }
    match rtentries with
    | some refs => nodeIpOutputSend stack send node refs msg st
    | none =>
      match rtFindBest (stack.rt node) msg.header.dstAddr netRouteAny with
      | none => do
        let st ← nodeIpFwdError send node msg .hostUnreach (some .hostUnreach) st
        .ok (.success, st)
      | some rtinfo => nodeIpOutputSend stack send node rtinfo.refs msg st

/-- `node_recv_msg`, with `net_iface_recv` and `_ipip_iface_recv`. -/
def nodeRecvMsg : ℕ → I → Msg N → State N I S → Except Crash (NetError × State N I S)
  | 0, _, _, _ => .error .nested
  | fuel + 1, iif, msg, st =>
    if msg.header.ttl = 0 then .error .ttlZero
    else
      let node := (stack.net.iface iif).owner
      match ipOptHookMsgIn stack.rt st msg node iif with
      | (.success, st, some refs) => nodeRecvForward stack send node msg (some refs) st
      | (.success, st, none) =>
        match stack.net.nodeHasAddress node msg.header.dstAddr with
        -- The destination is an address of the node, though not always that of the interface it came in.
        | some lif =>
          if iif = lif then nodeIpInput stack send node lif msg st
          else
            match stack.tunnel lif with
            -- net_iface_recv of the interface with the address: the message is received once more there.
            | none => nodeRecvMsg fuel lif msg st
            | some _ =>
              match msg with
              -- The end of a tunnel takes the inner message out and receives it.
              | .ipip header inner => do
                let st ← ipOptHookMsgDecap st header inner.header
                nodeRecvMsg fuel lif inner st
              | .icmp .. | .upper .. => .ok (.failure, st)
        | none => nodeRecvForward stack send node msg none st
      | (error, st, _) => .ok (error, st)

end Receive

/-! ## Runs -/

/-- `_run` of the static scheduler, on `_network_send_callback`. -/
def staticRun (fuel : ℕ) : ℕ → State N I S → Except Crash (State N I S)
  | 0, st => .ok st
  | numSteps + 1, st =>
    match st.events with
    | [] => .ok st
    | (iif, msg) :: events => do
      let (error, st) ← nodeRecvMsg stack (sender stack fuel) fuel iif msg { st with events := events }
      if error ≠ .success then .ok st else staticRun fuel numSteps st

/-- `sim_run`. -/
def simRun (fuel : ℕ) (st : State N I S) : Except Crash (State N I S) :=
  staticRun stack fuel (2 ^ 32 - 1) st

/-- The options of the innermost message. -/
def innermostOpts : Msg N → Option Opts
  | .ipip _ inner => innermostOpts inner
  | .icmp header _ _ | .upper header _ => header.opts

/-- `ip_opt_ecmp_run`, on one message that waits: it travels in a new simulator. -/
def ipOptEcmpTurn (fuel : ℕ) (ctx : EcmpCtx N) (opts : Opts) (st : State N I S) :
    Except Crash (State N I S) := do
  let (error, st) ← nodeSend stack fuel ctx.node ctx.msg ctx.rtentries { st with events := [] }
  if error ≠ .success then .ok (st.setStatus opts.trace error) else simRun stack fuel st

/-- `ip_opt_ecmp_run`: the traces, for as many messages as the number of turns says. -/
def ipOptEcmpRun (fuel : ℕ) : ℕ → State N I S → Except Crash (List TraceId × State N I S)
  | 0, _ => .error .nested
  | turns + 1, st =>
    match st.fifoTrace with
    | [] => .ok ([], st)
    | ctx :: fifoTrace =>
      match innermostOpts ctx.msg with
      | none => .error .noOptions
      | some opts => do
        let st ← ipOptEcmpTurn stack fuel ctx opts { st with fifoTrace := fifoTrace }
        let (traces, st) ← ipOptEcmpRun fuel turns st
        .ok (opts.trace :: traces, st)

/-- The message of `icmp_trace_send`. -/
def traceMsg (node : N) (dstAddr : NetAddr) (maxTtl : UInt8) (opts : Opts) : Msg N :=
  .icmp { srcAddr := netAddrAny, dstAddr := dstAddr, ttl := maxTtl.toNat, opts := some opts } node .trace

/-- `icmp_trace_send`. -/
def icmpTraceSend (fuel turns : ℕ) (node : N) (dstAddr : NetAddr) (maxTtl : UInt8) (opts : Opts)
    (st : State N I S) : Except Crash (List TraceId × State N I S) :=
  let (trace, st) := st.newTrace
  let msg := traceMsg node dstAddr maxTtl { opts with trace := trace }
  ipOptEcmpRun stack fuel turns { st with fifoTrace := [⟨node, msg, none⟩] }

/-! ### Probes -/

/-- `node_send_msg`, for ICMP. -/
def icmpSend (fuel : ℕ) (node : N) (srcAddr dstAddr : NetAddr) (ttl : UInt8) (type : IcmpType)
    (st : State N I S) : Except Crash (NetError × State N I S) :=
  let header : Header :=
    { srcAddr := srcAddr, dstAddr := dstAddr, ttl := if ttl = 0 then 255 else ttl.toNat, opts := none }
  nodeSend stack fuel node (.icmp header node type) none st

/-- What `icmp_ping_send_recv` makes of the record of received messages. -/
def pingResult (node : N) (rcvd : Option (Rcvd N)) : NetError :=
  match rcvd with
  | none => .noReply
  | some ctx =>
    if ctx.node = node then
      match ctx.type with
      | .echoReply => .success
      | .error .netUnreach => .icmpNetUnreach
      | .error .hostUnreach => .icmpHostUnreach
      | .error .protoUnreach => .icmpProtoUnreach
      | .error .timeExceeded => .icmpTimeExceeded
      | .echoRequest | .trace => .noReply
    else .noReply

/-- `icmp_ping_send_recv`, in a new simulator. -/
def icmpPingSendRecv (fuel : ℕ) (node : N) (srcAddr dstAddr : NetAddr) (ttl : UInt8)
    (st : State N I S) : Except Crash (NetError × State N I S) := do
  let (error, st) ← icmpSend stack fuel node srcAddr dstAddr ttl .echoRequest
    { st with events := [], rcvd := none }
  if error ≠ .success then .ok (error, st)
  else
    let st ← simRun stack fuel st
    .ok (pingResult node st.rcvd, st)

/-- The variables of `icmp_trace_route`.  An item of the trace is the node that answered, if one did, and
its interface. -/
structure TraceRoute (N I S : Type) where
  ttl : UInt8
  error : NetError
  items : List (Option N × Option I)
  st : State N I S

/-- The item for the answer to a probe. -/
def answerItem (error : NetError) (rcvd : Option (Rcvd N)) : Option N × Option I :=
  match error, rcvd with
  | .success, some ctx | .icmpNetUnreach, some ctx | .icmpHostUnreach, some ctx
  | .icmpProtoUnreach, some ctx | .icmpTimeExceeded, some ctx =>
    (some ctx.sender, stack.net.nodeFindIface ctx.sender ctx.srcAddr)
  | _, _ => (none, none)

/-- One turn of the loop of `icmp_trace_route`, with the function that sends a probe. -/
def traceRouteTurn (ping : UInt8 → State N I S → Except Crash (NetError × State N I S)) (maxTtl : UInt8)
    (route : TraceRoute N I S) : Except Crash (TraceRoute N I S) ⊕ TraceRoute N I S :=
  if route.ttl ≤ maxTtl then
    match ping route.ttl route.st with
    | .error crash => .inl (.error crash)
    | .ok (error, st) =>
      let items := route.items ++ [answerItem stack error st.rcvd]
      if error ≠ .icmpTimeExceeded then
        .inl (.ok { route with error := error, items := items, st := st })
      else .inr { ttl := route.ttl + 1, error := error, items := items, st := st }
  else .inl (.ok route)

/-- `icmp_trace_route`. -/
def icmpTraceRoute (ping : UInt8 → State N I S → Except Crash (NetError × State N I S)) (turns : ℕ)
    (node : N) (maxTtl : UInt8) (st : State N I S) : Option (Except Crash (TraceRoute N I S)) :=
  let maxTtl := if maxTtl = 0 then 255 else maxTtl
  looping (traceRouteTurn stack ping maxTtl) turns
    { ttl := 1, error := .failure, items := [(some node, none)], st := st }

end Cbgp.Net.Ip
