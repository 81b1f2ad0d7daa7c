import Cbgp.Net.Routing
import Cbgp.Net.Topology

/-! # The routes of a node and forwarding along them

`node_rt_add_route`, `node_rt_add_route_link` and `node_rt_del_route` of `net/node.c`, and `_node_ip_output` of
`net/network.c` up to the point where it hands the message to the outgoing interface.

An entry of a routing table names its outgoing interface by address, which identifies it on the
node.  An entry without interface is never shared by two routes, and no two routes of a table are
equal (they differ in prefix, protocol or metric), so `EntryRef` stands for the pointer to an entry.
-/

namespace Cbgp.Net

variable {N I S : Type}

/-! ## Adding and removing routes -/

/-- Replace the entries of one route; protocols and metrics, hence the order, stay. -/
def RtInfos.setEntries (infos : RtInfos) (rtinfo : RtInfo) (entries : List RtEntry) : RtInfos where
  list := infos.list.map fun other =>
    if other = rtinfo then { other with entries := entries } else other
  nonempty := by simp [infos.nonempty]
  sorted := by
    rw [List.pairwise_map]
    refine infos.sorted.imp fun below => ?_
    rw [rtInfoListCmp_eq_lt] at below ⊢
    split <;> split <;> exact below

/-- The check `node_rt_add_route_link` starts with: a gateway must be at the other end of the
interface, and one of the two must be given.  It aborts on an interface of another type, and
reads through the destination of an interface that was never connected. -/
def checkGateway (net : Topology N I S) (oif : Option I) (gateway : NetAddr) :
    Except Unit (Option NetError) :=
  match oif with
  | none => .ok (if gateway = netAddrAny then some .rtNoGwNoOif else none)
  | some i =>
    if gateway = netAddrAny then .ok none
    else
      match (net.iface i).type, (net.iface i).dest with
      -- The neighbor on a router-to-router link is named by its identifier, on others by an address.
      | .rtr, some (.iface dst) =>
        .ok (if net.rid (net.iface dst).owner ≠ gateway then some .rtNhUnreach else none)
      | .ptp, some (.iface dst) =>
        match net.nodeHasAddress (net.iface dst).owner gateway with
        | none => .ok (some .rtNhUnreach)
        | some _ => .ok none
      | .ptmp, some (.subnet dst) =>
        match net.netSubnetFindLink dst gateway with
        | none => .ok (some .rtNhUnreach)
        | some link =>
          .ok (if (net.iface link).addr = (net.iface i).addr then some .rtNhUnreach else none)
      | _, _ => .error ()

/-- `node_rt_add_route_link`, on the routing table of a node. -/
def nodeRtAddRouteLink (net : Topology N I S) (rt : NetRt) (pfx : Pfx) (oif : Option I)
    (gateway : NetAddr) (weight : UInt32) (type : RouteType) : Except Unit (NetError × NetRt) := do
  let refused ← checkGateway net oif gateway
  let entry : RtEntry := { oif := oif.map fun i => (net.iface i).addr, gateway := gateway }
  match refused with
  | some e => pure (e, rt)
  | none =>
    match rtFindExact rt pfx type.bit with
    | none =>
      pure (rtAddRoute rt pfx { pfx := pfx, metric := weight, type := type, entries := [entry] })
    | some rtinfo =>
      -- a parallel path: the weight of the route stays
      match rtEntriesAdd entry rtinfo.entries, rt.lookup (ipPrefixMask pfx) with
      | some entries, some infos =>
        pure (.success, rt.insert (ipPrefixMask pfx) (infos.setEntries rtinfo entries))
      | _, _ => pure (.rtDuplicate, rt)

/-- `node_rt_add_route`. -/
def nodeRtAddRoute (net : Topology N I S) (node : N) (rt : NetRt) (pfx : Pfx) (oifId : NetAddr)
    (gateway : NetAddr) (weight : UInt32) (type : RouteType) : Except Unit (NetError × NetRt) :=
  if oifId = netAddrAny then nodeRtAddRouteLink net rt pfx none gateway weight type
  else
    match net.nodeFindIface node oifId with
    | none => .ok (.ifaceUnknown, rt)
    | some i =>
      if (net.iface i).type = .loopback then .ok (.ifaceIncompatible, rt)
      else nodeRtAddRouteLink net rt pfx (some i) gateway weight type

/-- `node_rt_del_route`.  An interface that is not found is a wildcard, as one that is not given. -/
def nodeRtDelRoute (net : Topology N I S) (node : N) (rt : NetRt) (pfx : Option Pfx) (oifId : Option Pfx)
    (nextHop : Option NetAddr) (type : UInt8) : NetError × NetRt :=
  let iface := oifId.bind fun id => net.nodeFindIface node id.network
  rtDelRoute rt pfx (iface.map fun i => (net.iface i).addr) nextHop type

/-! ## Forwarding -/

/-- `net_msg_t`, the fields forwarding reads. -/
structure NetMsg where
  srcAddr : NetAddr
  dstAddr : NetAddr
  deriving DecidableEq

/-- A pointer to an entry: a route of the table and a position among its entries. -/
structure EntryRef where
  route : RtInfo
  index : Nat
  deriving DecidableEq

/-- `rt_entries_get_at(rtentries, 0)` on the entries of a route. -/
def RtInfo.entry0 (rtinfo : RtInfo) : EntryRef where
  route := rtinfo
  index := 0

/-- What the pointer points to. -/
def EntryRef.deref (ref : EntryRef) : Option RtEntry :=
  ref.route.entries[ref.index]?

/-- How `_node_ip_output` leaves a message. -/
inductive Output (I : Type) where
  | error (e : NetError) -- dropped, the error is returned
  | send (oif : I) (l2Addr : NetAddr) (msg : NetMsg) -- `net_iface_send`
  deriving DecidableEq

/-- How `_node_ip_output` can fail to return. -/
inductive Fault where
  | noEntry -- no entry 0, or no such interface on the node
  | nullInterface -- `rtentry->oif` is read through while it is `NULL`
  deriving DecidableEq, Repr

/-- The entry the message leaves along, with the address it is resolved for; `none` when the host is
unreachable.  One extra lookup is made for an entry that has no interface. -/
def resolveEntry (rt : NetRt) (rtentry : EntryRef) (dst : NetAddr) :
    Except Fault (Option (NetAddr × EntryRef)) :=
  match rtentry.deref with
  | none => .error .noEntry
  | some entry =>
    match entry.oif with
    | some _ => .ok (some (dst, rtentry))
    | none =>
      match rtFindBest rt entry.gateway netRouteAny with
      | none => .ok none
      | some rtinfo =>
        if rtentry = rtinfo.entry0 then .ok none
        else .ok (some (entry.gateway, rtinfo.entry0))

/-- `_node_ip_output`, for the entry that `rtentries` starts with. -/
def nodeIpOutput (net : Topology N I S) (node : N) (rt : NetRt) (rtentry : EntryRef) (msg : NetMsg) :
    Except Fault (Output I) := do
  match ← resolveEntry rt rtentry msg.dstAddr with
  | none => pure (.error .hostUnreach)
  | some (dst, rtentry) =>
    match rtentry.deref with
    | none => throw .noEntry
    | some entry =>
      match entry.oif with
      | none => throw .nullInterface
      | some addr =>
        match net.nodeFindIface node addr with
        | none => throw .noEntry
        | some oif =>
          let msg :=
            if msg.srcAddr = netAddrAny then { msg with srcAddr := net.netIfaceSrcAddress oif }
            else msg
          -- on a subnet the layer-2 address is that of the gateway, or of the destination itself
          let l2Addr :=
            if (net.iface oif).type = .ptmp ∧ entry.gateway = netAddrAny then dst
            else entry.gateway
          pure (.send oif l2Addr msg)

/-- The forwarding part of `node_recv_msg` and `node_send`, for a message without options. -/
def nodeForward (net : Topology N I S) (node : N) (rt : NetRt) (msg : NetMsg) :
    Except Fault (Output I) :=
  match rtFindBest rt msg.dstAddr netRouteAny with
  | none => .ok (.error .hostUnreach)
  | some rtinfo => nodeIpOutput net node rt rtinfo.entry0 msg

end Cbgp.Net
