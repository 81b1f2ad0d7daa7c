import Cbgp.Net.Routing
import Cbgp.Net.Topology

/-! # The IGP model

`net/igp.c` and `net/spt.h`: a breadth-first search builds the shortest-path tree of a router
(`spt_bfs`), the forwarding table is read off the tree (`_spt_compute_fib`), and
`igp_compute_domain` replaces the IGP routes of every router of a domain.

Vertices of the tree are found in a radix tree by the masked prefix of their element, and that key
stands here for the pointer to the vertex.  The queue and the stack have the sizes of the source; the
loops carry a fuel argument, and running out of it is told apart from the faults of the code.
-/

namespace Cbgp.Net

open Cbgp.Lib

variable {N I S : Type} [DecidableEq N] [DecidableEq I] [DecidableEq S]

/-! ## Elements -/

/-- `net_elem_t`: a node, a subnet, or the interface at the far end of a point-to-point link. -/
inductive NetElem (N I S : Type) where
  | node (n : N)
  | subnet (s : S)
  | link (i : I)
  deriving DecidableEq

/-- `net_elem_prefix`. -/
def netElemPrefix (net : Topology N I S) : NetElem N I S → Pfx
  | .node n => { network := net.rid n, mask := 32, short := short32 }
  | .subnet s => net.subnetPrefix s
  | .link i => netIfaceId (net.iface i)

/-- The key of an element in the radix tree, and the `id` of its vertex. -/
def elemKey (net : Topology N I S) (elem : NetElem N I S) : Pfx :=
  ipPrefixMask (netElemPrefix net elem)

/-- `net_igp_add_weights`. -/
def netIgpAddWeights (weight1 weight2 : UInt32) : UInt32 :=
  if igpMaxWeight.toNat < weight1.toNat + weight2.toNat then igpMaxWeight else weight1 + weight2

/-- `igp_domain_contains_router`: the routers of a domain are found by their identifier. -/
def igpDomainContainsRouter (net : Topology N I S) (domain : List N) (node : N) : Bool :=
  domain.any fun m => net.rid m = net.rid node

/-! ## The shortest-path tree -/

/-- `spt_vertex_t`. -/
structure SptVertex (N I S : Type) where
  elem : NetElem N I S
  weight : UInt32
  preds : List Pfx
  succs : List Pfx

/-- `spt_t`: the vertices by key. -/
abbrev Spt (N I S : Type) := Table Pfx (SptVertex N I S)

/-- How the computation can stop. -/
inductive IgpFault where
  | fifoFull -- `assert(fifo_push(..) == 0)`
  | stackFull -- `assert(stack_push(..) >= 0)`
  | assertion -- another `assert`
  | nullPointer -- reading through an interface that was never connected, or that was not found
  | outOfFuel -- of the model, not of the code
  deriving DecidableEq, Repr

/-- `fifo_create(100000, NULL)`. -/
def fifoDepth : Nat := 100000

/-- `stack_create(10000)`. -/
def stackDepth : Nat := 10000

/-- The predecessors of a vertex. -/
def predsOf (spt : Spt N I S) (key : Pfx) : List Pfx :=
  ((spt.lookup key).map (·.preds)).getD []

/-- The successors of a vertex. -/
def succsOf (spt : Spt N I S) (key : Pfx) : List Pfx :=
  ((spt.lookup key).map (·.succs)).getD []

/-- `spt_vertex_add_pred`. -/
def sptVertexAddPred (spt : Spt N I S) (vertex pred : Pfx) : Except IgpFault (Spt N I S) :=
  if pred ∈ predsOf spt vertex then .ok spt
  else if vertex ∈ succsOf spt pred then .error .assertion
  else
    .ok ((spt.modify vertex fun v => { v with preds := pred :: v.preds }).modify pred fun v =>
      { v with succs := vertex :: v.succs })

/-- One turn of the loop of `spt_vertex_clear_preds`: the vertex is no successor of `pred` any
more. -/
def removeSucc (vertex : Pfx) (spt : Spt N I S) (pred : Pfx) : Except IgpFault (Spt N I S) :=
  if vertex ∈ succsOf spt pred then
    .ok (spt.modify pred fun v => { v with succs := v.succs.erase vertex })
  else .error .assertion

/-- `spt_vertex_clear_preds`. -/
def sptVertexClearPreds (spt : Spt N I S) (vertex : Pfx) : Except IgpFault (Spt N I S) := do
  let spt ← (predsOf spt vertex).foldlM (removeSucc vertex) spt
  .ok (spt.modify vertex fun v => { v with preds := [] })

/-- `_spt_update_node`; the vertex comes back when the traversal continues through it. -/
def sptUpdateNode (net : Topology N I S) (spt : Spt N I S) (elem : NetElem N I S) (prev : Pfx)
    (weight : UInt32) : Except IgpFault (Spt N I S × Option Pfx) :=
  let key := elemKey net elem
  match spt.lookup key with
  -- A new vertex, a better path and an equal one: the last adds a predecessor and visits nothing.
  | none => do
    let spt := spt.insert key { elem := elem, weight := weight, preds := [], succs := [] }
    let spt ← sptVertexAddPred spt key prev
    .ok (spt, some key)
  | some vertex =>
    if weight < vertex.weight then do
      let spt := spt.modify key fun v => { v with weight := weight }
      let spt ← sptVertexClearPreds spt key
      let spt ← sptVertexAddPred spt key prev
      .ok (spt, some key)
    else if vertex.weight = weight then do
      let spt ← sptVertexAddPred spt key prev
      .ok (spt, none)
    else .ok (spt, none)

/-- `spt_context_t`: incoming interface and vertex. -/
structure SptContext (I : Type) where
  iif : Option I
  vertex : Pfx
  deriving DecidableEq

/-- `spt_comp_t`, with the domain left apart. -/
structure SptComp (N I S : Type) where
  spt : Spt N I S
  fifo : List (SptContext I)

/-- `_push`. -/
def sptPush (comp : SptComp N I S) (iif : Option I) (vertex : Pfx) :
    Except IgpFault (SptComp N I S) :=
  if comp.fifo.length < fifoDepth then .ok { comp with fifo := comp.fifo ++ [⟨iif, vertex⟩] }
  else .error .fifoFull

/-- `_link_get_next_elem`; `none` is the return value 0.  A subnet or point-to-point interface that
was never connected gives no element either: `_link_traverse` does not look at the element then. -/
def linkGetNextElem (net : Topology N I S) (src : NetElem N I S) (link : I) :
    Except IgpFault (Option (NetElem N I S)) :=
  match src with
  | .node _ =>
    match (net.iface link).type with
    -- These types lead nowhere and are skipped.
    | .loopback | .virtual => .ok none
    | .ptmp => .ok ((net.destSubnet link).map .subnet)
    | .rtr =>
      -- A router-to-router interface is followed without a look at whether it was ever connected.
      match net.destIface link with
      | none => .error .nullPointer
      | some dst => .ok (some (.node (net.iface dst).owner))
    | .ptp => .ok ((net.destIface link).map .link)
  | .subnet _ => .ok (some (.node (net.iface link).owner))
  | .link _ =>
    match net.destIface link with
    | none => .error .nullPointer
    | some dst => .ok (some (.node (net.iface dst).owner))

/-- The filters of `_link_traverse` that depend on the network alone. -/
def linkFiltered (net : Topology N I S) (domain : List N) (src : NetElem N I S) (link : I)
    (next : NetElem N I S) : Bool :=
  let outside :=
    match next with
    | .node n => !igpDomainContainsRouter net domain n
    | _ => false
  let down := !(net.iface link).enabled || !(net.iface link).connected
  let unweighted :=
    match src with
    | .link _ => false
    | _ => (net.iface link).metric = 0 || (net.iface link).metric = igpMaxWeight
  outside || down || unweighted

/-- The weight of the path through a link: leaving a subnet is free, and the metric is not read on
the way out of a point-to-point link. -/
def linkWeight (net : Topology N I S) (src : NetElem N I S) (weight : UInt32) (link : I) : UInt32 :=
  match src with
  | .node _ => netIgpAddWeights weight (net.iface link).metric
  | .subnet _ => weight
  | .link _ => netIgpAddWeights weight 0

/-- The saturation test of `_link_traverse`, which a subnet is exempt from. -/
def linkSaturated (src : NetElem N I S) (weight : UInt32) : Bool :=
  match src with
  | .subnet _ => false
  | _ => weight = igpMaxWeight

/-- The end of `_link_traverse`: the vertex at the other end is updated, and pushed if it has to be
visited again. -/
def updateAndPush (net : Topology N I S) (context : SptContext I) (comp : SptComp N I S) (link : I)
    (next : NetElem N I S) (weight : UInt32) : Except IgpFault (SptComp N I S) :=
  match sptUpdateNode net comp.spt next context.vertex weight with
  | .error fault => .error fault
  | .ok (spt, none) => .ok { comp with spt := spt }
  | .ok (spt, some key) => sptPush { comp with spt := spt } (some link) key

/-- `_link_traverse`. -/
def linkTraverse (net : Topology N I S) (domain : List N) (context : SptContext I)
    (comp : SptComp N I S) (link : I) : Except IgpFault (SptComp N I S) :=
  match comp.spt.lookup context.vertex with
  | none => .error .nullPointer
  | some vertex => do
    match ← linkGetNextElem net vertex.elem link with
    | none => .ok comp
    | some next =>
      let back := context.iif.bind net.destIface
      if linkFiltered net domain vertex.elem link next || decide (back = some link) then .ok comp
      else
        let weight := linkWeight net vertex.elem vertex.weight link
        if linkSaturated vertex.elem weight then .ok comp
        else updateAndPush net context comp link next weight

/-- The links `spt_bfs` traverses out of an element.  The source tests the other end of a point-to-point interface
for `NULL` only; the fault stands for an end that was never set, and that it reads all the same. -/
def outboundLinks (net : Topology N I S) : NetElem N I S → Except IgpFault (List I)
  | .node n => .ok (net.ifaces n)
  | .subnet s => .ok (if net.subnetTransit s then net.subnetIfaces s else [])
  | .link i =>
    match net.destIface i with
    | none => .error .nullPointer
    | some link => .ok [link]

/-- `spt_bfs`: one turn of the main loop. -/
def sptTurn (net : Topology N I S) (domain : List N) (comp : SptComp N I S)
    (context : SptContext I) (rest : List (SptContext I)) : Except IgpFault (SptComp N I S) :=
  match comp.spt.lookup context.vertex with
  | none => .error .nullPointer
  | some vertex => do
    let links ← outboundLinks net vertex.elem
    links.foldlM (linkTraverse net domain context) { comp with fifo := rest }

/-- `spt_bfs`: the main loop. -/
def sptLoop (net : Topology N I S) (domain : List N) : Nat → SptComp N I S →
    Except IgpFault (Spt N I S)
  | fuel, comp =>
    match comp.fifo with
    | [] => .ok comp.spt
    | context :: rest =>
      match fuel with
      | 0 => .error .outOfFuel
      | fuel + 1 => do
        let comp ← sptTurn net domain comp context rest
        sptLoop net domain fuel comp

/-- `spt_create`, and the queue the search starts with. -/
def sptStart (net : Topology N I S) (root : N) : SptComp N I S where
  spt := (∅ : Spt N I S).insert (elemKey net (.node root))
    { elem := .node root, weight := 0, preds := [], succs := [] }
  fifo := [⟨none, elemKey net (.node root)⟩]

/-- `spt_bfs`. -/
def sptBfs (net : Topology N I S) (domain : List N) (root : N) (fuel : Nat) :
    Except IgpFault (Spt N I S) :=
  sptLoop net domain fuel (sptStart net root)

/-! ## The forwarding table -/

/-- `node_find_iface_to`: the first connected interface that leads to the element. -/
def nodeFindIfaceTo (net : Topology N I S) (node : N)
    (dst : NetElem N I S) : Option I :=
  (net.ifaces node).find? fun i =>
    (net.iface i).connected &&
      match dst with
      | .link link => (net.iface i).type = .ptp && net.destIface i = some link
      | .node n => (net.iface i).type = .rtr &&
          (net.destIface i).map (fun j => (net.iface j).owner) = some n
      | .subnet s => (net.iface i).type = .ptmp && net.destSubnet i = some s

/-- `subnet_find_iface_to`: the first interface of the node on the subnet. -/
def subnetFindIfaceTo (net : Topology N I S) (subnet : S) (dst : NetElem N I S) :
    Option I :=
  match dst with
  | .node n => (net.subnetIfaces subnet).find? fun i => (net.iface i).owner = n
  | _ => none

/-- `rt_entry_t` while the forwarding table is computed, when the interface is known. -/
structure FibEntry (I : Type) where
  oif : I
  gateway : NetAddr
  deriving DecidableEq

/-- The entry as the routing table stores it. -/
def FibEntry.toRtEntry (net : Topology N I S) (entry : FibEntry I) : RtEntry where
  oif := some (net.iface entry.oif).addr
  gateway := entry.gateway

/-- `fib_t`. -/
abbrev Fib := Table Pfx RtInfo

/-- `_spt_install_fib_entry`: the weight is that of the first installation. -/
def sptInstallFibEntry (fib : Fib) (pfx : Pfx) (weight : UInt32) (rtentry : RtEntry) : Fib :=
  let key := ipPrefixMask pfx
  let rtinfo : RtInfo :=
    match fib.lookup key with
    | none => { pfx := key, metric := weight, type := .igp, entries := [] }
    | some rtinfo => rtinfo
  fib.insert key { rtinfo with entries := (rtEntriesAdd rtentry rtinfo.entries).getD rtinfo.entries }

/-- `_spt_install_fib`: the loopback and virtual addresses of a node, the prefix of a subnet or
link. -/
def sptInstallFib (net : Topology N I S) (fib : Fib) (key : Pfx) (vertex : SptVertex N I S)
    (rtentry : RtEntry) : Fib :=
  match vertex.elem with
  | .node n =>
    (net.ifaces n).foldl (fun fib i =>
      match (net.iface i).type with
      | .loopback | .virtual =>
        sptInstallFibEntry fib (netIfaceId (net.iface i))
          (netIgpAddWeights vertex.weight (net.iface i).metric) rtentry
      | _ => fib) fib
  | _ => sptInstallFibEntry fib key vertex.weight rtentry

/-- The entry `_spt_compute_fib` computes for a successor: the first hop leaves through the
interface found towards it, the hop after a subnet fixes the gateway, later hops inherit. -/
def nextEntry (net : Topology N I S)
    (vertex : SptVertex N I S) (rtentry : Option (FibEntry I)) (succ : NetElem N I S) :
    Except IgpFault (FibEntry I) :=
  match rtentry with
  -- At the root there is no entry yet.
  | none =>
    match vertex.elem with
    | .node n =>
      match nodeFindIfaceTo net n succ with
      | none => .error .assertion
      | some i => .ok ⟨i, netAddrAny⟩
    | _ => .error .assertion
  | some entry =>
    -- An entry onto a subnet waits for its gateway until the subnet has been left.
    if (net.iface entry.oif).type = .ptmp ∧ entry.gateway = netAddrAny then
      match vertex.elem with
      | .subnet s =>
        match subnetFindIfaceTo net s succ with
        | none => .error .nullPointer
        | some i => .ok ⟨entry.oif, (net.iface i).addr⟩
      | _ => .error .assertion
    else .ok entry

/-- `_fib_comp_t`. -/
structure FibContext (I : Type) where
  vertex : Pfx
  rtentry : Option (FibEntry I)

/-- `_spt_compute_fib`: what is done for one successor of the vertex on top of the stack. -/
def fibSuccessor (net : Topology N I S)
    (spt : Spt N I S) (vertex : SptVertex N I S) (rtentry : Option (FibEntry I))
    (state : Fib × List (FibContext I)) (key : Pfx) : Except IgpFault (Fib × List (FibContext I)) :=
  match spt.lookup key with
  | none => .error .nullPointer
  | some succ => do
    let entry ← nextEntry net vertex rtentry succ.elem
    let fib := sptInstallFib net state.1 key succ (entry.toRtEntry net)
    if state.2.length < stackDepth then .ok (fib, ⟨key, some entry⟩ :: state.2)
    else .error .stackFull

/-- `_spt_compute_fib`: the loop over the stack.  The successors are stored in the order of their
addresses in memory, which the argument `order` stands for. -/
def fibLoop (net : Topology N I S) (order : Traversal)
    (spt : Spt N I S) : Nat → Fib × List (FibContext I) → Except IgpFault Fib
  | fuel, (fib, stack) =>
    match stack with
    | [] => .ok fib
    | context :: stack =>
      match fuel with
      | 0 => .error .outOfFuel
      | fuel + 1 =>
        match spt.lookup context.vertex with
        | none => .error .nullPointer
        | some vertex => do
          let state ← (order.order vertex.succs).foldlM
            (fibSuccessor net spt vertex context.rtentry) (fib, stack)
          fibLoop net order spt fuel state

/-- `_spt_compute_fib`. -/
def sptComputeFib (net : Topology N I S)
    (order : Traversal) (root : N) (spt : Spt N I S) (fuel : Nat) : Except IgpFault Fib :=
  fibLoop net order spt fuel (∅, [⟨elemKey net (.node root), none⟩])

/-! ## The routes of a domain -/

/-- The forwarding table of a router, from the topology. -/
def routerFib (net : Topology N I S)
    (order : Traversal) (domain : List N) (fuel : Nat) (node : N) : Except IgpFault Fib := do
  let spt ← sptBfs net domain node fuel
  sptComputeFib net order node spt fuel

/-- `_igp_compute_prefix_for_each`, which is not called any more once a call has failed. -/
def igpComputePrefixForEach (state : NetError × NetRt) (e : Sigma fun _ : Pfx => RtInfo) :
    NetError × NetRt :=
  match state with
  | (.success, rt) => rtAddRoute rt e.1 e.2
  | failed => failed

/-- `radix_tree_for_each` over the forwarding table, with the routing table of the node. -/
def addFib (fib : Fib) (rt : NetRt) : NetError × NetRt :=
  fib.entries.foldl igpComputePrefixForEach (.success, rt)

/-- `igp_compute_domain`: what is done for one router, unless one before it has failed. -/
def igpComputeRouter (net : Topology N I S) (order : Traversal) (domain : List N) (fuel : Nat)
    (state : NetError × (N → NetRt)) (node : N) : Except IgpFault (NetError × (N → NetRt)) :=
  match state with
  | (.success, tables) => do
    let rt := (rtDelRoute (tables node) none none none RouteType.igp.bit).2
    let fib ← routerFib net order domain fuel node
    let (result, rt) := addFib fib rt
    .ok (result, Function.update tables node rt)
  | failed => .ok failed

/-- `igp_compute_domain`, on the routing tables of the nodes. -/
def igpComputeDomain (net : Topology N I S) (order : Traversal) (domain : List N) (fuel : Nat)
    (tables : N → NetRt) : Except IgpFault (NetError × (N → NetRt)) :=
  domain.foldlM (igpComputeRouter net order domain fuel) (.success, tables)

end Cbgp.Net
