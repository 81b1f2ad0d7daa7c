import Mathlib.Data.List.Sort
import Mathlib.Logic.Function.Basic
import Cbgp.Net.Topology

/-! # The creation of links

`net/link.c`, and what it calls of `net/iface.c`, `net/node.c` and `net/subnet.c`.  The interfaces of a
network are numbered here in the order of their allocation, and a call returns its error together with
the network it leaves behind: what was done before the error stays done.
-/

namespace Cbgp.Net

variable {N S : Type} [DecidableEq N] [DecidableEq S]

/-! ## The network while links are created -/

/-- Nodes, interfaces and subnets.  The interfaces from `next` on are not allocated yet. -/
structure Wires (N S : Type) where
  rid : N → NetAddr
  subnetPrefix : S → Pfx
  rid_injective : Function.Injective rid
  subnet_mask : ∀ s, (subnetPrefix s).mask < 32
  subnet_injective : Function.Injective fun s => ipPrefixMask (subnetPrefix s)
  iface : ℕ → Iface N ℕ S
  next : ℕ
  ifaces : N → List ℕ
  subnetIfaces : S → List ℕ

/-- `net_iface_dir_t`. -/
inductive IfaceDir where
  | unidir
  | bidir
  deriving DecidableEq, Repr

namespace Wires

/-! ## Interfaces -/

/-- `net_iface_new`: enabled, not connected, and with the default metric of its type. -/
def netIfaceNew (node : N) (type : IfaceType) (id : Pfx) : Iface N ℕ S where
  owner := node
  addr := id.network
  mask := id.mask
  short := id.short
  connected := false
  type := type
  dest := none
  enabled := true
  metric := if type = .loopback ∨ type = .virtual then 0 else igpMaxWeight

/-- `net_iface_factory`. -/
def netIfaceFactory (node : N) (id : Pfx) (type : IfaceType) : Except NetError (Iface N ℕ S) :=
  match type with
  | .loopback | .rtr | .virtual =>
    if id.mask ≠ 32 then .error .ifaceInvalidId else .ok (netIfaceNew node type id)
  | .ptp | .ptmp => if id.mask ≥ 32 then .error .ifaceInvalidId else .ok (netIfaceNew node type id)

/-- `net_links_find`, hence `node_find_iface`: interfaces are told apart by their address alone. -/
def nodeFindIface (net : Wires N S) (node : N) (id : Pfx) : Option ℕ :=
  (net.ifaces node).find? fun i => (net.iface i).addr = id.network

/-- `_net_links_link_compare`. -/
def below (iface : ℕ → Iface N ℕ S) (i j : ℕ) : Prop :=
  (iface i).addr.toNat ≤ (iface j).addr.toNat

instance (iface : ℕ → Iface N ℕ S) : DecidableRel (below iface) := fun _ _ =>
  inferInstanceAs (Decidable (_ ≤ _))

/-- The list holds an interface with the address. -/
def taken (net : Wires N S) (list : List ℕ) (addr : NetAddr) : Bool :=
  list.any fun j => (net.iface j).addr = addr

/-- A new interface is allocated and put in the list of its node. -/
def attach (net : Wires N S) (node : N) (new : Iface N ℕ S) : Wires N S :=
  let iface := Function.update net.iface net.next new
  { net with
    iface := iface
    next := net.next + 1
    ifaces := Function.update net.ifaces node
      ((net.ifaces node).orderedInsert (below iface) net.next) }

/-- `node_add_iface2`, for an interface that has just been made; if its address is taken the
interface is destroyed. -/
def nodeAddIface2 (net : Wires N S) (node : N) (new : Iface N ℕ S) :
    Except NetError (ℕ × Wires N S) :=
  if net.taken (net.ifaces node) new.addr then .error .ifaceDuplicate
  else .ok (net.next, net.attach node new)

/-- `node_add_iface`. -/
def nodeAddIface (net : Wires N S) (node : N) (id : Pfx) (type : IfaceType) :
    Except NetError (ℕ × Wires N S) := do
  net.nodeAddIface2 node (← netIfaceFactory node id type)

/-- An interface gets its destination. -/
def plug (net : Wires N S) (i : ℕ) (dest : IfaceDest ℕ S) : Wires N S :=
  { net with
    iface := Function.update net.iface i { net.iface i with dest := some dest, connected := true } }

/-- `net_iface_connect_iface`. -/
def netIfaceConnectIface (net : Wires N S) (i dst : ℕ) : Except NetError (Wires N S) :=
  if (net.iface i).connected then .error .ifaceConnected
  else if (net.iface dst).connected ∧ (net.iface dst).dest ≠ some (.iface i) then
    .error .ifaceConnected
  else if (net.iface i).type ≠ (net.iface dst).type then .error .ifaceIncompatible
  else if (net.iface i).type ≠ .rtr ∧ (net.iface i).type ≠ .ptp then .error .ifaceIncompatible
  else if (net.iface i).addr = (net.iface dst).addr ∨ (net.iface i).owner = (net.iface dst).owner then
    .error .linkLoop
  else .ok (net.plug i (.iface dst))

/-- `net_iface_connect_subnet`. -/
def netIfaceConnectSubnet (net : Wires N S) (i : ℕ) (dst : S) : Except NetError (Wires N S) :=
  if (net.iface i).connected then .error .ifaceConnected
  else if (net.iface i).type ≠ .ptmp then .error .ifaceIncompatible
  else .ok (net.plug i (.subnet dst))

/-- An interface is put in the list of a subnet. -/
def enlist (net : Wires N S) (subnet : S) (i : ℕ) : Wires N S :=
  { net with
    subnetIfaces := Function.update net.subnetIfaces subnet
      ((net.subnetIfaces subnet).orderedInsert (below net.iface) i) }

/-- `subnet_add_link`. -/
def subnetAddLink (net : Wires N S) (subnet : S) (i : ℕ) : Except NetError (Wires N S) :=
  if net.taken (net.subnetIfaces subnet) (net.iface i).addr then .error .linkDuplicate
  else .ok (net.enlist subnet i)

/-! ## Links -/

/-- `_net_link_create_iface`. -/
def netLinkCreateIface (net : Wires N S) (node : N) (id : Pfx) (type : IfaceType) :
    Except NetError (ℕ × Wires N S) :=
  match net.nodeFindIface node id with
  | none => net.nodeAddIface node id type
  | some i => if (net.iface i).type ≠ type then .error .ifaceIncompatible else .ok (i, net)

/-- The interfaces are connected in one direction or in both. -/
def connectEnds (net : Wires N S) (src dst : ℕ) (dir : IfaceDir) : Except NetError ℕ × Wires N S :=
  match net.netIfaceConnectIface src dst with
  | .error error => (.error error, net)
  | .ok net =>
    match dir with
    | .unidir => (.ok src, net)
    | .bidir =>
      match net.netIfaceConnectIface dst src with
      | .error error => (.error error, net)
      | .ok net => (.ok src, net)

/-- What `net_link_create_rtr` and `net_link_create_ptp` do once their arguments are checked. -/
def netLinkCreateEnds (net : Wires N S) (srcNode : N) (srcId : Pfx) (dstNode : N) (dstId : Pfx)
    (type : IfaceType) (dir : IfaceDir) : Except NetError ℕ × Wires N S :=
  match net.netLinkCreateIface srcNode srcId type with
  | .error error => (.error error, net)
  | .ok (src, net) =>
    match net.netLinkCreateIface dstNode dstId type with
    | .error error => (.error error, net)
    | .ok (dst, net) => net.connectEnds src dst dir

/-- `net_iface_id_addr`. -/
def netIfaceIdAddr (addr : NetAddr) : Pfx where
  network := addr
  mask := 32
  short := short32

/-- `net_link_create_rtr`: each interface bears the identifier of the other router. -/
def netLinkCreateRtr (net : Wires N S) (srcNode dstNode : N) (dir : IfaceDir) :
    Except NetError ℕ × Wires N S :=
  if srcNode = dstNode then (.error .linkLoop, net)
  else
    net.netLinkCreateEnds srcNode (netIfaceIdAddr (net.rid dstNode)) dstNode
      (netIfaceIdAddr (net.rid srcNode)) .rtr dir

/-- `net_link_create_ptp`. -/
def netLinkCreatePtp (net : Wires N S) (srcNode : N) (srcId : Pfx) (dstNode : N) (dstId : Pfx)
    (dir : IfaceDir) : Except NetError ℕ × Wires N S :=
  if srcNode = dstNode then (.error .linkLoop, net)
  else if srcId.mask ≠ dstId.mask then (.error .failure, net)
  else if ipPrefixCmp srcId dstId ≠ 0 then (.error .failure, net)
  else if srcId.network = dstId.network then (.error .failure, net)
  else net.netLinkCreateEnds srcNode srcId dstNode dstId .ptp dir

/-- `net_iface_id_pfx(iface_addr, subnet->prefix.mask)`. -/
def netIfaceIdPfx (net : Wires N S) (subnet : S) (addr : NetAddr) : Pfx :=
  { net.subnetPrefix subnet with network := addr }

/-- `net_link_create_ptmp`. -/
def netLinkCreatePtmp (net : Wires N S) (srcNode : N) (subnet : S) (addr : NetAddr) :
    Except NetError ℕ × Wires N S :=
  match net.nodeAddIface srcNode (net.netIfaceIdPfx subnet addr) .ptmp with
  | .error error => (.error error, net)
  | .ok (src, net) =>
    match net.netIfaceConnectSubnet src subnet with
    | .error error => (.error error, net)
    | .ok net =>
      match net.subnetAddLink subnet src with
      | .error error => (.error error, net)
      | .ok net => (.ok src, net)

/-- A call that creates a link. -/
inductive LinkCall (N S : Type) where
  | rtr (srcNode dstNode : N) (dir : IfaceDir)
  | ptp (srcNode : N) (srcId : Pfx) (dstNode : N) (dstId : Pfx) (dir : IfaceDir)
  | ptmp (srcNode : N) (subnet : S) (addr : NetAddr)

/-- The call is made: `net_link_create_rtr`, `net_link_create_ptp` or `net_link_create_ptmp`. -/
def create (net : Wires N S) : LinkCall N S → Except NetError ℕ × Wires N S
  | .rtr srcNode dstNode dir => net.netLinkCreateRtr srcNode dstNode dir
  | .ptp srcNode srcId dstNode dstId dir => net.netLinkCreatePtp srcNode srcId dstNode dstId dir
  | .ptmp srcNode subnet addr => net.netLinkCreatePtmp srcNode subnet addr

end Wires

end Cbgp.Net
