import Cbgp.Net.Prefix

/-! # Nodes, interfaces and subnets

The part of `net/net_types.h`, `net/node.c`, `net/iface.c`, `net/link-list.c` and `net/subnet.c` that
routing and forwarding read.  Nodes, interfaces and subnets are referred to by pointers in the
source; here the pointers are the elements of three types, and a `Topology` says what they point to.

An interface is connected to what its type asks for, a list of interfaces is an array sorted by
address and without duplicates, and the network holds one node for each identifier and one subnet for
each prefix.  These facts are fields of `Topology`.
-/

namespace Cbgp.Net

/-! ## Interfaces -/

/-- `net_iface_type_t`. -/
inductive IfaceType where
  | loopback
  | rtr
  | ptp
  | ptmp
  | virtual
  deriving DecidableEq, Repr

/-- `net_iface_dst_t`: another interface, a subnet, or the end-point of a tunnel. -/
inductive IfaceDest (I S : Type) where
  | iface (dst : I)
  | subnet (dst : S)
  | endPoint (addr : NetAddr)
  deriving DecidableEq

/-- `net_iface_t`.  `dest` is `none` until the interface is connected for the first time. -/
structure Iface (N I S : Type) where
  owner : N
  addr : NetAddr
  mask : Nat
  short : mask ≤ 32
  connected : Bool
  type : IfaceType
  dest : Option (IfaceDest I S)
  enabled : Bool
  metric : UInt32

/-- `IGP_MAX_WEIGHT`. -/
def igpMaxWeight : UInt32 := 0xffffffff

variable {N I S : Type}

/-- `net_iface_id`, which is also `net_iface_dst_prefix`. -/
def netIfaceId (iface : Iface N I S) : Pfx where
  network := iface.addr
  mask := iface.mask
  short := iface.short

/-! ## The network -/

/-- What the pointers of a network point to. -/
structure Topology (N I S : Type) where
  rid : N → NetAddr
  ifaces : N → List I
  iface : I → Iface N I S
  subnetPrefix : S → Pfx
  subnetTransit : S → Bool
  subnetIfaces : S → List I
  dest_matches : ∀ i dest, (iface i).dest = some dest →
    match dest with
    | .iface j => ((iface i).type = .rtr ∨ (iface i).type = .ptp) ∧
        (iface j).type = (iface i).type ∧ (iface j).owner ≠ (iface i).owner
    | .subnet _ => (iface i).type = .ptmp
    | .endPoint _ => (iface i).type = .virtual
  connected_dest : ∀ i, (iface i).connected = true → (iface i).dest ≠ none
  iface_mask : ∀ i, (iface i).type = .ptp ∨ (iface i).type = .ptmp → (iface i).mask < 32
  rid_injective : Function.Injective rid
  ifaces_owner : ∀ n, ∀ i ∈ ifaces n, (iface i).owner = n
  ifaces_sorted : ∀ n, (ifaces n).Pairwise fun i j => (iface i).addr < (iface j).addr
  subnet_mask : ∀ s, (subnetPrefix s).mask < 32
  subnet_injective : Function.Injective fun s => ipPrefixMask (subnetPrefix s)
  subnet_dest : ∀ s, ∀ i ∈ subnetIfaces s,
    (iface i).type = .ptmp ∧ (iface i).dest = some (.subnet s)
  subnet_sorted : ∀ s, (subnetIfaces s).Pairwise fun i j => (iface i).addr < (iface j).addr

theorem noSubnet_mask (s : Empty) : (Empty.elim s : Pfx).mask < 32 := s.elim

theorem noSubnet_injective : Function.Injective fun s : Empty => ipPrefixMask s.elim := fun s => s.elim

namespace Topology

variable (net : Topology N I S)

/-- `net_links_find` among the interfaces of a node, hence `node_find_iface`: interfaces are told
apart by their address alone. -/
def nodeFindIface (node : N) (addr : NetAddr) : Option I :=
  (net.ifaces node).find? fun i => (net.iface i).addr = addr

/-- `net_subnet_find_link`. -/
def netSubnetFindLink (subnet : S) (addr : NetAddr) : Option I :=
  (net.subnetIfaces subnet).find? fun i => (net.iface i).addr = addr

/-- `net_iface_has_address`: a router-to-router interface owns no address. -/
def netIfaceHasAddress (i : I) (addr : NetAddr) : Bool :=
  (net.iface i).type ≠ .rtr ∧ (net.iface i).addr = addr

/-- `node_has_address`. -/
def nodeHasAddress (node : N) (addr : NetAddr) : Option I :=
  (net.ifaces node).find? fun i => net.netIfaceHasAddress i addr

/-- `net_iface_src_address`. -/
def netIfaceSrcAddress (i : I) : NetAddr :=
  if (net.iface i).type = .rtr then net.rid (net.iface i).owner else (net.iface i).addr

/-- `iface->dest.iface`, when the destination is an interface. -/
def destIface (i : I) : Option I :=
  match (net.iface i).dest with
  | some (.iface dst) => some dst
  | _ => none

/-- `iface->dest.subnet`, when the destination is a subnet. -/
def destSubnet (i : I) : Option S :=
  match (net.iface i).dest with
  | some (.subnet dst) => some dst
  | _ => none

theorem destIface_dest {i j : I} (dest : net.destIface i = some j) :
    (net.iface i).dest = some (.iface j) := by
  unfold destIface at dest
  split at dest
  next hit =>
    cases dest
    exact hit
  next => cases dest

theorem destSubnet_dest {i : I} {s : S} (dest : net.destSubnet i = some s) :
    (net.iface i).dest = some (.subnet s) := by
  unfold destSubnet at dest
  split at dest
  next hit =>
    cases dest
    exact hit
  next => cases dest

/-- An interface that leads to another one has its type and another owner. -/
theorem destIface_matches {i j : I} (dest : net.destIface i = some j) :
    ((net.iface i).type = .rtr ∨ (net.iface i).type = .ptp) ∧
      (net.iface j).type = (net.iface i).type ∧ (net.iface j).owner ≠ (net.iface i).owner :=
  net.dest_matches i _ (net.destIface_dest dest)

theorem nodeFindIface_addr {node : N} {addr : NetAddr} {i : I}
    (found : net.nodeFindIface node addr = some i) :
    i ∈ net.ifaces node ∧ (net.iface i).addr = addr := by
  refine ⟨List.mem_of_find?_eq_some found, ?_⟩
  simpa using List.find?_some found

/-- Two interfaces of a sorted list that have the same address are the same. -/
theorem eq_of_sorted {list : List I}
    (sorted : list.Pairwise fun i j => (net.iface i).addr < (net.iface j).addr) {i j : I}
    (first : i ∈ list) (second : j ∈ list) (same : (net.iface i).addr = (net.iface j).addr) :
    i = j := by
  have distinct : (list.map fun i => (net.iface i).addr).Nodup := by
    rw [List.Nodup, List.pairwise_map]
    exact sorted.imp fun below => UInt32.ne_of_lt below
  exact List.inj_on_of_nodup_map distinct first second same

end Topology

end Cbgp.Net
