import Cbgp.Bgp.AsLevel
import Cbgp.Bgp.Network
import Cbgp.Bgp.RouteMap

/-! # Networks built from AS-level topologies

`aslevel_topo_build_network` and `aslevel_topo_setup_policies` of `bgp/aslevel/as-level.c`: one router
for each domain, a session for each direction of a link, and filters that tag the routes learned from
providers and peers and keep them from other providers and peers.
-/

namespace Cbgp.Bgp

open Cbgp.Lib Cbgp.Net

/-! ## Policies -/

/-- `COMM_PROV`. -/
def commProv : Comm := 1

/-- `COMM_PEER`. -/
def commPeer : Comm := 10

/-- `ASLEVEL_PREF_CUST`, `ASLEVEL_PREF_PEER` and `ASLEVEL_PREF_PROV`. -/
def aslevelPrefCust : UInt32 := 100
def aslevelPrefPeer : UInt32 := 80
def aslevelPrefProv : UInt32 := 60

/-- `aslevel_filter_in`. -/
def aslevelFilterIn : PeerType → Option (List FtRule)
  | .customer => some [⟨none, [.prefSet aslevelPrefCust]⟩]
  | .provider => some [⟨none, [.commAppend commProv]⟩, ⟨none, [.prefSet aslevelPrefProv]⟩]
  | .peer => some [⟨none, [.commAppend commPeer]⟩, ⟨none, [.prefSet aslevelPrefPeer]⟩]
  | .sibling => none

/-- The matcher of the routes that came from a provider or a peer. -/
def commProvOrPeer : Matcher :=
  .or (.atom (.commContains commProv)) (.atom (.commContains commPeer))

/-- `aslevel_filter_out`. -/
def aslevelFilterOut : PeerType → Option (List FtRule)
  | .customer => some [⟨none, [.commRemove commProv]⟩, ⟨none, [.commRemove commPeer]⟩]
  | .provider =>
    some [⟨some commProvOrPeer, [.deny]⟩, ⟨none, [.commRemove commProv]⟩, ⟨none, [.commRemove commPeer]⟩]
  | .peer =>
    some [⟨some commProvOrPeer, [.deny]⟩, ⟨none, [.commRemove commProv]⟩, ⟨none, [.commRemove commPeer]⟩]
  | .sibling => none

/-- `bgp_filter_dir_t`. -/
inductive FilterDir where
  | filterIn
  | filterOut
  deriving DecidableEq, Repr

/-- `bgp_peer_set_filter`. -/
def bgpPeerSetFilter (peer : Peer) (filter : Filter) : FilterDir → Peer
  | .filterIn => { peer with filterIn := filter }
  | .filterOut => { peer with filterOut := filter }

/-- `bgp_router_peer_set_filter`. -/
def bgpRouterPeerSetFilter (router : Router) (addr : NetAddr) (dir : FilterDir) (filter : Filter) :
    NetError × Router :=
  match router.peers.lookup addr with
  | some _ => (.success, router.modifyPeer addr fun peer => bgpPeerSetFilter peer filter dir)
  | none => (.bgpPeerUnknown, router)

/-! ## Addresses -/

/-- `aslevel_addr_sch_default_get`. -/
def aslevelAddrSchDefaultGet (asn : Asn) : NetAddr := asn.toUInt32 <<< 16

/-- `aslevel_addr_sch_local_get`. -/
def aslevelAddrSchLocalGet (asn : Asn) : NetAddr := asn.toUInt32

/-! ## Networks -/

/-- `ASLEVEL_STATE_*`. -/
inductive AsLevelState where
  | loaded
  | installed
  | policies
  | running
  deriving DecidableEq, Repr

/-- An `as_level_topo_t` with the routers of its domains. -/
structure AsLevel where
  topo : AsTopo
  addrMapper : Asn → NetAddr
  state : AsLevelState
  router : Asn → Option Router

/-- The part of `_aslevel_build_link` for one of the two nodes: the static route to the other one. -/
def aslevelBuildLink (router : Router) (neighbor : NetAddr) : Router :=
  { router with
    rt := (rtAddRoute router.rt ⟨neighbor, 32, by decide⟩
      { pfx := ⟨neighbor, 32, by decide⟩, metric := 0, type := .static,
        entries := [⟨some neighbor, neighbor⟩] }).2 }

/-- `_aslevel_build_bgp_session`.  No source address is configured; that of the interface over which a
message leaves is the router-id. -/
def aslevelBuildBgpSession (router : Router) (asn : Asn) (addr : NetAddr) : Router :=
  bgpRouterAddPeer router addr { bgpPeerCreate asn with srcAddr := router.rid }

/-- The links and sessions of one domain. -/
def aslevelBuildDomain (addrMapper : Asn → NetAddr) (env : Env) (domain : AsDomain) : Router :=
  domain.neighbors.items.foldl (fun router link =>
      aslevelBuildBgpSession (aslevelBuildLink router (addrMapper link.neighbor)) link.neighbor
        (addrMapper link.neighbor))
    (bgpRouterCreate domain.asn (addrMapper domain.asn) ∅ env)

/-- `aslevel_topo_build_network`, in a network in which some nodes exist.  Left out is the address 0, which
`node_create` refuses: the installation then ends half-way with an error. -/
def aslevelTopoBuildNetwork (existing : NetAddr → Bool) (env : Asn → Env) (aslevel : AsLevel) :
    AsLevelError × AsLevel :=
  if aslevel.state ≠ .loaded then (.alreadyInstalled, aslevel)
  else if aslevel.topo.domains.items.any fun domain => existing (aslevel.addrMapper domain.asn) then
    (.nodeExists, aslevel)
  else
    (.success, { aslevel with
      state := .installed
      router := fun asn => (aslevel.topo.domain asn).map fun domain =>
        aslevelBuildDomain aslevel.addrMapper (env asn) domain })

/-- The filters of one link. -/
def aslevelSetupLink (world : FtWorld) (addrMapper : Asn → NetAddr) (router : Router) (link : AsLink) :
    Router :=
  let addr := addrMapper link.neighbor
  let filterIn := (aslevelFilterIn link.peerType).elim Filter.acceptAll world.filter
  let filterOut := (aslevelFilterOut link.peerType).elim Filter.acceptAll world.filter
  let router := (bgpRouterPeerSetFilter router addr .filterIn filterIn).2
  (bgpRouterPeerSetFilter router addr .filterOut filterOut).2

/-- `aslevel_topo_setup_policies`. -/
def aslevelTopoSetupPolicies (world : Asn → FtWorld) (aslevel : AsLevel) : AsLevelError × AsLevel :=
  match aslevel.state with
  | .loaded => (.notInstalled, aslevel)
  | .running => (.alreadyRunning, aslevel)
  | .installed | .policies =>
    (.success, { aslevel with
      state := .policies
      router := fun asn => (aslevel.topo.domain asn).bind fun domain =>
        (aslevel.router asn).map fun router =>
          domain.neighbors.items.foldl (aslevelSetupLink (world asn) aslevel.addrMapper) router })

/-- The routers as a network; a domain that is not in the topology has a router without peers. -/
def AsLevel.network (aslevel : AsLevel) (env : Asn → Env) : Network Asn where
  router asn := (aslevel.router asn).getD
    (bgpRouterCreate asn (aslevel.addrMapper asn) ∅ (env asn))
  taken _ _ := 0

/-- The domain whose router has an address. -/
def AsLevel.owner (aslevel : AsLevel) (addr : NetAddr) : Option Asn :=
  (aslevel.topo.domains.items.find? fun domain => aslevel.addrMapper domain.asn = addr).map
    AsDomain.asn

end Cbgp.Bgp
