import Cbgp.Bgp.Attr
import Cbgp.Net.Routing

/-! # Routes, RIBs, peers and routers

The data model of `bgp/types.h`.  A pointer from a route to the peer that announced it is the
peer's address, the key under which the router holds the peer.
-/

namespace Cbgp.Bgp

open Cbgp.Lib Cbgp.Net

/-! ## Routes -/

/-- The `ROUTE_FLAG_*` bits of a route. -/
structure RouteFlags where
  feasible : Bool
  eligible : Bool
  best : Bool
  dpIgp : Bool
  internal : Bool
  rrClient : Bool
  deriving DecidableEq

/-- No flag set, as `_route_create2` leaves them. -/
def RouteFlags.zero : RouteFlags := ⟨false, false, false, false, false, false⟩

/-- `bgp_route_t`. -/
structure Route where
  pfx : Pfx
  peer : Option NetAddr
  attr : Attr
  flags : RouteFlags
  deriving DecidableEq

/-- `ROUTE_PREF_DEFAULT`. -/
def routePrefDefault : UInt32 := 100

/-- `ROUTE_MED_DEFAULT`. -/
def routeMedDefault : UInt32 := 0

/-- `route_create`, with the defaults of `bgp/route.h`. -/
def routeCreate (pfx : Pfx) (peer : Option NetAddr) (nextHop : NetAddr) (origin : Origin) : Route where
  pfx := pfx
  peer := peer
  attr := bgpAttrCreate nextHop origin routePrefDefault routeMedDefault
  flags := RouteFlags.zero

/-- `route_flag_set`, for any of the flags. -/
def Route.setFlags (route : Route) (f : RouteFlags → RouteFlags) : Route :=
  { route with flags := f route.flags }

@[simp] theorem Route.setFlags_pfx (route : Route) (f : RouteFlags → RouteFlags) :
    (route.setFlags f).pfx = route.pfx := rfl

@[simp] theorem Route.setFlags_peer (route : Route) (f : RouteFlags → RouteFlags) :
    (route.setFlags f).peer = route.peer := rfl

@[simp] theorem Route.setFlags_attr (route : Route) (f : RouteFlags → RouteFlags) :
    (route.setFlags f).attr = route.attr := rfl

@[simp] theorem Route.setFlags_flags (route : Route) (f : RouteFlags → RouteFlags) :
    (route.setFlags f).flags = f route.flags := rfl

/-- `route_equals`. -/
def routeEquals (route1 route2 : Route) : Bool :=
  ipPrefixEq route1.pfx route2.pfx && bgpAttrCmp route1.attr route2.attr

/-! ## RIBs -/

/-- `bgp_rib_t`: a trie that holds every route under its own prefix. -/
structure Rib where
  routes : Trie Route
  keyed : ∀ key route, routes.lookup key = some route → ipPrefixMask route.pfx = key

namespace Rib

/-- `rib_create`. -/
def create : Rib where
  routes := ∅
  keyed := by simp

/-- `rib_find_exact`. -/
def findExact (rib : Rib) (pfx : Pfx) : Option Route :=
  rib.routes.lookup (ipPrefixMask pfx)

/-- `rib_add_route` and `rib_replace_route`: both insert or replace. -/
def addRoute (rib : Rib) (route : Route) : Rib where
  routes := rib.routes.insert (ipPrefixMask route.pfx) route
  keyed := by
    intro key stored found
    by_cases same : key = ipPrefixMask route.pfx
    · subst same
      rw [AList.lookup_insert] at found
      cases found
      rfl
    · rw [AList.lookup_insert_ne same] at found
      exact rib.keyed key stored found

/-- `rib_remove_route`. -/
def removeRoute (rib : Rib) (pfx : Pfx) : Rib where
  routes := rib.routes.erase (ipPrefixMask pfx)
  keyed := by
    intro key stored found
    by_cases same : key = ipPrefixMask pfx
    · subst same
      rw [AList.lookup_erase] at found
      cases found
    · rw [AList.lookup_erase_ne same] at found
      exact rib.keyed key stored found

/-- Set flags of the route stored for a prefix, through the pointer a lookup gave. -/
def setFlags (rib : Rib) (pfx : Pfx) (f : RouteFlags → RouteFlags) : Rib where
  routes := rib.routes.modify (ipPrefixMask pfx) fun route => route.setFlags f
  keyed := by
    intro key stored found
    rw [Table.lookup_modify] at found
    split at found
    · obtain ⟨route, held, rfl⟩ := Option.map_eq_some_iff.mp found
      exact rib.keyed key route held
    · exact rib.keyed key stored found

/-- The keys in the order `rib_for_each` visits them. -/
def keysInOrder (rib : Rib) (traversal : Traversal) : List Pfx :=
  traversal.order rib.routes.keys

theorem findExact_congr (rib : Rib) {p q : Pfx} (same : ipPrefixMask p = ipPrefixMask q) :
    rib.findExact p = rib.findExact q := by
  rw [findExact, findExact, same]

theorem findExact_pfx {rib : Rib} {p : Pfx} {route : Route} (found : rib.findExact p = some route) :
    ipPrefixMask route.pfx = ipPrefixMask p :=
  rib.keyed _ _ found

@[simp] theorem findExact_create (p : Pfx) : create.findExact p = none := rfl

theorem findExact_addRoute (rib : Rib) (route : Route) (p : Pfx) :
    (rib.addRoute route).findExact p =
      if ipPrefixMask p = ipPrefixMask route.pfx then some route else rib.findExact p := by
  split
  next same => rw [findExact, same]; exact AList.lookup_insert _
  next differ => exact AList.lookup_insert_ne differ

theorem findExact_removeRoute (rib : Rib) (q p : Pfx) :
    (rib.removeRoute q).findExact p =
      if ipPrefixMask p = ipPrefixMask q then none else rib.findExact p := by
  split
  next same => rw [findExact, same]; exact AList.lookup_erase _ _
  next differ => exact AList.lookup_erase_ne differ

theorem findExact_setFlags (rib : Rib) (q p : Pfx) (f : RouteFlags → RouteFlags) :
    (rib.setFlags q f).findExact p =
      if ipPrefixMask p = ipPrefixMask q then (rib.findExact p).map (Route.setFlags · f)
      else rib.findExact p :=
  Table.lookup_modify _ _ _ _

theorem mem_keysInOrder {rib : Rib} {traversal : Traversal} {key : Pfx} :
    key ∈ rib.keysInOrder traversal ↔ ∃ route, rib.routes.lookup key = some route := by
  rw [keysInOrder, traversal.mem_order, Table.mem_keys_iff]

end Rib

/-! ## Messages -/

/-- What a `bgp_msg_t` carries besides its sequence number. -/
inductive MsgBody where
  | update (route : Route)
  | withdraw (pfx : Pfx)
  | close
  | open (routerId : NetAddr)
  deriving DecidableEq

/-- `bgp_msg_t`. -/
structure Msg where
  seqNum : Nat
  body : MsgBody
  deriving DecidableEq

/-- A message handed to the network, as `bgp_msg_send` receives it. -/
structure Sent where
  src : NetAddr
  dst : NetAddr
  msg : Msg
  deriving DecidableEq

/-! ## Peers -/

/-- `bgp_peer_state_t`. -/
inductive SessionState where
  | idle
  | openWait
  | established
  | active
  deriving DecidableEq, Repr

/-- `bgp_rib_dir_t`. -/
inductive RibDir where
  | ribIn
  | ribOut
  deriving DecidableEq, Repr

/-- The direction a bare integer stands for. -/
def RibDir.ofInt : Nat → RibDir
  | 0 => .ribIn
  | _ => .ribOut

/-- A route filter, as `filter_apply` runs it: it reads the router's ASN and routing table and the
route, and denies the route (`none`) or accepts it with new attributes.  The actions before the one
that denies a route may have changed it (`denied`). -/
structure Filter where
  apply : Asn → NetRt → Route → Except Abort (Option Attr)
  denied : Asn → NetRt → Route → Attr := fun _ _ route => route.attr
  fails : ∀ {asn rt route e}, apply asn rt route = .error e → e = .filter

/-- `filter_apply` on a `NULL` filter. -/
def Filter.acceptAll : Filter where
  apply _ _ route := .ok (some route.attr)
  fails failed := by cases failed

/-- `bgp_peer_t`; the address is the key of the peer in its router.  The sequence numbers count
without bound here and are 32-bit on the wire, see `seqMod`. -/
structure Peer where
  asn : Asn
  routerId : NetAddr
  virtual : Bool
  rrClient : Bool
  nextHopSelf : Bool
  softRestart : Bool
  recording : Bool -- `pRecordStream != NULL`
  nextHop : NetAddr
  srcAddr : NetAddr
  filterIn : Filter
  filterOut : Filter
  sessionState : SessionState
  sendSeqNum : Nat
  recvSeqNum : Nat
  adjRibIn : Rib
  adjRibOut : Rib

/-- Sequence numbers are `unsigned int`. -/
def seqMod : Nat := 2 ^ 32

/-- `bgp_peer_create`. -/
def bgpPeerCreate (asn : Asn) : Peer where
  asn := asn
  routerId := netAddrAny
  virtual := false
  rrClient := false
  nextHopSelf := false
  softRestart := false
  recording := false
  nextHop := netAddrAny
  srcAddr := netAddrAny
  filterIn := Filter.acceptAll
  filterOut := Filter.acceptAll
  sessionState := .idle
  sendSeqNum := 0
  recvSeqNum := 0
  adjRibIn := Rib.create
  adjRibOut := Rib.create

/-- `_bgp_peer_adjrib_clear`. -/
def bgpPeerAdjribClear (peer : Peer) : RibDir → Peer
  | .ribIn => { peer with adjRibIn := Rib.create }
  | .ribOut => { peer with adjRibOut := Rib.create }

/-- `bgp_peer_send_enabled`. -/
def bgpPeerSendEnabled (peer : Peer) : Bool :=
  !peer.virtual || peer.recording

/-! ## Routers -/

/-- `bgp_med_type_t`. -/
inductive MedType where
  | deterministic
  | alwaysCompare
  deriving DecidableEq, Repr

/-- What a router reads and does not own: the options, the order in which tries are traversed, the
path repository, and the answers of the network. -/
structure Env where
  localPref : UInt32
  medType : MedType
  traversal : Traversal
  intern : Path → Path
  sendReach : NetAddr → NetAddr → Bool -- `bgp_msg_send` from, to
  sessionOk : NetAddr → Bool -- `bgp_peer_session_ok`

/-- The default options, with a network that answers everything. -/
def Env.default : Env where
  localPref := 0
  medType := .deterministic
  traversal := ⟨id, fun _ => List.Perm.refl _⟩
  intern := id
  sendReach _ _ := true
  sessionOk _ := true

/-- `bgp_router_t`, with the routing table of its node and the messages it has handed to the
network so far. -/
structure Router where
  asn : Asn
  rid : NetAddr
  clusterId : NetAddr
  reflector : Bool
  peers : Table NetAddr Peer
  locRib : Rib
  localNets : List Route
  rt : NetRt
  env : Env
  outbox : List Sent

/-- `bgp_router_create`, on a node with the given routing table. -/
def bgpRouterCreate (asn : Asn) (rid : NetAddr) (rt : NetRt) (env : Env) : Router where
  asn := asn
  rid := rid
  clusterId := rid
  reflector := false
  peers := ∅
  locRib := Rib.create
  localNets := []
  rt := rt
  env := env
  outbox := []

/-- `bgp_router_add_peer`, with the peer as the configuration commands leave it. -/
def bgpRouterAddPeer (router : Router) (addr : NetAddr) (peer : Peer) : Router :=
  if addr ∈ router.peers then router
  else { router with peers := router.peers.insert addr peer }

/-- Update one peer in place. -/
def Router.modifyPeer (router : Router) (addr : NetAddr) (f : Peer → Peer) : Router :=
  { router with peers := router.peers.modify addr f }

/-- Set flags of the route a peer announced for a prefix. -/
def Router.setAdjFlags (router : Router) (addr : NetAddr) (pfx : Pfx)
    (f : RouteFlags → RouteFlags) : Router :=
  router.modifyPeer addr fun peer => { peer with adjRibIn := peer.adjRibIn.setFlags pfx f }

/-- `node_rt_lookup`: is there a route towards the address? -/
def nodeRtLookup (rt : NetRt) (addr : NetAddr) : Option (List RtEntry) :=
  (rtFindBest rt addr netRouteAny).map (·.entries)

end Cbgp.Bgp
