import Cbgp.Bgp.Router

/-! # Loading RIB dumps

`_bgp_router_load_rib_handler` of `bgp/as.c`, which puts the routes of a dump into the Adj-RIB-Ins.
-/

namespace Cbgp.Bgp

open Cbgp.Lib Cbgp.Net

/-- `BGP_INPUT_STATUS_*`. -/
inductive InputStatus where
  | ok
  | filtered
  | ignored
  deriving DecidableEq, Repr

/-- A route of a dump, with the header it comes with.  The flags that the readers of the dumps set are
all set again by the handler. -/
structure DumpRoute where
  status : InputStatus
  pfx : Pfx
  attr : Attr
  peerAddr : NetAddr
  peerAsn : Asn

/-- `SBGP_LOAD_RIB_CTX`, without the option to create missing peers. -/
structure LoadCtx where
  router : Router
  force : Bool
  returnCode : Int
  routesOk : Nat
  routesBadTarget : Nat
  routesBadPeer : Nat
  routesIgnored : Nat

/-- The attributes of a route for which `bgp_peer_route_eligible` returns 0. -/
def rejectedAttr (router : Router) (peer : Peer) (route : Route) : Attr :=
  if pathContains route.attr.path router.asn then route.attr
  else if route.attr.originator = some router.rid then route.attr
  else if (route.attr.clusterList.getD []).contains router.clusterId then route.attr
  else
    match peer.filterIn.apply router.asn router.rt route with
    | .ok (some attr) => attr -- rejected by its communities
    | _ => peer.filterIn.denied router.asn router.rt route

/-- The route as `_bgp_router_load_rib_handler` stores it.  `ROUTE_FLAG_BEST` tells whether the next-hop
is reachable. -/
def loadedRoute (router : Router) (peer : Peer) (route : Route) (verdict : Option Attr) : Route :=
  let attr := verdict.getD (rejectedAttr router peer route)
  { route with
    attr := attr
    flags := { route.flags with
      feasible := true
      eligible := verdict.isSome
      best := (nodeRtLookup router.rt attr.nextHop).isSome } }

/-- The route as the dump has it, once its peer is known. -/
def DumpRoute.route (dump : DumpRoute) (addr : NetAddr) : Route where
  pfx := dump.pfx
  peer := some addr
  attr := dump.attr
  flags := RouteFlags.zero

/-- `_bgp_router_load_rib_handler`, from the point where the peer is known. -/
def loadRoute (router : Router) (addr : NetAddr) (peer : Peer) (dump : DumpRoute) : Except Abort Router := do
  let verdict ← bgpPeerRouteEligible router peer (dump.route addr)
  let router := router.modifyPeer addr fun peer =>
    { peer with adjRibIn := peer.adjRibIn.addRoute (loadedRoute router peer (dump.route addr) verdict) }
  bgpRouterDecisionProcess router dump.pfx

/-- `_bgp_router_load_rib_handler`: the code it returns, and the context. -/
def bgpRouterLoadRibHandler (ctx : LoadCtx) (dump : DumpRoute) : Except Abort (Int × LoadCtx) :=
  if dump.status ≠ .ok then .ok (0, { ctx with routesIgnored := ctx.routesIgnored + 1 })
  else if !ctx.force && (ctx.router.rid ≠ dump.peerAddr || ctx.router.asn ≠ dump.peerAsn) then
    .ok (ctx.returnCode, { ctx with routesBadTarget := ctx.routesBadTarget + 1 })
  else
    match ctx.router.peers.lookup dump.attr.nextHop with
    | none => .ok (ctx.returnCode, { ctx with routesBadPeer := ctx.routesBadPeer + 1 })
    | some peer => do
      let router ← loadRoute ctx.router dump.attr.nextHop peer dump
      .ok (0, { ctx with router := router, routesOk := ctx.routesOk + 1 })

/-- The loop of the readers of dumps over the routes of a file.  `bgp_router_load_rib` sets a return code
of 0, so that no route stops it. -/
def loadRib (ctx : LoadCtx) (dumps : List DumpRoute) : Except Abort LoadCtx :=
  dumps.foldlM (fun ctx dump => (bgpRouterLoadRibHandler ctx dump).map (·.2)) ctx

end Cbgp.Bgp
