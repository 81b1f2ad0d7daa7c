import Cbgp.Bgp.Peer

/-! # Routers

The remaining operations of `bgp/as.c` on a router — local networks, clearing the RIBs, rerunning
the decision process, message delivery — and `exec`, one step of a router.
-/

namespace Cbgp.Bgp

open Cbgp.Lib Cbgp.Net

/-! ## Local networks -/

/-- The route `bgp_router_add_network` creates. -/
def localRoute (router : Router) (pfx : Pfx) : Route :=
  let route := routeCreate pfx none router.rid .igp
  { route with
    attr := { route.attr with localPref := router.env.localPref }
    flags := { route.flags with best := true, feasible := true, internal := true } }

/-- `bgp_router_add_network`, with `_bgp_router_add_route`. -/
def bgpRouterAddNetwork (router : Router) (pfx : Pfx) : Except Abort (NetError × Router) :=
  if router.localNets.any fun route => ipPrefixEq route.pfx pfx then
    .ok (.bgpNetworkDuplicate, router)
  else do
    let route := localRoute router pfx
    let router := { router with
      localNets := router.localNets ++ [route]
      locRib := router.locRib.addRoute route }
    let router ← disseminate router pfx (some route)
    .ok (.success, router)

/-- `bgp_router_del_network`. -/
def bgpRouterDelNetwork (router : Router) (pfx : Pfx) : Except Abort (NetError × Router) :=
  if router.localNets.any fun route => ipPrefixEq route.pfx pfx then do
    let router := { router with
      locRib := router.locRib.removeRoute pfx
      localNets := router.localNets.eraseP fun route => ipPrefixEq route.pfx pfx }
    let router ← disseminate router pfx none
    .ok (.success, router)
  else .ok (.unspecified, router)

/-! ## Clearing and rerunning -/

/-- `bgp_router_clear_rib`. -/
def bgpRouterClearRib (router : Router) : Router :=
  { router with
    locRib := Rib.create
    peers := router.peers.mapVals fun _ peer =>
      { peer with adjRibIn := Rib.create, adjRibOut := Rib.create } }

/-- The prefixes of the Adj-RIB-Ins and of the Loc-RIB, each once. -/
def bgpRouterPrefixes (router : Router) : List Pfx :=
  (router.peers.entries.flatMap (fun e => e.2.adjRibIn.routes.keys) ++
    router.locRib.routes.keys).dedup

/-- `bgp_router_rerun`. -/
def bgpRouterRerun (router : Router) (pfx : Pfx) : Except Abort Router :=
  let keys :=
    if pfx.mask = 0 then router.env.traversal.order (bgpRouterPrefixes router)
    else [ipPrefixMask pfx]
  keys.foldlM bgpRouterDecisionProcess router

/-- `_bgp_router_refresh_sessions`. -/
def bgpRouterRefreshSessions (router : Router) : Except Abort Router :=
  router.peers.keys.foldlM bgpPeerSessionRefresh router

/-- The prefixes that `bgp_router_scan_rib` collects, in the order of the radix tree. -/
def scanPrefixes (router : Router) : List Pfx :=
  router.env.traversal.order (bgpRouterPrefixes router)

/-- `bgp_router_scan_rib`. -/
def bgpRouterScanRib (router : Router) : Except Abort Router := do
  let router ← bgpRouterRefreshSessions router
  (scanPrefixes router).foldlM bgpRouterDecisionProcess router

/-! ## Messages -/

/-- `bgp_router_handle_message`: deliver a message to the peer with its source address. -/
def bgpRouterHandleMessage (router : Router) (src : NetAddr) (msg : Msg) :
    Except Abort (NetError × Router) :=
  match router.peers.lookup src with
  | some peer => bgpPeerHandleMessage router src peer msg
  | none => .ok (.failure, router)

/-! ## Steps -/

/-- What can happen to a router. -/
inductive Op where
  | handleMessage (src : NetAddr) (msg : Msg)
  | openSession (addr : NetAddr)
  | closeSession (addr : NetAddr)
  | sessionRefresh (addr : NetAddr)
  | addNetwork (pfx : Pfx)
  | delNetwork (pfx : Pfx)
  | rerun (pfx : Pfx)
  | clearRib
  | netChange (rt : NetRt) (env : Env) -- the routing table or the network around it changed

/-- One step of a router, with the error code of the operation. -/
def execCode (router : Router) : Op → Except Abort (NetError × Router)
  | .handleMessage src msg => bgpRouterHandleMessage router src msg
  | .openSession addr => bgpPeerOpenSession router addr
  | .closeSession addr => bgpPeerCloseSession router addr
  | .sessionRefresh addr => (bgpPeerSessionRefresh router addr).map fun router => (.success, router)
  | .addNetwork pfx => bgpRouterAddNetwork router pfx
  | .delNetwork pfx => bgpRouterDelNetwork router pfx
  | .rerun pfx => (bgpRouterRerun router pfx).map fun router => (.success, router)
  | .clearRib => .ok (.success, bgpRouterClearRib router)
  | .netChange rt env => .ok (.success, { router with rt := rt, env := env })

/-- One step of a router. -/
def exec (router : Router) (op : Op) : Except Abort Router :=
  (execCode router op).map (·.2)

end Cbgp.Bgp
