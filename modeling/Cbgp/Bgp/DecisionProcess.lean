import Cbgp.Bgp.DpRules
import Cbgp.Bgp.Dissemination

/-! # The decision process

`bgp_router_decision_process` of `bgp/as.c` with the functions it calls, and the routing-table
updates of `bgp/dp_rt.c`.
-/

namespace Cbgp.Bgp

open Cbgp.Lib Cbgp.Net

/-! ## Candidates -/

/-- The test of `bgp_router_feasible_route`: the next-hop has a route. -/
def nextHopReachable (router : Router) (route : Route) : Bool :=
  (nodeRtLookup router.rt route.attr.nextHop).isSome

/-- The candidate `bgp_router_get_feasible_routes` takes from one peer: its route for the prefix,
if the session is established, the route eligible and its next-hop reachable. -/
def candidate (router : Router) (pfx : Pfx) (addr : NetAddr) (peer : Peer) : Option Cand :=
  if peer.sessionState = .established then
    match peer.adjRibIn.findExact pfx with
    | none => none
    | some route =>
      if route.flags.eligible && nextHopReachable router route then
        some ⟨addr, peer.asn, peer.routerId, route.attr⟩
      else none
  else none

/-- `bgp_router_get_feasible_routes`: the list it returns. -/
def bgpRouterGetFeasibleRoutes (router : Router) (pfx : Pfx) : List Cand :=
  router.peers.entries.filterMap fun e => candidate router pfx e.1 e.2

/-- `bgp_router_get_feasible_routes`: the `ROUTE_FLAG_FEASIBLE` updates it makes on the eligible
routes of the established peers. -/
def updateFeasible (router : Router) (pfx : Pfx) : Router :=
  { router with
    peers := router.peers.mapVals fun _ peer =>
      if peer.sessionState = .established then
        match peer.adjRibIn.findExact pfx with
        | none => peer
        | some route =>
          if route.flags.eligible then
            { peer with adjRibIn := peer.adjRibIn.setFlags pfx fun f =>
                { f with feasible := nextHopReachable router route } }
          else peer
      else peer }

/-- Set flags of every route of a candidate list. -/
def setListFlags (router : Router) (routes : List Cand) (pfx : Pfx)
    (f : RouteFlags → RouteFlags) : Router :=
  { router with
    peers := router.peers.mapVals fun addr peer =>
      if routes.any (·.addr = addr) then
        { peer with adjRibIn := peer.adjRibIn.setFlags pfx f }
      else peer }

/-! ## Routing table -/

/-- `bgp_router_rt_add_route`. -/
def bgpRouterRtAddRoute (router : Router) (route : Route) : Except Abort Router :=
  let rt :=
    match rtFindExact router.rt route.pfx RouteType.bgp.bit with
    | none => router.rt
    | some _ => (rtDelRoute router.rt (some route.pfx) none none RouteType.bgp.bit).2
  let rtinfo : RtInfo :=
    { pfx := route.pfx, metric := 0, type := .bgp, entries := [⟨none, route.attr.nextHop⟩] }
  match rtAddRoute rt route.pfx rtinfo with
  | (.success, rt) => .ok { router with rt := rt }
  | _ => .error .rtAddRoute

/-- `bgp_router_rt_del_route`. -/
def bgpRouterRtDelRoute (router : Router) (pfx : Pfx) : Except Abort Router :=
  match rtDelRoute router.rt (some pfx) none none RouteType.bgp.bit with
  | (.success, rt) => .ok { router with rt := rt }
  | _ => .error .rtDelRoute

/-! ## Outcomes -/

/-- `bgp_router_best_flag_off`. -/
def bgpRouterBestFlagOff (router : Router) (oldRoute : Route) : Router :=
  let router := { router with
    locRib := router.locRib.setFlags oldRoute.pfx fun f => { f with best := false } }
  match oldRoute.peer with
  | none => router
  | some addr => router.setAdjFlags addr oldRoute.pfx fun f => { f with best := false }

/-- `bgp_router_decision_process_no_best_route`. -/
def noBestRoute (router : Router) (pfx : Pfx) (oldRoute : Option Route) : Except Abort Router :=
  match oldRoute with
  | none => .ok router
  | some old => do
    let router := bgpRouterBestFlagOff router old
    let router := { router with locRib := router.locRib.removeRoute pfx }
    let router ← bgpRouterRtDelRoute router pfx
    disseminate router pfx none

/-- `bgp_router_decision_process_unchanged_best_route`: the Loc-RIB keeps the old route. -/
def unchangedBestRoute (router : Router) (pfx : Pfx) (winner : NetAddr) (route : Route) :
    Except Abort Router :=
  let router := router.setAdjFlags winner pfx fun f => { f with best := true }
  let router := { router with
    locRib := router.locRib.setFlags pfx fun f => { f with dpIgp := route.flags.dpIgp } }
  bgpRouterRtAddRoute router route

/-- `bgp_router_decision_process_update_best_route`. -/
def updateBestRoute (router : Router) (pfx : Pfx) (oldRoute : Option Route) (winner : NetAddr)
    (route : Route) : Except Abort Router := do
  let router :=
    match oldRoute with
    | none => router
    | some old => bgpRouterBestFlagOff router old
  let route := route.setFlags fun f => { f with best := true }
  let router := router.setAdjFlags winner pfx fun f => { f with best := true }
  let router := { router with locRib := router.locRib.addRoute route }
  let router ← bgpRouterRtAddRoute router route
  disseminate router pfx (some route)

/-! ## The decision process -/

/-- The comparison of the candidates: the routes left, at most one. -/
def compareRoutes (router : Router) (routes : List Cand) : Except Abort (List Cand) :=
  if 1 < routes.length then (bgpRouterDecisionProcessRun router routes).map (·.2)
  else .ok routes

/-- The Adj-RIB-In route a peer has for a prefix. -/
def Router.adjRoute (router : Router) (addr : NetAddr) (pfx : Pfx) : Option Route :=
  (router.peers.lookup addr).bind fun peer => peer.adjRibIn.findExact pfx

/-- What is done with the outcome of the comparison. -/
def installBest (router : Router) (pfx : Pfx) (oldRoute : Option Route) :
    List Cand → Except Abort Router
  | [] => noBestRoute router pfx oldRoute
  | best :: _ =>
    match router.adjRoute best.addr pfx with
    | none => .error .danglingRoute
    | some route =>
      match oldRoute with
      | none => updateBestRoute router pfx none best.addr route
      | some old =>
        if routeEquals old route then unchangedBestRoute router pfx best.addr route
        else updateBestRoute router pfx (some old) best.addr route

/-- `bgp_router_decision_process`. -/
def bgpRouterDecisionProcess (router : Router) (pfx : Pfx) : Except Abort Router :=
  let oldRoute := router.locRib.findExact pfx
  -- Local routes can not be overridden and must be kept in the Loc-RIB
  if oldRoute.any (·.flags.internal) then .ok router
  else do
    let routes := bgpRouterGetFeasibleRoutes router pfx
    let router := updateFeasible router pfx
    let router := setListFlags router routes pfx fun f => { f with dpIgp := false, best := false }
    let left ← compareRoutes router routes
    let igp ← igpDependent router routes
    let router := setListFlags router igp pfx fun f => { f with dpIgp := true }
    installBest router pfx oldRoute left

end Cbgp.Bgp
