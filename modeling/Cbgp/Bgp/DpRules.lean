import Cbgp.Bgp.Types
import Cbgp.Lib.Selection

/-! # The rules of the decision process

`bgp/dp_rules.c`: each rule takes the list of candidate routes and removes some of them; and
`_bgp_router_decision_process_run` of `bgp/as.c`, which applies the rules in turn.
-/

namespace Cbgp.Bgp

open Cbgp.Lib Cbgp.Net

/-- An element of the list the rules work on: a pointer to the Adj-RIB-In route of the peer `addr`,
with what the rules read through it. -/
structure Cand where
  addr : NetAddr
  peerAsn : Asn
  peerRouterId : NetAddr
  attr : Attr
  deriving DecidableEq

/-- A rule of `DP_RULES`. -/
abbrev DpRule := Router → List Cand → Except Abort (List Cand)

/-- `route_path_last_as`. -/
def Cand.lastAs (c : Cand) : Except Abort Int :=
  pathLastAs c.attr.path

/-- The identifier rule 7 compares: the originator, or the router-id of the peer. -/
def Cand.routerId (c : Cand) : NetAddr :=
  c.attr.originator.getD c.peerRouterId

/-- Length of the cluster-list; none counts for 0. -/
def Cand.clusterLen (c : Cand) : Nat :=
  (c.attr.clusterList.getD []).length

/-- `dp_rule_highest_pref`. -/
def dpRuleHighestPref : DpRule := fun _ routes =>
  .ok (keepBest (fun pref best => decide (best < pref)) 0 (·.attr.localPref) routes)

/-- `dp_rule_shortest_path`.  The minimum is a byte that starts at 255; a length stored in it was
below it, so that it fits. -/
def dpRuleShortestPath : DpRule := fun _ routes =>
  .ok (keepBest (fun len best => decide (len < best)) 255
    (fun c => pathLength c.attr.path) routes)

/-- `dp_rule_lowest_origin`. -/
def dpRuleLowestOrigin : DpRule := fun _ routes =>
  .ok (keepBest (fun code best => decide (code < best)) Origin.incomplete.code
    (·.attr.origin.code) routes)

/-! ## MED -/

/-- Inner loop of the deterministic MED comparison: compare `route` with the entries behind it.
An entry that loses becomes `none`; the loop stops when `route` itself loses.  Returns whether
`route` stays, and the entries. -/
def medInner (route : Cand) (lastAs : Int) :
    List (Option Cand) → Except Abort (Bool × List (Option Cand))
  | [] => .ok (true, [])
  | none :: rest => do
    let (stays, rest) ← medInner route lastAs rest
    .ok (stays, none :: rest)
  | some route2 :: rest => do
    let lastAs2 ← route2.lastAs
    if lastAs = lastAs2 ∧ route2.attr.med < route.attr.med then
      .ok (false, some route2 :: rest) -- break
    else
      let (stays, rest) ← medInner route lastAs rest
      if lastAs = lastAs2 ∧ route.attr.med < route2.attr.med then
        .ok (stays, none :: rest)
      else .ok (stays, some route2 :: rest)

/-- Outer loop: one inner loop for each entry that is not `none`.  The number of entries bounds the
recursion. -/
def medOuter : Nat → List (Option Cand) → Except Abort (List (Option Cand))
  | 0, _ => .ok []
  | _ + 1, [] => .ok []
  | size + 1, none :: rest => do
    let rest ← medOuter size rest
    .ok (none :: rest)
  | size + 1, some route :: rest => do
    let lastAs ← route.lastAs
    let (stays, rest) ← medInner route lastAs rest
    let rest ← medOuter size rest
    .ok ((if stays then some route else none) :: rest)

/-- `dp_rule_lowest_med`. -/
def dpRuleLowestMed : DpRule := fun router routes =>
  match router.env.medType with
  | .alwaysCompare =>
    .ok (keepBest (fun med best => decide (med < best)) 0xffffffff (·.attr.med) routes)
  | .deterministic => do
    let marked ← medOuter routes.length (routes.map some)
    .ok (marked.filterMap id)

/-! ## The remaining rules -/

/-- `dp_rule_ebgp_over_ibgp`. -/
def dpRuleEbgpOverIbgp : DpRule := fun router routes =>
  if routes.any fun c => c.peerAsn != router.asn then
    .ok (routes.filter fun c => c.peerAsn != router.asn)
  else .ok routes

/-- `_dp_rule_igp_cost`. -/
def dpRuleIgpCost (router : Router) (nextHop : NetAddr) : Except Abort UInt32 :=
  match rtFindBest router.rt nextHop netRouteAny with
  | some rtinfo => .ok rtinfo.metric
  | none => .error .igpCost

/-- `dp_rule_nearest_next_hop`.  The mark it leaves on the routes it compares is `igpDependent`. -/
def dpRuleNearestNextHop : DpRule := fun router routes => do
  let costs ← routes.mapM fun c => dpRuleIgpCost router c.attr.nextHop
  .ok ((keepBest (fun cost best => decide (cost < best)) 0xffffffff (·.2) (routes.zip costs)).map
    (·.1))

/-- `dp_rule_lowest_router_id`. -/
def dpRuleLowestRouterId : DpRule := fun _ routes =>
  .ok (keepBest (fun id best => decide (id < best)) maxAddr Cand.routerId routes)

/-- `dp_rule_shortest_cluster_list`.  The first loop stores the length in a byte, the second
compares the whole length. -/
def dpRuleShortestClusterList : DpRule := fun _ routes =>
  let minLen := routes.foldl (fun minLen c =>
    let len := c.clusterLen % 256
    if len < minLen then len else minLen) 255
  .ok (routes.filter fun c => !decide (minLen < c.clusterLen))

/-- `dp_rule_lowest_neighbor_address`. -/
def dpRuleLowestNeighborAddress : DpRule := fun _ routes =>
  .ok (keepBest (fun addr best => decide (addr < best)) maxAddr Cand.addr routes)

/-- `DP_RULES`: `DP_NUM_RULES` slots, the last two of which are not initialised. -/
def dpRules : List (Option DpRule) :=
  [some dpRuleHighestPref, some dpRuleShortestPath, some dpRuleLowestOrigin, some dpRuleLowestMed,
   some dpRuleEbgpOverIbgp, some dpRuleNearestNextHop, some dpRuleLowestRouterId,
   some dpRuleShortestClusterList, some dpRuleLowestNeighborAddress, none, none]

/-! ## Running the rules -/

/-- The loop of `_bgp_router_decision_process_run`: apply the rules while several routes are left.
Returns the index at which the loop stopped and the routes. -/
def applyRules (router : Router) :
    List (Option DpRule) → Nat → List Cand → Except Abort (Nat × List Cand)
  | [], index, routes => .ok (index, routes)
  | slot :: slots, index, routes =>
    if routes.length ≤ 1 then .ok (index, routes) -- break
    else
      match slot with
      | none => .error .dpRuleUnset
      | some rule => do
        let routes ← rule router routes
        applyRules router slots (index + 1) routes

/-- `_bgp_router_decision_process_run`. -/
def bgpRouterDecisionProcessRun (router : Router) (routes : List Cand) :
    Except Abort (Nat × List Cand) := do
  let (index, routes) ← applyRules router dpRules 0 routes
  if 1 < routes.length then .error .dpNotSingle else .ok (index, routes)

/-- The routes that get `ROUTE_FLAG_DP_IGP`: a single candidate, or those rule 6 compares. -/
def igpDependent (router : Router) (routes : List Cand) : Except Abort (List Cand) :=
  if routes.length = 1 then .ok routes
  else do
    let (_, reached) ← applyRules router (dpRules.take 5) 0 routes
    if 1 < reached.length then .ok reached else .ok []

/-! ## The generic rule -/

/-- `FDPRouteCompare`: the sign says which route is worse, as a negative result does for the
first. -/
abbrev DpRouteCompare (α : Type) := Router → α → α → Int

/-- First loop of `bgp_dp_rule_generic`: the best route, and the list without the routes that were
worse than the best one known when the loop came to them. -/
def genericDetermineBest {α : Type} (compare : α → α → Int) (index : Nat) (bestRoute : Option α)
    (routes : List α) : Option α × List α :=
  if h : index < routes.length then
    let route := routes[index]
    match bestRoute with
    | some best =>
      let result := compare best route
      -- The new best route leaves the old one behind it in the list, for the second loop to drop.
      if result < 0 then genericDetermineBest compare (index + 1) (some route) routes
      else if 0 < result then
        genericDetermineBest compare index (some best) (routes.eraseIdx index)
      else genericDetermineBest compare (index + 1) (some best) routes
    | none => genericDetermineBest compare (index + 1) (some route) routes
  else (bestRoute, routes)
termination_by routes.length - index
decreasing_by
  all_goals grind [List.length_eraseIdx]

/-- Second loop of `bgp_dp_rule_generic`: drop what is worse than the best route. -/
def genericEliminate {α : Type} (compare : α → α → Int) (best : α) (index : Nat)
    (routes : List α) : List α :=
  if h : index < routes.length then
    if compare routes[index] best < 0 then
      genericEliminate compare best index (routes.eraseIdx index)
    else genericEliminate compare best (index + 1) routes
  else routes
termination_by routes.length - index
decreasing_by
  all_goals grind [List.length_eraseIdx]

/-- `bgp_dp_rule_generic`.  Without a best route the list is empty, and the second loop has nothing
to compare. -/
def bgpDpRuleGeneric {α : Type} (router : Router) (routes : List α)
    (compare : DpRouteCompare α) : List α :=
  match genericDetermineBest (compare router) 0 none routes with
  | (some best, routes) => genericEliminate (compare router) best 0 routes
  | (none, routes) => routes

/-- `route_flag_get` of `ROUTE_FLAG_INTERNAL`. -/
def Route.internalFlag (route : Route) : Int := if route.flags.internal then 0x0020 else 0

/-- `bgp_dp_rule_local_route_cmp`. -/
def bgpDpRuleLocalRouteCmp : DpRouteCompare Route := fun _ route1 route2 =>
  route1.internalFlag - route2.internalFlag

/-- `bgp_dp_rule_local`: prefer the routes that are locally originated. -/
def bgpDpRuleLocal (router : Router) (routes : List Route) : List Route :=
  bgpDpRuleGeneric router routes bgpDpRuleLocalRouteCmp

end Cbgp.Bgp
