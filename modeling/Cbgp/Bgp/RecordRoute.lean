import Cbgp.Bgp.Types
import Cbgp.Lib.Looping
import Cbgp.Net.Topology

/-! # The route recorded by BGP

`bgp/record-route.c`: from a router to the next-hop of its route, and so on, with the AS numbers on the
way in an AS-path.
-/

namespace Cbgp.Bgp

open Cbgp.Lib Cbgp.Net

variable {N I S : Type}

/-- `rib_find_best`: the route under the longest prefix that holds the given one. -/
def Rib.findBest (rib : Rib) (pfx : Pfx) : Option Route :=
  let longest := rib.routes.entries.foldl (fun (best : Option (Sigma fun _ : Pfx => Route)) e =>
    if e.1.mask ≤ pfx.mask && ipAddressInPrefix pfx.network e.1 then
      match best with
      | none => some e
      | some b => if b.1.mask < e.1.mask then some e else some b
    else best) none
  longest.map fun e => e.2

/-- A network: its nodes by identifier (`network_find_node`), and the BGP instance that runs on a node
(`protocols_get`). -/
structure BgpNetwork (N I S : Type) where
  topology : Topology N I S
  nodes : Table NetAddr N
  bgp : N → Option Router
  nodes_rid : ∀ addr node, nodes.lookup addr = some node → topology.rid node = addr

/-- `AS_RECORD_ROUTE_OPT_EXACT_MATCH` and `AS_RECORD_ROUTE_OPT_PRESERVE_DUPS`. -/
structure RecordOptions where
  exactMatch : Bool
  preserveDups : Bool
  deriving DecidableEq

/-- `AS_RECORD_ROUTE_SUCCESS` and the other results. -/
inductive RecordResult where
  | success
  | loop
  | tooLong
  | unreach
  deriving DecidableEq, Repr

/-- A router and the node it runs on. -/
structure RouterAt (N : Type) where
  node : N
  router : Router

/-- The variables of the loop of `bgp_record_route`. -/
structure Recording (N : Type) where
  cur : RouterAt N
  prev : Option Router
  path : Path

/-- The route of a router for the prefix. -/
def recordLookup (pfx : Pfx) (options : RecordOptions) (router : Router) : Option Route :=
  if options.exactMatch then router.locRib.findExact pfx else router.locRib.findBest pfx

/-- The AS number of the current router is recorded. -/
def recordsAsn (options : RecordOptions) (prev : Option Router) (router : Router) : Bool :=
  match prev with
  | none => true
  | some prev => options.preserveDups || prev.asn ≠ router.asn

/-- The router that runs on the node with an address. -/
def BgpNetwork.routerOf (net : BgpNetwork N I S) (addr : NetAddr) : Option (RouterAt N) :=
  (net.nodes.lookup addr).bind fun node => (net.bgp node).map fun router => ⟨node, router⟩

/-- One turn of the loop of `bgp_record_route`: the result and the path, or the next router. -/
def recordTurn (net : BgpNetwork N I S) (pfx : Pfx) (options : RecordOptions)
    (st : Recording N) : RecordResult × Path ⊕ Recording N :=
  match recordLookup pfx options st.cur.router with
  | none => .inl (.unreach, st.path)
  | some route =>
    match
      -- The number is recorded when the AS changes, and always with the option to keep duplicates.
      if recordsAsn options st.prev st.cur.router then pathAppend st.path st.cur.router.asn
      else some st.path with
    | none => .inl (.tooLong, st.path)
    | some path =>
      -- The next-hop is the router itself: the end of the route is reached.
      if (net.topology.nodeHasAddress st.cur.node route.attr.nextHop).isSome then
        .inl (.success, path)
      else
        match net.routerOf route.attr.nextHop with
        | none => .inl (.unreach, path)
        | some next => .inr { cur := next, prev := some st.cur.router, path := path }

/-- `bgp_record_route`. -/
def bgpRecordRoute (net : BgpNetwork N I S) (fuel : Nat) (start : RouterAt N) (pfx : Pfx)
    (options : RecordOptions) : Option (RecordResult × Path) :=
  looping (recordTurn net pfx options) fuel { cur := start, prev := none, path := [] }

end Cbgp.Bgp
