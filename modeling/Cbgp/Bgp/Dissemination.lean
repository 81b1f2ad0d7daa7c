import Cbgp.Bgp.Types

/-! # Sending messages and disseminating routes

Phase III of the decision process, from `bgp/as.c`: whether a Loc-RIB route may be announced to a
peer and with which attributes (`exportRoute`), and the Adj-RIB-Out bookkeeping around it; with the
sending functions of `bgp/peer.c`.
-/

namespace Cbgp.Bgp

open Cbgp.Lib Cbgp.Net

/-! ## Sending -/

/-- `_bgp_peer_send`.  The sequence number is consumed whether or not the message leaves. -/
def bgpPeerSend (router : Router) (addr : NetAddr) (body : MsgBody) : NetError × Router :=
  match router.peers.lookup addr with
  | none => (.bgpPeerUnknown, router)
  | some peer =>
    let router' := router.modifyPeer addr fun p => { p with sendSeqNum := p.sendSeqNum + 1 }
    if peer.virtual then (.bgpPeerIncompatible, router')
    else if router.env.sendReach peer.srcAddr addr then
      (.success, { router' with
        outbox := router'.outbox ++ [⟨peer.srcAddr, addr, ⟨peer.sendSeqNum % seqMod, body⟩⟩] })
    else (.failure, router')

/-- `bgp_peer_announce_route`. -/
def bgpPeerAnnounceRoute (router : Router) (addr : NetAddr) (route : Route) : Router :=
  (bgpPeerSend router addr (.update { route with peer := some addr })).2

/-- `bgp_peer_withdraw_prefix`. -/
def bgpPeerWithdrawPrefix (router : Router) (addr : NetAddr) (pfx : Pfx) : Router :=
  (bgpPeerSend router addr (.withdraw pfx)).2

/-! ## Export -/

/-- The peer a route was learned from; `none` for a local route. -/
def routePeerGet (router : Router) (route : Route) : Except Abort (Option Peer) :=
  match route.peer with
  | none => .ok none
  | some addr =>
    match router.peers.lookup addr with
    | none => .error .danglingPeer
    | some peer => .ok (some peer)

/-- `route_cluster_list_append`. -/
def routeClusterListAppend (attr : Attr) (clusterId : NetAddr) : Attr :=
  { attr with clusterList := some (attr.clusterList.getD [] ++ [clusterId]) }

/-- The redistribution matrix of `_bgp_router_advertise_to_peer`; `none` when the route must not be
redistributed. -/
def redistribute (router : Router) (src : Option Peer) (dst : Peer) (route : Route) :
    Except Abort (Option Attr) :=
  if router.asn ≠ dst.asn then -- to EXTERNAL: cases (1), (2) and (3)
    if commsContains route.attr.comms commNoExport then .ok none
    else if pathContains route.attr.path dst.asn then .ok none -- sender-side loop detection
    else .ok (some { route.attr with originator := none, clusterList := none })
  else
    match src with
    | none => -- LOCAL to INTERNAL: case (6)
      if router.reflector then
        if route.attr.originator.isSome then .error .originatorSet
        else .ok (some { route.attr with originator := some router.rid })
      else .ok (some route.attr)
    | some src =>
      if router.asn ≠ src.asn then .ok (some route.attr) -- EXTERNAL to INTERNAL: case (4)
      else if !router.reflector then .ok none -- iBGP to iBGP: case (5)
      else if !route.flags.rrClient && !dst.rrClient then .ok none -- case (5c)
      else
        match route.attr.originator with
        | none =>
          .ok (some (routeClusterListAppend
            { route.attr with originator := some src.routerId } router.clusterId))
        | some originator =>
          if originator = dst.routerId then .ok none
          else .ok (some (routeClusterListAppend route.attr router.clusterId))

/-- `bgp_router_ecomm_process`: apply the redistribution communities that match the peer. -/
def bgpRouterEcommProcess (router : Router) (dst : Peer) :
    List Ecomm → Attr → Except Abort (Option Attr)
  | [], attr => .ok (some attr)
  | comm :: comms, attr =>
    if comm.typeHigh = ecommRed ∧ ecommRedMatch comm dst.asn then
      match ((comm.typeLow >>> 3) &&& 0x07).toNat with
      | 0 => -- PREPEND
        bgpRouterEcommProcess router dst comms
          (bgpAttrPathPrepend router.env.intern attr router.asn (comm.typeLow &&& 0x07).toNat)
      | 1 => do -- NO_EXPORT
        let attr ← bgpAttrCommAppend attr commNoExport
        bgpRouterEcommProcess router dst comms attr
      | 2 => .ok none -- IGNORE
      | _ => .error .ecommRedAction
    else bgpRouterEcommProcess router dst comms attr

/-- The next-hop and AS-path updates made before an announcement. -/
def updateBeforeAnnounce (router : Router) (src : Option Peer) (dst : Peer) (attr : Attr) : Attr :=
  if router.asn ≠ dst.asn then
    let nextHop := if dst.nextHop ≠ netAddrAny then dst.nextHop else router.rid
    bgpAttrPathPrepend router.env.intern { attr with nextHop := nextHop } router.asn 1
  else
    match src with
    | none => attr
    | some src =>
      if router.asn = src.asn then attr
      else if src.nextHopSelf then { attr with nextHop := router.rid }
      else if dst.nextHop ≠ netAddrAny then { attr with nextHop := dst.nextHop }
      else attr

/-- `_bgp_router_advertise_to_peer` up to the announcement: the route to announce, or `none` when
one of the checks filters it out. -/
def exportRoute (router : Router) (dst : Peer) (route : Route) : Except Abort (Option Route) := do
  let src ← routePeerGet router route
  -- Do not redistribute to the originator neighbour
  if src.any (fun src => dst.routerId = src.routerId) then .ok none
  else if commsContains route.attr.comms commNoAdvertise then .ok none
  else
    match ← redistribute router src dst route with
    | none => .ok none
    | some attr =>
      match ← bgpRouterEcommProcess router dst (attr.ecomms.getD []) attr with
      | none => .ok none
      | some attr =>
        let attr := { attr with ecomms := ecommsStripNonTransitive attr.ecomms }
        -- `route_med_clear` towards an external peer
        let attr := if router.asn ≠ dst.asn then { attr with med := 0xffffffff } else attr
        match ← dst.filterOut.apply router.asn router.rt { route with attr := attr } with
        | none => .ok none
        | some attr => .ok (some { route with attr := updateBeforeAnnounce router src dst attr })

/-! ## Adj-RIB-Out bookkeeping -/

/-- `bgp_router_peer_rib_out_remove` and the withdraw that follows when it reports that a route was
there. -/
def ribOutWithdraw (router : Router) (addr : NetAddr) (peer : Peer) (pfx : Pfx) : Router :=
  match peer.adjRibOut.findExact pfx with
  | none => router
  | some _ =>
    bgpPeerWithdrawPrefix
      (router.modifyPeer addr fun p => { p with adjRibOut := p.adjRibOut.removeRoute pfx }) addr pfx

/-- `bgp_router_peer_rib_out_replace`. -/
def bgpRouterPeerRibOutReplace (router : Router) (addr : NetAddr) (route : Route) : Router :=
  router.modifyPeer addr fun p => { p with adjRibOut := p.adjRibOut.addRoute route }

/-- `bgp_router_decision_process_disseminate_to_peer`. -/
def disseminateToPeer (router : Router) (pfx : Pfx) (route : Option Route) (addr : NetAddr) :
    Except Abort Router :=
  match router.peers.lookup addr with
  | none => .ok router
  | some peer =>
    if peer.sessionState ≠ .established then .ok router
    else
      match route with
      | none => .ok (ribOutWithdraw router addr peer pfx)
      | some route => do
        match ← exportRoute router peer route with
        | some announced =>
          .ok (bgpRouterPeerRibOutReplace (bgpPeerAnnounceRoute router addr announced) addr route)
        | none => .ok (ribOutWithdraw router addr peer pfx)

/-- `bgp_router_decision_process_disseminate`. -/
def disseminate (router : Router) (pfx : Pfx) (route : Option Route) : Except Abort Router :=
  router.peers.keys.foldlM (fun router addr =>
    match router.peers.lookup addr with
    | none => .ok router
    | some peer =>
      if bgpPeerSendEnabled peer then disseminateToPeer router pfx route addr else .ok router)
    router

end Cbgp.Bgp
