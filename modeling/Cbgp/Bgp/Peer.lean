import Cbgp.Bgp.DecisionProcess

/-! # Peers: sessions and received routes

`bgp/peer.c`: the session state machine with its OPEN and CLOSE messages, and the processing of
UPDATE and WITHDRAW messages.  `abort()` branches return an error; sequence-number failures are the
error code `EBGP_PEER_OUT_OF_SEQ` and leave the peer as it was.
-/

namespace Cbgp.Bgp

open Cbgp.Lib Cbgp.Net

/-! ## Rescanning an Adj-RIB-In -/

/-- `_bgp_peer_enable_adjribin`, on the route stored under a key. -/
def bgpPeerEnableAdjribin (addr : NetAddr) (router : Router) (key : Pfx) : Except Abort Router :=
  match router.adjRoute addr key with
  | none => .ok router
  | some route => bgpRouterDecisionProcess router route.pfx

/-- `_bgp_peer_disable_adjribin`: only a route marked as best needs the decision process. -/
def bgpPeerDisableAdjribin (addr : NetAddr) (router : Router) (key : Pfx) : Except Abort Router :=
  match router.adjRoute addr key with
  | none => .ok router
  | some route =>
    if route.flags.best then bgpRouterDecisionProcess router route.pfx else .ok router

/-- `_bgp_peer_rescan_adjribin`.  The clear is called with the integer 1. -/
def bgpPeerRescanAdjribin (router : Router) (addr : NetAddr) (clear : Bool) : Except Abort Router :=
  match router.peers.lookup addr with
  | none => .ok router
  | some peer =>
    let keys := peer.adjRibIn.keysInOrder router.env.traversal
    if peer.sessionState = .established then
      keys.foldlM (bgpPeerEnableAdjribin addr) router
    else do
      let router ← keys.foldlM (bgpPeerDisableAdjribin addr) router
      if clear then
        .ok (router.modifyPeer addr fun peer => bgpPeerAdjribClear peer (RibDir.ofInt 1))
      else .ok router

/-! ## Opening and closing sessions -/

/-- The state and counters of a session that starts or ends. -/
def Peer.resetSession (peer : Peer) (state : SessionState) : Peer :=
  { peer with sessionState := state, routerId := netAddrAny, sendSeqNum := 0, recvSeqNum := 0 }

/-- `bgp_peer_open_session`. -/
def bgpPeerOpenSession (router : Router) (addr : NetAddr) : Except Abort (NetError × Router) :=
  match router.peers.lookup addr with
  | none => .ok (.bgpPeerUnknown, router)
  | some peer =>
    if peer.sessionState ≠ .idle ∧ peer.sessionState ≠ .active then
      .ok (.bgpPeerInvalidState, router)
    else
      -- The identifier and the counters are reset, the state is not.
      let router := router.modifyPeer addr fun peer => peer.resetSession peer.sessionState
      if !peer.virtual then
        match bgpPeerSend router addr (.open router.rid) with
        | (.success, router) =>
          .ok (.success, router.modifyPeer addr fun peer => { peer with sessionState := .openWait })
        -- The OPEN could not be sent: the session waits for a refresh.
        | (_, router) =>
          .ok (.success, router.modifyPeer addr fun peer => peer.resetSession .active)
      -- A virtual peer exchanges no messages: it is up as soon as it can be reached.
      else if router.env.sessionOk addr then do
        let router := router.modifyPeer addr fun peer =>
          { peer with sessionState := .established, routerId := addr }
        if peer.softRestart then
          let router ← bgpPeerRescanAdjribin router addr false
          .ok (.success, router)
        else .ok (.success, router)
      else
        .ok (.success, router.modifyPeer addr fun peer => { peer with sessionState := .active })

/-- `bgp_peer_close_session`. -/
def bgpPeerCloseSession (router : Router) (addr : NetAddr) : Except Abort (NetError × Router) :=
  match router.peers.lookup addr with
  | none => .ok (.bgpPeerUnknown, router)
  | some peer =>
    if peer.sessionState = .idle then .ok (.bgpPeerInvalidState, router)
    else do
      let router :=
        if (peer.sessionState = .openWait ∨ peer.sessionState = .established) ∧ !peer.virtual then
          (bgpPeerSend router addr .close).2
        else router
      let router := router.modifyPeer addr fun peer => peer.resetSession .idle
      let router ← bgpPeerRescanAdjribin router addr (!(peer.virtual && peer.softRestart))
      .ok (.success, router)

/-- `bgp_peer_session_refresh`. -/
def bgpPeerSessionRefresh (router : Router) (addr : NetAddr) : Except Abort Router :=
  match router.peers.lookup addr with
  | none => .ok router
  | some peer =>
    if peer.sessionState = .established ∨ peer.sessionState = .openWait then
      if !router.env.sessionOk addr then do
        match ← bgpPeerCloseSession router addr with
        | (.success, router) =>
          -- Closed but not given up: the next refresh may open it again.
          .ok (router.modifyPeer addr fun peer => { peer with sessionState := .active })
        | _ => .error .refresh
      else .ok router
    else if peer.sessionState = .active then
      if router.env.sessionOk addr then do
        match ← bgpPeerOpenSession router addr with
        | (.success, router) => .ok router
        | _ => .error .refresh
      else .ok router
    else .ok router

/-! ## Received OPEN and CLOSE -/

/-- `_bgp_peer_prefix_disseminate` for each route of the Loc-RIB. -/
def disseminateLocRib (router : Router) (addr : NetAddr) : Except Abort Router :=
  (router.locRib.keysInOrder router.env.traversal).foldlM (fun router key =>
    match router.locRib.findExact key with
    | none => .ok router
    | some route => disseminateToPeer router route.pfx (some route) addr) router

/-- `_bgp_peer_session_open_rcvd`. -/
def bgpPeerSessionOpenRcvd (router : Router) (addr : NetAddr) (peer : Peer) (routerId : NetAddr) :
    Except Abort Router :=
  if peer.virtual then .error .openFromVirtual
  else
    match peer.sessionState with
    | .active =>
      let router := router.modifyPeer addr fun peer => { peer with sessionState := .established }
      let router := (bgpPeerSend router addr (.open router.rid)).2
      disseminateLocRib router addr
    | .openWait =>
      let router := router.modifyPeer addr fun peer =>
        { peer with sessionState := .established, routerId := routerId }
      disseminateLocRib router addr
    | _ => .error .openInState

/-- `_bgp_peer_session_close_rcvd`. -/
def bgpPeerSessionCloseRcvd (router : Router) (addr : NetAddr) (peer : Peer) : Except Abort Router :=
  if peer.virtual then .error .closeFromVirtual
  else
    match peer.sessionState with
    | .established | .openWait =>
      let router := router.modifyPeer addr fun peer => peer.resetSession .active
      bgpPeerRescanAdjribin router addr (!peer.virtual)
    | .active | .idle => .ok router

/-! ## Received routes -/

/-- `peer_comm_process`: without the experimental communities it accepts every route. -/
def peerCommProcess (_ : Attr) : Bool := true

/-- `bgp_peer_route_eligible`: `none` when an import check fails, else the attributes the input
filter leaves. -/
def bgpPeerRouteEligible (router : Router) (peer : Peer) (route : Route) :
    Except Abort (Option Attr) :=
  if pathContains route.attr.path router.asn then .ok none -- AS-path loop
  else if route.attr.originator = some router.rid then .ok none
  else if (route.attr.clusterList.getD []).contains router.clusterId then .ok none -- cluster loop
  else do
    match ← peer.filterIn.apply router.asn router.rt route with
    | none => .ok none
    | some attr => if peerCommProcess attr then .ok (some attr) else .ok none

/-- The route of an UPDATE as it enters the checks of `_bgp_peer_process_update`. -/
def receivedRoute (router : Router) (addr : NetAddr) (peer : Peer) (route : Route) : Route :=
  let attr :=
    if peer.asn ≠ router.asn then { route.attr with localPref := router.env.localPref }
    else route.attr
  { route with
    peer := some addr
    attr := attr
    flags := { route.flags with best := false, internal := false } }

/-- The route as `_bgp_peer_process_update` stores it, when its checks find it eligible. -/
def acceptedRoute (router : Router) (peer : Peer) (route : Route) (attr : Attr) : Route :=
  { route with
    attr := attr
    flags := { route.flags with
      eligible := true
      feasible := (nodeRtLookup router.rt attr.nextHop).isSome
      rrClient := peer.rrClient } }

/-- `_bgp_peer_process_update`. -/
def bgpPeerProcessUpdate (router : Router) (addr : NetAddr) (peer : Peer) (route : Route) :
    Except Abort Router := do
  let route := receivedRoute router addr peer route
  let verdict ← bgpPeerRouteEligible router peer route
  let oldRoute := peer.adjRibIn.findExact route.pfx
  let oldBest := oldRoute.any (·.flags.best)
  match verdict with
  -- A route let in replaces the one stored, and the decision process always runs.
  | some attr =>
    let router := router.modifyPeer addr fun peer =>
      { peer with adjRibIn := peer.adjRibIn.addRoute (acceptedRoute router peer route attr) }
    bgpRouterDecisionProcess router route.pfx
  -- An implicit withdraw: the old route goes, and only the loss of a best one is decided anew.
  | none =>
    let router :=
      if oldRoute.isSome then
        router.modifyPeer addr fun peer =>
          { peer with adjRibIn := peer.adjRibIn.removeRoute route.pfx }
      else router
    if oldBest then bgpRouterDecisionProcess router route.pfx else .ok router

/-- `_bgp_peer_process_withdraw`. -/
def bgpPeerProcessWithdraw (router : Router) (addr : NetAddr) (peer : Peer) (pfx : Pfx) :
    Except Abort Router :=
  match peer.adjRibIn.findExact pfx with
  | none => .ok router
  | some _ => do
    let router := router.setAdjFlags addr pfx fun f => { f with eligible := false }
    let router ← bgpRouterDecisionProcess router pfx
    .ok (router.modifyPeer addr fun peer =>
      { peer with adjRibIn := peer.adjRibIn.removeRoute pfx })

/-- The state switch shared by `_bgp_peer_session_update_rcvd` and
`_bgp_peer_session_withdraw_rcvd`. -/
def sessionDataRcvd (router : Router) (addr : NetAddr) (peer : Peer) (failure : Abort) :
    Except Abort (Peer × Router) :=
  match peer.sessionState with
  | .openWait =>
    .ok ({ peer with sessionState := .established },
      router.modifyPeer addr fun peer => { peer with sessionState := .established })
  | .established => .ok (peer, router)
  | _ => .error failure

/-- `_bgp_peer_session_update_rcvd`. -/
def bgpPeerSessionUpdateRcvd (router : Router) (addr : NetAddr) (peer : Peer) (route : Route) :
    Except Abort Router := do
  let (peer, router) ← sessionDataRcvd router addr peer .updateInState
  bgpPeerProcessUpdate router addr peer route

/-- `_bgp_peer_session_withdraw_rcvd`. -/
def bgpPeerSessionWithdrawRcvd (router : Router) (addr : NetAddr) (peer : Peer) (pfx : Pfx) :
    Except Abort Router := do
  let (peer, router) ← sessionDataRcvd router addr peer .withdrawInState
  bgpPeerProcessWithdraw router addr peer pfx

/-! ## Message handling -/

/-- `_bgp_peer_seqnum_check`: 32-bit comparison, not made for virtual peers nor for CLOSE. -/
def bgpPeerSeqnumCheck (peer : Peer) (msg : Msg) : Bool :=
  peer.virtual || peer.recvSeqNum % seqMod = msg.seqNum || msg.body = .close

/-- `bgp_peer_handle_message`. -/
def bgpPeerHandleMessage (router : Router) (addr : NetAddr) (peer : Peer) (msg : Msg) :
    Except Abort (NetError × Router) :=
  if !bgpPeerSeqnumCheck peer msg then .ok (.bgpPeerOutOfSeq, router)
  else
    let router := router.modifyPeer addr fun peer => { peer with recvSeqNum := peer.recvSeqNum + 1 }
    let peer := { peer with recvSeqNum := peer.recvSeqNum + 1 }
    let result :=
      match msg.body with
      | .update route => bgpPeerSessionUpdateRcvd router addr peer route
      | .withdraw pfx => bgpPeerSessionWithdrawRcvd router addr peer pfx
      | .close => bgpPeerSessionCloseRcvd router addr peer
      | .open routerId => bgpPeerSessionOpenRcvd router addr peer routerId
    result.map fun router => (.success, router)

end Cbgp.Bgp
