import Cbgp.Verified.SessionSteps

/-! # What a router exports

For each prefix, the attributes with which a router would announce its Loc-RIB route to a peer now
(`exported`).  As long as the sessions of the router are left alone, the UPDATEs and WITHDRAWs it sends to an
established peer turn, replayed in order, what it exported before into what it exports after
(`exports_told`), so that the peer can know the exports of the router without ever asking.
-/

namespace Cbgp.Verified

open Cbgp.Lib Cbgp.Net Cbgp.Bgp

/-! ## Exports -/

/-- The attributes with which a route is announced to a peer, if it is. -/
def exportAttr (r : Router) (peer : Peer) (best : Route) : Option Attr :=
  (exportRoute r peer best).toOption.join.map Route.attr

/-- The attributes with which the route of the Loc-RIB for a prefix is announced to a peer, if it is. -/
def exported (r : Router) (a : NetAddr) (q : Pfx) : Option Attr :=
  (r.peers.lookup a).bind fun peer => (r.locRib.findExact q).bind fun best => exportAttr r peer best

/-- What a message does to the attributes known for each prefix. -/
def heardAttr (known : Pfx → Option Attr) : MsgBody → Pfx → Option Attr
  | .update route, q => if ipPrefixMask q = ipPrefixMask route.pfx then some route.attr else known q
  | .withdraw p, q => if ipPrefixMask q = ipPrefixMask p then none else known q
  | _, q => known q

/-- What messages do to the attributes known for each prefix. -/
def replayAttr (known : Pfx → Option Attr) (bodies : List MsgBody) : Pfx → Option Attr :=
  bodies.foldl heardAttr known

theorem replayAttr_append (known : Pfx → Option Attr) (bodies bodies' : List MsgBody) :
    replayAttr known (bodies ++ bodies') = replayAttr (replayAttr known bodies) bodies' :=
  List.foldl_append

/-- The prefixes known are those that the same messages announce. -/
theorem replayAttr_isSome {known : Pfx → Option Attr} {keys : Pfx → Bool}
    (start : ∀ q, keys q = (known q).isSome) (bodies : List MsgBody) (q : Pfx) :
    replay keys bodies q = (replayAttr known bodies q).isSome := by
  induction bodies generalizing known keys with
  | nil => exact start q
  | cons body bodies inductionHypothesis =>
    apply inductionHypothesis
    intro q
    cases body with
    | update route =>
      simp only [heard, heardAttr]
      split
      next same => simp [same]
      next differ => simp [differ, start]
    | withdraw p =>
      simp only [heard, heardAttr]
      split
      next same => simp [same]
      next differ => simp [differ, start]
    | close => exact start q
    | «open» routerId => exact start q

/-- The filter decides by the prefix and the attributes of a route only. -/
def ReadsRoute (filter : Filter) : Prop :=
  ∀ asn rt rt' route route', ipPrefixMask route'.pfx = ipPrefixMask route.pfx → route'.attr = route.attr →
    filter.apply asn rt' route' = filter.apply asn rt route

theorem acceptAll_readsRoute : ReadsRoute Filter.acceptAll := by
  intro asn rt rt' route route' _ attr
  simp only [Filter.acceptAll, attr]

/-! ### What an export depends on -/

/-- What an export reads of the route. -/
def exportKey (route : Route) : Route where
  pfx := ipPrefixMask route.pfx
  peer := route.peer
  attr := route.attr
  flags := { RouteFlags.zero with rrClient := route.flags.rrClient }

/-- A peer without its RIBs, its counters and the state of its session. -/
def identity (peer : Peer) : Peer :=
  { session peer with sessionState := .idle, recvSeqNum := 0 }

/-- The router exports its routes in the same way. -/
structure SameExporter (r s : Router) : Prop where
  asn : s.asn = r.asn
  rid : s.rid = r.rid
  clusterId : s.clusterId = r.clusterId
  reflector : s.reflector = r.reflector
  intern : s.env.intern = r.env.intern
  peers : ∀ b, (s.peers.lookup b).map identity = (r.peers.lookup b).map identity

namespace SameExporter

variable {r s t : Router}

theorem refl (r : Router) : SameExporter r r := ⟨rfl, rfl, rfl, rfl, rfl, fun _ => rfl⟩

theorem trans (first : SameExporter r s) (second : SameExporter s t) : SameExporter r t where
  asn := second.asn.trans first.asn
  rid := second.rid.trans first.rid
  clusterId := second.clusterId.trans first.clusterId
  reflector := second.reflector.trans first.reflector
  intern := second.intern.trans first.intern
  peers b := (second.peers b).trans (first.peers b)

theorem of_sends (sends : Sends r s) : SameExporter r s := by
  have router := sends.router
  refine ⟨?_, ?_, ?_, ?_, ?_, fun b => ?_⟩
  · rw [router]
  · rw [router]
  · rw [router]
  · rw [router]
  · rw [router]
  · have through (t : Router) : (t.peers.lookup b).map identity =
        ((t.peers.lookup b).map inSide).map identity := by
      rw [Option.map_map]
      rfl
    rw [through, through, sends.peers b]

/-- The RIBs, the counters and the state of the session of a peer changed. -/
theorem modify (r : Router) (b : NetAddr) {f : Peer → Peer} (same : ∀ peer, identity (f peer) = identity peer) :
    SameExporter r (r.modifyPeer b f) := by
  refine ⟨rfl, rfl, rfl, rfl, rfl, fun c => ?_⟩
  rw [modifyPeer_lookup]
  split
  · cases r.peers.lookup c with
    | none => rfl
    | some peer => simp [same]
  · rfl

end SameExporter

section Congruence

variable {r s : Router} {src src' : Option Peer} {dst dst' : Peer} {route route' : Route}

/-- The fields of a peer that an export reads. -/
theorem identity_fields {peer peer' : Peer} (same : identity peer' = identity peer) :
    peer'.asn = peer.asn ∧ peer'.routerId = peer.routerId ∧ peer'.rrClient = peer.rrClient ∧
      peer'.nextHopSelf = peer.nextHopSelf ∧ peer'.nextHop = peer.nextHop ∧ peer'.filterOut = peer.filterOut := by
  have asn := congrArg Peer.asn same
  have routerId := congrArg Peer.routerId same
  have rrClient := congrArg Peer.rrClient same
  have nextHopSelf := congrArg Peer.nextHopSelf same
  have nextHop := congrArg Peer.nextHop same
  have filterOut := congrArg Peer.filterOut same
  exact ⟨asn, routerId, rrClient, nextHopSelf, nextHop, filterOut⟩

theorem exportKey_fields (same : exportKey route' = exportKey route) :
    ipPrefixMask route'.pfx = ipPrefixMask route.pfx ∧ route'.peer = route.peer ∧ route'.attr = route.attr ∧
      route'.flags.rrClient = route.flags.rrClient := by
  have pfx := congrArg Route.pfx same
  have peer := congrArg Route.peer same
  have attr := congrArg Route.attr same
  have flags := congrArg (fun route => route.flags.rrClient) same
  exact ⟨pfx, peer, attr, flags⟩

theorem routePeerGet_same (same : SameExporter r s) (route : Route) :
    (∃ e, routePeerGet s route = .error e ∧ routePeerGet r route = .error e) ∨
      ∃ src src', routePeerGet s route = .ok src' ∧ routePeerGet r route = .ok src ∧
        src'.map identity = src.map identity := by
  unfold routePeerGet
  cases route.peer with
  | none => exact .inr ⟨none, none, rfl, rfl, rfl⟩
  | some addr =>
    have peers := same.peers addr
    cases held : s.peers.lookup addr with
    | none =>
      cases held' : r.peers.lookup addr with
      | none => exact .inl ⟨.danglingPeer, by simp [held], by simp [held']⟩
      | some peer' => simp [held, held'] at peers
    | some peer =>
      cases held' : r.peers.lookup addr with
      | none => simp [held, held'] at peers
      | some peer' =>
        rw [held, held'] at peers
        exact .inr ⟨some peer', some peer, by simp [held], by simp [held'], peers⟩

theorem redistribute_same (same : SameExporter r s) (from_ : src'.map identity = src.map identity)
    (to_ : identity dst' = identity dst) (alike : exportKey route' = exportKey route) :
    redistribute s src' dst' route' = redistribute r src dst route := by
  obtain ⟨dstAsn, dstId, dstClient, _⟩ := identity_fields to_
  obtain ⟨_, _, attr, client⟩ := exportKey_fields alike
  cases src' with
  | none =>
    cases src with
    | none => simp only [redistribute, same.asn, same.reflector, same.rid, dstAsn, attr]
    | some src => cases from_
  | some src' =>
    cases src with
    | none => cases from_
    | some src =>
      obtain ⟨srcAsn, srcId, _⟩ := identity_fields (Option.some.inj from_)
      simp only [redistribute, same.asn, same.reflector, same.clusterId, dstAsn, dstId, dstClient, srcAsn, srcId,
        attr, client]

theorem bgpRouterEcommProcess_same (same : SameExporter r s) (to_ : identity dst' = identity dst)
    (comms : List Ecomm) (attr : Attr) :
    bgpRouterEcommProcess s dst' comms attr = bgpRouterEcommProcess r dst comms attr := by
  obtain ⟨dstAsn, _⟩ := identity_fields to_
  induction comms generalizing attr with
  | nil => rfl
  | cons comm comms inductionHypothesis =>
    simp only [bgpRouterEcommProcess, inductionHypothesis, same.asn, same.intern, dstAsn]

theorem updateBeforeAnnounce_same (same : SameExporter r s) (from_ : src'.map identity = src.map identity)
    (to_ : identity dst' = identity dst) (attr : Attr) :
    updateBeforeAnnounce s src' dst' attr = updateBeforeAnnounce r src dst attr := by
  obtain ⟨dstAsn, _, _, _, dstHop, _⟩ := identity_fields to_
  cases src' with
  | none =>
    cases src with
    | none => simp only [updateBeforeAnnounce, same.asn, same.rid, same.intern, dstAsn, dstHop]
    | some src => cases from_
  | some src' =>
    cases src with
    | none => cases from_
    | some src =>
      obtain ⟨srcAsn, _, _, srcSelf, _⟩ := identity_fields (Option.some.inj from_)
      simp only [updateBeforeAnnounce, same.asn, same.rid, same.intern, dstAsn, dstHop, srcAsn, srcSelf]

/-- An export depends on the identities of the router and of its peers, and on the route. -/
theorem exportAttr_same (same : SameExporter r s) (to_ : identity dst' = identity dst)
    (reads : ReadsRoute dst.filterOut) (alike : exportKey route' = exportKey route) :
    exportAttr s dst' route' = exportAttr r dst route := by
  obtain ⟨pfx, peer, attr, _⟩ := exportKey_fields alike
  obtain ⟨dstAsn, dstId, _, _, _, filterOut⟩ := identity_fields to_
  have got : routePeerGet s route' = routePeerGet s route := by simp only [routePeerGet, peer]
  unfold exportAttr exportRoute
  rw [got]
  obtain ⟨e, failed, failed'⟩ | ⟨src, src', found, found', from_⟩ := routePeerGet_same same route
  · rw [failed, failed']
    rfl
  · have neighbour : src'.any (fun src => dst'.routerId = src.routerId) =
        src.any (fun src => dst.routerId = src.routerId) := by
      have through (x : Option Peer) (id : NetAddr) : x.any (fun src => id = src.routerId) =
          (x.map identity).any (fun src => id = src.routerId) := by
        cases x with
        | none => rfl
        | some peer => rfl
      rw [through, from_, ← through, dstId]
    have sees (attr : Attr) : dst.filterOut.apply r.asn s.rt { route' with attr := attr } =
        dst.filterOut.apply r.asn r.rt { route with attr := attr } := reads _ _ _ _ _ pfx rfl
    rw [found, found']
    simp only [bind, Except.bind]
    rw [neighbour, attr, redistribute_same same from_ to_ alike, same.asn, filterOut, dstAsn]
    simp only [bgpRouterEcommProcess_same same to_, updateBeforeAnnounce_same same from_ to_]
    -- the checks are the same, and the filter sees the same attributes
    by_cases source : src.any (fun src => dst.routerId = src.routerId) = true
    · simp only [if_pos source]
    · simp only [if_neg source]
      by_cases hidden : commsContains route.attr.comms commNoAdvertise = true
      · simp only [if_pos hidden]
      · simp only [if_neg hidden]
        cases redistribute r src dst route with
        | error e => rfl
        | ok verdict =>
          cases verdict with
          | none => rfl
          | some attr =>
            simp only
            cases bgpRouterEcommProcess r dst (attr.ecomms.getD []) attr with
            | error e => rfl
            | ok verdict =>
              cases verdict with
              | none => rfl
              | some attr =>
                simp only
                rw [sees]
                cases dst.filterOut.apply r.asn r.rt { route with
                    attr := if r.asn ≠ dst.asn then
                        { attr with ecomms := ecommsStripNonTransitive attr.ecomms, med := 0xffffffff }
                      else { attr with ecomms := ecommsStripNonTransitive attr.ecomms } } with
                | error e => rfl
                | ok verdict =>
                  cases verdict with
                  | none => rfl
                  | some attr => rfl

/-- The same routes are exported to a peer by a router that exports in the same way. -/
theorem exported_same {a : NetAddr} {peer : Peer} (same : SameExporter r s) (held : r.peers.lookup a = some peer)
    (reads : ReadsRoute peer.filterOut) {q : Pfx}
    (entry : (s.locRib.findExact q).map exportKey = (r.locRib.findExact q).map exportKey) :
    exported s a q = exported r a q := by
  have peers := same.peers a
  rw [held] at peers
  unfold exported
  cases held' : s.peers.lookup a with
  | none => simp [held'] at peers
  | some peer' =>
    rw [held'] at peers
    rw [held, Option.bind_some, Option.bind_some]
    cases best : s.locRib.findExact q with
    | none =>
      rw [best] at entry
      rw [Option.map_eq_none_iff.mp entry.symm]
      rfl
    | some route' =>
      rw [best] at entry
      obtain ⟨route, best', alike⟩ := Option.map_eq_some_iff.mp entry.symm
      rw [best', Option.bind_some, Option.bind_some]
      exact exportAttr_same same (Option.some.inj peers) reads alike.symm

end Congruence

/-! ## Before a dissemination -/

/-- A peer without its Adj-RIB-In. -/
def outSide (peer : Peer) : Peer :=
  { peer with adjRibIn := Rib.create }

/-- Only Adj-RIB-Ins, the Loc-RIB, the local networks and the routing table changed. -/
structure Prepared (r s : Router) : Prop where
  router : s = { r with peers := s.peers, locRib := s.locRib, localNets := s.localNets, rt := s.rt }
  peers : ∀ b, (s.peers.lookup b).map outSide = (r.peers.lookup b).map outSide

namespace Prepared

variable {r s t : Router}

theorem refl (r : Router) : Prepared r r := ⟨rfl, fun _ => rfl⟩

theorem trans (first : Prepared r s) (second : Prepared s t) : Prepared r t where
  router := by
    have second' := second.router
    rw [first.router] at second'
    exact second'
  peers b := (second.peers b).trans (first.peers b)

theorem of_mapVals {f : NetAddr → Peer → Peer} (same : ∀ b peer, outSide (f b peer) = outSide peer) :
    Prepared r { r with peers := r.peers.mapVals f } := by
  refine ⟨rfl, fun b => ?_⟩
  rw [Table.lookup_mapVals]
  cases r.peers.lookup b with
  | none => rfl
  | some peer => exact congrArg some (same b peer)

theorem modify (b : NetAddr) {f : Peer → Peer} (same : ∀ peer, outSide (f peer) = outSide peer) :
    Prepared r (r.modifyPeer b f) := by
  refine ⟨rfl, fun c => ?_⟩
  rw [modifyPeer_lookup]
  split
  · cases r.peers.lookup c with
    | none => rfl
    | some peer => exact congrArg some (same peer)
  · rfl

theorem peer (prepared : Prepared r s) {a : NetAddr} {peer : Peer} (held : r.peers.lookup a = some peer) :
    ∃ rib, s.peers.lookup a = some { peer with adjRibIn := rib } := by
  have peers := prepared.peers a
  rw [held] at peers
  obtain ⟨peer', held', same⟩ := Option.map_eq_some_iff.mp peers
  have whole : peer' = { outSide peer' with adjRibIn := peer'.adjRibIn } := rfl
  rw [same] at whole
  exact ⟨peer'.adjRibIn, held'.trans (congrArg some whole)⟩

theorem tells (prepared : Prepared r s) (a : NetAddr) : Tells a r s [] := by
  have router := prepared.router
  apply Tells.of_same
  · rw [router]
  · intro peer held
    obtain ⟨rib, held'⟩ := prepared.peer held
    exact ⟨_, held', rfl⟩
  · rw [router]

theorem sameExporter (prepared : Prepared r s) : SameExporter r s := by
  have router := prepared.router
  refine ⟨?_, ?_, ?_, ?_, ?_, fun b => ?_⟩
  · rw [router]
  · rw [router]
  · rw [router]
  · rw [router]
  · rw [router]
  · have through (t : Router) : (t.peers.lookup b).map identity =
        ((t.peers.lookup b).map outSide).map identity := by
      rw [Option.map_map]
      rfl
    rw [through, through, prepared.peers b]

end Prepared

section Steps

variable {r r' : Router} {p : Pfx}

theorem updateFeasible_prepared (r : Router) (p : Pfx) : Prepared r (updateFeasible r p) := by
  apply Prepared.of_mapVals
  intro _ peer
  split
  · split
    · rfl
    · split
      · rfl
      · rfl
  · rfl

theorem setListFlags_prepared (r : Router) (routes : List Cand) (p : Pfx) (f : RouteFlags → RouteFlags) :
    Prepared r (setListFlags r routes p f) := by
  apply Prepared.of_mapVals
  intro b peer
  cases routes.any (·.addr = b) with
  | true => rfl
  | false => rfl

theorem setAdjFlags_prepared (r : Router) (b : NetAddr) (p : Pfx) (f : RouteFlags → RouteFlags) :
    Prepared r (r.setAdjFlags b p f) :=
  Prepared.modify b fun _ => rfl

theorem bestFlagOff_prepared (r : Router) (old : Route) : Prepared r (bgpRouterBestFlagOff r old) := by
  unfold bgpRouterBestFlagOff
  cases old.peer with
  | none => exact ⟨rfl, fun _ => rfl⟩
  | some b =>
    have unmarked : Prepared r { r with
        locRib := r.locRib.setFlags old.pfx fun f => { f with best := false } } := ⟨rfl, fun _ => rfl⟩
    exact unmarked.trans (setAdjFlags_prepared _ b old.pfx _)

theorem rtAddRoute_tables {route : Route} (h : bgpRouterRtAddRoute r route = .ok r') :
    r' = { r with rt := r'.rt } := by
  simp only [bgpRouterRtAddRoute] at h
  split at h
  · cases h
    rfl
  · cases h

theorem rtDelRoute_tables (h : bgpRouterRtDelRoute r p = .ok r') : r' = { r with rt := r'.rt } := by
  simp only [bgpRouterRtDelRoute] at h
  split at h
  · cases h
    rfl
  · cases h

end Steps

/-! ## What is told is what has changed -/

/-- An established peer whose Adj-RIB-Out has an entry for each prefix for which it knows attributes. -/
structure Hearing (a : NetAddr) (r : Router) (peer : Peer) (known : Pfx → Option Attr) : Prop where
  held : r.peers.lookup a = some peer
  up : peer.sessionState = .established
  enabled : bgpPeerSendEnabled peer = true
  reads : ReadsRoute peer.filterOut
  keys : ∀ q, outKeys peer q = (known q).isSome

/-- An established peer whose Adj-RIB-Out has an entry for each prefix that the router exports to it. -/
structure UpToDate (a : NetAddr) (r : Router) (peer : Peer) : Prop where
  held : r.peers.lookup a = some peer
  up : peer.sessionState = .established
  enabled : bgpPeerSendEnabled peer = true
  reads : ReadsRoute peer.filterOut
  keys : ∀ q, outKeys peer q = (exported r a q).isSome

/-- Between two states a peer was told `bodies`, and these are what has changed of the exports to it. -/
structure Conveys (a : NetAddr) (r r' : Router) (bodies : List MsgBody) : Prop where
  tells : Tells a r r' bodies
  same : SameExporter r r'
  exports : ∀ {peer}, UpToDate a r peer → ∀ q, replayAttr (exported r a) bodies q = exported r' a q

/-- Between two states a peer was told what has changed of the exports to it. -/
def Reports (a : NetAddr) (r r' : Router) : Prop := ∃ bodies, Conveys a r r' bodies

section Reports

variable {a : NetAddr} {r s t r' : Router} {peer peer' : Peer} {p : Pfx}

/-- What the peer is told adds to what it knows. -/
theorem Hearing.told {known : Pfx → Option Attr} {bodies : List MsgBody} (hearing : Hearing a r peer known)
    (tells : Tells a r s bodies) :
    ∃ peer', Hearing a s peer' (replayAttr known bodies) ∧ PeerTold a r s bodies peer peer' := by
  obtain ⟨peer', held, told⟩ := tells.told hearing.held
  have frame := told.frame
  refine ⟨peer', ⟨held, ?_, ?_, ?_, fun q => ?_⟩, told⟩
  · rw [frame]
    exact hearing.up
  · rw [frame]
    exact hearing.enabled
  · rw [frame]
    exact hearing.reads
  · rw [told.keys]
    exact replayAttr_isSome hearing.keys bodies q

/-- A peer that knows all exports. -/
theorem Hearing.upToDate {known : Pfx → Option Attr} (hearing : Hearing a r peer known)
    (exports : ∀ q, known q = exported r a q) : UpToDate a r peer := by
  refine ⟨hearing.held, hearing.up, hearing.enabled, hearing.reads, fun q => ?_⟩
  rw [← exports]
  exact hearing.keys q

theorem UpToDate.hearing (upToDate : UpToDate a r peer) : Hearing a r peer (exported r a) :=
  ⟨upToDate.held, upToDate.up, upToDate.enabled, upToDate.reads, upToDate.keys⟩

/-- The Adj-RIB-Out follows the exports. -/
theorem Conveys.upToDate {bodies : List MsgBody} (conveys : Conveys a r s bodies) (before : UpToDate a r peer)
    (held : s.peers.lookup a = some peer') : UpToDate a s peer' := by
  obtain ⟨peer'', hearing, _⟩ := before.hearing.told conveys.tells
  have same : peer' = peer'' := Option.some.inj (held.symm.trans hearing.held)
  rw [same]
  exact hearing.upToDate (conveys.exports before)

theorem Conveys.trans {bodies bodies' : List MsgBody} (first : Conveys a r s bodies)
    (second : Conveys a s t bodies') : Conveys a r t (bodies ++ bodies') := by
  refine ⟨first.tells.trans second.tells, first.same.trans second.same, fun {peer} before q => ?_⟩
  obtain ⟨peer', held, _⟩ := first.tells.told before.held
  rw [replayAttr_append, ← second.exports (first.upToDate before held)]
  have known : replayAttr (exported r a) bodies = exported s a := funext (first.exports before)
  rw [known]

theorem Reports.trans (first : Reports a r s) (second : Reports a s t) : Reports a r t := by
  obtain ⟨bodies, conveys⟩ := first
  obtain ⟨bodies', conveys'⟩ := second
  exact ⟨bodies ++ bodies', conveys.trans conveys'⟩

/-- Nothing changed that is exported. -/
theorem Reports.of_prepared (prepared : Prepared r s)
    (loc : ∀ q, (s.locRib.findExact q).map exportKey = (r.locRib.findExact q).map exportKey) : Reports a r s := by
  refine ⟨[], prepared.tells a, prepared.sameExporter, fun {peer} before q => ?_⟩
  exact (exported_same prepared.sameExporter before.held before.reads (loc q)).symm

theorem Reports.refl (a : NetAddr) (r : Router) : Reports a r r :=
  .of_prepared (.refl r) fun _ => rfl

/-- What changed is about the session with another peer. -/
theorem Reports.of_untouched (untouched : Untouched a r s) (same : SameExporter r s) (loc : s.locRib = r.locRib) :
    Reports a r s := by
  refine ⟨[], untouched.tells, same, fun {peer} before q => ?_⟩
  exact (exported_same same before.held before.reads (by rw [loc])).symm

theorem exportAttr_unfit {route : Option Route}
    (unfit : route = none ∨ ∃ best, route = some best ∧ exportRoute r peer best = .ok none) :
    (route.bind fun best => exportAttr r peer best) = none := by
  obtain absent | ⟨best, present, refused⟩ := unfit
  · rw [absent]
    rfl
  · rw [present, Option.bind_some, exportAttr, refused]
    rfl

/-- What a peer is told about a prefix is what is exported to it for this prefix. -/
theorem Told.replays {route : Option Route} {bodies : List MsgBody} {known : Pfx → Option Attr}
    (told : Told r a peer p route bodies) (hearing : Hearing a r peer known)
    (pfx : ∀ best, route = some best → ipPrefixMask best.pfx = ipPrefixMask p) (q : Pfx) :
    replayAttr known bodies q =
      if ipPrefixMask q = ipPrefixMask p then route.bind fun best => exportAttr r peer best else known q := by
  cases told with
  | down notUp => exact absurd hearing.up notUp
  | silent up unheld unfit =>
    show known q = _
    by_cases same : ipPrefixMask q = ipPrefixMask p
    · -- the prefix was not announced, so it was not known either
      have unknown : outKeys peer q = false := by
        rw [outKeys, peer.adjRibOut.findExact_congr same]
        exact unheld
      rw [hearing.keys, Option.isSome_eq_false_iff, Option.isNone_iff_eq_none] at unknown
      rw [if_pos same, exportAttr_unfit unfit, unknown]
    · rw [if_neg same]
  | withdrawn up held unfit =>
    show (if ipPrefixMask q = ipPrefixMask p then none else known q) = _
    rw [exportAttr_unfit unfit]
  | announced up best announced some_ fit =>
    have announcedPfx : ipPrefixMask announced.pfx = ipPrefixMask p := by
      rw [(exportRoute_ends r peer best).value fit announced rfl]
      exact pfx best some_
    show (if ipPrefixMask q = ipPrefixMask announced.pfx then some announced.attr else known q) = _
    rw [announcedPfx, some_, Option.bind_some, exportAttr, fit]
    rfl

/-- A dissemination tells the peer what has changed, when the Loc-RIB changed for this prefix only. -/
theorem disseminate_reports {route : Option Route} (prepared : Prepared r s)
    (entry : s.locRib.findExact p = route)
    (elsewhere : ∀ q, ipPrefixMask q ≠ ipPrefixMask p → s.locRib.findExact q = r.locRib.findExact q)
    (h : disseminate s p route = .ok r') : Reports a r r' := by
  have sends := (disseminate_ends s p route).value h
  have same := prepared.sameExporter.trans (.of_sends sends)
  cases held : s.peers.lookup a with
  | none =>
    have absent (peer : Peer) (known : r.peers.lookup a = some peer) : False := by
      obtain ⟨rib, held'⟩ := prepared.peer known
      rw [held] at held'
      cases held'
    refine ⟨[], ⟨?_, fun {peer} known => (absent peer known).elim⟩, same,
      fun {peer} before => (absent peer before.held).elim⟩
    rw [sends.env, prepared.router]
  | some peer' =>
    obtain ⟨bodies, told, _, tells⟩ := disseminate_told held h
    refine ⟨bodies, (prepared.tells a).trans tells, same, fun {peer} before q => ?_⟩
    obtain ⟨rib, held'⟩ := prepared.peer before.held
    rw [held, Option.some.injEq] at held'
    subst held'
    -- The dissemination changes no export; the Loc-RIB entry written before it changes one prefix.
    have now : exported r' a q = exported s a q :=
      exported_same (.of_sends sends) held before.reads (by rw [sends.locRib])
    have other (differ : ipPrefixMask q ≠ ipPrefixMask p) : exported s a q = exported r a q :=
      exported_same prepared.sameExporter before.held before.reads (by rw [elsewhere q differ])
    have here (same : ipPrefixMask q = ipPrefixMask p) : exported s a q =
        route.bind fun best => exportAttr s { peer with adjRibIn := rib } best := by
      rw [exported, held, Option.bind_some, s.locRib.findExact_congr same, entry]
    have pfx : ∀ best, route = some best → ipPrefixMask best.pfx = ipPrefixMask p :=
      fun best some_ => Rib.findExact_pfx (entry.trans some_)
    have hearing : Hearing a s { peer with adjRibIn := rib } (exported r a) :=
      ⟨held, before.up, before.enabled, before.reads, before.keys⟩
    rw [now, (told before.enabled).replays hearing pfx]
    by_cases same : ipPrefixMask q = ipPrefixMask p
    · rw [if_pos same, here same]
    · rw [if_neg same, other same]

/-! ### Decision processes -/

theorem noBestRoute_reports {old : Option Route} (held : r.locRib.findExact p = old)
    (h : noBestRoute r p old = .ok r') : Reports a r r' := by
  cases old with
  | none =>
    cases h
    exact Reports.refl a r
  | some old =>
    simp only [noBestRoute, except_bind_eq_ok] at h
    obtain ⟨s, deleted, told⟩ := h
    have tables := rtDelRoute_tables deleted
    have loc : s.locRib = (bgpRouterBestFlagOff r old).locRib.removeRoute p := by rw [tables]
    have prepared : Prepared r s := by
      apply (bestFlagOff_prepared r old).trans
      rw [tables]
      exact ⟨rfl, fun _ => rfl⟩
    apply disseminate_reports prepared _ _ told
    · rw [loc, Rib.findExact_removeRoute, if_pos rfl]
    · intro q differ
      have away : ipPrefixMask q ≠ ipPrefixMask old.pfx := by
        rw [Rib.findExact_pfx held]
        exact differ
      rw [loc, Rib.findExact_removeRoute, if_neg differ, bgpRouterBestFlagOff_loc, Rib.findExact_setFlags,
        if_neg away]

/-- The Loc-RIB keeps the old route, with another flag that is not exported. -/
theorem unchangedBestRoute_reports {winner : NetAddr} {route : Route}
    (h : unchangedBestRoute r p winner route = .ok r') : Reports a r r' := by
  simp only [unchangedBestRoute] at h
  have tables := rtAddRoute_tables h
  have marked := setAdjFlags_prepared r winner p fun f => { f with best := true }
  apply Reports.of_prepared
  · apply marked.trans
    rw [tables]
    exact ⟨rfl, fun _ => rfl⟩
  · intro q
    have loc : r'.locRib = r.locRib.setFlags p fun f => { f with dpIgp := route.flags.dpIgp } := by
      rw [tables]
      rfl
    rw [loc, Rib.findExact_setFlags]
    split
    · rw [Option.map_map]
      rfl
    · rfl

theorem updateBestRoute_reports {winner : NetAddr} {route : Route} {old : Option Route}
    (held : r.locRib.findExact p = old) (won : ipPrefixMask route.pfx = ipPrefixMask p)
    (h : updateBestRoute r p old winner route = .ok r') : Reports a r r' := by
  simp only [updateBestRoute, except_bind_eq_ok] at h
  obtain ⟨s, added, told⟩ := h
  have tables := rtAddRoute_tables added
  have marked (t : Router) := setAdjFlags_prepared t winner p fun f => { f with best := true }
  apply disseminate_reports _ _ _ told
  · cases old with
    | none =>
      apply (marked r).trans
      rw [tables]
      exact ⟨rfl, fun _ => rfl⟩
    | some old =>
      apply (bestFlagOff_prepared r old).trans ((marked _).trans _)
      rw [tables]
      exact ⟨rfl, fun _ => rfl⟩
  · rw [tables]
    refine (Rib.findExact_addRoute ..).trans ?_
    rw [Route.setFlags_pfx, won, if_pos rfl]
  · intro q differ
    rw [tables]
    refine (Rib.findExact_addRoute ..).trans ?_
    rw [Route.setFlags_pfx, won, if_neg differ]
    cases old with
    | none => rfl
    | some old =>
      have away : ipPrefixMask q ≠ ipPrefixMask old.pfx := by
        rw [Rib.findExact_pfx held]
        exact differ
      show (bgpRouterBestFlagOff r old).locRib.findExact q = _
      rw [bgpRouterBestFlagOff_loc, Rib.findExact_setFlags, if_neg away]

theorem installBest_reports {old : Option Route} {left : List Cand} (held : r.locRib.findExact p = old)
    (h : installBest r p old left = .ok r') : Reports a r r' := by
  cases left with
  | nil => exact noBestRoute_reports held h
  | cons w rest =>
    simp only [installBest] at h
    cases won : r.adjRoute w.addr p with
    | none => simp [won] at h
    | some route =>
      simp only [won] at h
      have pfx := adjRoute_pfx won
      cases old with
      | none => exact updateBestRoute_reports held pfx h
      | some old =>
        simp only at h
        split at h
        · exact unchangedBestRoute_reports h
        · exact updateBestRoute_reports held pfx h

/-- A decision process tells the peer what has changed. -/
theorem decisionProcess_reports (h : bgpRouterDecisionProcess r p = .ok r') : Reports a r r' := by
  simp only [bgpRouterDecisionProcess] at h
  split at h
  · cases h
    exact Reports.refl a r
  · simp only [except_bind_eq_ok] at h
    obtain ⟨left, _, igp, _, installed⟩ := h
    have marked := (updateFeasible_prepared r p).trans (setListFlags_prepared _
      (bgpRouterGetFeasibleRoutes r p) p fun f => { f with dpIgp := false, best := false })
    have flagged := marked.trans (setListFlags_prepared _ igp p fun f => { f with dpIgp := true })
    exact (Reports.of_prepared flagged fun _ => rfl).trans (installBest_reports rfl installed)

/-! ### Received routes -/

theorem processUpdate_reports {addr : NetAddr} {route : Route} (held : r.peers.lookup addr = some peer)
    (h : bgpPeerProcessUpdate r addr peer route = .ok r') : Reports a r r' := by
  have gone : Reports a r (dropped r addr route.pfx) :=
    .of_prepared (Prepared.modify addr fun _ => rfl) fun _ => rfl
  obtain ⟨attr, _, ran⟩ | ⟨_, ⟨_, ran⟩ | ⟨_, rfl⟩⟩ := processUpdate_cases held h
  · have kept : Reports a r (stored r addr (receivedRoute r addr peer route) attr) :=
      .of_prepared (Prepared.modify addr fun _ => rfl) fun _ => rfl
    exact kept.trans (decisionProcess_reports ran)
  · exact gone.trans (decisionProcess_reports ran)
  · split
    · exact gone
    · exact Reports.refl a r

theorem processWithdraw_reports {addr : NetAddr} {q : Pfx} (held : r.peers.lookup addr = some peer)
    (h : bgpPeerProcessWithdraw r addr peer q = .ok r') : Reports a r r' := by
  obtain ⟨_, same⟩ | ⟨_, s, _, decided, rfl⟩ := processWithdraw_cases held h
  · exact same ▸ Reports.refl a r
  · have marked : Reports a r (retired r addr q) :=
      .of_prepared (setAdjFlags_prepared r addr q _) fun _ => rfl
    have gone : Reports a s (dropped s addr q) :=
      .of_prepared (Prepared.modify addr fun _ => rfl) fun _ => rfl
    exact (marked.trans (decisionProcess_reports decided)).trans gone

/-- The session of a peer is found to be up. -/
theorem dataRcvd_reports {b : NetAddr} {source source' : Peer} {failure : Abort}
    (up : a = b → source.sessionState = .established)
    (state : sessionDataRcvd r b source failure = .ok (source', s)) : Reports a r s := by
  unfold sessionDataRcvd at state
  split at state
  next waiting =>
    have differ : a ≠ b := by
      intro same
      rw [up same] at waiting
      cases waiting
    cases state
    exact .of_untouched (modifyPeer_other differ) (SameExporter.modify r b fun _ => rfl) rfl
  · cases state
    exact Reports.refl a r
  · cases state

/-- A message in order that carries routes, once it was counted. -/
theorem handleMessage_reports {b : NetAddr} {source : Peer} {msg : Msg} {code : NetError}
    (held : r.peers.lookup b = some source) (inOrder : bgpPeerSeqnumCheck source msg = true)
    (data : isData msg.body = true) (up : a = b → source.sessionState = .established)
    (h : bgpPeerHandleMessage r b source msg = .ok (code, r')) : Reports a (counted r b) r' := by
  have received : (counted r b).peers.lookup b = some (countedPeer source) := by
    rw [counted, modifyPeer_lookup, if_pos rfl, held]
    rfl
  simp only [bgpPeerHandleMessage, inOrder, Bool.not_true, Bool.false_eq_true, if_false, except_map_eq_ok,
    Prod.mk.injEq] at h
  obtain ⟨_, h, _, rfl⟩ := h
  have up' : a = b → (countedPeer source).sessionState = .established := up
  cases body : msg.body with
  | update route =>
    simp only [body, bgpPeerSessionUpdateRcvd, except_bind_eq_ok] at h
    obtain ⟨state, reached, h⟩ := h
    obtain ⟨_, held'⟩ := DataInvariant.dataRcvd_quiet received reached
    exact (dataRcvd_reports up' reached).trans (processUpdate_reports held' h)
  | withdraw q =>
    simp only [body, bgpPeerSessionWithdrawRcvd, except_bind_eq_ok] at h
    obtain ⟨state, reached, h⟩ := h
    obtain ⟨_, held'⟩ := DataInvariant.dataRcvd_quiet received reached
    exact (dataRcvd_reports up' reached).trans (processWithdraw_reports held' h)
  | close => simp [isData, body] at data
  | «open» routerId => simp [isData, body] at data

/-! ### Steps -/

/-- The step leaves the sessions alone: routes arrive, networks come and go, a prefix is decided again, or the
network around the router changes. -/
def Calm (r : Router) : Op → Prop
  | .handleMessage _ msg => isData msg.body = true
  | .addNetwork _ | .delNetwork _ | .rerun _ => True
  | .netChange _ env => env.intern = r.env.intern
  | _ => False

/-- The peer is told `bodies`, which are what has changed of the exports to it. -/
structure Informs (a : NetAddr) (r r' : Router) (peer peer' : Peer) (bodies : List MsgBody) : Prop where
  spoken : Spoken a r r' peer peer' bodies
  after : UpToDate a r' peer'
  exports : ∀ q, replayAttr (exported r a) bodies q = exported r' a q

theorem Reports.informs (reports : Reports a r r') (before : UpToDate a r peer) :
    ∃ peer' bodies, Informs a r r' peer peer' bodies ∧ peer'.recvSeqNum = peer.recvSeqNum := by
  obtain ⟨bodies, conveys⟩ := reports
  obtain ⟨peer', spoken, recv⟩ := conveys.tells.spoken before.held (.inr before.up)
  exact ⟨peer', bodies, ⟨spoken, conveys.upToDate before spoken.lookup, conveys.exports before⟩, recv⟩

/-- A message of the peer itself is counted. -/
theorem UpToDate.counted (before : UpToDate a r peer) : UpToDate a (counted r a) (countedPeer peer) ∧
    ∀ q, exported (Verified.counted r a) a q = exported r a q := by
  have same : SameExporter r (Verified.counted r a) := SameExporter.modify r a fun _ => rfl
  have kept (q : Pfx) : exported (Verified.counted r a) a q = exported r a q :=
    exported_same same before.held before.reads rfl
  refine ⟨⟨?_, before.up, before.enabled, before.reads, fun q => ?_⟩, kept⟩
  · rw [Verified.counted, modifyPeer_lookup, if_pos rfl, before.held]
    rfl
  · rw [kept]
    exact before.keys q

theorem exec_informs {op : Op} (before : UpToDate a r peer) (calm : Calm r op) (h : exec r op = .ok r') :
    ∃ peer' bodies, Informs a r r' peer peer' bodies ∧ peer'.recvSeqNum = peer.recvSeqNum + counts a peer op := by
  -- An operation that does not touch the peer informs it of nothing, truthfully.
  have still : ∃ peer' bodies, Informs a r r peer peer' bodies ∧ peer'.recvSeqNum = peer.recvSeqNum :=
    (Reports.refl a r).informs before
  cases op with
  | handleMessage src msg =>
    simp only [exec, execCode, bgpRouterHandleMessage, except_map_eq_ok] at h
    obtain ⟨⟨code, _⟩, h, rfl⟩ := h
    cases held : r.peers.lookup src with
    | none =>
      have other : src ≠ a := by
        rintro rfl
        rw [before.held] at held
        cases held
      simp only [held, Except.ok.injEq, Prod.mk.injEq] at h
      rw [← h.2]
      simpa [counts, other] using still
    | some source =>
      simp only [held] at h
      by_cases own : src = a
      · subst own
        rw [before.held, Option.some.injEq] at held
        subst held
        cases inOrder : bgpPeerSeqnumCheck peer msg with
        | false =>
          simp only [bgpPeerHandleMessage, inOrder, Bool.not_false, if_true, Except.ok.injEq, Prod.mk.injEq] at h
          rw [← h.2]
          simpa [counts, inOrder] using still
        | true =>
          obtain ⟨now, kept⟩ := before.counted
          have reports := handleMessage_reports (a := src) before.held inOrder calm (fun _ => before.up) h
          obtain ⟨peer', bodies, informs, recv⟩ := reports.informs now
          have spoken := informs.spoken
          have spoken' : Spoken src r _ peer peer' bodies :=
            ⟨spoken.lookup, .inl (spoken.up now.up), spoken.sends, spoken.sent, spoken.keys, spoken.legit⟩
          refine ⟨peer', bodies, ⟨spoken', informs.after, fun q => ?_⟩, ?_⟩
          · rw [← informs.exports, show exported (counted r src) src = exported r src from funext kept]
          · simpa [counts, inOrder, countedPeer] using recv
      · have uncounted : counts a peer (.handleMessage src msg) = 0 := by simp [counts, own]
        rw [uncounted]
        cases inOrder : bgpPeerSeqnumCheck source msg with
        | false =>
          simp only [bgpPeerHandleMessage, inOrder, Bool.not_false, if_true, Except.ok.injEq, Prod.mk.injEq] at h
          rw [← h.2]
          exact still
        | true =>
          have counting : Reports a r (counted r src) :=
            .of_untouched (modifyPeer_other (Ne.symm own)) (SameExporter.modify r src fun _ => rfl) rfl
          have reports := handleMessage_reports held inOrder calm (fun same => absurd same.symm own) h
          exact (counting.trans reports).informs before
  | addNetwork p =>
    rw [exec_addNetwork] at h
    split at h
    · cases h
      exact still
    · have originates : Prepared r (originated r p) := ⟨rfl, fun _ => rfl⟩
      apply (disseminate_reports originates (originated_findExact r p) _ h).informs before
      intro q differ
      exact (Rib.findExact_addRoute ..).trans (if_neg differ)
  | delNetwork p =>
    rw [exec_delNetwork] at h
    split at h
    · have withdraws : Prepared r (unoriginated r p) := ⟨rfl, fun _ => rfl⟩
      apply (disseminate_reports withdraws _ _ h).informs before
      · exact (Rib.findExact_removeRoute ..).trans (if_pos rfl)
      · intro q differ
        exact (Rib.findExact_removeRoute ..).trans (if_neg differ)
    · cases h
      exact still
  | rerun p =>
    simp only [exec, execCode, bgpRouterRerun, except_map_eq_ok] at h
    obtain ⟨_, ⟨_, ran, rfl⟩, rfl⟩ := h
    have reports : Reports a r _ := foldlM_invariant
      (fun _ sofar stepped => sofar.trans (decisionProcess_reports stepped)) (Reports.refl a r) ran
    exact reports.informs before
  | netChange rt env =>
    have changed : r' = { r with rt := rt, env := env } := by
      simpa [exec, execCode, Except.map] using h.symm
    subst changed
    have same : SameExporter r { r with rt := rt, env := env } := ⟨rfl, rfl, rfl, rfl, calm, fun _ => rfl⟩
    have kept (q : Pfx) : exported { r with rt := rt, env := env } a q = exported r a q :=
      exported_same same before.held before.reads rfl
    refine ⟨peer, [], ⟨.still before.held (.inr before.up) rfl rfl,
      ⟨before.held, before.up, before.enabled, before.reads, fun q => ?_⟩, fun q => (kept q).symm⟩, rfl⟩
    rw [kept]
    exact before.keys q
  | openSession | closeSession | sessionRefresh | clearRib => cases calm

/-! ### Runs -/

/-- Since the state `r` the peer was told `bodies`, which lead from what it knew to what is exported to it. -/
structure Tracks (a : NetAddr) (r s : Router) (peer : Peer) (known : Pfx → Option Attr) (bodies : List MsgBody) :
    Prop where
  upToDate : ∃ peer', UpToDate a s peer' ∧ peer'.srcAddr = peer.srcAddr ∧ peer'.virtual = peer.virtual ∧
    peer'.sendSeqNum = peer.sendSeqNum + bodies.length
  sent : toward a s.outbox = toward a r.outbox ++ numbered peer.srcAddr a peer.sendSeqNum bodies
  exports : ∀ q, replayAttr known bodies q = exported s a q

/-- The session stays between the same addresses. -/
theorem configured_line (configured : Configured r r') (held : r.peers.lookup a = some peer)
    (held' : r'.peers.lookup a = some peer') : peer'.srcAddr = peer.srcAddr ∧ peer'.virtual = peer.virtual := by
  have peers := configured.peers a
  rw [held, held', Option.map_some, Option.map_some, Option.some.injEq] at peers
  have sources := congrArg Peer.srcAddr peers
  have kinds := congrArg Peer.virtual peers
  exact ⟨sources, kinds⟩

section Tracks

variable {known : Pfx → Option Attr} {bodies : List MsgBody}

theorem Tracks.step {op : Op} (tracks : Tracks a r s peer known bodies) (calm : Calm s op)
    (line : delivers s.env a peer = true) (h : exec s op = .ok r') : ∃ bodies', Tracks a r r' peer known bodies' := by
  obtain ⟨peer', before, source, kind, sends⟩ := tracks.upToDate
  obtain ⟨peer'', told, informs, _⟩ := exec_informs before calm h
  have spoken := informs.spoken
  obtain ⟨source', kind'⟩ := configured_line (exec_configured h) before.held spoken.lookup
  -- the line is that of the peer as it was at the start, which has the same addresses
  have here : delivers s.env a peer' = true := by
    rw [← line, delivers, delivers, source, kind]
  refine ⟨bodies ++ told, ⟨peer'', informs.after, source'.trans source, kind'.trans kind, ?_⟩, ?_, fun q => ?_⟩
  · rw [spoken.sends, sends, List.length_append, Nat.add_assoc]
  · rw [spoken.sent, here, if_pos rfl, tracks.sent, source, sends, numbered_append, List.append_assoc]
  · rw [replayAttr_append, funext tracks.exports, informs.exports]

theorem Tracks.run {ops : List Op} (tracks : Tracks a r s peer known bodies)
    (calm : ∀ entry ∈ loopStates exec s ops, Calm entry.1 entry.2)
    (line : ∀ entry ∈ loopStates exec s ops, delivers entry.1.env a peer = true)
    (ran : ops.foldlM exec s = .ok r') : ∃ bodies', Tracks a r r' peer known bodies' := by
  induction ops generalizing s bodies with
  | nil =>
    cases ran
    exact ⟨bodies, tracks⟩
  | cons op ops inductionHypothesis =>
    rw [List.foldlM_cons, except_bind_eq_ok] at ran
    obtain ⟨mid, stepped, rest⟩ := ran
    have states : loopStates exec s (op :: ops) = (s, op) :: loopStates exec mid ops := by
      rw [loopStates, stepped]
    rw [states, List.forall_mem_cons] at calm line
    obtain ⟨_, tracks'⟩ := tracks.step calm.1 line.1 stepped
    exact inductionHypothesis tracks' calm.2 line.2 rest

end Tracks

/-- As long as the sessions of a router are left alone and its messages to an established peer leave, these messages,
replayed in order, lead for every prefix from what the router exported to the peer to what it exports now, and the
Adj-RIB-Out holds just the prefixes it exports. -/
theorem exports_told {ops : List Op} (before : UpToDate a r peer)
    (calm : ∀ entry ∈ loopStates exec r ops, Calm entry.1 entry.2)
    (line : ∀ entry ∈ loopStates exec r ops, delivers entry.1.env a peer = true)
    (ran : ops.foldlM exec r = .ok r') :
    ∃ peer' bodies, UpToDate a r' peer' ∧
      toward a r'.outbox = toward a r.outbox ++ numbered peer.srcAddr a peer.sendSeqNum bodies ∧
      ∀ q, replayAttr (exported r a) bodies q = exported r' a q := by
  have start : Tracks a r r peer (exported r a) [] :=
    ⟨⟨peer, before, rfl, rfl, rfl⟩, (List.append_nil _).symm, fun q => rfl⟩
  obtain ⟨bodies, tracks⟩ := start.run calm line ran
  obtain ⟨peer', upToDate, _⟩ := tracks.upToDate
  exact ⟨peer', bodies, upToDate, tracks.sent, tracks.exports⟩

/-- A router with its session to a peer established. -/
def upRouter (rid remote : NetAddr) : Router :=
  bgpRouterAddPeer (bgpRouterCreate rid.toUInt16 rid ∅ Env.default) remote
    { bgpPeerCreate remote.toUInt16 with
      srcAddr := rid
      sessionState := .established
      routerId := remote
      sendSeqNum := 1
      recvSeqNum := 1 }

/-- The router has announced nothing to its peer yet, and has nothing to announce. -/
theorem upRouter_upToDate : UpToDate 1 (upRouter 2 1) { bgpPeerCreate 1 with
    srcAddr := 2, sessionState := .established, routerId := 1, sendSeqNum := 1, recvSeqNum := 1 } :=
  ⟨rfl, rfl, rfl, acceptAll_readsRoute, fun _ => rfl⟩

/-- A router of AS 2 announces a network to its peer of AS 1 and takes it back. -/
theorem exports_told_network : ∃ r', exported r' 1 ⟨0x0a000000, 8, short8⟩ = none ∧
    ∃ bodies, toward 1 r'.outbox = numbered 2 1 1 bodies ∧
      ∀ q, replayAttr (exported (upRouter 2 1) 1) bodies q = exported r' 1 q := by
  have ran : okAnd ([.addNetwork ⟨0x0a000000, 8, short8⟩, .delNetwork ⟨0x0a000000, 8, short8⟩].foldlM exec
      (upRouter 2 1)) (fun r => decide (exported r 1 ⟨0x0a000000, 8, short8⟩ = none)) = true := by
    decide +kernel
  obtain ⟨r', ran, gone⟩ := okAnd_iff.mp ran
  have line : ∀ entry ∈ loopStates exec (upRouter 2 1)
      [.addNetwork ⟨0x0a000000, 8, short8⟩, .delNetwork ⟨0x0a000000, 8, short8⟩],
      delivers entry.1.env 1 { bgpPeerCreate 1 with
        srcAddr := 2, sessionState := .established, routerId := 1, sendSeqNum := 1, recvSeqNum := 1 } = true := by
    decide +kernel
  have calm : ∀ entry ∈ loopStates exec (upRouter 2 1)
      [.addNetwork ⟨0x0a000000, 8, short8⟩, .delNetwork ⟨0x0a000000, 8, short8⟩], Calm entry.1 entry.2 := by
    intro entry member
    have op := loopStates_snd member
    simp only [List.mem_cons, List.not_mem_nil, or_false] at op
    obtain added | deleted := op
    · rw [added]
      trivial
    · rw [deleted]
      trivial
  obtain ⟨_, bodies, _, sent, exports⟩ := exports_told upRouter_upToDate calm line ran
  exact ⟨r', of_decide_eq_true gone, bodies, sent, exports⟩

end Reports

end Cbgp.Verified
