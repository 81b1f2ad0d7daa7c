import Cbgp.Bgp.Router
import Cbgp.Lib.Run

/-! # What the operations leave alone

Three frames, each closed under composition:

* `Sends r r'` — only messages were sent: the Adj-RIB-Outs, the send counters and the outbox may
  differ, nothing else.  Dissemination is such a step (`disseminate_ends`).
* `Quiet r r'` — the RIBs the router selects from, the configuration of the peers and the routing
  table are as before; sessions may have changed.
* `Flagged r r' p g` — of the peers, only flags of Adj-RIB-In routes for one prefix changed, those
  of the peer `a` by `g a`; the Loc-RIB and the routing table may have changed.
-/

namespace Cbgp.Verified

open Cbgp.Lib Cbgp.Net Cbgp.Bgp

/-! ## Parts of a peer -/

/-- A peer without what sending changes. -/
def inSide (peer : Peer) : Peer :=
  { peer with sendSeqNum := 0, adjRibOut := Rib.create }

/-- A peer without its RIBs and what sending changes: its configuration and session. -/
def session (peer : Peer) : Peer :=
  { peer with sendSeqNum := 0, adjRibOut := Rib.create, adjRibIn := Rib.create }

/-- The session of the peer with an address. -/
def sessionAt (router : Router) (addr : NetAddr) : Option Peer :=
  (router.peers.lookup addr).map session

/-- A peer without its session and what sending changes: its configuration and Adj-RIB-In. -/
def settled (peer : Peer) : Peer :=
  { peer.resetSession .idle with adjRibOut := Rib.create }

/-! ## Looking through updates of the peers -/

theorem modifyPeer_lookup (router : Router) (addr a : NetAddr) (f : Peer → Peer) :
    (router.modifyPeer addr f).peers.lookup a =
      if a = addr then (router.peers.lookup a).map f else router.peers.lookup a :=
  Table.lookup_modify _ _ _ _

theorem modifyPeer_adjRoute (router : Router) (addr a : NetAddr) (p : Pfx) {f : Peer → Peer}
    (same : ∀ peer, (f peer).adjRibIn = peer.adjRibIn) :
    (router.modifyPeer addr f).adjRoute a p = router.adjRoute a p := by
  simp only [Router.adjRoute, modifyPeer_lookup]
  split
  · cases router.peers.lookup a with
    | none => rfl
    | some peer => simp [same]
  · rfl

theorem adjRoute_eq_some {router : Router} {a : NetAddr} {p : Pfx} {route : Route} :
    router.adjRoute a p = some route ↔
      ∃ peer, router.peers.lookup a = some peer ∧ peer.adjRibIn.findExact p = some route := by
  simp [Router.adjRoute, Option.bind_eq_some_iff]

theorem adjRoute_congr (router : Router) (a : NetAddr) {p q : Pfx}
    (same : ipPrefixMask p = ipPrefixMask q) : router.adjRoute a p = router.adjRoute a q := by
  cases held : router.peers.lookup a with
  | none => simp [Router.adjRoute, held]
  | some peer => simpa [Router.adjRoute, held] using peer.adjRibIn.findExact_congr same

theorem adjRoute_pfx {router : Router} {a : NetAddr} {p : Pfx} {route : Route}
    (held : router.adjRoute a p = some route) : ipPrefixMask route.pfx = ipPrefixMask p := by
  obtain ⟨peer, _, found⟩ := adjRoute_eq_some.mp held
  exact Rib.findExact_pfx found

/-! ## Sending -/

/-- Only messages were sent. -/
structure Sends (r r' : Router) : Prop where
  router : r' = { r with peers := r'.peers, outbox := r'.outbox }
  keys : r'.peers.keys = r.peers.keys
  peers : ∀ a, (r'.peers.lookup a).map inSide = (r.peers.lookup a).map inSide

namespace Sends

theorem refl (r : Router) : Sends r r := ⟨rfl, rfl, fun _ => rfl⟩

theorem trans {r s t : Router} (first : Sends r s) (second : Sends s t) : Sends r t where
  router := by
    have second' := second.router
    rw [first.router] at second'
    exact second'
  keys := second.keys.trans first.keys
  peers a := (second.peers a).trans (first.peers a)

theorem locRib {r r' : Router} (sends : Sends r r') : r'.locRib = r.locRib := by
  rw [sends.router]

theorem localNets {r r' : Router} (sends : Sends r r') : r'.localNets = r.localNets := by
  rw [sends.router]

theorem rt {r r' : Router} (sends : Sends r r') : r'.rt = r.rt := by
  rw [sends.router]

theorem env {r r' : Router} (sends : Sends r r') : r'.env = r.env := by
  rw [sends.router]

theorem asn {r r' : Router} (sends : Sends r r') : r'.asn = r.asn := by
  rw [sends.router]

theorem adjRoute {r r' : Router} (sends : Sends r r') (a : NetAddr) (p : Pfx) :
    r'.adjRoute a p = r.adjRoute a p := by
  have through (t : Router) : t.adjRoute a p =
      ((t.peers.lookup a).map inSide).bind fun peer => peer.adjRibIn.findExact p := by
    simp only [Router.adjRoute]
    cases t.peers.lookup a with
    | none => rfl
    | some peer => rfl
  rw [through, through, sends.peers a]

theorem sessionAt {r r' : Router} (sends : Sends r r') (a : NetAddr) :
    sessionAt r' a = sessionAt r a := by
  have through (t : Router) :
      Verified.sessionAt t a = ((t.peers.lookup a).map inSide).map session := by
    simp only [Verified.sessionAt, Option.map_map]
    rfl
  rw [through, through, sends.peers a]

/-- Changing a peer only in what sending changes. -/
theorem modifyPeer (r : Router) (addr : NetAddr) {f : Peer → Peer}
    (same : ∀ peer, inSide (f peer) = inSide peer) : Sends r (r.modifyPeer addr f) where
  router := rfl
  keys := Table.keys_modify _ _ _
  peers a := by
    rw [modifyPeer_lookup]
    split
    · cases r.peers.lookup a with
      | none => rfl
      | some peer => simp [same]
    · rfl

theorem outbox (r : Router) (sent : List Sent) : Sends r { r with outbox := sent } :=
  ⟨rfl, rfl, fun _ => rfl⟩

end Sends

theorem bgpPeerSend_sends (router : Router) (addr : NetAddr) (body : MsgBody) :
    Sends router (bgpPeerSend router addr body).2 := by
  unfold bgpPeerSend
  cases router.peers.lookup addr with
  | none => exact Sends.refl router
  | some peer =>
    have counted : Sends router
        (router.modifyPeer addr fun p => { p with sendSeqNum := p.sendSeqNum + 1 }) :=
      Sends.modifyPeer router addr fun _ => rfl
    simp only
    split
    · exact counted
    · split
      · exact counted.trans (Sends.outbox _ _)
      · exact counted

theorem ribOutWithdraw_sends (router : Router) (addr : NetAddr) (peer : Peer) (p : Pfx) :
    Sends router (ribOutWithdraw router addr peer p) := by
  unfold ribOutWithdraw
  cases peer.adjRibOut.findExact p with
  | none => exact Sends.refl router
  | some _ =>
    have removed : Sends router
        (router.modifyPeer addr fun p' => { p' with adjRibOut := p'.adjRibOut.removeRoute p }) :=
      Sends.modifyPeer router addr fun _ => rfl
    exact removed.trans (bgpPeerSend_sends _ _ _)

/-- What a dissemination to one peer does: nothing, a withdraw, or an announcement. -/
theorem disseminateToPeer_cases {router router' : Router} {p : Pfx} {route : Option Route}
    {addr : NetAddr} (h : disseminateToPeer router p route addr = .ok router') :
    ((∀ peer, router.peers.lookup addr = some peer → peer.sessionState ≠ .established) ∧
        router' = router) ∨
      (∃ peer, router.peers.lookup addr = some peer ∧ peer.sessionState = .established ∧
        ((route = none ∨ ∃ r, route = some r ∧ exportRoute router peer r = .ok none) ∧
          router' = ribOutWithdraw router addr peer p ∨
        ∃ r announced, route = some r ∧ exportRoute router peer r = .ok (some announced) ∧
          router' = bgpRouterPeerRibOutReplace (bgpPeerAnnounceRoute router addr announced) addr r)) := by
  unfold disseminateToPeer at h
  cases held : router.peers.lookup addr with
  | none =>
    simp only [held, Except.ok.injEq] at h
    exact .inl ⟨fun _ absent => (by cases absent), h.symm⟩
  | some peer =>
    simp only [held] at h
    split at h
    next down =>
      cases h
      exact .inl ⟨fun peer' same => Option.some.inj same ▸ down, rfl⟩
    next established =>
      -- No route and a route that the filter stops are withdrawn alike.
      refine .inr ⟨peer, rfl, by simpa using established, ?_⟩
      cases route with
      | none =>
        simp only [Except.ok.injEq] at h
        exact .inl ⟨.inl rfl, h.symm⟩
      | some r =>
        simp only [except_bind_eq_ok] at h
        obtain ⟨verdict, exported, h⟩ := h
        cases verdict with
        | none =>
          simp only [Except.ok.injEq] at h
          exact .inl ⟨.inr ⟨r, rfl, exported⟩, h.symm⟩
        | some announced =>
          simp only [Except.ok.injEq] at h
          exact .inr ⟨r, announced, rfl, exported, h.symm⟩

/-! ### How sending can fail -/

/-- The aborts of comparing and exporting routes. -/
def Routing (e : Abort) : Prop :=
  e ∈ [Abort.pathLastAs, .commsFull, .originatorSet, .ecommRedAction, .filter, .igpCost,
    .dpRuleUnset, .dpNotSingle, .danglingPeer, .danglingRoute]

theorem routePeerGet_ends (router : Router) (route : Route) :
    Ends (fun _ => True) Routing (routePeerGet router route) := by
  unfold routePeerGet
  split
  · trivial
  · split
    · simp [Ends, Routing]
    · trivial

theorem redistribute_ends (router : Router) (src : Option Peer) (dst : Peer) (route : Route) :
    Ends (fun _ => True) Routing (redistribute router src dst route) := by
  refine Ends.intro (fun _ _ => trivial) fun e failed => ?_
  unfold redistribute at failed
  -- the only failing branch is `route_originator_set` on a local route
  repeat' split at failed
  all_goals cases failed
  simp [Routing]

theorem bgpRouterEcommProcess_ends (router : Router) (dst : Peer) (comms : List Ecomm) (attr : Attr) :
    Ends (fun _ => True) Routing (bgpRouterEcommProcess router dst comms attr) := by
  induction comms generalizing attr with
  | nil => trivial
  | cons comm comms inductionHypothesis =>
    rw [bgpRouterEcommProcess]
    split
    · split
      · exact inductionHypothesis _
      · refine Ends.bind (P := fun _ => True) ?_ fun attr _ => inductionHypothesis attr
        refine Ends.bind (P := fun _ => True) ?_ fun _ _ => trivial
        unfold commsAdd
        split
        · trivial
        · simp [Ends, Routing]
      · trivial
      · simp [Ends, Routing]
    · exact inductionHypothesis attr

theorem Filter.apply_ends (filter : Filter) (asn : Asn) (rt : NetRt) (route : Route) :
    Ends (fun _ => True) Routing (filter.apply asn rt route) := by
  refine Ends.intro (fun _ _ => trivial) fun e failed => ?_
  rw [filter.fails failed]
  simp [Routing]

/-- The exported route keeps its prefix. -/
theorem exportRoute_ends (router : Router) (dst : Peer) (route : Route) :
    Ends (fun verdict => ∀ announced, verdict = some announced → announced.pfx = route.pfx) Routing
      (exportRoute router dst route) := by
  have rejected : ∀ announced : Route, none = some announced → announced.pfx = route.pfx := by
    intro announced absent
    cases absent
  refine (routePeerGet_ends router route).bind fun src _ => ?_
  split
  · exact rejected
  · split
    · exact rejected
    · refine (redistribute_ends router src dst route).bind fun verdict _ => ?_
      split
      · exact rejected
      · refine (bgpRouterEcommProcess_ends router dst _ _).bind fun verdict _ => ?_
        split
        · exact rejected
        · refine (Filter.apply_ends dst.filterOut _ _ _).bind fun verdict _ => ?_
          split
          · exact rejected
          · intro announced same
            cases same
            rfl

/-! ### What is exported

It depends on the router's configuration and routing table and on the identity of the source peer:
sending messages does not change it. -/

section Export

variable {r s : Router}

/-- The identity of a source peer. -/
theorem inSide_identity {src src' : Peer} (same : inSide src = inSide src') :
    src.routerId = src'.routerId ∧ src.asn = src'.asn ∧ src.nextHopSelf = src'.nextHopSelf := by
  have routerId := congrArg Peer.routerId same
  have asn := congrArg Peer.asn same
  have nextHopSelf := congrArg Peer.nextHopSelf same
  exact ⟨routerId, asn, nextHopSelf⟩

theorem redistribute_sends (sends : Sends r s) (dst : Peer) (route : Route) {src src' : Option Peer}
    (same : src.map inSide = src'.map inSide) :
    redistribute s src dst route = redistribute r src' dst route := by
  rw [sends.router]
  cases src with
  | none =>
    cases src' with
    | none => rfl
    | some src' => cases same
  | some src =>
    cases src' with
    | none => cases same
    | some src' =>
      obtain ⟨routerId, asn, _⟩ := inSide_identity (Option.some.inj same)
      simp only [redistribute, routerId, asn]

theorem bgpRouterEcommProcess_sends (sends : Sends r s) (dst : Peer) (comms : List Ecomm)
    (attr : Attr) :
    bgpRouterEcommProcess s dst comms attr = bgpRouterEcommProcess r dst comms attr := by
  have asn := sends.asn
  have env := sends.env
  induction comms generalizing attr with
  | nil => rfl
  | cons comm comms inductionHypothesis =>
    simp only [bgpRouterEcommProcess, inductionHypothesis, asn, env]

theorem updateBeforeAnnounce_sends (sends : Sends r s) (dst : Peer) (attr : Attr)
    {src src' : Option Peer} (same : src.map inSide = src'.map inSide) :
    updateBeforeAnnounce s src dst attr = updateBeforeAnnounce r src' dst attr := by
  rw [sends.router]
  cases src with
  | none =>
    cases src' with
    | none => rfl
    | some src' => cases same
  | some src =>
    cases src' with
    | none => cases same
    | some src' =>
      obtain ⟨_, asn, nextHopSelf⟩ := inSide_identity (Option.some.inj same)
      simp only [updateBeforeAnnounce, asn, nextHopSelf]

theorem routePeerGet_sends (sends : Sends r s) (route : Route) :
    (∃ e, routePeerGet s route = .error e ∧ routePeerGet r route = .error e) ∨
      ∃ src src', routePeerGet s route = .ok src ∧ routePeerGet r route = .ok src' ∧
        src.map inSide = src'.map inSide := by
  unfold routePeerGet
  cases route.peer with
  | none => exact .inr ⟨none, none, rfl, rfl, rfl⟩
  | some addr =>
    have same := sends.peers addr
    cases held : s.peers.lookup addr with
    | none =>
      cases held' : r.peers.lookup addr with
      | none => exact .inl ⟨.danglingPeer, by simp [held], by simp [held']⟩
      | some peer' => simp [held, held'] at same
    | some peer =>
      cases held' : r.peers.lookup addr with
      | none => simp [held, held'] at same
      | some peer' =>
        refine .inr ⟨some peer, some peer', by simp [held], by simp [held'], ?_⟩
        rw [← held, ← held', same]

theorem exportRoute_sends (sends : Sends r s) (dst : Peer) (route : Route) :
    exportRoute s dst route = exportRoute r dst route := by
  unfold exportRoute
  obtain ⟨e, failed, failed'⟩ | ⟨src, src', got, got', same⟩ := routePeerGet_sends sends route
  · rw [failed, failed']
    rfl
  · have neighbour : src.any (fun src => dst.routerId = src.routerId) =
        src'.any (fun src => dst.routerId = src.routerId) := by
      have through (x : Option Peer) : x.any (fun src => dst.routerId = src.routerId) =
          (x.map inSide).any (fun src => dst.routerId = src.routerId) := by
        cases x with
        | none => rfl
        | some peer => rfl
      rw [through, same, ← through]
    rw [got, got']
    simp only [bind, Except.bind]
    rw [neighbour, redistribute_sends sends dst route same, sends.asn, sends.rt]
    simp only [bgpRouterEcommProcess_sends sends, updateBeforeAnnounce_sends sends dst _ same]

end Export

/-! ### Dissemination -/

theorem disseminateToPeer_ends (router : Router) (p : Pfx) (route : Option Route) (addr : NetAddr) :
    Ends (Sends router) Routing (disseminateToPeer router p route addr) := by
  refine Ends.intro (fun router' h => ?_) fun e failed => ?_
  · cases disseminateToPeer_cases h with
    | inl same => exact same.2 ▸ Sends.refl router
    | inr sent =>
      obtain ⟨peer, _, _, ⟨_, rfl⟩ | ⟨r, announced, _, _, rfl⟩⟩ := sent
      · exact ribOutWithdraw_sends router addr peer p
      · exact (bgpPeerSend_sends router addr _).trans (Sends.modifyPeer _ addr fun _ => rfl)
  · unfold disseminateToPeer at failed
    split at failed
    · cases failed
    · split at failed
      · cases failed
      · split at failed
        · cases failed
        next peer _ _ _ route =>
          refine Ends.error (P := fun _ => True)
            (Ends.bind (exportRoute_ends router peer route) fun verdict _ => ?_) failed
          cases verdict with
          | none => trivial
          | some announced => trivial

theorem disseminate_ends (router : Router) (p : Pfx) (route : Option Route) :
    Ends (Sends router) Routing (disseminate router p route) := by
  refine Ends.loop (fun mid addr _ sends => ?_) (Sends.refl router)
  split
  · exact sends
  · split
    · exact (disseminateToPeer_ends mid p route addr).mono (fun _ => sends.trans) fun _ => id
    · exact sends

/-! ## Steps that leave the RIBs alone -/

/-- The Adj-RIB-Ins, the Loc-RIB, the local networks, the routing table and the configuration are
the same. -/
structure Alike (r r' : Router) : Prop where
  router : r' = { r with peers := r'.peers, outbox := r'.outbox }
  keys : r'.peers.keys = r.peers.keys
  ribs : ∀ a, (r'.peers.lookup a).map settled = (r.peers.lookup a).map settled

namespace Alike

theorem refl (r : Router) : Alike r r := ⟨rfl, rfl, fun _ => rfl⟩

theorem trans {r s t : Router} (first : Alike r s) (second : Alike s t) : Alike r t where
  router := by
    have second' := second.router
    rw [first.router] at second'
    exact second'
  keys := second.keys.trans first.keys
  ribs a := (second.ribs a).trans (first.ribs a)

theorem symm {r s : Router} (alike : Alike r s) : Alike s r where
  router := by
    rw [alike.router]
  keys := alike.keys.symm
  ribs a := (alike.ribs a).symm

theorem locRib {r r' : Router} (alike : Alike r r') : r'.locRib = r.locRib := by
  rw [alike.router]

theorem localNets {r r' : Router} (alike : Alike r r') : r'.localNets = r.localNets := by
  rw [alike.router]

theorem rt {r r' : Router} (alike : Alike r r') : r'.rt = r.rt := by
  rw [alike.router]

theorem adjRoute {r r' : Router} (alike : Alike r r') (a : NetAddr) (p : Pfx) :
    r'.adjRoute a p = r.adjRoute a p := by
  have through (t : Router) : t.adjRoute a p =
      ((t.peers.lookup a).map settled).bind fun peer => peer.adjRibIn.findExact p := by
    simp only [Router.adjRoute]
    cases t.peers.lookup a with
    | none => rfl
    | some peer => rfl
  rw [through, through, alike.ribs a]

/-- Changing the session of a peer. -/
theorem modifyPeer (r : Router) (addr : NetAddr) {f : Peer → Peer}
    (same : ∀ peer, settled (f peer) = settled peer) : Alike r (r.modifyPeer addr f) where
  router := rfl
  keys := Table.keys_modify _ _ _
  ribs a := by
    rw [modifyPeer_lookup]
    split
    · cases r.peers.lookup a with
      | none => rfl
      | some peer => simp [same]
    · rfl

end Alike

theorem Sends.alike {r r' : Router} (sends : Sends r r') : Alike r r' where
  router := sends.router
  keys := sends.keys
  ribs a := by
    have through (t : Router) : (t.peers.lookup a).map settled =
        ((t.peers.lookup a).map inSide).map settled := by
      rw [Option.map_map]
      rfl
    rw [through, through, sends.peers a]

/-! ### What is sent -/

/-- What a router says to a peer: an UPDATE is the export of a Loc-RIB route. -/
inductive Says (r : Router) (peer : Peer) (dst : NetAddr) : MsgBody → Prop where
  | close : Says r peer dst .close
  | open : Says r peer dst (.open r.rid)
  | withdraw (p : Pfx) : Says r peer dst (.withdraw p)
  | update (best announced : Route) (held : r.locRib.findExact best.pfx = some best)
      (fit : exportRoute r peer best = .ok (some announced)) :
      Says r peer dst (.update { announced with peer := some dst })

/-- The message was sent by the router, perhaps in another state of its sessions. -/
def SentBy (r : Router) (sent : Sent) : Prop :=
  ∃ s peer, Alike r s ∧ s.peers.lookup sent.dst = some peer ∧ peer.virtual = false ∧
    sent.src = peer.srcAddr ∧ Says s peer sent.dst sent.msg.body

theorem SentBy.congr {r s : Router} {sent : Sent} (sentBy : SentBy s sent) (alike : Alike r s) :
    SentBy r sent := by
  obtain ⟨t, peer, alike', rest⟩ := sentBy
  exact ⟨t, peer, alike.trans alike', rest⟩

/-- Every message that was added to the outbox was sent by the router. -/
def Posts (r r' : Router) : Prop :=
  ∀ sent ∈ r'.outbox, sent ∈ r.outbox ∨ SentBy r sent

namespace Posts

variable {r s t : Router}

theorem of_outbox (same : s.outbox = r.outbox) : Posts r s :=
  fun _ member => .inl (same ▸ member)

theorem trans (alike : Alike r s) (first : Posts r s) (second : Posts s t) : Posts r t := by
  intro sent member
  cases second sent member with
  | inl earlier => exact first sent earlier
  | inr sentBy => exact .inr (sentBy.congr alike)

end Posts

theorem bgpPeerSend_posts {r : Router} {addr : NetAddr} {body : MsgBody}
    (utters : ∀ peer, r.peers.lookup addr = some peer → Says r peer addr body) :
    Posts r (bgpPeerSend r addr body).2 := by
  simp only [bgpPeerSend]
  cases held : r.peers.lookup addr with
  | none => exact Posts.of_outbox rfl
  | some peer =>
    simp only
    split
    · exact Posts.of_outbox rfl
    next real =>
      split
      · intro sent member
        cases List.mem_append.mp member with
        | inl earlier => exact .inl earlier
        | inr new =>
          rw [List.mem_singleton.mp new]
          exact .inr ⟨r, peer, Alike.refl r, held, by simpa using real, rfl, utters peer held⟩
      · exact Posts.of_outbox rfl

theorem disseminateToPeer_posts {r r' : Router} {p : Pfx} {route : Option Route} {addr : NetAddr}
    (known : ∀ best, route = some best → r.locRib.findExact best.pfx = some best)
    (h : disseminateToPeer r p route addr = .ok r') : Posts r r' := by
  cases disseminateToPeer_cases h with
  | inl same => exact same.2 ▸ Posts.of_outbox rfl
  | inr sent =>
    obtain ⟨peer, held, _, ⟨_, rfl⟩ | ⟨best, announced, isBest, exported, rfl⟩⟩ := sent
    · simp only [ribOutWithdraw]
      cases peer.adjRibOut.findExact p with
      | none => exact Posts.of_outbox rfl
      | some _ =>
        have removed := Alike.modifyPeer r addr
          (f := fun p' => { p' with adjRibOut := p'.adjRibOut.removeRoute p }) fun _ => rfl
        exact Posts.trans removed (Posts.of_outbox rfl) (bgpPeerSend_posts fun _ _ => .withdraw p)
    · have utters : ∀ peer', r.peers.lookup addr = some peer' →
          Says r peer' addr (.update { announced with peer := some addr }) := by
        intro peer' held'
        rw [held] at held'
        cases held'
        exact .update best announced (known best isBest) exported
      exact bgpPeerSend_posts utters

theorem Rib.findExact_self {rib : Rib} {p : Pfx} {route : Route}
    (found : rib.findExact p = some route) : rib.findExact route.pfx = some route :=
  (rib.findExact_congr (Rib.findExact_pfx found)).trans found

/-! ### Quiet steps -/

/-- The Adj-RIB-Ins, the Loc-RIB, the local networks, the routing table and the configuration are as
before, and what was sent is known. -/
structure Quiet (r r' : Router) : Prop extends Alike r r' where
  posts : Posts r r'

namespace Quiet

theorem refl (r : Router) : Quiet r r := ⟨Alike.refl r, Posts.of_outbox rfl⟩

theorem trans {r s t : Router} (first : Quiet r s) (second : Quiet s t) : Quiet r t :=
  ⟨first.toAlike.trans second.toAlike, first.posts.trans first.toAlike second.posts⟩

theorem modify {r s : Router} (quiet : Quiet r s) {addr : NetAddr} {f : Peer → Peer}
    (same : ∀ peer, settled (f peer) = settled peer) : Quiet r (s.modifyPeer addr f) :=
  quiet.trans ⟨Alike.modifyPeer s addr same, Posts.of_outbox rfl⟩

theorem send {r s : Router} (quiet : Quiet r s) (addr : NetAddr) {body : MsgBody}
    (utters : ∀ peer, Says s peer addr body) : Quiet r (bgpPeerSend s addr body).2 :=
  quiet.trans ⟨(bgpPeerSend_sends s addr body).alike, bgpPeerSend_posts fun peer _ => utters peer⟩

end Quiet

theorem disseminateToPeer_quiet {r s : Router} {p : Pfx} {route : Option Route} {addr : NetAddr}
    (sofar : Quiet r s)
    (known : ∀ best, route = some best → s.locRib.findExact best.pfx = some best) :
    Ends (Quiet r) Routing (disseminateToPeer s p route addr) := by
  apply Ends.intro
  · intro t told
    have sends := (disseminateToPeer_ends s p route addr).value told
    exact sofar.trans ⟨sends.alike, disseminateToPeer_posts known told⟩
  · intro e failed
    exact (disseminateToPeer_ends s p route addr).error failed

/-- Dissemination of a Loc-RIB route, or of the lack of one, is quiet. -/
theorem disseminate_quiet (r : Router) (p : Pfx) (route : Option Route)
    (known : ∀ best, route = some best → r.locRib.findExact best.pfx = some best) :
    Ends (Quiet r) Routing (disseminate r p route) := by
  refine Ends.loop (fun s addr _ sofar => ?_) (Quiet.refl r)
  split
  · exact sofar
  · split
    · exact disseminateToPeer_quiet sofar fun best isBest => sofar.locRib ▸ known best isBest
    · exact sofar

theorem disseminateLocRib_quiet (r : Router) (addr : NetAddr) :
    Ends (Quiet r) Routing (disseminateLocRib r addr) := by
  refine Ends.loop (fun s key _ sofar => ?_) (Quiet.refl r)
  split
  · exact sofar
  next route found =>
    refine disseminateToPeer_quiet sofar fun best isBest => ?_
    cases isBest
    exact Rib.findExact_self found

/-! ## Flags -/

/-- Of the peers, only flags of Adj-RIB-In routes for `p` changed. -/
structure Flagged (r r' : Router) (p : Pfx) (g : NetAddr → RouteFlags → RouteFlags) : Prop where
  router : r' = { r with
    peers := r'.peers, locRib := r'.locRib, rt := r'.rt, outbox := r'.outbox }
  keys : r'.peers.keys = r.peers.keys
  session : ∀ a, sessionAt r' a = sessionAt r a
  adj : ∀ a q, r'.adjRoute a q =
    if ipPrefixMask q = ipPrefixMask p then (r.adjRoute a q).map (Route.setFlags · (g a))
    else r.adjRoute a q

namespace Flagged

variable {r s t : Router} {p : Pfx} {g g' : NetAddr → RouteFlags → RouteFlags}

theorem localNets (flagged : Flagged r s p g) : s.localNets = r.localNets := by
  rw [flagged.router]

theorem env (flagged : Flagged r s p g) : s.env = r.env := by
  rw [flagged.router]

theorem asn (flagged : Flagged r s p g) : s.asn = r.asn := by
  rw [flagged.router]

theorem trans (first : Flagged r s p g) (second : Flagged s t p g') :
    Flagged r t p fun a f => g' a (g a f) where
  router := by
    have second' := second.router
    rw [first.router] at second'
    exact second'
  keys := second.keys.trans first.keys
  session a := (second.session a).trans (first.session a)
  adj a q := by
    rw [second.adj, first.adj]
    split
    · rw [Option.map_map]
      rfl
    · rfl

theorem adj_ne (flagged : Flagged r s p g) (a : NetAddr) {q : Pfx}
    (other : ipPrefixMask q ≠ ipPrefixMask p) : s.adjRoute a q = r.adjRoute a q := by
  rw [flagged.adj, if_neg other]

theorem congr {q : Pfx} (flagged : Flagged r s p g) (same : ipPrefixMask p = ipPrefixMask q) :
    Flagged r s q g where
  router := flagged.router
  keys := flagged.keys
  session := flagged.session
  adj a q' := by rw [flagged.adj, same]

theorem flags_ext (flagged : Flagged r s p g) (same : ∀ a f, g a f = g' a f) :
    Flagged r s p g' := by
  have equal : g = g' := funext fun a => funext (same a)
  exact equal ▸ flagged

/-- Nothing changed on the side of the peers. -/
theorem of_peers (r : Router) (p : Pfx) (locRib : Rib) (rt : NetRt) :
    Flagged r { r with locRib := locRib, rt := rt } p fun _ f => f where
  router := rfl
  keys := rfl
  session _ := rfl
  adj a q := by
    split
    · exact Option.map_id'.symm
    · rfl

theorem of_sends {r r' : Router} (p : Pfx) (sends : Sends r r') :
    Flagged r r' p fun _ f => f where
  router := by
    have same := sends.router
    rw [same]
  keys := sends.keys
  session := sends.sessionAt
  adj a q := by
    rw [sends.adjRoute]
    split
    · exact Option.map_id'.symm
    · rfl

/-- Flags set peer by peer. -/
theorem of_mapVals (r : Router) (p : Pfx) (g : NetAddr → RouteFlags → RouteFlags)
    {f : NetAddr → Peer → Peer}
    (same : ∀ a peer, Verified.session (f a peer) = Verified.session peer)
    (set : ∀ a peer, r.peers.lookup a = some peer → ∀ q, (f a peer).adjRibIn.findExact q =
      if ipPrefixMask q = ipPrefixMask p then
        (peer.adjRibIn.findExact q).map (Route.setFlags · (g a))
      else peer.adjRibIn.findExact q) :
    Flagged r { r with peers := r.peers.mapVals f } p g where
  router := rfl
  keys := Table.keys_mapVals _ _
  session a := by
    simp only [sessionAt, Table.lookup_mapVals, Option.map_map]
    cases r.peers.lookup a with
    | none => rfl
    | some peer => simp [same]
  adj a q := by
    simp only [Router.adjRoute, Table.lookup_mapVals]
    cases held : r.peers.lookup a with
    | none => simp
    | some peer => simpa using set a peer held q

end Flagged

theorem findExact_map_self (rib : Rib) (p q : Pfx) :
    rib.findExact q = if ipPrefixMask q = ipPrefixMask p then
      (rib.findExact q).map (Route.setFlags · id) else rib.findExact q := by
  split
  · exact Option.map_id'.symm
  · rfl

/-- Flags of the routes of some peers. -/
theorem setListFlags_flagged (router : Router) (routes : List Cand) (p : Pfx)
    (f : RouteFlags → RouteFlags) :
    Flagged router (setListFlags router routes p f) p
      fun a => if routes.any (·.addr = a) then f else id := by
  refine Flagged.of_mapVals router p _ (fun a peer => ?_) (fun a peer _ q => ?_)
  · split
    · rfl
    · rfl
  · cases routes.any (·.addr = a) with
    | true => exact Rib.findExact_setFlags _ _ _ _
    | false => exact findExact_map_self _ _ _

/-- Flags of the route of one peer. -/
theorem setAdjFlags_flagged (router : Router) (addr : NetAddr) (p : Pfx)
    (f : RouteFlags → RouteFlags) :
    Flagged router (router.setAdjFlags addr p f) p fun a => if a = addr then f else id := by
  refine Flagged.of_mapVals router p _ (fun a peer => ?_) (fun a peer _ q => ?_)
  · split
    · rfl
    · rfl
  · by_cases same : a = addr
    · simp only [same, if_true]
      exact Rib.findExact_setFlags _ _ _ _
    · simp only [same, if_false]
      exact findExact_map_self _ _ _

/-- What `updateFeasible` does to the flags of a peer's route. -/
def feasibleFlag (router : Router) (p : Pfx) (addr : NetAddr) (f : RouteFlags) : RouteFlags :=
  match router.peers.lookup addr with
  | none => f
  | some peer =>
    match peer.adjRibIn.findExact p with
    | none => f
    | some route =>
      if peer.sessionState = .established ∧ route.flags.eligible then
        { f with feasible := nextHopReachable router route }
      else f

theorem updateFeasible_flagged (router : Router) (p : Pfx) :
    Flagged router (updateFeasible router p) p (feasibleFlag router p) := by
  refine Flagged.of_mapVals router p _ (fun a peer => ?_) (fun a peer held q => ?_)
  · split
    · split
      · rfl
      · split
        · rfl
        · rfl
    · rfl
  · have flag : feasibleFlag router p a = fun f =>
        match peer.adjRibIn.findExact p with
        | none => f
        | some route =>
          if peer.sessionState = .established ∧ route.flags.eligible then
            { f with feasible := nextHopReachable router route }
          else f := by
      funext f
      simp only [feasibleFlag, held]
    rw [flag]
    by_cases established : peer.sessionState = .established
    · simp only [established, if_true, true_and]
      cases found : peer.adjRibIn.findExact p with
      | none => exact findExact_map_self _ _ _
      | some route =>
        by_cases eligible : route.flags.eligible
        · simp only [eligible, if_true]
          exact Rib.findExact_setFlags _ _ _ _
        · simp only [eligible]
          exact findExact_map_self _ _ _
    · simp only [established, if_false, false_and]
      cases peer.adjRibIn.findExact p with
      | none => exact findExact_map_self _ _ _
      | some route => exact findExact_map_self _ _ _

end Cbgp.Verified
