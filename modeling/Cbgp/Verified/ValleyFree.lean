import Cbgp.Verified.AsLevelPolicies
import Cbgp.Verified.Export
import Cbgp.Verified.Provenance

/-! # Valley-free routing

In a network built from a consistent AS-level topology, every route that an AS learned came, from its
origin on, over hops to providers, then over at most one hop to a peer, then over hops to customers,
siblings apart — as long as no AS relays a route whose AS-path takes no more hops (`learned_valley_free`).
Such a route is announced without the AS that announces it, so that the path has a hop that is no link
(`hop_left_out`).
-/

namespace Cbgp.Verified

open Cbgp.Lib Cbgp.Net Cbgp.Bgp

/-! ## Sequences of hops -/

/-- A hop by what the AS it leads to is for the AS it comes from. -/
abbrev AsHop := PeerType

/-- Up to providers, over to at most one peer, down to customers; siblings do not count. -/
def ValleyFree (hops : List AsHop) : Prop :=
  ∃ up across down, across ≤ 1 ∧ hops.filter (· ≠ .sibling) =
    List.replicate up .provider ++ List.replicate across .peer ++ List.replicate down .customer

/-- Up to providers only. -/
def Uphill (hops : List AsHop) : Prop :=
  ∀ hop ∈ hops, hop = .provider ∨ hop = .sibling

theorem Uphill.filter {hops : List AsHop} (uphill : Uphill hops) :
    hops.filter (· ≠ .sibling) = List.replicate (hops.filter (· ≠ .sibling)).length .provider := by
  refine List.eq_replicate_iff.mpr ⟨rfl, fun hop member => ?_⟩
  obtain ⟨inside, other⟩ := List.mem_filter.mp member
  cases uphill hop inside with
  | inl up => exact up
  | inr sibling => simp [sibling] at other

theorem Uphill.snoc {hops : List AsHop} {hop : AsHop} (uphill : Uphill hops)
    (up : hop = .provider ∨ hop = .sibling) : Uphill (hops ++ [hop]) := by
  intro hop' member
  rcases List.mem_append.mp member with old | new
  · exact uphill hop' old
  · exact (List.mem_singleton.mp new) ▸ up

theorem valleyFree_nil : ValleyFree [] :=
  ⟨0, 0, 0, by decide, rfl⟩

/-- A hop down, or to a sibling, may follow anything; a hop up or over only hops up. -/
theorem ValleyFree.snoc {hops : List AsHop} {hop : AsHop} (free : ValleyFree hops)
    (uphill : hop = .provider ∨ hop = .peer → Uphill hops) : ValleyFree (hops ++ [hop]) := by
  cases hop with
  | sibling => simpa [ValleyFree, List.filter_append] using free
  | customer =>
    obtain ⟨up, across, down, once, same⟩ := free
    refine ⟨up, across, down + 1, once, ?_⟩
    rw [List.filter_append, same]
    simp [List.replicate_succ']
  | provider =>
    have before := (uphill (.inl rfl)).filter
    refine ⟨(hops.filter (· ≠ .sibling)).length + 1, 0, 0, by omega, ?_⟩
    rw [List.filter_append, before]
    simp [List.replicate_succ']
  | peer =>
    have before := (uphill (.inr rfl)).filter
    refine ⟨(hops.filter (· ≠ .sibling)).length, 1, 0, by omega, ?_⟩
    rw [List.filter_append, before]
    simp

/-! ## Hops of a path -/

/-- The ASNs of an AS-path, the origin first. -/
def pathAsns (path : Option Bgp.Path) : List Asn :=
  (path.getD []).flatMap (·.asns)

/-- The hops between the ASes of a list; `none` is no link. -/
def hopsOf (topo : AsTopo) (asns : List Asn) : List (Option AsHop) :=
  List.zipWith (linkType topo) asns asns.tail

/-- The ASes are connected by these links, one after the other. -/
def Along (topo : AsTopo) (asns : List Asn) (hops : List AsHop) : Prop :=
  hopsOf topo asns = hops.map some

theorem hopsOf_snoc (topo : AsTopo) (asns : List Asn) (u v : Asn) :
    hopsOf topo (asns ++ [u] ++ [v]) = hopsOf topo (asns ++ [u]) ++ [linkType topo u v] := by
  induction asns with
  | nil => rfl
  | cons a asns inductionHypothesis =>
    cases asns with
    | nil => rfl
    | cons b asns =>
      have rest := inductionHypothesis
      simp only [hopsOf, List.cons_append, List.tail_cons, List.zipWith_cons_cons] at rest ⊢
      rw [rest]

theorem Along.snoc {topo : AsTopo} {asns : List Asn} {u v : Asn} {hops : List AsHop} {hop : AsHop}
    (along : Along topo (asns ++ [u]) hops) (linked : linkType topo u v = some hop) :
    Along topo (asns ++ [u] ++ [v]) (hops ++ [hop]) := by
  rw [Along, hopsOf_snoc, along, linked, List.map_append]
  rfl

/-- The path repository gives back the hops it was given. -/
def Interns (env : Env) : Prop :=
  ∀ path, (env.intern path).map (·.asns) = path.map (·.asns)

theorem Interns.flatMap {env : Env} (interns : Interns env) (path : Bgp.Path) :
    (env.intern path).flatMap (·.asns) = path.flatMap (·.asns) := by
  rw [List.flatMap, interns path, List.flatMap]

/-! ## Routes of an AS -/

/-- The route can not be announced any further: each neighbor is on the path already, or is a provider
or a peer from which the policy keeps the route. -/
def Stops (topo : AsTopo) (u : Asn) (kept : Prop) (path : Option Bgp.Path) : Prop :=
  ∀ v type, linkType topo u v = some type →
    pathContains path v = true ∨ (kept ∧ (type = .provider ∨ type = .peer))

/-- The attributes of a route in an AS: it came over valley-free hops, is marked if they were not all
up, and if its path takes no more hops then it goes no further. -/
structure Conforms (topo : AsTopo) (u : Asn) (attr : Attr) : Prop where
  plain : attr.ecomms = none
  hops : ∃ hops, Along topo (pathAsns attr.path ++ [u]) hops ∧ ValleyFree hops ∧
    (tagged attr = false → Uphill hops)
  stops : lastFull (attr.path.getD []) = true → Stops topo u (tagged attr = true) attr.path

/-- The hops of a route that one AS announces to another: it came to the first one over valley-free
hops, which were all up if the next hop is up or over. -/
structure HandsOn (topo : AsTopo) (u v : Asn) (path : Option Bgp.Path) (hops : List AsHop) (hop : AsHop) :
    Prop where
  linked : linkType topo u v = some hop
  path : ∃ asns, pathAsns path = asns ++ [u] ∧ Along topo (asns ++ [u]) hops
  free : ValleyFree hops
  uphill : hop = .provider ∨ hop = .peer → Uphill hops

theorem HandsOn.along {topo : AsTopo} {u v : Asn} {path : Option Bgp.Path} {hops : List AsHop} {hop : AsHop}
    (handsOn : HandsOn topo u v path hops hop) : Along topo (pathAsns path ++ [v]) (hops ++ [hop]) := by
  obtain ⟨asns, same, along⟩ := handsOn.path
  rw [same]
  exact along.snoc handsOn.linked

/-- The attributes of an UPDATE from one AS to another. -/
structure Announced (topo : AsTopo) (u v : Asn) (attr : Attr) : Prop where
  plain : attr.ecomms = none
  hops : ∃ hops hop, HandsOn topo u v attr.path hops hop ∧
    (hop = .sibling → tagged attr = false → Uphill hops)

section Routers

variable {topo : AsTopo} {address : Asn → NetAddr} {world : FtWorld} {u : Asn} {r : Router}

theorem localRoute_conforms (s : Router) (p : Pfx) : Conforms topo u (localRoute s p).attr where
  plain := rfl
  hops := ⟨[], rfl, valleyFree_nil, fun _ _ member => by cases member⟩
  stops full := by simp [localRoute, routeCreate, bgpAttrCreate, lastFull] at full

theorem linkType_ne {u v : Asn} {type : PeerType} (linked : linkType topo u v = some type) : u ≠ v := by
  obtain ⟨d, found, member⟩ := linkType_eq_some.mp linked
  rintro rfl
  exact d.noLoop _ member (domain_eq_some.mp found).2.symm

/-- What an AS announces of a route that conforms. -/
theorem exportRoute_announced (peering : Peering topo address world u r) (interns : Interns r.env)
    {dst : NetAddr} {peer : Peer} {best announced : Route} (held : r.peers.lookup dst = some peer)
    (conforms : Conforms topo u best.attr) (fit : exportRoute r peer best = .ok (some announced)) :
    ∃ v, dst = address v ∧ Announced topo u v announced.attr := by
  obtain ⟨v, hop, linked, link, _, filterOut⟩ := peering.peer held
  refine ⟨v, link.addr, ?_⟩
  obtain ⟨src, attr, attr', attr'', _, _, _, matrix, processed, filtered, rfl⟩ :=
    exportRoute_filtered fit
  have outside : r.asn ≠ peer.asn := by
    rw [peering.asn, link.asn]
    exact linkType_ne linked
  obtain ⟨_, loopFree, rfl⟩ := redistribute_outside outside matrix
  -- without redistribution communities nothing is prepended
  rw [conforms.plain] at processed
  cases processed
  rw [filterOut] at filtered
  obtain ⟨path, ecomms, marks, handsOn⟩ := filterOut_spec filtered
  have samePath : attr''.path = best.attr.path := path
  have noEcomms : attr''.ecomms = none := ecomms.trans (by simp [beforeFilter, conforms.plain,
    ecommsStripNonTransitive])
  have wasTagged : tagged (beforeFilter r peer { best.attr with originator := none, clusterList := none }) =
      tagged best.attr := rfl
  have takes : lastFull (best.attr.path.getD []) = false := by
    by_contra full
    -- the route would have been held back
    cases conforms.stops (by simpa using full) v hop linked with
    | inl onPath => simp [← link.asn, loopFree] at onPath
    | inr kept =>
      have unmarked := handsOn kept.2
      simp only [wasTagged, kept.1] at unmarked
      cases unmarked
  obtain ⟨hops, along, free, uphill⟩ := conforms.hops
  have told : (updateBeforeAnnounce r src peer attr'').path =
      some (r.env.intern (prependAs u (best.attr.path.getD []))) := by
    rw [updateBeforeAnnounce_path outside, samePath, takes, peering.asn]
    rfl
  have rest : (updateBeforeAnnounce r src peer attr'').ecomms = attr''.ecomms ∧
      (updateBeforeAnnounce r src peer attr'').comms = attr''.comms := by
    simp only [updateBeforeAnnounce, if_pos outside]
    rw [bgpAttrPathPrepend_path]
    exact ⟨rfl, rfl⟩
  have stillTagged : tagged (updateBeforeAnnounce r src peer attr'') = tagged attr'' := by
    simp only [tagged, rest.2]
  have untagged : hop = .provider ∨ hop = .peer → Uphill hops := fun above =>
    uphill (handsOn above)
  have asns : pathAsns (updateBeforeAnnounce r src peer attr'').path = pathAsns best.attr.path ++ [u] := by
    rw [told, pathAsns, Option.getD_some, interns.flatMap, pathAsns_prependAs]
    rfl
  refine ⟨rest.1.trans noEcomms, hops, hop, ⟨linked, ⟨_, asns, along⟩, free, untagged⟩,
    fun sibling unmarked => ?_⟩
  -- towards a sibling the communities are as they were
  rw [if_pos sibling] at marks
  have unmarked' : tagged attr'' = false := stillTagged.symm.trans unmarked
  refine uphill ?_
  rw [← unmarked', tagged, tagged, marks]
  rfl

/-- What an AS accepts of an announcement conforms, if it goes no further when its path is full. -/
theorem routeEligible_conforms (mutual' : MutualLinks topo) (peering : Peering topo address world u r)
    (injective : Function.Injective address) {v : Asn} {peer : Peer} {route : Route} {attr : Attr}
    (held : r.peers.lookup (address v) = some peer) (announced : Announced topo v u route.attr)
    (stops : lastFull (route.attr.path.getD []) = true → Stops topo u (tagged route.attr = true ∨
      linkType topo u v = some .provider ∨ linkType topo u v = some .peer) route.attr.path)
    (eligible : bgpPeerRouteEligible r peer (receivedRoute r (address v) peer route) = .ok (some attr)) :
    Conforms topo u attr := by
  obtain ⟨w, type, linked, link, filterIn, _⟩ := peering.peer held
  cases injective link.addr
  -- The checks before the filter only refuse, so an eligible route passed the filter.
  have accepted : (linkFilterIn world type).apply r.asn r.rt (receivedRoute r (address v) peer route) =
      .ok (some attr) := by
    simp only [bgpPeerRouteEligible] at eligible
    split at eligible
    · cases eligible
    split at eligible
    · cases eligible
    split at eligible
    · cases eligible
    obtain ⟨verdict, filtered, eligible⟩ := except_bind_eq_ok.mp eligible
    rw [filterIn] at filtered
    cases verdict with
    | none => cases eligible
    | some attr' =>
      cases eligible
      exact filtered
  obtain ⟨path, ecomms, marks⟩ := filterIn_spec accepted
  have received : (receivedRoute r (address v) peer route).attr.path = route.attr.path ∧
      (receivedRoute r (address v) peer route).attr.ecomms = route.attr.ecomms ∧
      (receivedRoute r (address v) peer route).attr.comms = route.attr.comms := by
    simp only [receivedRoute]
    split
    · exact ⟨rfl, rfl, rfl⟩
    · exact ⟨rfl, rfl, rfl⟩
  have samePath : attr.path = route.attr.path := path.trans received.1
  obtain ⟨hops, hop, handsOn, uphill⟩ := announced.hops
  -- The link is mutual: what the route came over is the reverse of the sender's hop.
  have back : type = aslevelReverseRelation hop := by
    have reversed := mutual' v u hop handsOn.linked
    rw [linked] at reversed
    exact Option.some.inj reversed
  have marked : type = .provider ∨ type = .peer → tagged attr = true := fun above => by
    rwa [if_pos above] at marks
  have unmarked : ¬(type = .provider ∨ type = .peer) → tagged attr = tagged route.attr := fun below => by
    rw [if_neg below] at marks
    simp only [tagged, marks, received.2.2]
  refine ⟨ecomms.trans (received.2.1.trans announced.plain), ⟨hops ++ [hop], samePath ▸ handsOn.along,
    handsOn.free.snoc handsOn.uphill, fun plain => ?_⟩, fun full => ?_⟩
  -- A route without the tag came from a customer or a sibling, so its last hop climbs.
  · have below : ¬(type = .provider ∨ type = .peer) := fun above => by simp [marked above] at plain
    rw [unmarked below] at plain
    cases hop with
    | provider => exact (handsOn.uphill (.inl rfl)).snoc (.inl rfl)
    | sibling => exact (uphill rfl plain).snoc (.inr rfl)
    | customer => exact absurd (.inl back) below
    | peer => exact absurd (.inr back) below
  · rw [samePath] at full ⊢
    intro w' type' linked'
    cases stops full w' type' linked' with
    | inl onPath => exact .inl onPath
    | inr kept =>
      refine .inr ⟨?_, kept.2⟩
      by_cases above : type = .provider ∨ type = .peer
      · exact marked above
      · rw [unmarked above]
        rw [linked, Option.some.injEq, Option.some.injEq] at kept
        exact kept.1.resolve_right above

end Routers

/-! ## Runs -/

section Runs

variable {aslevel ready : AsLevel} {existing : NetAddr → Bool} {env : Asn → Env}
  {world : Asn → FtWorld} {n : Network Asn}

/-- Only peers outside the network, of which there are none, invent messages, and no path repository
changes the hops of a path. -/
def Ordinary (n : Network Asn) (op : NetOp Asn) : Prop :=
  Genuine n op ∧ ∀ u rt env, op = .act u (.netChange rt env) → Interns env

/-- A route whose path takes no more hops goes no further than the AS it is delivered to. -/
def StopsFull (ready : AsLevel) (n : Network Asn) (op : NetOp Asn) : Prop :=
  ∀ u v dst sent rest route, op = .deliver u dst → n.inFlight u dst = sent :: rest →
    ready.owner dst = some v → sent.msg.body = .update route →
    lastFull (route.attr.path.getD []) = true →
    Stops ready.topo v (tagged route.attr = true ∨ linkType ready.topo v u = some .provider ∨
      linkType ready.topo v u = some .peer) route.attr.path

/-- What holds in every state. -/
structure Policed (world : Asn → FtWorld) (ready : AsLevel) (n : Network Asn) : Prop where
  addressed : WellAddressed ready.owner n
  peering : ∀ u, Peering ready.topo ready.addrMapper (world u) u (n.router u)
  interns : ∀ u, Interns (n.router u).env
  vouched : AllVouched (fun u _ attr => Conforms ready.topo u attr)
    (fun u dst attr => ∃ v, dst = ready.addrMapper v ∧ Announced ready.topo u v attr) n

namespace Policed

theorem start (installs : Installs existing env world aslevel ready) (interns : ∀ u, Interns (env u)) :
    Policed world ready (ready.network env) where
  addressed := installs.wellAddressed
  peering u := (installs.network_configured u).2
  interns u := by
    rw [(installs.network_configured u).1.env]
    exact interns u
  vouched u :=
    .of_fresh (installs.network_configured u).1.fresh (installs.network_configured u).1.silent

theorem step (installs : Installs existing env world aslevel ready) (policed : Policed world ready n)
    {op : NetOp Asn} (ordinary : Ordinary n op) (stops : StopsFull ready n op) {n' : Network Asn}
    (h : netStep ready.owner n op = .ok n') : Policed world ready n' := by
  obtain ⟨topo, mapper, _⟩ := installs.ready_eq
  have mutual' : MutualLinks ready.topo :=
    topo ▸ aslevelTopoCheckConsistency_iff.mp installs.consistent
  have injective : Function.Injective ready.addrMapper := mapper ▸ installs.addresses
  refine ⟨policed.addressed.step h, fun u => (policed.peering u).of_configured (netStep_configured h u),
    netStep_env policed.interns ordinary.2 h,
    netStep_vouched policed.vouched (fun u => ?_) (fun u s p _ => localRoute_conforms s p) ?_ ?_ h⟩
  · intro s dst peer best announced site _ held _ conforms fit
    refine exportRoute_announced ((policed.peering u).of_configured site.toConfigured) ?_ held conforms fit
    rw [site.env]
    exact policed.interns u
  · -- there are no virtual peers
    rintro u src msg peer rfl held
    obtain ⟨_, _, _, link, _⟩ := (policed.peering u).peer held
    have isVirtual := ordinary.1 peer held
    rw [link.real] at isVirtual
    cases isVirtual
  · rintro u v dst sent rest peer rfl head posted toDst addressee held
    intro s peer' route attr site held' isUpdate eligible
    obtain ⟨w, toW, announced⟩ := (policed.vouched u).sent sent posted route isUpdate
    -- the message went from the address of `u` to the address of `v`
    have toV : dst = ready.addrMapper v := Installs.owner_address addressee
    cases injective (toW.symm.trans (toDst.trans toV))
    obtain ⟨peer'', known, _, src⟩ := policed.addressed.posted u sent posted
    obtain ⟨_, _, _, link, _⟩ := (policed.peering u).peer known
    have fromU : sent.src = ready.addrMapper u := src.trans link.srcAddr
    rw [fromU] at held' eligible
    exact routeEligible_conforms mutual' ((policed.peering v).of_configured site.toConfigured) injective
      held' announced (stops u v dst sent rest route rfl head addressee isUpdate) eligible

end Policed

/-- The routes of all ASes came over valley-free hops, and no AS announces a route to a provider or a
peer that did not come over hops up. -/
structure Valleyless (ready : AsLevel) (n : Network Asn) : Prop where
  learned : ∀ u p route, (n.router u).locRib.findExact p = some route → route.peer ≠ none →
    ∃ hops, Along ready.topo (pathAsns route.attr.path ++ [u]) hops ∧ ValleyFree hops
  announced : ∀ u, ∀ sent ∈ (n.router u).outbox, ∀ route, sent.msg.body = .update route →
    ∃ v hops hop, sent.dst = ready.addrMapper v ∧ HandsOn ready.topo u v route.attr.path hops hop

/-- In every run in which routes whose paths take no more hops go no further, all routes came over
valley-free hops. -/
theorem learned_valley_free (installs : Installs existing env world aslevel ready)
    (interns : ∀ u, Interns (env u))
    (reached : Reach (netStep ready.owner) (fun n op => Ordinary n op ∧ StopsFull ready n op)
      (ready.network env) n) :
    Valleyless ready n := by
  have policed : Policed world ready n :=
    reached.invariant (.start installs interns) fun policed allowed stepped =>
      policed.step installs allowed.1 allowed.2 stepped
  refine ⟨fun u p route held _ => ?_, fun u sent posted route isUpdate => ?_⟩
  · obtain ⟨hops, along, free, _⟩ := ((policed.vouched u).loc held).hops
    exact ⟨hops, along, free⟩
  · obtain ⟨v, toV, announced⟩ := (policed.vouched u).sent sent posted route isUpdate
    obtain ⟨hops, hop, handsOn, _⟩ := announced.hops
    exact ⟨v, hops, hop, toV, handsOn⟩

/-! ### Two ASes -/

/-- The AS 1, a customer of the AS 2. -/
def customerTopo : AsTopo where
  domains := {
    items := [⟨1, ⟨[⟨2, .provider⟩], by decide⟩, by decide⟩, ⟨2, ⟨[⟨1, .customer⟩], by decide⟩, by decide⟩]
    sorted := by decide }
  cachedDomains := (none, none)

/-- A world in which filters find nothing. -/
def plainWorld : FtWorld where
  hasAddress _ := false
  intern := id
  pathExprs _ _ := false
  filters _ := []
  depth := 0

def customerLevel : AsLevel where
  topo := customerTopo
  addrMapper := aslevelAddrSchLocalGet
  state := .loaded
  router _ := none

def customerReady : AsLevel :=
  (aslevelTopoSetupPolicies (fun _ => plainWorld)
    (aslevelTopoBuildNetwork (fun _ => false) (fun _ => Env.default) customerLevel).2).2

theorem customer_installs : Installs (fun _ => false) (fun _ => Env.default) (fun _ => plainWorld)
    customerLevel customerReady where
  consistent := by decide
  addresses := aslevelAddrSchLocalGet_injective
  installed := ⟨_, rfl, rfl⟩

/-- The route that a delivered UPDATE carries takes no more hops. -/
def deliversFull (n : Network Asn) : NetOp Asn → Bool
  | .deliver u dst => (n.inFlight u dst).head?.any fun sent =>
    match sent.msg.body with
    | .update route => lastFull (route.attr.path.getD [])
    | _ => false
  | _ => false

theorem StopsFull.of_room {op : NetOp Asn} (room : deliversFull n op = false) : StopsFull ready n op := by
  rintro u v dst sent rest route rfl head - isUpdate full
  simp [deliversFull, head, isUpdate, full] at room

/-- Steps that do not come from outside. -/
def NetOp.scripted {ι : Type} : NetOp ι → Bool
  | .act _ (.handleMessage _ _) | .act _ (.netChange _ _) => false
  | _ => true

theorem Ordinary.of_scripted {op : NetOp Asn} (scripted : NetOp.scripted op = true) : Ordinary n op := by
  cases op with
  | act u op =>
    cases op with
    | handleMessage src msg => cases scripted
    | netChange rt env => cases scripted
    | openSession a | closeSession a | sessionRefresh a | addNetwork p | delNetwork p | rerun p
    | clearRib => exact ⟨trivial, by simp⟩
  | deliver u d => exact ⟨trivial, by simp⟩
  | lose u d => exact ⟨trivial, by simp⟩

/-- The session between the two ASes, and the network of the customer. -/
def customerOps : List (NetOp Asn) :=
  [.act 1 (.addNetwork ⟨0x0a000000, 8, short8⟩), .act 1 (.openSession 2), .act 2 (.openSession 1),
    .deliver 1 2, .deliver 2 1, .deliver 1 2]

/-- The provider learns the route of its customer. -/
theorem customer_valley_free : ∃ n : Network Asn,
    (∃ p route, (n.router 2).locRib.findExact p = some route ∧ route.peer ≠ none) ∧
      Valleyless customerReady n := by
  have ran : okAnd (customerOps.foldlM (netStep customerReady.owner)
      (customerReady.network fun _ => Env.default)) (fun n =>
        ((n.router 2).locRib.findExact ⟨0x0a000000, 8, by decide⟩).any fun route =>
          decide (route.peer ≠ none)) = true := by
    decide +kernel
  obtain ⟨n, ran, observed⟩ := okAnd_iff.mp ran
  obtain ⟨route, held, learned⟩ := (Option.any_eq_true _ _).mp observed
  refine ⟨n, ⟨_, route, held, of_decide_eq_true learned⟩, ?_⟩
  refine learned_valley_free customer_installs (fun _ _ => rfl) (Reach.of_foldlM ?_ ran)
  have room : ∀ entry ∈ loopStates (netStep customerReady.owner)
      (customerReady.network fun _ => Env.default) customerOps,
      deliversFull entry.1 entry.2 = false := by
    decide +kernel
  have scripted : ∀ op ∈ customerOps, NetOp.scripted op = true := by decide
  exact fun entry member =>
    ⟨.of_scripted (scripted entry.2 (loopStates_snd member)), .of_room (room entry member)⟩

end Runs

/-! ## A chain of providers -/

section Chain

/-- The ASes 1 to 257; each is a customer of the next one. -/
def chainAsn (k : ℕ) : Asn := UInt16.ofNat k

def chainAddr (k : ℕ) : NetAddr := aslevelAddrSchLocalGet (chainAsn k)

theorem chainAsn_toNat {k : ℕ} (small : k < 65536) : (chainAsn k).toNat = k :=
  UInt16.toNat_ofNat_of_lt' small

theorem chainAsn_inj {j k : ℕ} (smallJ : j < 65536) (smallK : k < 65536) :
    chainAsn j = chainAsn k ↔ j = k := by
  rw [← UInt16.toNat_inj, chainAsn_toNat smallJ, chainAsn_toNat smallK]

def chainLinks (k : ℕ) : List AsLink :=
  (if k = 1 then [] else [⟨chainAsn (k - 1), .customer⟩]) ++
    if k = 257 then [] else [⟨chainAsn (k + 1), .provider⟩]

theorem mem_chainLinks {k : ℕ} {link : AsLink} :
    link ∈ chainLinks k ↔ (k ≠ 1 ∧ link = ⟨chainAsn (k - 1), .customer⟩) ∨
      (k ≠ 257 ∧ link = ⟨chainAsn (k + 1), .provider⟩) := by
  simp only [chainLinks, List.mem_append]
  split <;> split <;> simp_all

theorem chainLinks_sorted (i : Fin 257) :
    (chainLinks (i + 1)).Pairwise fun a b => AsLink.key a < AsLink.key b := by
  have before : (chainAsn i).toNat = i := chainAsn_toNat (by omega)
  have after : (chainAsn (i + 1 + 1)).toNat = i + 2 := chainAsn_toNat (by omega)
  simp only [chainLinks]
  split <;> split <;> simp [AsLink.key, before, after]

theorem chainLinks_noLoop (i : Fin 257) : ∀ link ∈ chainLinks (i + 1), link.neighbor ≠ chainAsn (i + 1) := by
  intro link member same
  have nats := congrArg UInt16.toNat same
  rw [chainAsn_toNat (by omega)] at nats
  cases mem_chainLinks.mp member with
  | inl below =>
    rw [below.2, chainAsn_toNat (by omega)] at nats
    omega
  | inr above =>
    rw [above.2, chainAsn_toNat (by omega)] at nats
    omega

def chainDomain (i : Fin 257) : AsDomain where
  asn := chainAsn (i + 1)
  neighbors := { items := chainLinks (i + 1), sorted := chainLinks_sorted i }
  noLoop := chainLinks_noLoop i

def chainTopo : AsTopo where
  domains := {
    items := (List.finRange 257).map chainDomain
    sorted := by
      rw [List.pairwise_map]
      refine (List.pairwise_lt_finRange 257).imp fun {i j} less => ?_
      simp only [AsDomain.key, chainDomain]
      rw [chainAsn_toNat (by omega), chainAsn_toNat (by omega)]
      omega }
  cachedDomains := (none, none)

theorem chain_domain (i : Fin 257) : chainTopo.domain (chainAsn (i + 1)) = some (chainDomain i) :=
  domain_eq_some.mpr ⟨List.mem_map_of_mem (List.mem_finRange i), rfl⟩

theorem chain_linkType {a b : Asn} {type : PeerType} :
    linkType chainTopo a b = some type ↔
      ∃ i : Fin 257, a = chainAsn (i + 1) ∧ ⟨b, type⟩ ∈ chainLinks (i + 1) := by
  rw [linkType_eq_some]
  constructor
  · rintro ⟨d, found, member⟩
    obtain ⟨inside, rfl⟩ := domain_eq_some.mp found
    obtain ⟨i, _, rfl⟩ := List.mem_map.mp inside
    exact ⟨i, rfl, member⟩
  · rintro ⟨i, rfl, member⟩
    exact ⟨chainDomain i, chain_domain i, member⟩

theorem chain_mutual : MutualLinks chainTopo := by
  intro a b type linked
  obtain ⟨i, rfl, member⟩ := chain_linkType.mp linked
  cases mem_chainLinks.mp member with
  | inl below =>
    obtain ⟨inside, same⟩ := below
    cases same
    refine chain_linkType.mpr ⟨⟨i - 1, by omega⟩, ?_, mem_chainLinks.mpr (.inr ⟨?_, ?_⟩)⟩
    · simp only
      congr 1
      omega
    · simp only
      omega
    · simp only [aslevelReverseRelation]
      congr 2
      omega
  | inr above =>
    obtain ⟨inside, same⟩ := above
    cases same
    refine chain_linkType.mpr ⟨⟨i + 1, by omega⟩, rfl, mem_chainLinks.mpr (.inl ⟨?_, ?_⟩)⟩
    · simp only
      omega
    · simp only [aslevelReverseRelation]
      congr 2

def chainLevel : AsLevel where
  topo := chainTopo
  addrMapper := aslevelAddrSchLocalGet
  state := .loaded
  router _ := none

/-- The chain, installed and with its policies. -/
def chainReady : AsLevel :=
  (aslevelTopoSetupPolicies (fun _ => plainWorld)
    (aslevelTopoBuildNetwork (fun _ => false) (fun _ => Env.default) chainLevel).2).2

theorem chain_installs :
    Installs (fun _ => false) (fun _ => Env.default) (fun _ => plainWorld) chainLevel chainReady where
  consistent := aslevelTopoCheckConsistency_iff.mpr chain_mutual
  addresses := aslevelAddrSchLocalGet_injective
  installed := by
    have state : chainLevel.state = .loaded := rfl
    have builds : aslevelTopoBuildNetwork (fun _ => false) (fun _ => Env.default) chainLevel =
        (.success, (aslevelTopoBuildNetwork (fun _ => false) (fun _ => Env.default) chainLevel).2) := by
      simp [aslevelTopoBuildNetwork, state]
    refine ⟨_, builds, ?_⟩
    simp [chainReady, aslevelTopoSetupPolicies, aslevelTopoBuildNetwork, state]

def chainRouter (k : ℕ) : Router :=
  (chainLinks k).foldl (aslevelSetupLink plainWorld aslevelAddrSchLocalGet)
    ((chainLinks k).foldl (buildLink aslevelAddrSchLocalGet)
      (bgpRouterCreate (chainAsn k) (chainAddr k) ∅ Env.default))

theorem chainReady_topo : chainReady.topo = chainTopo := chain_installs.ready_eq.1

theorem chainReady_address : chainReady.addrMapper = aslevelAddrSchLocalGet :=
  chain_installs.ready_eq.2.1

def chainNetwork : Network Asn := chainReady.network fun _ => Env.default

theorem chain_router {k : ℕ} (first : 1 ≤ k) (last : k ≤ 257) :
    chainNetwork.router (chainAsn k) = chainRouter k := by
  obtain ⟨j, rfl⟩ : ∃ j, k = j + 1 := ⟨k - 1, by omega⟩
  have found := chain_domain ⟨j, by omega⟩
  simp only [chainNetwork, AsLevel.network, (chain_installs.ready_eq).2.2, chainLevel]
  simp only at found
  rw [found]
  rfl

theorem chain_owner {k : ℕ} (first : 1 ≤ k) (last : k ≤ 257) :
    chainReady.owner (chainAddr k) = some (chainAsn k) := by
  obtain ⟨j, rfl⟩ : ∃ j, k = j + 1 := ⟨k - 1, by omega⟩
  have found := chainReady_topo ▸ chain_domain ⟨j, by omega⟩
  have owned := chain_installs.address_owner found
  rwa [chainReady_address] at owned

/-! ### What each AS does -/

/-- The network of the first AS. -/
def chainPfx : Pfx := ⟨0x0a000000, 8, short8⟩

/-- A step that is known to succeed. -/
def after (r : Router) (op : Op) : Router :=
  match exec r op with
  | .ok r' => r'
  | .error _ => r

def succeeds (r : Router) (op : Op) : Bool :=
  okAnd (exec r op) fun _ => true

theorem exec_after {r : Router} {op : Op} (success : succeeds r op = true) :
    exec r op = .ok (after r op) := by
  obtain ⟨r', stepped, _⟩ := okAnd_iff.mp success
  rw [after, stepped]

def firstOp (k : ℕ) : Op :=
  if k = 1 then .addNetwork chainPfx else .openSession (chainAddr (k - 1))

/-- Both sessions are opened, and the first AS originates its network. -/
def openedBoth (k : ℕ) : Router :=
  after (after (chainRouter k) (firstOp k)) (.openSession (chainAddr (k + 1)))

/-- The OPEN of an AS. -/
def hello (k : ℕ) : Msg :=
  ⟨0, .open (chainAddr k)⟩

/-- The path of what an AS announces: no more than the first 255 ASes. -/
def chainPath (k : ℕ) : Bgp.Path :=
  [{ type := .sequence
     asns := (List.range (min k 255)).map fun i => chainAsn (i + 1)
     short := by simp [maxPathSequenceLength] }]

/-- The UPDATE of an AS. -/
def news (k : ℕ) : Msg :=
  ⟨1, .update {
    pfx := chainPfx
    peer := some (chainAddr (k + 1))
    attr := { bgpAttrCreate (chainAddr k) .igp (if k = 1 then 0 else aslevelPrefCust) 0xffffffff with
      path := some (chainPath k) }
    flags := { RouteFlags.zero with
      feasible := true, best := true, eligible := k ≠ 1, dpIgp := k ≠ 1, internal := k = 1 } }⟩

/-- The OPEN of the AS before was received. -/
def greeted (k : ℕ) : Router :=
  after (openedBoth k) (.handleMessage (chainAddr (k - 1)) (hello (k - 1)))

/-- The UPDATE of the AS before was received, if there is one. -/
def informed (k : ℕ) : Router :=
  if k = 1 then openedBoth 1
  else after (greeted k) (.handleMessage (chainAddr (k - 1)) (news (k - 1)))

/-- The OPEN of the next AS was received. -/
def spoken (k : ℕ) : Router :=
  after (informed k) (.handleMessage (chainAddr (k + 1)) (hello (k + 1)))

def letter (j k : ℕ) (msg : Msg) : Sent := ⟨chainAddr j, chainAddr k, msg⟩

/-- The AS opens its sessions. -/
def opens (k : ℕ) : Bool :=
  succeeds (chainRouter k) (firstOp k) &&
    succeeds (after (chainRouter k) (firstOp k)) (.openSession (chainAddr (k + 1)))

/-- An AS but the first one gets the messages of the one before, which hears of it. -/
def listens (k : ℕ) : Bool :=
  succeeds (openedBoth k) (.handleMessage (chainAddr (k - 1)) (hello (k - 1))) &&
    decide (toward (chainAddr (k - 1)) (greeted k).outbox = [letter k (k - 1) (hello k)]) &&
    succeeds (greeted k) (.handleMessage (chainAddr (k - 1)) (news (k - 1)))

/-- An AS but the last one tells the next one what it learned, once it hears of it. -/
def relays (k : ℕ) : Bool :=
  decide (toward (chainAddr (k + 1)) (informed k).outbox = [letter k (k + 1) (hello k)]) &&
    succeeds (informed k) (.handleMessage (chainAddr (k + 1)) (hello (k + 1))) &&
    decide (toward (chainAddr (k + 1)) (spoken k).outbox =
      [letter k (k + 1) (hello k), letter k (k + 1) (news k)])

/-- What every AS does. -/
def behaves (k : ℕ) : Bool :=
  opens k && (k = 1 || listens k) && (k = 257 || relays k)

/-- What 32 neighbours do. -/
def behavesFrom (start : ℕ) : Bool :=
  (List.range 32).all fun i => behaves (start + i)

theorem behaves_of_from {start k : ℕ} (all : behavesFrom start = true) (first : start ≤ k) (last : k < start + 32) :
    behaves k = true := by
  have here := List.all_eq_true.mp all (k - start) (List.mem_range.mpr (by omega))
  rwa [Nat.add_sub_cancel' first] at here

-- in parts, each of which is checked on its own
theorem chain_behaves :
    (behavesFrom 1 = true ∧ behavesFrom 33 = true ∧ behavesFrom 65 = true ∧ behavesFrom 97 = true) ∧
    (behavesFrom 129 = true ∧ behavesFrom 161 = true ∧ behavesFrom 193 = true ∧ behavesFrom 225 = true) ∧
    behaves 257 = true :=
  ⟨⟨by decide +kernel, by decide +kernel, by decide +kernel, by decide +kernel⟩,
    ⟨by decide +kernel, by decide +kernel, by decide +kernel, by decide +kernel⟩, by decide +kernel⟩

theorem chain_behaves_at {k : ℕ} (first : 1 ≤ k) (last : k ≤ 257) : behaves k = true := by
  obtain ⟨⟨part₁, part₂, part₃, part₄⟩, ⟨part₅, part₆, part₇, part₈⟩, end'⟩ := chain_behaves
  have part : k < 33 ∨ (33 ≤ k ∧ k < 65) ∨ (65 ≤ k ∧ k < 97) ∨ (97 ≤ k ∧ k < 129) ∨ (129 ≤ k ∧ k < 161) ∨
      (161 ≤ k ∧ k < 193) ∨ (193 ≤ k ∧ k < 225) ∨ (225 ≤ k ∧ k < 257) ∨ k = 257 := by omega
  obtain low | ⟨low, high⟩ | ⟨low, high⟩ | ⟨low, high⟩ | ⟨low, high⟩ | ⟨low, high⟩ | ⟨low, high⟩ | ⟨low, high⟩ |
    rfl := part
  · exact behaves_of_from part₁ first low
  · exact behaves_of_from part₂ low high
  · exact behaves_of_from part₃ low high
  · exact behaves_of_from part₄ low high
  · exact behaves_of_from part₅ low high
  · exact behaves_of_from part₆ low high
  · exact behaves_of_from part₇ low high
  · exact behaves_of_from part₈ low high
  · exact end'

theorem behaves_of {k : ℕ} (first : 1 ≤ k) (last : k ≤ 257) :
    opens k = true ∧ (k ≠ 1 → listens k = true) ∧ (k ≠ 257 → relays k = true) := by
  have all := chain_behaves_at first last
  simp only [behaves, Bool.and_eq_true, Bool.or_eq_true, decide_eq_true_eq] at all
  exact ⟨all.1.1, all.1.2.resolve_left, all.2.resolve_left⟩

/-! ### The run -/

/-- Runs in which no path repository changes the hops of a path. -/
abbrev OrdinaryReach (n₀ n : Network Asn) : Prop :=
  Reach (netStep chainReady.owner) Ordinary n₀ n

/-- One router acts. -/
theorem act_next {n₀ n : Network Asn} (reached : OrdinaryReach n₀ n) {u : Asn} {op : Op} {r : Router}
    (ordinary : Ordinary n (.act u op)) (h : exec (n.router u) op = .ok r) :
    ∃ n', OrdinaryReach n₀ n' ∧ n'.router = Function.update n.router u r ∧ n'.taken = n.taken := by
  refine ⟨n.setRouter u r, reached.next ordinary ?_, rfl, rfl⟩
  rw [netStep, h]
  rfl

/-- One message is delivered. -/
theorem deliver_next {n₀ n : Network Asn} (reached : OrdinaryReach n₀ n) {u v : Asn} {dst : NetAddr}
    {sent : Sent} {rest : List Sent} {r : Router} (head : n.inFlight u dst = sent :: rest)
    (addressee : chainReady.owner dst = some v)
    (h : exec (n.router v) (.handleMessage sent.src sent.msg) = .ok r) :
    ∃ n', OrdinaryReach n₀ n' ∧ n'.router = Function.update n.router v r ∧
      n'.taken = Function.update n.taken u (Function.update (n.taken u) dst (n.taken u dst + 1)) := by
  have ordinary : Ordinary n (.deliver u dst) := ⟨trivial, by simp⟩
  refine ⟨(n.take u dst).setRouter v r, reached.next ordinary ?_, rfl, rfl⟩
  simp only [netStep, head, addressee, h]
  rfl

/-- The sessions of the first ASes are opened. -/
structure OpenedTo (k : ℕ) (n : Network Asn) : Prop where
  reached : OrdinaryReach chainNetwork n
  done : ∀ j, 1 ≤ j → j ≤ k → n.router (chainAsn j) = openedBoth j
  ahead : ∀ j, k < j → j ≤ 257 → n.router (chainAsn j) = chainRouter j
  taken : ∀ u d, n.taken u d = 0

theorem chain_opened {k : ℕ} (last : k ≤ 257) : ∃ n, OpenedTo k n := by
  induction k with
  | zero => exact ⟨chainNetwork, .start, by omega, fun j first last => chain_router first last, fun _ _ => rfl⟩
  | succ k inductionHypothesis =>
    obtain ⟨n, opened⟩ := inductionHypothesis (by omega)
    -- Router k + 1 opens to the router before it, or originates if it is the first, and then to the
    -- router after it.
    have allowed := (behaves_of (k := k + 1) (by omega) last).1
    simp only [opens, Bool.and_eq_true] at allowed
    have other {j : ℕ} (small : j ≤ 257) (differ : j ≠ k + 1) : chainAsn j ≠ chainAsn (k + 1) :=
      fun same => differ ((chainAsn_inj (by omega) (by omega)).mp same)
    have ordinary (n : Network Asn) : Ordinary n (.act (chainAsn (k + 1)) (firstOp (k + 1))) := by
      rw [firstOp]
      split
      · exact ⟨trivial, by simp⟩
      · exact ⟨trivial, by simp⟩
    have here := opened.ahead (k + 1) (by omega) last
    have first := exec_after allowed.1
    rw [← here] at first
    obtain ⟨n', reached', router', taken'⟩ := act_next opened.reached (ordinary n) first
    have here' : n'.router (chainAsn (k + 1)) = after (chainRouter (k + 1)) (firstOp (k + 1)) := by
      rw [router', Function.update_self, here]
    have second := exec_after allowed.2
    rw [← here'] at second
    have ordinary' : Ordinary n' (.act (chainAsn (k + 1)) (.openSession (chainAddr (k + 1 + 1)))) :=
      ⟨trivial, by simp⟩
    obtain ⟨n'', reached'', router'', taken''⟩ := act_next reached' ordinary' second
    refine ⟨n'', reached'', fun j first small => ?_, fun j after small => ?_, fun u d => ?_⟩
    · by_cases isNext : j = k + 1
      · subst isNext
        rw [router'', Function.update_self, here']
        rfl
      · have differ := other (by omega) isNext
        rw [router'', Function.update_of_ne differ, router', Function.update_of_ne differ]
        exact opened.done j first (by omega)
    · have differ := other small (by omega)
      rw [router'', Function.update_of_ne differ, router', Function.update_of_ne differ]
      exact opened.ahead j (by omega) small
    · rw [taken'', taken']
      exact opened.taken u d

/-- An AS has got the route, and the ASes after it wait for it. -/
structure InformedTo (k : ℕ) (n : Network Asn) : Prop where
  reached : OrdinaryReach chainNetwork n
  here : n.router (chainAsn k) = informed k
  ahead : ∀ j, k < j → j ≤ 257 → n.router (chainAsn j) = openedBoth j
  next : n.taken (chainAsn k) (chainAddr (k + 1)) = 0
  taken : ∀ j, k < j → j ≤ 257 → ∀ d, n.taken (chainAsn j) d = 0

theorem inFlight_eq (n : Network Asn) (u : Asn) (d : NetAddr) :
    n.inFlight u d = (toward d (n.router u).outbox).drop (n.taken u d) := rfl

theorem chainAddr_ne {j k : ℕ} (smallJ : j < 65536) (smallK : k < 65536) (differ : j ≠ k) :
    chainAddr j ≠ chainAddr k :=
  fun same => differ ((chainAsn_inj smallJ smallK).mp (aslevelAddrSchLocalGet_injective same))

/-- The first AS has its route from the start. -/
theorem chain_first : ∃ n, InformedTo 1 n := by
  obtain ⟨n, opened⟩ := chain_opened (k := 257) (by omega)
  refine ⟨n, opened.reached, ?_, fun j _ small => opened.done j (by omega) small, opened.taken _ _,
    fun j _ _ => opened.taken _⟩
  rw [opened.done 1 (by omega) (by omega)]
  rfl

/-- The next AS gets the route. -/
theorem chain_next {k : ℕ} (first : 1 ≤ k) (last : k ≤ 256) {n : Network Asn} (stage : InformedTo k n) :
    ∃ n', InformedTo (k + 1) n' := by
  have tells := (behaves_of first (by omega)).2.2 (by omega)
  have hears := (behaves_of (k := k + 1) (by omega) (by omega)).2.1 (by omega)
  simp only [relays, listens, Bool.and_eq_true, decide_eq_true_eq, Nat.add_sub_cancel] at tells hears
  obtain ⟨⟨waits, takesHello⟩, posts⟩ := tells
  obtain ⟨⟨getsHello, answers⟩, getsNews⟩ := hears
  have differ : chainAsn (k + 1) ≠ chainAsn k := fun same => by
    have := (chainAsn_inj (by omega) (by omega)).mp same
    omega
  have owner := chain_owner (k := k) first (by omega)
  have nextOwner := chain_owner (k := k + 1) (by omega) (by omega)
  -- the OPEN of this AS
  have step₁ := exec_after getsHello
  rw [← stage.ahead (k + 1) (by omega) (by omega)] at step₁
  have head₁ : n.inFlight (chainAsn k) (chainAddr (k + 1)) = [letter k (k + 1) (hello k)] := by
    rw [inFlight_eq, stage.next, stage.here]
    exact waits
  obtain ⟨n₁, reached₁, router₁, taken₁⟩ := deliver_next stage.reached head₁ nextOwner step₁
  have here₁ : n₁.router (chainAsn k) = informed k := by
    rw [router₁, Function.update_of_ne differ.symm, stage.here]
  have next₁ : n₁.router (chainAsn (k + 1)) = greeted (k + 1) := by
    rw [router₁, Function.update_self, stage.ahead (k + 1) (by omega) (by omega)]
    rfl
  -- the OPEN of the next one
  have step₂ := exec_after takesHello
  rw [← here₁] at step₂
  have head₂ : n₁.inFlight (chainAsn (k + 1)) (chainAddr k) = [letter (k + 1) k (hello (k + 1))] := by
    rw [inFlight_eq, next₁, taken₁, Function.update_of_ne differ, stage.taken (k + 1) (by omega) (by omega)]
    exact answers
  obtain ⟨n₂, reached₂, router₂, taken₂⟩ := deliver_next reached₁ head₂ owner step₂
  have here₂ : n₂.router (chainAsn k) = spoken k := by
    rw [router₂, Function.update_self, here₁]
    rfl
  have next₂ : n₂.router (chainAsn (k + 1)) = greeted (k + 1) := by
    rw [router₂, Function.update_of_ne differ, next₁]
  -- the UPDATE
  have step₃ := exec_after getsNews
  rw [← next₂] at step₃
  have head₃ : n₂.inFlight (chainAsn k) (chainAddr (k + 1)) = [letter k (k + 1) (news k)] := by
    rw [inFlight_eq, here₂, taken₂, Function.update_of_ne differ.symm, taken₁, Function.update_self,
      Function.update_self, stage.next, posts]
    rfl
  obtain ⟨n₃, reached₃, router₃, taken₃⟩ := deliver_next reached₂ head₃ nextOwner step₃
  -- what is beyond the next AS has not been touched
  have beyond {j : ℕ} (far : k + 1 < j) (small : j ≤ 257) :
      chainAsn j ≠ chainAsn (k + 1) ∧ chainAsn j ≠ chainAsn k := by
    constructor
    · intro same
      have := (chainAsn_inj (by omega) (by omega)).mp same
      omega
    · intro same
      have := (chainAsn_inj (by omega) (by omega)).mp same
      omega
  refine ⟨n₃, reached₃, ?_, fun j far small => ?_, ?_, fun j far small d => ?_⟩
  · rw [router₃, Function.update_self, next₂, informed, if_neg (by omega)]
    rfl
  · obtain ⟨notNext, notThis⟩ := beyond far small
    rw [router₃, Function.update_of_ne notNext, router₂, Function.update_of_ne notThis, router₁,
      Function.update_of_ne notNext]
    exact stage.ahead j (by omega) small
  · have away : chainAddr (k + 1 + 1) ≠ chainAddr k := chainAddr_ne (by omega) (by omega) (by omega)
    rw [taken₃, Function.update_of_ne differ, taken₂, Function.update_self, Function.update_of_ne away,
      taken₁, Function.update_of_ne differ]
    exact stage.taken (k + 1) (by omega) (by omega) _
  · obtain ⟨notNext, notThis⟩ := beyond far small
    rw [taken₃, Function.update_of_ne notThis, taken₂, Function.update_of_ne notNext, taken₁,
      Function.update_of_ne notThis]
    exact stage.taken j (by omega) small d

theorem chain_informed {k : ℕ} (last : k ≤ 256) : ∃ n, InformedTo (k + 1) n := by
  induction k with
  | zero => exact chain_first
  | succ k inductionHypothesis =>
    obtain ⟨n, stage⟩ := inductionHypothesis (by omega)
    exact chain_next (by omega) last stage

/-- The AS-path of the last AS has the first 255 ASes. -/
theorem chain_last : ((informed 257).locRib.findExact chainPfx).any (fun route =>
    decide (route.peer ≠ none) && decide (route.attr.path = some (chainPath 255))) = true := by
  decide +kernel

/-- The AS 256 announces the route without itself. -/
theorem hop_left_out : ¬ ∀ (existing : NetAddr → Bool) (env : Asn → Env) (world : Asn → FtWorld)
    (aslevel ready : AsLevel) (n : Network Asn), Installs existing env world aslevel ready →
    (∀ u, Interns (env u)) → Reach (netStep ready.owner) Ordinary (ready.network env) n →
      Valleyless ready n := by
  intro claim
  obtain ⟨n, stage⟩ := chain_informed (k := 256) (by omega)
  have valleyless := claim _ _ _ _ _ n chain_installs (fun _ _ => rfl) stage.reached
  obtain ⟨route, held, learned⟩ := (Option.any_eq_true _ _).mp chain_last
  simp only [Bool.and_eq_true, decide_eq_true_eq] at learned
  obtain ⟨hops, along, _⟩ := valleyless.learned (chainAsn 257) chainPfx route (stage.here ▸ held)
    learned.1
  have path : pathAsns route.attr.path =
      ((List.range 254).map fun i => chainAsn (i + 1)) ++ [chainAsn 255] := by
    have shorter : List.range (min 255 255) = List.range 254 ++ [254] := List.range_succ
    rw [learned.2]
    simp only [pathAsns, Option.getD_some, chainPath, shorter, List.flatMap_cons, List.flatMap_nil,
      List.append_nil, List.map_append, List.map_cons, List.map_nil]
  rw [path, Along, hopsOf_snoc] at along
  have missing : none ∈ hops.map some := by
    rw [← along]
    refine List.mem_append_right _ (List.mem_singleton.mpr ?_)
    rw [chainReady_topo]
    decide +kernel
  simp at missing

end Chain

end Cbgp.Verified
