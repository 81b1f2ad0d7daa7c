import Cbgp.Bgp.AsLevelNetwork
import Cbgp.Verified.AsLevelLinks
import Cbgp.Verified.Ownership
import Cbgp.Verified.SessionPair
import Cbgp.Verified.SessionNumbers
import Mathlib.Data.List.Induction

/-! # Policies of AS-level topologies

What the input and output filters of a link do to a route (`filterIn_spec`, `filterOut_spec`), and how
the routers of a network built from a topology are configured (`network_configured`): one real peer for
each link, with the filters of the link.
-/

namespace Cbgp.Verified

open Cbgp.Lib Cbgp.Net Cbgp.Bgp

/-! ## Filters -/

/-- The route is marked as one that came from a provider or a peer. -/
def tagged (attr : Attr) : Bool :=
  commsContains attr.comms commProv || commsContains attr.comms commPeer

/-- The filters `aslevel_topo_setup_policies` installs for a link. -/
def linkFilterIn (world : FtWorld) (type : PeerType) : Filter :=
  (aslevelFilterIn type).elim Filter.acceptAll world.filter

def linkFilterOut (world : FtWorld) (type : PeerType) : Filter :=
  (aslevelFilterOut type).elim Filter.acceptAll world.filter

section Filters

variable {context : FtContext} {run : FtRun} {atEnd : FtResult} {route : Route}

/-- A rule without a matcher and with one action that goes on. -/
theorem applyRulesFrom_change {action : FtAction} {rules : List FtRule}
    (goesOn : ∀ route, filterActionApply context run [action] route =
      (action.change context route.attr).map fun attr => (.next, attr)) :
    applyRulesFrom context run atEnd (⟨none, [action]⟩ :: rules) route =
      (action.change context route.attr).bind fun attr =>
        applyRulesFrom context run atEnd rules { route with attr := attr } := by
  simp only [applyRulesFrom, filterRuleApply, filterMatcherApply, if_true, goesOn]
  cases action.change context route.attr with
  | error e => rfl
  | ok attr => rfl

theorem applyRulesFrom_deny {matcher : Matcher} {rules : List FtRule} :
    applyRulesFrom context run atEnd (⟨some matcher, [.deny]⟩ :: rules) route =
      if matcher.apply context.pathExprs route then .ok (.deny, route.attr)
      else applyRulesFrom context run atEnd rules route := by
  simp only [applyRulesFrom, filterRuleApply, filterMatcherApply]
  by_cases denied : matcher.apply context.pathExprs route = true
  · simp only [denied, if_true]
    rfl
  · simp only [denied]
    rfl

@[simp] theorem filterActionApply_commAppend (comm : Comm) :
    filterActionApply context run [.commAppend comm] route =
      (bgpAttrCommAppend route.attr comm).map fun attr => (.next, attr) := by
  simp only [filterActionApply, FtAction.change]
  cases bgpAttrCommAppend route.attr comm with
  | error e => rfl
  | ok attr => rfl

end Filters

theorem commProvOrPeer_apply (pathExprs : PathExprs) (route : Route) :
    commProvOrPeer.apply pathExprs route = tagged route.attr := rfl

theorem commsContains_remove (attr : Attr) (comm comm' : Comm) :
    commsContains (bgpAttrCommRemove attr comm).comms comm' =
      (commsContains attr.comms comm' && !decide (comm' = comm)) := by
  cases held : attr.comms with
  | none => simp [bgpAttrCommRemove, held, commsContains]
  | some comms =>
    simp only [bgpAttrCommRemove, held, Option.bind_some, commsContains, Option.getD_some, commsRemove]
    have kept : (comms.filter (· ≠ comm)).contains comm' =
        (comms.contains comm' && !decide (comm' = comm)) := by
      rw [Bool.eq_iff_iff]
      simp
    split
    · rename_i all
      -- nothing was removed
      rw [List.length_filter_eq_length_iff] at all
      rw [Option.getD_some, Bool.eq_iff_iff]
      have absent : comm' ∈ comms → comm' ≠ comm := fun member => by simpa using all comm' member
      simpa using absent
    · split
      · rename_i empty
        rw [← kept, List.isEmpty_iff.mp empty]
        rfl
      · exact kept

theorem tagged_removed (attr : Attr) :
    tagged (bgpAttrCommRemove (bgpAttrCommRemove attr commProv) commPeer) = false := by
  simp [tagged, commsContains_remove, commProv, commPeer]

theorem commsContains_append {attr attr' : Attr} {comm : Comm}
    (appended : bgpAttrCommAppend attr comm = .ok attr') :
    commsContains attr'.comms comm = true ∧ attr' = { attr with comms := attr'.comms } := by
  obtain ⟨comms, added, appended⟩ := except_bind_eq_ok.mp appended
  cases appended
  simp only [commsAdd] at added
  split at added
  · cases added
    simp [commsContains]
  · cases added

/-- A filter made of rules accepts what its rules do not deny. -/
theorem world_filter_some {world : FtWorld} {rules : List FtRule} {asn : Asn} {rt : NetRt}
    {route : Route} {attr : Attr} (accepted : (world.filter rules).apply asn rt route = .ok (some attr)) :
    ∃ result, result ≠ .deny ∧
      filterApply (world.context asn rt) world.depth rules route = .ok (result, attr) := by
  simp only [FtWorld.filter] at accepted
  split at accepted
  · cases accepted
  · rename_i notDenied applied
    cases accepted
    refine ⟨_, ?_, applied⟩
    rintro rfl
    exact notDenied rfl
  · cases accepted

section Links

variable {world : FtWorld} {asn : Asn} {rt : NetRt} {route : Route} {attr : Attr}

/-- The input filter marks the routes from providers and peers, and leaves the communities of the
others alone. -/
theorem filterIn_spec {type : PeerType}
    (accepted : (linkFilterIn world type).apply asn rt route = .ok (some attr)) :
    attr.path = route.attr.path ∧ attr.ecomms = route.attr.ecomms ∧
      (if type = .provider ∨ type = .peer then tagged attr = true
        else attr.comms = route.attr.comms) := by
  have marks {comm : Comm} {pref : UInt32} (known : comm = commProv ∨ comm = commPeer)
      (accepted : (world.filter [⟨none, [.commAppend comm]⟩, ⟨none, [.prefSet pref]⟩]).apply asn rt
        route = .ok (some attr)) :
      attr.path = route.attr.path ∧ attr.ecomms = route.attr.ecomms ∧ tagged attr = true := by
    obtain ⟨result, _, applied⟩ := world_filter_some accepted
    rw [filterApply, applyRulesFrom_change (fun _ => filterActionApply_commAppend comm)] at applied
    obtain ⟨attr', appended, applied⟩ := except_bind_eq_ok.mp applied
    obtain ⟨contains, same⟩ := commsContains_append appended
    cases applied
    refine ⟨by rw [same], by rw [same], ?_⟩
    cases known with
    | inl isProv =>
      subst isProv
      simp [tagged, contains]
    | inr isPeer =>
      subst isPeer
      simp [tagged, contains]
  cases type with
  | customer =>
    change (world.filter [⟨none, [.prefSet aslevelPrefCust]⟩]).apply asn rt route = _ at accepted
    obtain ⟨result, _, applied⟩ := world_filter_some accepted
    cases applied
    simp
  | provider => simpa using marks (.inl rfl) accepted
  | peer => simpa using marks (.inr rfl) accepted
  | sibling =>
    cases accepted
    simp

/-- The output filter towards providers and peers denies the marked routes, and all but the one towards
siblings take the marks off. -/
theorem filterOut_spec {type : PeerType}
    (accepted : (linkFilterOut world type).apply asn rt route = .ok (some attr)) :
    attr.path = route.attr.path ∧ attr.ecomms = route.attr.ecomms ∧
      (if type = .sibling then attr.comms = route.attr.comms else tagged attr = false) ∧
      (type = .provider ∨ type = .peer → tagged route.attr = false) := by
  -- Both tags are removed on the way out; to a provider or a peer a tagged route is denied first.
  have strips {run : FtRun} {result : FtResult}
      (applied : applyRulesFrom (world.context asn rt) run .accept
        [⟨none, [.commRemove commProv]⟩, ⟨none, [.commRemove commPeer]⟩] route = .ok (result, attr)) :
      attr.path = route.attr.path ∧ attr.ecomms = route.attr.ecomms ∧ tagged attr = false := by
    cases applied
    exact ⟨rfl, rfl, tagged_removed route.attr⟩
  have denies (accepted : (world.filter [⟨some commProvOrPeer, [.deny]⟩,
        ⟨none, [.commRemove commProv]⟩, ⟨none, [.commRemove commPeer]⟩]).apply asn rt route =
          .ok (some attr)) :
      attr.path = route.attr.path ∧ attr.ecomms = route.attr.ecomms ∧ tagged attr = false ∧
        tagged route.attr = false := by
    obtain ⟨result, notDenied, applied⟩ := world_filter_some accepted
    rw [filterApply, applyRulesFrom_deny, commProvOrPeer_apply] at applied
    split at applied
    · cases applied
      exact absurd rfl notDenied
    · rename_i unmarked
      obtain ⟨path, ecomms, stripped⟩ := strips applied
      exact ⟨path, ecomms, stripped, by simpa using unmarked⟩
  cases type with
  | customer =>
    change (world.filter [⟨none, [.commRemove commProv]⟩, ⟨none, [.commRemove commPeer]⟩]).apply asn rt
      route = _ at accepted
    obtain ⟨result, _, applied⟩ := world_filter_some accepted
    obtain ⟨path, ecomms, stripped⟩ := strips applied
    exact ⟨path, ecomms, by simpa using stripped, by simp⟩
  | provider =>
    obtain ⟨path, ecomms, stripped, unmarked⟩ := denies accepted
    exact ⟨path, ecomms, by simpa using stripped, fun _ => unmarked⟩
  | peer =>
    obtain ⟨path, ecomms, stripped, unmarked⟩ := denies accepted
    exact ⟨path, ecomms, by simpa using stripped, fun _ => unmarked⟩
  | sibling =>
    cases accepted
    simp

end Links

/-! ## Addresses -/

/-- Both schemes give each domain an address of its own. -/
theorem aslevelAddrSchLocalGet_injective : Function.Injective aslevelAddrSchLocalGet := by
  intro u v same
  have nats := congrArg UInt32.toNat same
  simp only [aslevelAddrSchLocalGet, UInt16.toNat_toUInt32] at nats
  exact UInt16.toNat_inj.mp nats

theorem aslevelAddrSchDefaultGet_injective : Function.Injective aslevelAddrSchDefaultGet := by
  intro u v same
  have nats := congrArg UInt32.toNat same
  have shifted (w : Asn) : (aslevelAddrSchDefaultGet w).toNat = w.toNat * 65536 := by
    have bound := w.toNat_lt
    simp only [aslevelAddrSchDefaultGet, UInt32.toNat_shiftLeft, UInt16.toNat_toUInt32, Nat.shiftLeft_eq]
    have sixteen : (16 : UInt32).toNat % 32 = 16 := by decide
    rw [sixteen, Nat.mod_eq_of_lt (by omega)]
  rw [shifted, shifted] at nats
  exact UInt16.toNat_inj.mp (by omega)

/-! ## Configuration -/

section Configuration

variable {topo : AsTopo} {address : Asn → NetAddr} {world : FtWorld} {env : Env} {u : Asn}

/-- A router with an identity and no routes, which has sent nothing. -/
structure Blank (address : Asn → NetAddr) (env : Env) (u : Asn) (r : Router) : Prop where
  fresh : Fresh r
  silent : r.outbox = []
  asn : r.asn = u
  rid : r.rid = address u
  env : r.env = env

/-- The peer is the real one of a link, perhaps without its filters. -/
structure LinkPeer (address : Asn → NetAddr) (u v : Asn) (a : NetAddr) (peer : Peer) : Prop where
  addr : a = address v
  asn : peer.asn = v
  real : peer.virtual = false
  srcAddr : peer.srcAddr = address u

/-- The peers of a router are those of the links of its domain, with their filters. -/
structure Peering (topo : AsTopo) (address : Asn → NetAddr) (world : FtWorld) (u : Asn) (r : Router) :
    Prop where
  asn : r.asn = u
  peer : ∀ {a peer}, r.peers.lookup a = some peer → ∃ v type, linkType topo u v = some type ∧
    LinkPeer address u v a peer ∧ peer.filterIn = linkFilterIn world type ∧
    peer.filterOut = linkFilterOut world type

theorem Peering.of_configured {r s : Router} (peering : Peering topo address world u r)
    (configured : Configured r s) : Peering topo address world u s where
  asn := configured.asn.trans peering.asn
  peer {a peer} held := by
    obtain ⟨peer', held', same⟩ := configured.lookup held
    obtain ⟨v, type, linked, link, filterIn, filterOut⟩ := peering.peer held'
    have asn : (peerConfig peer').asn = (peerConfig peer).asn := by rw [same]
    have real : (peerConfig peer').virtual = (peerConfig peer).virtual := by rw [same]
    have srcAddr : (peerConfig peer').srcAddr = (peerConfig peer).srcAddr := by rw [same]
    have sameIn : (peerConfig peer').filterIn = (peerConfig peer).filterIn := by rw [same]
    have sameOut : (peerConfig peer').filterOut = (peerConfig peer).filterOut := by rw [same]
    exact ⟨v, type, linked,
      ⟨link.addr, asn.symm.trans link.asn, real.symm.trans link.real, srcAddr.symm.trans link.srcAddr⟩,
      sameIn.symm.trans filterIn, sameOut.symm.trans filterOut⟩

/-- The link and the session to one neighbor. -/
def buildLink (address : Asn → NetAddr) (router : Router) (link : AsLink) : Router :=
  aslevelBuildBgpSession (aslevelBuildLink router (address link.neighbor)) link.neighbor
    (address link.neighbor)

theorem buildLink_blank {r : Router} (blank : Blank address env u r) (link : AsLink) :
    Blank address env u (buildLink address r link) := by
  have routed : Fresh (aslevelBuildLink r (address link.neighbor)) :=
    ⟨blank.fresh.adj, blank.fresh.loc, blank.fresh.nets⟩
  have fresh : Fresh (buildLink address r link) := routed.addPeer _ rfl
  simp only [buildLink, aslevelBuildBgpSession, bgpRouterAddPeer] at fresh ⊢
  split
  · exact ⟨routed, blank.silent, blank.asn, blank.rid, blank.env⟩
  · rename_i absent
    rw [if_neg absent] at fresh
    exact ⟨fresh, blank.silent, blank.asn, blank.rid, blank.env⟩

theorem buildLink_lookup {r : Router} (blank : Blank address env u r) {link : AsLink} {a : NetAddr}
    {peer : Peer} (held : (buildLink address r link).peers.lookup a = some peer) :
    r.peers.lookup a = some peer ∨ LinkPeer address u link.neighbor a peer := by
  simp only [buildLink, aslevelBuildBgpSession, bgpRouterAddPeer] at held
  split at held
  · exact .inl held
  · by_cases same : a = address link.neighbor
    · subst same
      simp only [AList.lookup_insert, Option.some.injEq] at held
      subst held
      exact .inr ⟨rfl, rfl, rfl, blank.rid⟩
    · rw [AList.lookup_insert_ne same] at held
      exact .inl held

/-- The peers of a router are those of the links that were built. -/
theorem buildLinks_spec (links : List AsLink) {r : Router} (blank : Blank address env u r)
    (alone : ∀ a, r.peers.lookup a = none) :
    Blank address env u (links.foldl (buildLink address) r) ∧
      ∀ a peer, (links.foldl (buildLink address) r).peers.lookup a = some peer →
        ∃ link ∈ links, LinkPeer address u link.neighbor a peer := by
  induction links using List.reverseRecOn with
  | nil => exact ⟨blank, fun a peer held => by simp [alone] at held⟩
  | append_singleton links link inductionHypothesis =>
    obtain ⟨blank', known⟩ := inductionHypothesis
    rw [List.foldl_append, List.foldl_cons, List.foldl_nil]
    refine ⟨buildLink_blank blank' link, fun a peer held => ?_⟩
    cases buildLink_lookup blank' held with
    | inl old =>
      obtain ⟨first, inside, linkPeer⟩ := known a peer old
      exact ⟨first, List.mem_append_left _ inside, linkPeer⟩
    | inr new => exact ⟨link, by simp, new⟩

theorem setFilter_lookup (r : Router) (b a : NetAddr) (dir : FilterDir) (filter : Filter) :
    (bgpRouterPeerSetFilter r b dir filter).2.peers.lookup a =
      if a = b then (r.peers.lookup a).map fun peer => bgpPeerSetFilter peer filter dir
      else r.peers.lookup a := by
  simp only [bgpRouterPeerSetFilter]
  cases held : r.peers.lookup b with
  | none =>
    by_cases same : a = b
    · rw [if_pos same, same, held]
      rfl
    · rw [if_neg same]
  | some peer => exact modifyPeer_lookup r b a _

theorem setFilter_blank {r : Router} (blank : Blank address env u r) (b : NetAddr) (dir : FilterDir)
    (filter : Filter) : Blank address env u (bgpRouterPeerSetFilter r b dir filter).2 := by
  simp only [bgpRouterPeerSetFilter]
  split
  · refine ⟨⟨fun a p => ?_, blank.fresh.loc, blank.fresh.nets⟩, blank.silent, blank.asn, blank.rid,
      blank.env⟩
    have keeps (peer : Peer) : (bgpPeerSetFilter peer filter dir).adjRibIn = peer.adjRibIn := by
      cases dir with
      | filterIn => rfl
      | filterOut => rfl
    rw [modifyPeer_adjRoute r b a p keeps]
    exact blank.fresh.adj a p
  · exact blank

theorem setupLink_lookup (r : Router) (link : AsLink) (a : NetAddr) :
    (aslevelSetupLink world address r link).peers.lookup a =
      if a = address link.neighbor then (r.peers.lookup a).map fun peer =>
        { peer with filterIn := linkFilterIn world link.peerType, filterOut := linkFilterOut world link.peerType }
      else r.peers.lookup a := by
  simp only [aslevelSetupLink, setFilter_lookup]
  split
  · rw [Option.map_map]
    rfl
  · rfl

/-- After the policies are set up, the peer of a link has the filters of the link. -/
theorem setupLinks_spec (world : FtWorld) (links : List AsLink) {r : Router} (blank : Blank address env u r) :
    Blank address env u (links.foldl (aslevelSetupLink world address) r) ∧
      ∀ a peer, (links.foldl (aslevelSetupLink world address) r).peers.lookup a = some peer →
        (∃ peer', r.peers.lookup a = some peer' ∧
          peer = { peer' with filterIn := peer.filterIn, filterOut := peer.filterOut }) ∧
        ∀ link ∈ links, a = address link.neighbor → ∃ link' ∈ links, a = address link'.neighbor ∧
          peer.filterIn = linkFilterIn world link'.peerType ∧
          peer.filterOut = linkFilterOut world link'.peerType := by
  induction links using List.reverseRecOn with
  | nil => exact ⟨blank, fun a peer held => ⟨⟨peer, held, rfl⟩, by simp⟩⟩
  | append_singleton links link inductionHypothesis =>
    obtain ⟨blank', known⟩ := inductionHypothesis
    rw [List.foldl_append, List.foldl_cons, List.foldl_nil]
    refine ⟨setFilter_blank (setFilter_blank blank' _ _ _) _ _ _, fun a peer held => ?_⟩
    rw [setupLink_lookup] at held
    split at held
    · -- the last link decides
      rename_i here
      obtain ⟨before, heldBefore, rfl⟩ := Option.map_eq_some_iff.mp held
      obtain ⟨⟨peer', held', same⟩, _⟩ := known a before heldBefore
      exact ⟨⟨peer', held', by rw [same]⟩, fun _ _ _ => ⟨link, by simp, here, rfl, rfl⟩⟩
    · rename_i elsewhere
      obtain ⟨configured, filtered⟩ := known a peer held
      refine ⟨configured, fun link' member here => ?_⟩
      rcases List.mem_append.mp member with old | new
      · obtain ⟨last, inside, rest⟩ := filtered link' old here
        exact ⟨last, List.mem_append_left _ inside, rest⟩
      · rw [List.mem_singleton.mp new] at here
        exact absurd here elsewhere

/-- The router of a domain, built and with its policies. -/
theorem buildDomain_peering (injective : Function.Injective address) {d : AsDomain}
    (found : topo.domain u = some d) :
    Blank address env u (d.neighbors.items.foldl (aslevelSetupLink world address)
        (aslevelBuildDomain address env d)) ∧
      Peering topo address world u (d.neighbors.items.foldl (aslevelSetupLink world address)
        (aslevelBuildDomain address env d)) := by
  have asn : d.asn = u := (domain_eq_some.mp found).2
  have start : Blank address env u (bgpRouterCreate d.asn (address d.asn) ∅ env) :=
    ⟨fresh_create _ _ _ _, rfl, asn, congrArg address asn, rfl⟩
  have built : Blank address env u (aslevelBuildDomain address env d) ∧
      ∀ a peer, (aslevelBuildDomain address env d).peers.lookup a = some peer →
        ∃ link ∈ d.neighbors.items, LinkPeer address u link.neighbor a peer :=
    buildLinks_spec d.neighbors.items start fun a => rfl
  obtain ⟨blank, filtered⟩ := setupLinks_spec world d.neighbors.items built.1
  refine ⟨blank, blank.asn, fun {a peer} held => ?_⟩
  obtain ⟨⟨peer', held', same⟩, filters⟩ := filtered a peer held
  obtain ⟨link, member, linkPeer⟩ := built.2 a peer' held'
  obtain ⟨link', member', here, filterIn, filterOut⟩ := filters link member linkPeer.addr
  have neighbor : link.neighbor = link'.neighbor := injective (linkPeer.addr.symm.trans here)
  refine ⟨link'.neighbor, link'.peerType, linkType_of_mem found member', ?_, filterIn, filterOut⟩
  rw [same]
  exact ⟨here, linkPeer.asn.trans neighbor, linkPeer.real, linkPeer.srcAddr⟩

end Configuration

/-! ## The network -/

section Networks

variable {aslevel built ready : AsLevel} {existing : NetAddr → Bool} {env : Asn → Env}
  {world : Asn → FtWorld}

/-- The topology was installed and given its policies. -/
structure Installs (existing : NetAddr → Bool) (env : Asn → Env) (world : Asn → FtWorld)
    (aslevel ready : AsLevel) : Prop where
  consistent : aslevelTopoCheckConsistency aslevel.topo = .ok .success
  addresses : Function.Injective aslevel.addrMapper
  installed : ∃ built, aslevelTopoBuildNetwork existing env aslevel = (.success, built) ∧
    aslevelTopoSetupPolicies world built = (.success, ready)

namespace Installs

theorem ready_eq (installs : Installs existing env world aslevel ready) :
    ready.topo = aslevel.topo ∧ ready.addrMapper = aslevel.addrMapper ∧
      ∀ u, ready.router u = (aslevel.topo.domain u).map fun d =>
        d.neighbors.items.foldl (aslevelSetupLink (world u) aslevel.addrMapper)
          (aslevelBuildDomain aslevel.addrMapper (env u) d) := by
  obtain ⟨built, builds, sets⟩ := installs.installed
  simp only [aslevelTopoBuildNetwork] at builds
  split at builds
  · cases builds
  split at builds
  · cases builds
  cases builds
  cases sets
  refine ⟨rfl, rfl, fun u => ?_⟩
  cases found : aslevel.topo.domain u with
  | none => simp [found]
  | some d => simp [found]

/-- The routers at the start. -/
theorem network_configured (installs : Installs existing env world aslevel ready) (u : Asn) :
    Blank ready.addrMapper (env u) u ((ready.network env).router u) ∧
      Peering ready.topo ready.addrMapper (world u) u ((ready.network env).router u) := by
  obtain ⟨topo, mapper, router⟩ := installs.ready_eq
  simp only [AsLevel.network, router u, topo, mapper]
  cases found : aslevel.topo.domain u with
  | some d => exact buildDomain_peering installs.addresses found
  | none => exact ⟨⟨fresh_create _ _ _ _, rfl, rfl, rfl, rfl⟩, rfl, fun held => by cases held⟩

/-- An address belongs to the domain it was made from. -/
theorem owner_address {a : NetAddr} {u : Asn}
    (owned : ready.owner a = some u) : a = ready.addrMapper u := by
  obtain ⟨d, found, rfl⟩ := Option.map_eq_some_iff.mp owned
  have here : ready.addrMapper d.asn = a := by simpa using List.find?_some found
  exact here.symm

theorem address_owner (installs : Installs existing env world aslevel ready) {u : Asn} {d : AsDomain}
    (found : ready.topo.domain u = some d) : ready.owner (ready.addrMapper u) = some u := by
  obtain ⟨topo, mapper, _⟩ := installs.ready_eq
  obtain ⟨inside, rfl⟩ := domain_eq_some.mp found
  have known : ready.owner (ready.addrMapper d.asn) ≠ none := by
    simp only [AsLevel.owner, ne_eq, Option.map_eq_none_iff, List.find?_eq_none]
    intro absent
    simpa using absent d inside
  obtain ⟨v, owned⟩ := Option.ne_none_iff_exists'.mp known
  have same := owner_address owned
  rw [mapper] at same
  rw [mapper] at owned ⊢
  rw [owned, installs.addresses same]

theorem wellAddressed (installs : Installs existing env world aslevel ready) :
    WellAddressed ready.owner (ready.network env) where
  own {u a peer} held _ := by
    obtain ⟨v, type, linked, link, _⟩ := (installs.network_configured u).2.peer held
    obtain ⟨d, found, _⟩ := linkType_eq_some.mp linked
    rw [link.srcAddr]
    exact installs.address_owner found
  once {u a a' peer peer'} held _ held' _ same _ := by
    obtain ⟨v, _, linked, link, _⟩ := (installs.network_configured u).2.peer held
    obtain ⟨v', _, linked', link', _⟩ := (installs.network_configured u).2.peer held'
    obtain ⟨d, found, member⟩ := linkType_eq_some.mp linked
    obtain ⟨d', found', member'⟩ := linkType_eq_some.mp linked'
    have mutual' : MutualLinks ready.topo :=
      installs.ready_eq.1 ▸ aslevelTopoCheckConsistency_iff.mp installs.consistent
    obtain ⟨n, neighbor, _⟩ := mutual'.neighbor found member
    obtain ⟨n', neighbor', _⟩ := mutual'.neighbor found' member'
    rw [link.addr, link'.addr, installs.address_owner neighbor, installs.address_owner neighbor'] at same
    rw [link.addr, link'.addr]
    exact congrArg ready.addrMapper (Option.some.inj same)
  posted u sent member := by
    rw [(installs.network_configured u).1.silent] at member
    cases member

end Installs

end Networks

end Cbgp.Verified
