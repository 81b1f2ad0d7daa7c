import Cbgp.Bgp.Attr
import Cbgp.Lib.SortedArray

/-! # AS-level topologies

The topologies of `bgp/aslevel/as-level.c` and the filters of `bgp/aslevel/filter.c`.  A pointer to a
domain is its ASN; following it fails when the domain is not in the topology any more.
-/

namespace Cbgp.Bgp

open Cbgp.Lib

/-! ## Domains and links -/

/-- `peer_type_t`: what the neighbor is. -/
inductive PeerType where
  | customer
  | provider
  | peer
  | sibling
  deriving DecidableEq, Repr

/-- `aslevel_reverse_relation`. -/
def aslevelReverseRelation : PeerType → PeerType
  | .customer => .provider
  | .provider => .customer
  | .peer => .peer
  | .sibling => .sibling

/-- The error codes of `as-level.h` that the modelled functions return. -/
inductive AsLevelError where
  | success
  | unexpected
  | numParams
  | invalidAsnum
  | invalidRelation
  | invalidDelay
  | duplicateLink
  | loopLink
  | nodeExists
  | inconsistent
  | disconnected
  | cycleDetected
  | unknownFormat
  | openFile
  | topologyLoaded
  | notInstalled
  | alreadyInstalled
  | alreadyRunning
  deriving DecidableEq, Repr

/-- Why the program stopped. -/
inductive AsLevelFault where
  | missingReverse -- the `abort()` of `aslevel_topo_remove_as`
  | dangling -- a domain is read that is not in the topology
  | stackFull -- the assertion on the result of `stack_push`
  | outOfSet -- a set of ASNs is read or written past its end
  deriving DecidableEq, Repr

/-- `as_level_link_t`. -/
structure AsLink where
  neighbor : Asn
  peerType : PeerType
  deriving DecidableEq

/-- The order of links and domains. -/
def AsLink.key (link : AsLink) : ℕ := link.neighbor.toNat

/-- `as_level_domain_t`.  `aslevel_as_add_link` rejects links from a domain to itself. -/
structure AsDomain where
  asn : Asn
  neighbors : SortedArray AsLink.key
  noLoop : ∀ link ∈ neighbors.items, link.neighbor ≠ asn

def AsDomain.key (domain : AsDomain) : ℕ := domain.asn.toNat

/-- `_aslevel_as_create`. -/
def aslevelAsCreate (asn : Asn) : AsDomain where
  asn := asn
  neighbors := .empty
  noLoop := by simp [SortedArray.empty]

/-- `aslevel_as_get_link`. -/
def aslevelAsGetLink (domain : AsDomain) (neighbor : Asn) : Option AsLink :=
  domain.neighbors.find neighbor.toNat

/-- `aslevel_as_add_link`, on the first domain. -/
def aslevelAsAddLink (domain : AsDomain) (neighbor : Asn) (peerType : PeerType) :
    Except AsLevelError AsDomain :=
  if loop : domain.asn = neighbor then .error .loopLink
  else
    match added : domain.neighbors.add ⟨neighbor, peerType⟩ with
    | none => .error .duplicateLink
    | some neighbors =>
      .ok { domain with
        neighbors := neighbors
        noLoop := by
          intro link member
          rcases (SortedArray.mem_add added link).mp member with rfl | old
          · exact fun same => loop same.symm
          · exact domain.noLoop link old }

/-- Keep some of the links. -/
def AsDomain.restrict (domain : AsDomain) (links : List AsLink)
    (part : links.Sublist domain.neighbors.items) : AsDomain where
  asn := domain.asn
  neighbors := domain.neighbors.restrict links part
  noLoop link member := domain.noLoop link (part.subset member)

/-- `ptr_array_remove_at` on the neighbors, for those that fail a test. -/
def AsDomain.filterLinks (domain : AsDomain) (p : AsLink → Bool) : AsDomain :=
  domain.restrict (domain.neighbors.items.filter p) List.filter_sublist

@[simp] theorem AsDomain.restrict_asn (domain : AsDomain) (links : List AsLink)
    (part : links.Sublist domain.neighbors.items) : (domain.restrict links part).asn = domain.asn := rfl

@[simp] theorem AsDomain.filterLinks_asn (domain : AsDomain) (p : AsLink → Bool) :
    (domain.filterLinks p).asn = domain.asn := rfl

/-- `aslevel_as_num_customers` and `aslevel_as_num_providers`. -/
def numLinks (peerType : PeerType) (domain : AsDomain) : ℕ :=
  domain.neighbors.items.countP fun link => link.peerType = peerType

def aslevelAsNumCustomers (domain : AsDomain) : ℕ := numLinks .customer domain

def aslevelAsNumProviders (domain : AsDomain) : ℕ := numLinks .provider domain

/-! ## Topologies -/

/-- `as_level_topo_t`: the domains, and the two domains found or added last, the latest one last. -/
structure AsTopo where
  domains : SortedArray AsDomain.key
  cachedDomains : Option Asn × Option Asn

/-- `aslevel_topo_create`. -/
def aslevelTopoCreate : AsTopo where
  domains := .empty
  cachedDomains := (none, none)

namespace AsTopo

/-- Follow a pointer to a domain. -/
def domain (topo : AsTopo) (asn : Asn) : Option AsDomain :=
  topo.domains.find asn.toNat

/-- Update domains where they stand. -/
def mapDomains (topo : AsTopo) (f : AsDomain → AsDomain) (same : ∀ d, (f d).asn = d.asn) : AsTopo :=
  { topo with domains := topo.domains.map f fun d => congrArg UInt16.toNat (same d) }

/-- Store a domain in the place of the one with its ASN. -/
def setDomain (topo : AsTopo) (domain : AsDomain) : AsTopo :=
  topo.mapDomains (fun d => if d.asn = domain.asn then domain else d) fun d => by
    split
    next same => exact same.symm
    next => rfl

end AsTopo

/-- A loop that returns with the first error. -/
def checkEach {β : Type} (check : β → Except AsLevelFault AsLevelError) :
    List β → Except AsLevelFault AsLevelError
  | [] => .ok .success
  | b :: rest =>
    match check b with
    | .ok .success => checkEach check rest
    | result => result

/-- `aslevel_topo_check_consistency`, on one link. -/
def checkLink (topo : AsTopo) (domain : AsDomain) (link1 : AsLink) :
    Except AsLevelFault AsLevelError :=
  match topo.domain link1.neighbor with
  | none => .error .dangling
  | some neighbor =>
    match aslevelAsGetLink neighbor domain.asn with
    | none => .ok .inconsistent
    | some link2 =>
      if link1.peerType ≠ aslevelReverseRelation link2.peerType then .ok .inconsistent
      else .ok .success

/-- `aslevel_topo_check_consistency`. -/
def aslevelTopoCheckConsistency (topo : AsTopo) : Except AsLevelFault AsLevelError :=
  checkEach (fun domain => checkEach (checkLink topo domain) domain.neighbors.items) topo.domains.items

/-- `aslevel_topo_remove_as`: the links from a neighbor back to the domain. -/
def removeReverse (asn : Asn) (topo : AsTopo) (link : AsLink) : Except AsLevelFault AsTopo :=
  match topo.domain link.neighbor with
  | none => .error .dangling
  | some neighbor =>
    match aslevelAsGetLink neighbor asn with
    | none => .error .missingReverse
    | some _ => .ok (topo.setDomain (neighbor.filterLinks fun l => l.neighbor ≠ asn))

/-- `aslevel_topo_remove_as`. -/
def aslevelTopoRemoveAs (topo : AsTopo) (asn : Asn) : Except AsLevelFault (AsLevelError × AsTopo) :=
  match topo.domain asn with
  | none => .ok (.invalidAsnum, topo)
  | some domain => do
    let topo ← domain.neighbors.items.foldlM (removeReverse asn) { topo with cachedDomains := (none, none) }
    .ok (.success, { topo with domains := topo.domains.erase asn.toNat })

/-! ## Filters -/

/-- `aslevel_filter_t`. -/
inductive AsFilter where
  | stubs
  | singleHomedStubs
  | peerToPeer
  | keepTop
  deriving DecidableEq, Repr

/-- The loop of the peer-to-peer filter over the neighbors of a domain: it stops at the first one
without providers. -/
def dropPeers (topo : AsTopo) : List AsLink → Except AsLevelFault (List AsLink)
  | [] => .ok []
  | link :: links =>
    match topo.domain link.neighbor with
    | none => .error .dangling
    | some neighbor =>
      if aslevelAsNumProviders neighbor = 0 then .ok (link :: links)
      else if link.peerType = .peer then dropPeers topo links
      else (dropPeers topo links).map (link :: ·)

theorem dropPeers_sublist {topo : AsTopo} {links kept : List AsLink}
    (dropped : dropPeers topo links = .ok kept) : kept.Sublist links := by
  induction links generalizing kept with
  | nil =>
    cases dropped
    exact List.Sublist.refl _
  | cons link links inductionHypothesis =>
    unfold dropPeers at dropped
    split at dropped
    · cases dropped
    · split at dropped
      · cases dropped
        exact List.Sublist.refl _
      · split at dropped
        · exact (inductionHypothesis dropped).cons link
        · cases rest : dropPeers topo links with
          | error fault =>
            rw [rest] at dropped
            cases dropped
          | ok others =>
            rw [rest] at dropped
            cases dropped
            exact (inductionHypothesis rest).cons_cons link

/-- `aslevel_filter_topo`: the first loop, on one domain.  The set holds the domains to remove. -/
def identify (filter : AsFilter) (state : AsTopo × List Asn) (asn : Asn) :
    Except AsLevelFault (AsTopo × List Asn) :=
  match state.1.domain asn with
  | none => .error .dangling
  | some domain =>
    match filter with
    | .stubs =>
      if aslevelAsNumCustomers domain = 0 then .ok (state.1, asn :: state.2) else .ok state
    | .singleHomedStubs =>
      if aslevelAsNumCustomers domain = 0 ∧ aslevelAsNumProviders domain = 1 then
        .ok (state.1, asn :: state.2)
      else .ok state
    | .peerToPeer =>
      -- Only a domain with a provider loses its peers, and goes if that leaves it without links.
      if aslevelAsNumProviders domain = 0 then .ok state
      else
        match kept : dropPeers state.1 domain.neighbors.items with
        | .error fault => .error fault
        | .ok links =>
          .ok (state.1.setDomain (domain.restrict links (dropPeers_sublist kept)),
            if links = [] then asn :: state.2 else state.2)
    | .keepTop =>
      if 0 < aslevelAsNumProviders domain then .ok (state.1, asn :: state.2) else .ok state

/-- `aslevel_filter_topo`: the loops that remove the links to the domains of a set, and the domains. -/
def removeDomains (topo : AsTopo) (set : List Asn) : AsTopo :=
  let topo := topo.mapDomains (fun d => d.filterLinks fun link => link.neighbor ∉ set) fun _ => rfl
  { topo with domains := topo.domains.filter fun d => d.asn ∉ set }

/-- `aslevel_filter_topo`. -/
def aslevelFilterTopo (topo : AsTopo) (filter : AsFilter) : Except AsLevelFault AsTopo := do
  let (topo, set) ← (topo.domains.items.map AsDomain.asn).foldlM (identify filter) (topo, [])
  .ok (removeDomains topo set)

end Cbgp.Bgp
