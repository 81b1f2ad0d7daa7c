import Cbgp.Bgp.AsLevelFile

/-! # Domains of AS-level topologies by address

The look-up of domains in `bgp/aslevel/as-level.c`, with pointers to the structures: the cache holds pointers, a
domain that was removed and added again is another structure, and nothing can be read through a pointer to a
structure that was freed.  The domains and their links are those of `AsTopo`.
-/

namespace Cbgp.Bgp

open Cbgp.Lib

/-- A pointer to a domain: the allocation it points to, and the ASN the structure got when it was created, which
does not change. -/
structure DomainPtr where
  address : ℕ
  asn : Asn
  deriving DecidableEq, Repr

/-- `as_level_topo_t`: where the domains are, `cached_domains`, and the number of the next allocation.  Allocations
are told apart even where the memory is used again. -/
structure PlacedTopo where
  topo : AsTopo
  address : Asn → ℕ
  cached : Option DomainPtr × Option DomainPtr
  nextAddress : ℕ

namespace PlacedTopo

/-- `aslevel_topo_create`. -/
def create : PlacedTopo where
  topo := aslevelTopoCreate
  address := fun _ => 0
  cached := (none, none)
  nextAddress := 0

/-- `_aslevel_topo_cache_update_as`: the entries are shifted. -/
def cacheUpdateAs (placed : PlacedTopo) (domain : DomainPtr) : PlacedTopo :=
  { placed with cached := (placed.cached.2, some domain) }

/-- The structure that the pointer leads to has not been freed: it is a domain of the topology. -/
def live (placed : PlacedTopo) (domain : DomainPtr) : Bool :=
  (placed.topo.domain domain.asn).isSome && decide (placed.address domain.asn = domain.address)

/-- `domain->asn`; a freed structure cannot be read. -/
def readAsn (placed : PlacedTopo) (domain : DomainPtr) : Except AsLevelFault Asn :=
  if placed.live domain then .ok domain.asn else .error .dangling

/-- `_aslevel_topo_cache_lookup_as`: from the latest entry, up to the first empty one. -/
def cacheLookupAs (placed : PlacedTopo) (asn : Asn) : Except AsLevelFault (Option DomainPtr) :=
  match placed.cached.2 with
  | none => .ok none
  | some latest => do
    if (← placed.readAsn latest) = asn then .ok (some latest)
    else
      match placed.cached.1 with
      | none => .ok none
      | some older => do
        if (← placed.readAsn older) = asn then .ok (some older) else .ok none

/-- `aslevel_topo_get_as`. -/
def getAs (placed : PlacedTopo) (asn : Asn) : Except AsLevelFault (Option DomainPtr × PlacedTopo) := do
  match ← placed.cacheLookupAs asn with
  | some domain => .ok (some domain, placed)
  | none =>
    match placed.topo.domain asn with
    | none => .ok (none, placed)
    | some d =>
      let domain := ⟨placed.address d.asn, d.asn⟩
      .ok (some domain,
        { placed with topo := aslevelTopoCacheUpdateAs placed.topo asn }.cacheUpdateAs domain)

/-- `aslevel_topo_add_as`. -/
def addAs (placed : PlacedTopo) (asn : Asn) : Option DomainPtr × PlacedTopo :=
  match aslevelTopoAddAs placed.topo asn with
  | none => (none, placed)
  | some topo =>
    let domain := ⟨placed.nextAddress, asn⟩
    (some domain,
      { placed with
        topo := topo
        address := fun a => if a = asn then placed.nextAddress else placed.address a
        nextAddress := placed.nextAddress + 1 }.cacheUpdateAs domain)

/-- `aslevel_topo_remove_as`. -/
def removeAs (placed : PlacedTopo) (asn : Asn) : Except AsLevelFault (AsLevelError × PlacedTopo) := do
  let (error, topo) ← aslevelTopoRemoveAs placed.topo asn
  if error = .success then .ok (error, { placed with topo := topo, cached := (none, none) })
  else .ok (error, placed)

/-- `aslevel_filter_topo`. -/
def filterTopo (placed : PlacedTopo) (filter : AsFilter) : Except AsLevelFault PlacedTopo := do
  let topo ← aslevelFilterTopo placed.topo filter
  .ok { placed with topo := topo }

/-- `aslevel_as_add_link`, between domains of the topology. -/
def addLink (placed : PlacedTopo) (asn1 asn2 : Asn) (peerType : PeerType) :
    Except AsLevelFault (AsLevelError × PlacedTopo) := do
  let (error, topo) ← Bgp.addLink (.success, placed.topo) asn1 asn2 peerType
  .ok (error, { placed with topo := topo })

/-- The operations on a topology. -/
inductive Op where
  | addAs (asn : Asn)
  | getAs (asn : Asn)
  | removeAs (asn : Asn)
  | filterTopo (filter : AsFilter)
  | addLink (asn1 asn2 : Asn) (peerType : PeerType)
  deriving DecidableEq, Repr

/-- One operation. -/
def step (placed : PlacedTopo) : Op → Except AsLevelFault PlacedTopo
  | .addAs asn => .ok (placed.addAs asn).2
  | .getAs asn => (placed.getAs asn).map (·.2)
  | .removeAs asn => (placed.removeAs asn).map (·.2)
  | .filterTopo filter => placed.filterTopo filter
  | .addLink asn1 asn2 peerType => (placed.addLink asn1 asn2 peerType).map (·.2)

/-- A sequence of operations on an empty topology. -/
def run (ops : List Op) : Except AsLevelFault PlacedTopo := ops.foldlM step create

end PlacedTopo

end Cbgp.Bgp
