import Cbgp.Bgp.AsLevelCycle
import Cbgp.Bgp.AsLevelFile
import Cbgp.Lib.PackedSet

/-! # The connectedness of AS-level topologies

`aslevel_topo_check_connectedness` of `bgp/aslevel/as-level.c`, with the sets of ASNs of
`bgp/aslevel/util.h` as the arrays they are.
-/

namespace Cbgp.Bgp

open Cbgp.Lib

/-! ## Sets of ASNs -/

/-- The bits of an `unsigned int`. -/
def uintBits : ℕ := 4 * 8

/-- `AS_SET_SIZE`. -/
def asSetSize : ℕ := maxAs / uintBits

/-- `AS_SET_DEFINE`. -/
abbrev AsSet := List (BitVec uintBits)

/-- `AS_SET_INIT`. -/
def asSetInit : AsSet := packedEmpty uintBits asSetSize

/-- `IS_IN_AS_SET`. -/
def isInAsSet (set : AsSet) (asn : Asn) : Except AsLevelFault Bool :=
  match packedTest set asn.toNat with
  | none => .error .outOfSet
  | some found => .ok found

/-- `AS_SET_PUT`. -/
def asSetPut (set : AsSet) (asn : Asn) : Except AsLevelFault AsSet :=
  match packedPut set asn.toNat with
  | none => .error .outOfSet
  | some set => .ok set

/-! ## The check -/

/-- The variables of the traversal.  The top of the stack comes first. -/
structure ConnSearch where
  stack : List CycleCtx
  visited : AsSet

/-- `MAX_QUEUE_SIZE` of `aslevel_topo_check_connectedness`. -/
def maxConnStack : ℕ := maxAs

/-- Mark a domain and push it, unless it is marked. -/
def reachNeighbor (search : ConnSearch) (neighbor : Asn) : Except AsLevelFault ConnSearch := do
  let found ← isInAsSet search.visited neighbor
  if found then .ok search
  else do
    let visited ← asSetPut search.visited neighbor
    if search.stack.length < maxConnStack then .ok ⟨⟨neighbor, 0⟩ :: search.stack, visited⟩
    else .error .stackFull

/-- One turn of the traversal.  The index is stepped here before the push, which leaves it alone. -/
def connTurn (topo : AsTopo) (search : ConnSearch) : Except AsLevelFault ConnSearch ⊕ ConnSearch :=
  match search.stack with
  | [] => .inl (.ok search)
  | ctx :: rest =>
    match topo.domain ctx.domain with
    | none => .inl (.error .dangling)
    | some domain =>
      match domain.neighbors.items[ctx.index]? with
      | none => .inr { search with stack := rest }
      | some link =>
        let stack := { ctx with index := ctx.index + 1 } :: rest
        match reachNeighbor { search with stack := stack } link.neighbor with
        | .error fault => .inl (.error fault)
        | .ok search => .inr search

/-- Whether a domain was reached. -/
def checkReached (visited : AsSet) (domain : AsDomain) : Except AsLevelFault AsLevelError :=
  (isInAsSet visited domain.asn).map fun found => if found then .success else .disconnected

/-- `aslevel_topo_check_connectedness`; `none` when the fuel is used up. -/
def aslevelTopoCheckConnectedness (topo : AsTopo) (fuel : ℕ) :
    Option (Except AsLevelFault AsLevelError) :=
  match topo.domains.items with
  | [] => some (.ok .success)
  | first :: _ =>
    match asSetPut asSetInit first.asn with
    | .error fault => some (.error fault)
    | .ok visited =>
      (looping (connTurn topo) fuel ⟨[⟨first.asn, 0⟩], visited⟩).map fun result => do
        let search ← result
        checkEach (checkReached search.visited) topo.domains.items

end Cbgp.Bgp
