import Cbgp.Bgp.AsLevel
import Cbgp.Lib.Looping

/-! # The search for cycles in AS-level topologies

`aslevel_topo_check_cycle` of `bgp/aslevel/as-level.c`.  The sets of ASNs are their membership tests.
-/

namespace Cbgp.Bgp

open Cbgp.Lib

/-- `SGTCtx`: a domain on the stack and the index of the next neighbor. -/
structure CycleCtx where
  domain : Asn
  index : ℕ
  deriving DecidableEq, Repr

/-- The variables of the search.  The top of the stack comes first. -/
structure CycleSearch where
  stack : List CycleCtx
  visited : Asn → Bool
  inCycle : Asn → Bool
  numCycles : ℕ

/-- `MAX_QUEUE_SIZE`. -/
def maxQueueSize : ℕ := 100

/-- `AS_SET_PUT` and `AS_SET_CLEAR`. -/
def asSet (set : Asn → Bool) (asn : Asn) (value : Bool) : Asn → Bool :=
  fun a => if a = asn then value else set a

/-- The domains on the stack from the first one that is the neighbor: the cycle it closes. -/
def cycleFrom (neighbor : Asn) (stack : List CycleCtx) : List Asn :=
  (stack.reverse.map CycleCtx.domain).dropWhile (· ≠ neighbor)

/-- One turn of the inner loop. -/
def cycleTurn (topo : AsTopo) (search : CycleSearch) :
    Except AsLevelFault CycleSearch ⊕ CycleSearch :=
  match search.stack with
  | [] => .inl (.ok search)
  | ctx :: rest =>
    match topo.domain ctx.domain with
    | none => .inl (.error .dangling)
    | some domain =>
      match domain.neighbors.items[ctx.index]? with
      -- No neighbor is left: the context is popped and its mark taken off.
      | none => .inr { search with stack := rest, visited := asSet search.visited ctx.domain false }
      | some link =>
        let stack := { ctx with index := ctx.index + 1 } :: rest
        if search.inCycle link.neighbor = false ∧ link.peerType = .customer then
          -- A neighbor on the stack closes a cycle, whose domains are marked; any other is pushed.
          let cycle := if search.visited link.neighbor then cycleFrom link.neighbor search.stack else []
          if cycle = [] then
            if search.stack.length = maxQueueSize then .inl (.error .stackFull)
            else
              .inr { search with
                stack := ⟨link.neighbor, 0⟩ :: stack
                visited := asSet search.visited link.neighbor true }
          else
            .inr { search with
              stack := stack
              inCycle := cycle.foldl (fun set asn => asSet set asn true) search.inCycle
              numCycles := search.numCycles + 1 }
        else .inr { search with stack := stack }

/-- The search from a domain begins with the cycles found from the domains before. -/
def cycleStart (search : CycleSearch) (domain : Asn) : CycleSearch :=
  { search with stack := [⟨domain, 0⟩], visited := asSet (fun _ => false) domain true }

/-- The outer loop. -/
def searchTops (topo : AsTopo) (fuel : ℕ) :
    List Asn → CycleSearch → Option (Except AsLevelFault CycleSearch)
  | [], search => some (.ok search)
  | domain :: domains, search =>
    match looping (cycleTurn topo) fuel (cycleStart search domain) with
    | some (.ok search) => searchTops topo fuel domains search
    | stopped => stopped

/-- `aslevel_topo_get_top`. -/
def aslevelTopoGetTop (topo : AsTopo) : List Asn :=
  (topo.domains.items.filter fun domain => aslevelAsNumProviders domain = 0).map AsDomain.asn

/-- `aslevel_topo_check_cycle`; `none` when the fuel is used up. -/
def aslevelTopoCheckCycle (topo : AsTopo) (fuel : ℕ) : Option (Except AsLevelFault AsLevelError) :=
  if topo.domains.items = [] then some (.ok .success)
  else
    match aslevelTopoGetTop topo with
    | [] => some (.ok .cycleDetected)
    | tops =>
      (searchTops topo fuel tops ⟨[], fun _ => false, fun _ => false, 0⟩).map fun result =>
        result.map fun search => if 0 < search.numCycles then .cycleDetected else .success

end Cbgp.Bgp
