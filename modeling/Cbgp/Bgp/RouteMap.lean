import Cbgp.Bgp.Filter

/-! # Filter rules

The actions and rules of `bgp/filter/filter.c` and `filter_apply`.  The target of a `call` or a `jump`
is a pointer to a filter, here its number; each of them takes one frame of the stack, and a program
that runs out of stack ends as it does in a failed assertion.
-/

namespace Cbgp.Bgp

open Cbgp.Net

/-! ## Changes of attributes -/

/-- `comms_remove`: the last value takes the set with it. -/
def commsRemove (comms : List Comm) (comm : Comm) : Option (List Comm) :=
  let kept := comms.filter (· ≠ comm)
  if kept.length = comms.length then some comms
  else if kept.isEmpty then none
  else some kept

/-- `bgp_attr_comm_remove`. -/
def bgpAttrCommRemove (attr : Attr) (comm : Comm) : Attr :=
  { attr with comms := attr.comms.bind fun comms => commsRemove comms comm }

/-- `path_segment_remove_private`: `none` when no ASN is left. -/
def pathSegmentRemovePrivate (seg : PathSeg) : Option PathSeg :=
  let kept := seg.asns.filter (· < 64512)
  if kept.length = seg.asns.length then some seg
  else if kept.isEmpty then none
  else some {
    type := seg.type
    asns := kept
    short := Nat.le_trans (List.length_filter_le _ _) seg.short }

/-- `path_remove_private`. -/
def pathRemovePrivate (path : Path) : Path :=
  path.filterMap pathSegmentRemovePrivate

/-- `bgp_attr_path_rem_private`. -/
def bgpAttrPathRemPrivate (intern : Path → Path) (attr : Attr) : Attr :=
  { attr with path := some (intern (pathRemovePrivate (attr.path.getD []))) }

/-- `bgp_attr_ecomm_append`. -/
def bgpAttrEcommAppend (attr : Attr) (ecomm : Ecomm) : Except Abort Attr :=
  if (attr.ecomms.getD []).length < 255 then
    .ok { attr with ecomms := some (attr.ecomms.getD [] ++ [ecomm]) }
  else .error .ecommsOutside

/-! ## Actions and rules -/

/-- `bgp_ft_action_t`, by its code. -/
inductive FtAction where
  | accept
  | deny
  | commAppend (comm : Comm)
  | commStrip
  | commRemove (comm : Comm)
  | pathPrepend (amount : UInt8)
  | pathInsert (asn : Asn) (amount : UInt8)
  | pathRemPrivate
  | prefSet (pref : UInt32)
  | metricSet (metric : UInt32)
  | metricInternal
  | ecommAppend (ecomm : Ecomm)
  | jump (target : Nat)
  | call (target : Nat)

/-- `bgp_ft_rule_t`. -/
structure FtRule where
  matcher : Option Matcher
  actions : List FtAction

/-- What the rules read besides the route. -/
structure FtContext where
  asn : Asn
  rt : NetRt
  hasAddress : NetAddr → Bool -- `node_has_address`
  intern : Path → Path
  pathExprs : PathExprs
  filters : Nat → List FtRule -- the targets; `NULL` has no rules

/-- The result of a rule: 0, 1 or 2. -/
inductive FtResult where
  | deny
  | accept
  | next
  deriving DecidableEq, Repr

/-- An action that changes the route and goes on. -/
def FtAction.change (context : FtContext) (attr : Attr) : FtAction → Except Abort Attr
  | .commAppend comm => bgpAttrCommAppend attr comm
  | .commStrip => .ok { attr with comms := none }
  | .commRemove comm => .ok (bgpAttrCommRemove attr comm)
  | .pathPrepend amount => .ok (bgpAttrPathPrepend context.intern attr context.asn amount.toNat)
  | .pathInsert asn amount => .ok (bgpAttrPathPrepend context.intern attr asn amount.toNat)
  | .pathRemPrivate => .ok (bgpAttrPathRemPrivate context.intern attr)
  | .prefSet pref => .ok { attr with localPref := pref }
  | .metricSet metric => .ok { attr with med := metric }
  | .metricInternal =>
    if context.hasAddress attr.nextHop then .ok { attr with med := 0 }
    else
      match rtFindBest context.rt attr.nextHop netRouteAny with
      | some rtinfo => .ok { attr with med := rtinfo.metric }
      | none => .error .filter
  | .ecommAppend ecomm => bgpAttrEcommAppend attr ecomm
  | .accept | .deny | .jump _ | .call _ => .ok attr

section Apply

variable (context : FtContext)

/-- How another filter is run: its number, what its end stands for, and the route. -/
abbrev FtRun := Nat → FtResult → Route → Except Abort (FtResult × Attr)

/-- `filter_action_apply`. -/
def filterActionApply (run : FtRun) : List FtAction → Route → Except Abort (FtResult × Attr)
  | [], route => .ok (.next, route.attr)
  | .accept :: _, route => .ok (.accept, route.attr)
  | .deny :: _, route => .ok (.deny, route.attr)
  | .jump target :: _, route => run target .accept route
  | .call target :: _, route => run target .next route
  | action :: actions, route => do
    let attr ← action.change context route.attr
    filterActionApply run actions { route with attr := attr }

/-- `filter_rule_apply`. -/
def filterRuleApply (run : FtRun) (rule : FtRule) (route : Route) :
    Except Abort (FtResult × Attr) :=
  if filterMatcherApply context.pathExprs rule.matcher route then
    filterActionApply context run rule.actions route
  else .ok (.next, route.attr)

/-- The loop of `filter_apply` and of `filter_call`, which differ in what the end of the rules stands
for. -/
def applyRulesFrom (run : FtRun) (atEnd : FtResult) :
    List FtRule → Route → Except Abort (FtResult × Attr)
  | [], route => .ok (atEnd, route.attr)
  | rule :: rules, route => do
    let (result, attr) ← filterRuleApply context run rule route
    if result = .next then applyRulesFrom run atEnd rules { route with attr := attr }
    else .ok (result, attr)

/-- `filter_jump` and `filter_call`, with a number of frames left. -/
def runFilter : Nat → FtRun
  | 0, _, _, _ => .error .filter
  | depth + 1, target, atEnd, route =>
    applyRulesFrom context (runFilter depth) atEnd (context.filters target) route

/-- `filter_apply` on a filter that is not `NULL`. -/
def filterApply (depth : Nat) (rules : List FtRule) (route : Route) :
    Except Abort (FtResult × Attr) :=
  applyRulesFrom context (runFilter context depth) .accept rules route

end Apply

/-- What a filter reads that is not the router's: the addresses of its node, the path repository, the
regular expressions, the other filters, and the depth of the stack. -/
structure FtWorld where
  hasAddress : NetAddr → Bool
  intern : Path → Path
  pathExprs : PathExprs
  filters : Nat → List FtRule
  depth : Nat

def FtWorld.context (world : FtWorld) (asn : Asn) (rt : NetRt) : FtContext where
  asn := asn
  rt := rt
  hasAddress := world.hasAddress
  intern := world.intern
  pathExprs := world.pathExprs
  filters := world.filters

/-- A filter as a router uses it. -/
def FtWorld.filter (world : FtWorld) (rules : List FtRule) : Filter where
  apply asn rt route :=
    match filterApply (world.context asn rt) world.depth rules route with
    | .ok (.deny, _) => .ok none
    | .ok (_, attr) => .ok (some attr)
    | .error _ => .error .filter
  denied asn rt route :=
    match filterApply (world.context asn rt) world.depth rules route with
    | .ok (_, attr) => attr
    | .error _ => route.attr
  fails := by
    intro asn rt route e failed
    split at failed
    · cases failed
    · cases failed
    · cases failed
      rfl

end Cbgp.Bgp
