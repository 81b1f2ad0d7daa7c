import Cbgp.Bgp.RouteMap
import Cbgp.Verified.ExportedRoutes
import Cbgp.Verified.PrefixSets

/-! # What export filters read

Whatever its rules, and through whatever calls and jumps, a filter decides by the prefix of a route, up to the bits
beyond its length, and by its attributes (`filterApply_alike`).  The routing table of the router matters to
`metric internal` alone; a filter without it goes on to export the same when the routing table changes
(`filter_readsRoute`).
-/

namespace Cbgp.Verified

open Cbgp.Net Cbgp.Bgp

/-! ## Predicates -/

/-- The two routes lead to one prefix with the same attributes. -/
structure AlikeRoutes (route route' : Route) : Prop where
  pfx : ipPrefixMask route'.pfx = ipPrefixMask route.pfx
  attr : route'.attr = route.attr

theorem AlikeRoutes.setAttr {route route' : Route} (alike : AlikeRoutes route route') (attr : Attr) :
    AlikeRoutes { route with attr := attr } { route' with attr := attr } :=
  ⟨alike.pfx, rfl⟩

theorem ipPrefixEq_congr {p p' : Pfx} (same : ipPrefixMask p' = ipPrefixMask p) (q : Pfx) :
    ipPrefixEq p' q = ipPrefixEq p q := by
  rw [Bool.eq_iff_iff, ipPrefixEq_iff, ipPrefixEq_iff, same]

theorem ipPrefixInPrefix_congr {p p' : Pfx} (same : ipPrefixMask p' = ipPrefixMask p) (q : Pfx) :
    ipPrefixInPrefix p' q = ipPrefixInPrefix p q := by
  have addresses : addresses p' = addresses p :=
    (ipPrefixCmp_zero_iff p' p).mp ((ipPrefixCmp_zero_iff_eq p' p).mpr ((ipPrefixEq_iff p' p).mpr same))
  rw [Bool.eq_iff_iff, ipPrefixInPrefix_iff, ipPrefixInPrefix_iff, addresses]

section Matchers

variable {pathExprs : PathExprs} {route route' : Route}

theorem Predicate.apply_alike (alike : AlikeRoutes route route') (predicate : Predicate) :
    predicate.apply pathExprs route' = predicate.apply pathExprs route := by
  have length : route'.pfx.mask = route.pfx.mask := by
    have mask := congrArg Pfx.mask alike.pfx
    exact mask
  cases predicate with
  | commContains comm | pathMatches pos | nextHopIs addr | nextHopIn pfx =>
    simp only [Predicate.apply, alike.attr]
  | prefixIs pfx => exact ipPrefixEq_congr alike.pfx pfx
  | prefixIn pfx => exact ipPrefixInPrefix_congr alike.pfx pfx
  | prefixGe pfx len =>
    simp only [Predicate.apply, ipPrefixGePrefix, ipPrefixInPrefix_congr alike.pfx, length]
  | prefixLe pfx len =>
    simp only [Predicate.apply, ipPrefixLePrefix, ipPrefixInPrefix_congr alike.pfx, length]

theorem Matcher.apply_alike (alike : AlikeRoutes route route') (matcher : Matcher) :
    matcher.apply pathExprs route' = matcher.apply pathExprs route := by
  induction matcher with
  | any => rfl
  | atom predicate => exact Predicate.apply_alike alike predicate
  | and matcher1 matcher2 first second => simp only [Matcher.apply, first, second]
  | or matcher1 matcher2 first second => simp only [Matcher.apply, first, second]
  | not matcher inner => simp only [Matcher.apply, inner]

theorem filterMatcherApply_alike (alike : AlikeRoutes route route') (matcher : Option Matcher) :
    filterMatcherApply pathExprs matcher route' = filterMatcherApply pathExprs matcher route := by
  cases matcher with
  | none => rfl
  | some matcher => exact Matcher.apply_alike alike matcher

end Matchers

/-! ## Rules -/

/-- None of the rules has a `metric internal`. -/
def TableFree (rules : List FtRule) : Prop :=
  ∀ rule ∈ rules, FtAction.metricInternal ∉ rule.actions

/-- The two ways to run other filters do not tell alike routes apart. -/
def AlikeRuns (run run' : FtRun) : Prop :=
  ∀ {route route'}, AlikeRoutes route route' → ∀ target atEnd, run' target atEnd route' = run target atEnd route

section Rules

variable {context : FtContext} {rt : NetRt} {run run' : FtRun} {route route' : Route}

/-- Only `metric internal` reads the routing table. -/
theorem change_table {action : FtAction} (free : action ≠ .metricInternal) (attr : Attr) :
    action.change { context with rt := rt } attr = action.change context attr := by
  cases action with
  | metricInternal => exact absurd rfl free
  | _ => rfl

theorem filterActionApply_alike (runs : AlikeRuns run run') {actions : List FtAction}
    (free : FtAction.metricInternal ∉ actions) (alike : AlikeRoutes route route') :
    filterActionApply { context with rt := rt } run' actions route' =
      filterActionApply context run actions route := by
  induction actions generalizing route route' with
  | nil => simp only [filterActionApply, alike.attr]
  | cons action actions inductionHypothesis =>
    have here : action ≠ .metricInternal := fun same => free (same ▸ List.mem_cons_self)
    have rest (attr : Attr) := inductionHypothesis (fun later => free (List.mem_cons_of_mem _ later))
      (alike.setAttr attr)
    have changed : action.change { context with rt := rt } route.attr = action.change context route.attr :=
      change_table here route.attr
    -- these end the list of actions; the others change the attributes and go on
    cases action with
    | accept | deny => simp only [filterActionApply, alike.attr]
    | jump target => exact runs alike target .accept
    | call target => exact runs alike target .next
    | _ => simp only [filterActionApply, alike.attr, rest, changed]

theorem filterRuleApply_alike (runs : AlikeRuns run run') {rule : FtRule}
    (free : FtAction.metricInternal ∉ rule.actions) (alike : AlikeRoutes route route') :
    filterRuleApply { context with rt := rt } run' rule route' = filterRuleApply context run rule route := by
  simp only [filterRuleApply, filterMatcherApply_alike alike, filterActionApply_alike runs free alike, alike.attr]

theorem applyRulesFrom_alike (runs : AlikeRuns run run') {rules : List FtRule} (free : TableFree rules)
    (alike : AlikeRoutes route route') (atEnd : FtResult) :
    applyRulesFrom { context with rt := rt } run' atEnd rules route' =
      applyRulesFrom context run atEnd rules route := by
  induction rules generalizing route route' with
  | nil => simp only [applyRulesFrom, alike.attr]
  | cons rule rules inductionHypothesis =>
    obtain ⟨here, later⟩ := List.forall_mem_cons.mp free
    have rest (attr : Attr) := inductionHypothesis later (alike.setAttr attr)
    simp only [applyRulesFrom, filterRuleApply_alike runs here alike, rest]

/-- Calls and jumps, as deep as the stack allows. -/
theorem runFilter_alike (free : ∀ target, TableFree (context.filters target)) (depth : Nat) :
    AlikeRuns (runFilter context depth) (runFilter { context with rt := rt } depth) := by
  intro route route' alike target atEnd
  induction depth generalizing route route' target atEnd with
  | zero => rfl
  | succ depth inductionHypothesis =>
    exact applyRulesFrom_alike (fun alike target atEnd => inductionHypothesis alike target atEnd) (free target)
      alike atEnd

variable (context) in
/-- The verdict and the attributes depend on the prefix and the attributes of the route only. -/
theorem filterApply_alike (targets : ∀ target, TableFree (context.filters target)) {rules : List FtRule}
    (free : TableFree rules) (depth : Nat) (alike : AlikeRoutes route route') :
    filterApply { context with rt := rt } depth rules route' = filterApply context depth rules route :=
  applyRulesFrom_alike (runFilter_alike targets depth) free alike .accept

end Rules

/-! ## Export filters -/

/-- A filter without `metric internal` decides by the prefix and the attributes of a route. -/
theorem filter_readsRoute {world : FtWorld} {rules : List FtRule}
    (targets : ∀ target, TableFree (world.filters target)) (free : TableFree rules) :
    ReadsRoute (world.filter rules) := by
  intro asn rt rt' route route' pfx attr
  have same : filterApply (world.context asn rt') world.depth rules route' =
      filterApply (world.context asn rt) world.depth rules route :=
    filterApply_alike (world.context asn rt) targets free world.depth ⟨pfx, attr⟩
  simp only [FtWorld.filter, same]

/-- A filter whose only rule calls another filter. -/
def callWorld : FtWorld where
  hasAddress _ := false
  intern := id
  pathExprs _ _ := false
  filters _ := [⟨some (.atom (.prefixIn ⟨0x0a000000, 8, short8⟩)), [.metricSet 5, .deny]⟩]
  depth := 1

theorem filter_readsRoute_call : ReadsRoute (callWorld.filter [⟨none, [.prefSet 50, .call 0]⟩]) :=
  filter_readsRoute (fun target => by simp [callWorld, TableFree]) (by simp [TableFree])

/-- A routing table with a static route to everywhere. -/
def staticRt : NetRt :=
  (rtAddRoute ∅ ⟨0, 0, short0⟩ { pfx := ⟨0, 0, short0⟩, metric := 7, type := .static, entries := [] }).2

/-- A filter with `metric internal` tells routing tables apart: it stops where there is no route to the next hop. -/
theorem metricInternal_readsTable : ¬ ReadsRoute (callWorld.filter [⟨none, [.metricInternal]⟩]) := by
  intro reads
  have same := reads 1 ∅ staticRt (routeCreate ⟨0x0a000000, 8, short8⟩ none 1 .igp)
    (routeCreate ⟨0x0a000000, 8, short8⟩ none 1 .igp) rfl rfl
  have verdicts := congrArg Except.isOk same
  exact absurd verdicts (by decide +kernel)

end Cbgp.Verified
