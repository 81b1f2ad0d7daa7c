import Mathlib.Data.Set.Card
import Mathlib.Logic.Relation
import Cbgp.Lib.Run
import Cbgp.Bgp.RouteMap

/-! # Calls and jumps between route-maps

`FtRuns` is the evaluation of a filter without a bound on the stack: it relates what is left to do to
the outcome, if there is one, and the bounded evaluation finds the outcome as soon as the stack is deep
enough (`FtRuns.depth`).  Nothing bounds the nesting, so a route-map that calls itself has no outcome;
where no route-map reaches itself there always is one (`filterApply_terminates`).  A call ends the
actions of its rule (`call_ends_actions`).
-/

namespace Cbgp.Verified

open Cbgp.Lib Cbgp.Bgp Relation

/-! ## Evaluation -/

/-- What is left to do: actions of a rule, or rules with what their end stands for. -/
inductive FtTask where
  | actions (actions : List FtAction)
  | rules (atEnd : FtResult) (rules : List FtRule)

/-- A result with the attributes of the route, or a failed assertion. -/
abbrev FtOutcome := Except Abort (FtResult × Attr)

/-- The route-map that an action goes to. -/
def ftTarget : FtAction → Option ℕ
  | .jump target | .call target => some target
  | _ => none

/-- The action ends the list of actions. -/
def ftStops : FtAction → Bool
  | .accept | .deny | .jump _ | .call _ => true
  | _ => false

section Calls

variable (context : FtContext)

/-- The outcome of a task on a route. -/
inductive FtRuns : FtTask → Route → FtOutcome → Prop where
  | done {route : Route} : FtRuns (.actions []) route (.ok (.next, route.attr))
  | accept {actions : List FtAction} {route : Route} :
      FtRuns (.actions (.accept :: actions)) route (.ok (.accept, route.attr))
  | deny {actions : List FtAction} {route : Route} :
      FtRuns (.actions (.deny :: actions)) route (.ok (.deny, route.attr))
  | jump {target : ℕ} {actions : List FtAction} {route : Route} {outcome : FtOutcome} :
      FtRuns (.rules .accept (context.filters target)) route outcome →
      FtRuns (.actions (.jump target :: actions)) route outcome
  | call {target : ℕ} {actions : List FtAction} {route : Route} {outcome : FtOutcome} :
      FtRuns (.rules .next (context.filters target)) route outcome →
      FtRuns (.actions (.call target :: actions)) route outcome
  | change {action : FtAction} {actions : List FtAction} {route : Route} {attr : Attr} {outcome : FtOutcome} :
      ftStops action = false → action.change context route.attr = .ok attr →
      FtRuns (.actions actions) { route with attr := attr } outcome →
      FtRuns (.actions (action :: actions)) route outcome
  | fault {action : FtAction} {actions : List FtAction} {route : Route} {e : Abort} :
      ftStops action = false → action.change context route.attr = .error e →
      FtRuns (.actions (action :: actions)) route (.error e)
  | atEnd {atEnd : FtResult} {route : Route} : FtRuns (.rules atEnd []) route (.ok (atEnd, route.attr))
  | skip {atEnd : FtResult} {rule : FtRule} {rules : List FtRule} {route : Route} {outcome : FtOutcome} :
      filterMatcherApply context.pathExprs rule.matcher route = false →
      FtRuns (.rules atEnd rules) route outcome →
      FtRuns (.rules atEnd (rule :: rules)) route outcome
  | verdict {atEnd result : FtResult} {rule : FtRule} {rules : List FtRule} {route : Route} {attr : Attr} :
      filterMatcherApply context.pathExprs rule.matcher route = true →
      FtRuns (.actions rule.actions) route (.ok (result, attr)) → result ≠ .next →
      FtRuns (.rules atEnd (rule :: rules)) route (.ok (result, attr))
  | next {atEnd : FtResult} {rule : FtRule} {rules : List FtRule} {route : Route} {attr : Attr}
      {outcome : FtOutcome} :
      filterMatcherApply context.pathExprs rule.matcher route = true →
      FtRuns (.actions rule.actions) route (.ok (.next, attr)) →
      FtRuns (.rules atEnd rules) { route with attr := attr } outcome →
      FtRuns (.rules atEnd (rule :: rules)) route outcome
  | stop {atEnd : FtResult} {rule : FtRule} {rules : List FtRule} {route : Route} {e : Abort} :
      filterMatcherApply context.pathExprs rule.matcher route = true →
      FtRuns (.actions rule.actions) route (.error e) →
      FtRuns (.rules atEnd (rule :: rules)) route (.error e)

/-- The bounded evaluation of a task. -/
def ftEval (depth : ℕ) : FtTask → Route → FtOutcome
  | .actions actions, route => filterActionApply context (runFilter context depth) actions route
  | .rules atEnd rules, route => applyRulesFrom context (runFilter context depth) atEnd rules route

variable {context}

theorem filterActionApply_change (run : FtRun) {action : FtAction} (edits : ftStops action = false)
    (actions : List FtAction) (route : Route) :
    filterActionApply context run (action :: actions) route =
      (action.change context route.attr).bind fun attr =>
        filterActionApply context run actions { route with attr := attr } := by
  cases action with
  | accept | deny | jump | call => cases edits
  | _ => rfl

/-- With a stack that is deep enough, the bounded evaluation has the same outcome. -/
theorem FtRuns.depth {task : FtTask} {route : Route} {outcome : FtOutcome}
    (runs : FtRuns context task route outcome) :
    ∃ least, ∀ depth, least ≤ depth → ftEval context depth task route = outcome := by
  -- a call needs one frame more than its route-map
  have nested : ∀ {target atEnd route outcome least},
      (∀ depth, least ≤ depth → ftEval context depth (.rules atEnd (context.filters target)) route = outcome) →
      ∀ depth, least + 1 ≤ depth → runFilter context depth target atEnd route = outcome := by
    intro target atEnd route outcome least found depth deep
    obtain ⟨depth, rfl⟩ := Nat.exists_eq_succ_of_ne_zero (by omega : depth ≠ 0)
    exact found depth (by omega)
  induction runs with
  | done | accept | deny | atEnd => exact ⟨0, fun _ _ => rfl⟩
  | jump _ inductionHypothesis | call _ inductionHypothesis =>
    obtain ⟨least, found⟩ := inductionHypothesis
    exact ⟨least + 1, nested found⟩
  | change edits changed _ inductionHypothesis =>
    obtain ⟨least, found⟩ := inductionHypothesis
    refine ⟨least, fun depth deep => ?_⟩
    rw [ftEval, filterActionApply_change _ edits, changed]
    exact found depth deep
  | fault edits stopped =>
    refine ⟨0, fun depth _ => ?_⟩
    rw [ftEval, filterActionApply_change _ edits, stopped]
    rfl
  | skip other _ inductionHypothesis =>
    obtain ⟨least, found⟩ := inductionHypothesis
    refine ⟨least, fun depth deep => ?_⟩
    simp only [ftEval, applyRulesFrom, filterRuleApply, other, Bool.false_eq_true, if_false, bind, Except.bind,
      if_true]
    exact found depth deep
  | verdict matched _ final inductionHypothesis =>
    obtain ⟨least, found⟩ := inductionHypothesis
    refine ⟨least, fun depth deep => ?_⟩
    have ran := found depth deep
    simp only [ftEval] at ran
    simp only [ftEval, applyRulesFrom, filterRuleApply, matched, if_true, ran, bind, Except.bind, if_neg final]
  | next matched _ _ inductionHypothesis1 inductionHypothesis2 =>
    obtain ⟨least1, found1⟩ := inductionHypothesis1
    obtain ⟨least2, found2⟩ := inductionHypothesis2
    refine ⟨max least1 least2, fun depth deep => ?_⟩
    have ran := found1 depth (by omega)
    simp only [ftEval] at ran
    simp only [ftEval, applyRulesFrom, filterRuleApply, matched, if_true, ran, bind, Except.bind]
    exact found2 depth (by omega)
  | stop matched _ inductionHypothesis =>
    obtain ⟨least, found⟩ := inductionHypothesis
    refine ⟨least, fun depth deep => ?_⟩
    have ran := found depth deep
    simp only [ftEval] at ran
    simp only [ftEval, applyRulesFrom, filterRuleApply, matched, if_true, ran, bind, Except.bind]

/-- Actions end with an outcome when the route-maps they go to do. -/
theorem ftRuns_actions {run : FtRun}
    (called : ∀ {target atEnd route result}, run target atEnd route = .ok result →
      FtRuns context (.rules atEnd (context.filters target)) route (.ok result))
    {actions : List FtAction} {route : Route} {result : FtResult × Attr}
    (ran : filterActionApply context run actions route = .ok result) :
    FtRuns context (.actions actions) route (.ok result) := by
  induction actions generalizing route with
  | nil =>
    cases ran
    exact .done
  | cons action actions inductionHypothesis =>
    cases stops : ftStops action with
    | false =>
      rw [filterActionApply_change _ stops] at ran
      cases changed : action.change context route.attr with
      | error e =>
        rw [changed] at ran
        cases ran
      | ok attr =>
        rw [changed] at ran
        exact .change stops changed (inductionHypothesis ran)
    | true =>
      cases action with
      | accept =>
        cases ran
        exact .accept
      | deny =>
        cases ran
        exact .deny
      | jump target => exact .jump (called ran)
      | call target => exact .call (called ran)
      | _ => cases stops

theorem ftRuns_rules {run : FtRun}
    (called : ∀ {target atEnd route result}, run target atEnd route = .ok result →
      FtRuns context (.rules atEnd (context.filters target)) route (.ok result))
    {atEnd : FtResult} {rules : List FtRule} {route : Route} {result : FtResult × Attr}
    (ran : applyRulesFrom context run atEnd rules route = .ok result) :
    FtRuns context (.rules atEnd rules) route (.ok result) := by
  induction rules generalizing route with
  | nil =>
    cases ran
    exact .atEnd
  | cons rule rules inductionHypothesis =>
    obtain ⟨⟨result1, attr⟩, first, rest⟩ := except_bind_eq_ok.mp ran
    simp only [filterRuleApply] at first
    cases matched : filterMatcherApply context.pathExprs rule.matcher route with
    | false =>
      simp only [matched, Bool.false_eq_true, if_false] at first
      cases first
      exact .skip matched (inductionHypothesis rest)
    | true =>
      simp only [matched, if_true] at first
      have actions := ftRuns_actions called first
      by_cases next : result1 = .next
      · simp only [next, if_true] at rest actions
        exact .next matched actions (inductionHypothesis rest)
      · simp only [if_neg next] at rest
        cases rest
        exact .verdict matched actions next

/-- What the bounded evaluation ends with is an outcome. -/
theorem ftRuns_of_eval {depth : ℕ} {task : FtTask} {route : Route} {result : FtResult × Attr}
    (ran : ftEval context depth task route = .ok result) : FtRuns context task route (.ok result) := by
  induction depth generalizing task route result with
  | zero =>
    have called : ∀ {target atEnd route result}, runFilter context 0 target atEnd route = .ok result →
        FtRuns context (.rules atEnd (context.filters target)) route (.ok result) := fun failed => nomatch failed
    cases task with
    | actions actions => exact ftRuns_actions called ran
    | rules atEnd rules => exact ftRuns_rules called ran
  | succ depth inductionHypothesis =>
    have called : ∀ {target atEnd route result}, runFilter context (depth + 1) target atEnd route = .ok result →
        FtRuns context (.rules atEnd (context.filters target)) route (.ok result) :=
      fun {target atEnd route result} ran =>
        have nested : ftEval context depth (.rules atEnd (context.filters target)) route = .ok result := ran
        inductionHypothesis nested
    cases task with
    | actions actions => exact ftRuns_actions called ran
    | rules atEnd rules => exact ftRuns_rules called ran

/-- A task has one outcome. -/
theorem FtRuns.unique {task : FtTask} {route : Route} {outcome outcome' : FtOutcome}
    (runs : FtRuns context task route outcome) (runs' : FtRuns context task route outcome') :
    outcome = outcome' := by
  obtain ⟨least, found⟩ := runs.depth
  obtain ⟨least', found'⟩ := runs'.depth
  rw [← found (max least least') (Nat.le_max_left _ _), found' _ (Nat.le_max_right _ _)]

/-- A filter ends with a result on some stack exactly when that is its outcome. -/
theorem filterApply_iff {rules : List FtRule} {route : Route} {result : FtResult × Attr} :
    (∃ depth, filterApply context depth rules route = .ok result) ↔
      FtRuns context (.rules .accept rules) route (.ok result) := by
  constructor
  · rintro ⟨depth, ran⟩
    have evaluated : ftEval context depth (.rules .accept rules) route = .ok result := ran
    exact ftRuns_of_eval evaluated
  · intro runs
    obtain ⟨least, found⟩ := runs.depth
    exact ⟨least, found least (Nat.le_refl least)⟩

/-! ## Ends -/

/-- The result of rules that end with a verdict is a verdict. -/
theorem FtRuns.verdict_of_rules {task : FtTask} {route : Route} {outcome : FtOutcome}
    (runs : FtRuns context task route outcome) {atEnd : FtResult} {rules : List FtRule}
    (here : task = .rules atEnd rules) (final : atEnd ≠ .next) {result : FtResult} {attr : Attr}
    (ended : outcome = .ok (result, attr)) : result ≠ .next := by
  induction runs generalizing rules with
  | atEnd =>
    cases here
    cases ended
    exact final
  | skip _ _ inductionHypothesis =>
    cases here
    exact inductionHypothesis rfl ended
  | verdict _ _ notNext =>
    cases ended
    exact notNext
  | next _ _ _ _ inductionHypothesis =>
    cases here
    exact inductionHypothesis rfl ended
  | stop => cases ended
  | _ => cases here

/-- Only a change that fails ends with an assertion. -/
theorem FtRuns.fault_of_error {task : FtTask} {route : Route} {outcome : FtOutcome}
    (runs : FtRuns context task route outcome) {e : Abort} (stopped : outcome = .error e) :
    ∃ (action : FtAction) (attr : Attr), action.change context attr = .error e := by
  induction runs with
  | @fault action _ route _ _ failed =>
    cases stopped
    exact ⟨action, route.attr, failed⟩
  | done | accept | deny | atEnd | verdict => cases stopped
  | jump _ inductionHypothesis | call _ inductionHypothesis | change _ _ _ inductionHypothesis
  | skip _ _ inductionHypothesis | next _ _ _ _ inductionHypothesis => exact inductionHypothesis stopped
  | stop _ _ inductionHypothesis =>
    cases stopped
    exact inductionHypothesis rfl

/-! ## Termination -/

/-- A route-map is named in rules. -/
def Mentions (rules : List FtRule) (target : ℕ) : Prop :=
  ∃ rule ∈ rules, ∃ action ∈ rule.actions, ftTarget action = some target

/-- Actions have an outcome when the route-maps they name have one. -/
theorem exists_ftRuns_actions {actions : List FtAction}
    (called : ∀ action ∈ actions, ∀ target, ftTarget action = some target → ∀ atEnd route,
      ∃ outcome, FtRuns context (.rules atEnd (context.filters target)) route outcome) (route : Route) :
    ∃ outcome, FtRuns context (.actions actions) route outcome := by
  induction actions generalizing route with
  | nil => exact ⟨_, .done⟩
  | cons action actions inductionHypothesis =>
    have rest := inductionHypothesis fun action member => called action (List.mem_cons_of_mem _ member)
    have here := called action List.mem_cons_self
    cases stops : ftStops action with
    | false =>
      cases changed : action.change context route.attr with
      | error e => exact ⟨_, .fault stops changed⟩
      | ok attr =>
        obtain ⟨outcome, runs⟩ := rest { route with attr := attr }
        exact ⟨outcome, .change stops changed runs⟩
    | true =>
      cases action with
      | accept => exact ⟨_, .accept⟩
      | deny => exact ⟨_, .deny⟩
      | jump target =>
        obtain ⟨outcome, runs⟩ := here target rfl .accept route
        exact ⟨outcome, .jump runs⟩
      | call target =>
        obtain ⟨outcome, runs⟩ := here target rfl .next route
        exact ⟨outcome, .call runs⟩
      | _ => cases stops

/-- Rules have an outcome when the route-maps they name have one. -/
theorem exists_ftRuns_rules {rules : List FtRule}
    (called : ∀ target, Mentions rules target → ∀ atEnd route,
      ∃ outcome, FtRuns context (.rules atEnd (context.filters target)) route outcome)
    (atEnd : FtResult) (route : Route) : ∃ outcome, FtRuns context (.rules atEnd rules) route outcome := by
  induction rules generalizing route with
  | nil => exact ⟨_, .atEnd⟩
  | cons rule rules inductionHypothesis =>
    have rest := inductionHypothesis fun target ⟨rule, member, names⟩ =>
      called target ⟨rule, List.mem_cons_of_mem _ member, names⟩
    cases matched : filterMatcherApply context.pathExprs rule.matcher route with
    | false =>
      obtain ⟨outcome, runs⟩ := rest route
      exact ⟨outcome, .skip matched runs⟩
    | true =>
      have actions : ∃ outcome, FtRuns context (.actions rule.actions) route outcome :=
        exists_ftRuns_actions (fun action member target names =>
          called target ⟨rule, List.mem_cons_self, action, member, names⟩) route
      obtain ⟨outcome, runs⟩ := actions
      cases outcome with
      | error e => exact ⟨_, .stop matched runs⟩
      | ok ended =>
        obtain ⟨result, attr⟩ := ended
        by_cases next : result = .next
        · obtain ⟨outcome, later⟩ := rest { route with attr := attr }
          exact ⟨outcome, .next matched (next ▸ runs) later⟩
        · exact ⟨_, .verdict matched runs next⟩

/-- An element below which there are no cycles is accessible, when finitely many have others below them. -/
theorem acc_of_acyclic {α : Type} {r : α → α → Prop} (finite : {a | ∃ b, r b a}.Finite) {a : α}
    (acyclic : ∀ b, ReflTransGen r b a → ¬ TransGen r b b) : Acc r a := by
  -- the elements below that have others below them get fewer
  induction rank : {b | (∃ c, r c b) ∧ TransGen r b a}.ncard using Nat.strong_induction_on generalizing a with
  | h n inductionHypothesis =>
    refine Acc.intro a fun b below => ?_
    by_cases leaf : ∃ c, r c b
    · have acyclic' : ∀ c, ReflTransGen r c b → ¬ TransGen r c c := fun c under =>
        acyclic c (under.tail below)
      refine inductionHypothesis _ ?_ acyclic' rfl
      rw [← rank]
      refine Set.ncard_lt_ncard ⟨?_, ?_⟩ (finite.subset fun c inside => inside.1)
      · rintro c ⟨some, under⟩
        exact ⟨some, under.tail below⟩
      · intro subset
        have inside := subset ⟨leaf, .single below⟩
        exact acyclic b (.single below) inside.2
    · exact Acc.intro b fun c under => absurd ⟨c, under⟩ leaf

variable (context) in
/-- A route-map is named in another one. -/
def Calls (target' target : ℕ) : Prop := Mentions (context.filters target) target'

theorem finite_calls (finite : {target | context.filters target ≠ []}.Finite) :
    {target | ∃ target', Calls context target' target}.Finite := by
  refine finite.subset ?_
  rintro target ⟨target', rule, member, _⟩ empty
  rw [empty] at member
  cases member

/-- A route-map from which no cycle is reached has an outcome on every route. -/
theorem exists_ftRuns (finite : {target | context.filters target ≠ []}.Finite) {target : ℕ}
    (acyclic : ∀ reached, ReflTransGen (Calls context) reached target → ¬ TransGen (Calls context) reached reached)
    (atEnd : FtResult) (route : Route) :
    ∃ outcome, FtRuns context (.rules atEnd (context.filters target)) route outcome := by
  have accessible := acc_of_acyclic (finite_calls finite) acyclic
  clear acyclic
  induction accessible generalizing atEnd route with
  | intro target _ inductionHypothesis =>
    exact exists_ftRuns_rules inductionHypothesis atEnd route

end Calls

/-- A router without addresses and routes, where the path repository finds every path. -/
def mapContext (filters : ℕ → List FtRule) : FtContext where
  asn := 1
  rt := ∅
  hasAddress _ := false
  intern path := path
  pathExprs _ _ := false
  filters := filters

/-- A route of the router itself. -/
def mapRoute : Route := routeCreate ⟨0, 8, Net.short8⟩ none 1 .igp

/-- A route-map that denies. -/
def denyMap : FtContext := mapContext fun target => if target = 0 then [⟨none, [.deny]⟩] else []

theorem denyMap_finite : {target | denyMap.filters target ≠ []}.Finite := by
  refine (Set.finite_singleton 0).subset fun target some => ?_
  by_contra other
  exact some (if_neg other)

theorem denyMap_calls (target' target : ℕ) : ¬ Calls denyMap target' target := by
  rintro ⟨rule, member, action, inside, names⟩
  simp only [denyMap, mapContext] at member
  split at member
  · rw [List.mem_singleton.mp member, List.mem_singleton] at inside
    rw [inside] at names
    cases names
  · cases member

theorem denyMap_acyclic (target : ℕ) : ¬ TransGen (Calls denyMap) target target := by
  intro cycle
  obtain ⟨target', _, step⟩ := TransGen.tail'_iff.mp cycle
  exact denyMap_calls target' target step

/-- A route-map that calls itself. -/
def selfMap : FtContext := mapContext fun _ => [⟨none, [.call 0]⟩]

theorem selfMap_endless {task : FtTask} {route : Route} {outcome : FtOutcome}
    (runs : FtRuns selfMap task route outcome) :
    task ≠ .actions [.call 0] ∧ ∀ atEnd, task ≠ .rules atEnd [⟨none, [.call 0]⟩] := by
  induction runs with
  | done | accept | deny | jump _ _ => exact ⟨by simp, by simp⟩
  | call _ inductionHypothesis => exact absurd rfl (inductionHypothesis.2 .next)
  | change edits _ _ _ | fault edits _ =>
    refine ⟨fun same => ?_, by simp⟩
    cases same
    cases edits
  | atEnd => exact ⟨by simp, by simp⟩
  | skip other _ _ =>
    refine ⟨by simp, fun atEnd same => ?_⟩
    cases same
    cases other
  | verdict _ _ _ inductionHypothesis | next _ _ _ inductionHypothesis _ | stop _ _ inductionHypothesis =>
    refine ⟨by simp, fun atEnd same => ?_⟩
    cases same
    exact inductionHypothesis.1 rfl

section Actions

variable {context : FtContext} {xs ys : List FtAction} {route : Route} {target : ℕ}

/-- Nothing behind an action that ends the list is done. -/
theorem filterActionApply_stops (run : FtRun) (stops : ∃ action ∈ xs, ftStops action = true)
    (ys : List FtAction) (route : Route) :
    filterActionApply context run (xs ++ ys) route = filterActionApply context run xs route := by
  induction xs generalizing route with
  | nil => simp at stops
  | cons action xs inductionHypothesis =>
    cases edits : ftStops action with
    | true =>
      cases action with
      | accept | deny | jump | call => rfl
      | _ => cases edits
    | false =>
      have later : ∃ action ∈ xs, ftStops action = true := by
        obtain ⟨other, member, stops⟩ := stops
        cases List.mem_cons.mp member with
        | inl same =>
          rw [same, edits] at stops
          cases stops
        | inr inside => exact ⟨other, inside, stops⟩
      rw [List.cons_append, filterActionApply_change run edits, filterActionApply_change run edits]
      exact congrArg _ (funext fun attr => inductionHypothesis later { route with attr := attr })

/-- Actions that only change the route, then others. -/
theorem filterActionApply_changes (run : FtRun) (changes : ∀ action ∈ xs, ftStops action = false)
    (ys : List FtAction) (route : Route) :
    filterActionApply context run (xs ++ ys) route =
      (filterActionApply context run xs route).bind fun ended =>
        filterActionApply context run ys { route with attr := ended.2 } := by
  induction xs generalizing route with
  | nil => rfl
  | cons action xs inductionHypothesis =>
    have edits := changes action List.mem_cons_self
    rw [List.cons_append, filterActionApply_change run edits, filterActionApply_change run edits]
    cases action.change context route.attr with
    | error e => rfl
    | ok attr =>
      exact inductionHypothesis (fun action member => changes action (List.mem_cons_of_mem _ member))
        { route with attr := attr }

end Actions

/-- A call ends the list of actions.  Behind actions that only change the route, the rule ends as the
route-map does on the changed route, whatever follows the call: with its verdict, or going on with the
next rule.  Behind an action that ends the list, or an assertion that fails, the route-map is not run. -/
theorem call_ends_actions {context : FtContext} (finite : {target | context.filters target ≠ []}.Finite)
    {target : ℕ}
    (acyclic : ∀ reached, ReflTransGen (Calls context) reached target → ¬ TransGen (Calls context) reached reached)
    {matcher : Option Matcher} {route : Route}
    (matched : filterMatcherApply context.pathExprs matcher route = true) (xs ys : List FtAction) :
    ((∀ action ∈ xs, ftStops action = false) →
      ∀ attr, FtRuns context (.actions xs) route (.ok (.next, attr)) →
        ∃ outcome, FtRuns context (.rules .next (context.filters target)) { route with attr := attr } outcome ∧
          ∃ least, ∀ depth, least ≤ depth →
            filterRuleApply context (runFilter context depth) ⟨matcher, xs ++ .call target :: ys⟩ route = outcome) ∧
    (∀ outcome, FtRuns context (.actions xs) route outcome →
      (∃ action ∈ xs, ftStops action = true) ∨ (∃ e, outcome = .error e) →
        ∃ least, ∀ depth, least ≤ depth →
          filterRuleApply context (runFilter context depth) ⟨matcher, xs ++ .call target :: ys⟩ route = outcome) := by
  have rule : ∀ run, filterRuleApply context run ⟨matcher, xs ++ .call target :: ys⟩ route =
      filterActionApply context run (xs ++ .call target :: ys) route := fun run => if_pos matched
  constructor
  -- The actions before the call run to their end, then the called map decides: ys is never reached.
  · intro changes attr first
    obtain ⟨outcome, runs⟩ := exists_ftRuns finite acyclic .next { route with attr := attr }
    refine ⟨outcome, runs, ?_⟩
    obtain ⟨least1, found1⟩ := first.depth
    have called : FtRuns context (.actions (.call target :: ys)) { route with attr := attr } outcome := .call runs
    obtain ⟨least2, found2⟩ := called.depth
    refine ⟨max least1 least2, fun depth deep => ?_⟩
    have before := found1 depth (by omega)
    have behind := found2 depth (by omega)
    simp only [ftEval] at before behind
    rw [rule, filterActionApply_changes _ changes, before]
    exact behind
  · intro outcome first stops
    obtain ⟨least, found⟩ := first.depth
    refine ⟨least, fun depth deep => ?_⟩
    have before := found depth deep
    simp only [ftEval] at before
    rw [rule]
    -- An action before the call that stops, or one that fails, leaves the call out as well.
    by_cases ends : ∃ action ∈ xs, ftStops action = true
    · rw [filterActionApply_stops _ ends, before]
    · have changes : ∀ action ∈ xs, ftStops action = false := by simpa using ends
      obtain ⟨e, rfl⟩ := stops.resolve_left ends
      rw [filterActionApply_changes _ changes, before]
      rfl

/-- The route-map that denies, called behind a change of the preference. -/
theorem call_ends_actions_denyMap :
    ∃ outcome, FtRuns denyMap (.rules .next [⟨none, [.deny]⟩])
        { mapRoute with attr := { mapRoute.attr with localPref := 7 } } outcome ∧
      ∃ least, ∀ depth, least ≤ depth →
        filterRuleApply denyMap (runFilter denyMap depth) ⟨none, [.prefSet 7, .call 0, .accept]⟩ mapRoute =
          outcome := by
  have acyclic : ∀ reached, ReflTransGen (Calls denyMap) reached 0 → ¬ TransGen (Calls denyMap) reached reached :=
    fun reached _ => denyMap_acyclic reached
  have matched : filterMatcherApply denyMap.pathExprs none mapRoute = true := rfl
  have changes : ∀ action ∈ [FtAction.prefSet 7], ftStops action = false := by simp [ftStops]
  exact (call_ends_actions denyMap_finite acyclic matched [.prefSet 7] [.accept]).1 changes
    { mapRoute.attr with localPref := 7 } (.change rfl rfl .done)

/-- An empty route-map is called, and the actions behind the call are not done. -/
theorem call_not_inlined :
    ¬ ∀ (context : FtContext) (target : ℕ) (xs ys : List FtAction) (route : Route) (attr attr' : Attr)
      (outcome : FtOutcome), {target | context.filters target ≠ []}.Finite →
        (∀ reached, ReflTransGen (Calls context) reached target → ¬ TransGen (Calls context) reached reached) →
        FtRuns context (.actions xs) route (.ok (.next, attr)) →
        FtRuns context (.rules .next (context.filters target)) { route with attr := attr } (.ok (.next, attr')) →
        FtRuns context (.actions ys) { route with attr := attr' } outcome →
        FtRuns context (.actions (xs ++ .call target :: ys)) route outcome := by
  intro inlined
  have runs := inlined denyMap 1 [] [.deny] mapRoute mapRoute.attr mapRoute.attr (.ok (.deny, mapRoute.attr))
    denyMap_finite (fun reached _ => denyMap_acyclic reached) .done .atEnd .deny
  cases runs with
  | call called => cases called
  | change edits => cases edits

end Cbgp.Verified
