import Cbgp.Bgp.DpRules
import Cbgp.Lib.Selection

/-! # The generic rule of the decision process

`bgpDpRuleGeneric` finds a best route while it deletes what is worse than the best one known, and
then deletes what came before it and is worse.  For a comparison that is a total preorder it keeps
the maximal routes (`bgpDpRuleGeneric_eq`), and it keeps some of a non-empty list.
-/

namespace Cbgp.Verified

open Cbgp.Lib Cbgp.Net Cbgp.Bgp

variable {α : Type} {compare : α → α → Int}

/-- A comparison by sign that is a total preorder. -/
structure TotalPreorder (compare : α → α → Int) : Prop where
  swap : ∀ {x y}, compare x y < 0 ↔ 0 < compare y x
  trans : ∀ {x y z}, compare x y ≤ 0 → compare y z ≤ 0 → compare x z ≤ 0

/-- `d` eliminates `c`: the comparison says that `c` is worse. -/
def genericDom (compare : α → α → Int) (d c : α) : Bool := compare c d < 0

namespace TotalPreorder

theorem refl (preorder : TotalPreorder compare) (x : α) : compare x x = 0 := by
  have := preorder.swap (x := x) (y := x)
  omega

theorem le_of_ge (preorder : TotalPreorder compare) {x y : α} (above : 0 ≤ compare x y) :
    compare y x ≤ 0 := by
  have := preorder.swap (x := x) (y := y)
  omega

theorem lt_of_lt_of_le (preorder : TotalPreorder compare) {x y z : α} (worse : compare x y < 0)
    (notBetter : compare y z ≤ 0) : compare x z < 0 := by
  have le : compare x z ≤ 0 := preorder.trans (by omega) notBetter
  rcases Int.lt_or_eq_of_le le with below | same
  · exact below
  · -- If `x` and `z` were as good, `y` would be no better than `x`.
    have back : compare y x ≤ 0 := preorder.trans notBetter (preorder.le_of_ge (by omega))
    have := preorder.swap (x := x) (y := y)
    omega

theorem weakOrder (preorder : TotalPreorder compare) : WeakOrder (genericDom compare) where
  asymm {x y} h := by
    have := preorder.swap (x := x) (y := y)
    simp only [genericDom, decide_eq_true_eq, decide_eq_false_iff_not] at h ⊢
    omega
  split {x z} y h := by
    simp only [genericDom, decide_eq_true_eq] at h ⊢
    by_contra neither
    rw [not_or] at neither
    have le : compare x z ≤ 0 := by
      apply preorder.trans (y := y)
      · exact preorder.le_of_ge (Int.not_lt.mp neither.1)
      · exact preorder.le_of_ge (Int.not_lt.mp neither.2)
    have := preorder.swap (x := z) (y := x)
    omega

end TotalPreorder

/-! ## The first loop -/

/-- What the first loop knows when it stops at `index`: the best route is one of those it has seen,
and none of these is better. -/
structure BestSoFar (compare : α → α → Int) (best : α) (seen : List α) : Prop where
  member : best ∈ seen
  bound : ∀ c ∈ seen, compare c best ≤ 0

/-- What the first loop returns: the best route of the whole list, and a list in which every route
that is as good is where it was. -/
structure Determined (compare : α → α → Int) (before : List α) (best : α) (after : List α) :
    Prop where
  bestSoFar : BestSoFar compare best before
  kept : after.filter (fun c => !decide (compare c best < 0))
    = before.filter fun c => !decide (compare c best < 0)

theorem BestSoFar.next (preorder : TotalPreorder compare) {best route : α} {seen : List α}
    (soFar : BestSoFar compare best seen) (better : compare best route < 0) :
    BestSoFar compare route (seen ++ [route]) where
  member := by simp
  bound c member := by
    rcases List.mem_append.mp member with old | new
    · exact preorder.trans (soFar.bound c old) (by omega)
    · exact Int.le_of_eq (List.mem_singleton.mp new ▸ preorder.refl route)

theorem BestSoFar.keep {best route : α} {seen : List α} (preorder : TotalPreorder compare)
    (soFar : BestSoFar compare best seen) (worse : 0 ≤ compare best route) :
    BestSoFar compare best (seen ++ [route]) where
  member := by simp [soFar.member]
  bound c member := by
    rcases List.mem_append.mp member with old | new
    · exact soFar.bound c old
    · rw [List.mem_singleton.mp new]
      exact preorder.le_of_ge worse

/-- A deleted route is worse than the best one. -/
theorem filter_eraseIdx {keep : α → Bool} {routes : List α} {index : Nat}
    (inside : index < routes.length) (dropped : keep routes[index] = false) :
    (routes.eraseIdx index).filter keep = routes.filter keep := by
  calc (routes.eraseIdx index).filter keep
      = (routes.take index).filter keep ++ (routes.drop (index + 1)).filter keep := by
        rw [List.eraseIdx_eq_take_drop_succ, List.filter_append]
    _ = (routes.take index ++ routes.drop index).filter keep := by
        rw [List.filter_append, List.drop_eq_getElem_cons inside, List.filter_cons_of_neg (by simp [dropped])]
    _ = routes.filter keep := by rw [List.take_append_drop]

theorem Determined.erased (preorder : TotalPreorder compare) {best best' : α} {routes after : List α}
    {index : Nat} (inside : index < routes.length) (worse : compare routes[index] best < 0)
    (known : best ∈ routes.eraseIdx index)
    (determined : Determined compare (routes.eraseIdx index) best' after) :
    Determined compare routes best' after := by
  have dropped : compare routes[index] best' < 0 :=
    preorder.lt_of_lt_of_le worse (determined.bestSoFar.bound best known)
  refine ⟨⟨?_, ?_⟩, ?_⟩
  · exact List.mem_of_mem_eraseIdx determined.bestSoFar.member
  · intro c member
    obtain ⟨i, inside', rfl⟩ := List.getElem_of_mem member
    by_cases same : i = index
    · subst same
      omega
    · exact determined.bestSoFar.bound _ (List.mem_eraseIdx_iff_getElem.mpr ⟨i, inside', same, rfl⟩)
  · rw [determined.kept]
    exact filter_eraseIdx inside (by simpa using dropped)

theorem genericDetermineBest_some (preorder : TotalPreorder compare) {index : Nat} {best : α}
    {routes : List α} (soFar : BestSoFar compare best (routes.take index)) :
    ∃ best' after, genericDetermineBest compare index (some best) routes = (some best', after) ∧
      Determined compare routes best' after := by
  induction left : routes.length - index generalizing index best routes with
  | zero =>
    have all : routes.take index = routes := List.take_of_length_le (by omega)
    refine ⟨best, routes, ?_, all ▸ soFar, rfl⟩
    rw [genericDetermineBest, dif_neg (by omega)]
  | succ left inductionHypothesis =>
    have inside : index < routes.length := by omega
    have onward : routes.take (index + 1) = routes.take index ++ [routes[index]] :=
      List.take_succ_eq_append_getElem inside
    rw [genericDetermineBest, dif_pos inside]
    by_cases better : compare best routes[index] < 0
    · simp only [if_pos better]
      exact inductionHypothesis (onward ▸ soFar.next preorder better) (by omega)
    · by_cases worse : 0 < compare best routes[index]
      · simp only [if_neg better, if_pos worse]
        have same : (routes.eraseIdx index).take index = routes.take index :=
          List.take_eraseIdx_eq_take_of_le routes index index (Nat.le_refl _)
        have shorter : (routes.eraseIdx index).length = routes.length - 1 := List.length_eraseIdx_of_lt inside
        have soFar' : BestSoFar compare best ((routes.eraseIdx index).take index) := same ▸ soFar
        obtain ⟨best', after, found, determined⟩ := inductionHypothesis soFar' (by omega)
        refine ⟨best', after, found, determined.erased preorder inside (preorder.swap.mpr worse) ?_⟩
        exact List.mem_of_mem_take (same ▸ soFar.member)
      · simp only [if_neg better, if_neg worse]
        exact inductionHypothesis (onward ▸ soFar.keep preorder (by omega)) (by omega)

/-- The first loop, on a list that is not empty. -/
theorem genericDetermineBest_cons (preorder : TotalPreorder compare) (route : α) (rest : List α) :
    ∃ best after, genericDetermineBest compare 0 none (route :: rest) = (some best, after) ∧
      Determined compare (route :: rest) best after := by
  have inside : 0 < (route :: rest).length := Nat.zero_lt_succ _
  rw [genericDetermineBest, dif_pos inside]
  apply genericDetermineBest_some preorder
  constructor
  · simp
  · intro c member
    simp only [List.take_succ_cons, List.take_zero, List.mem_singleton] at member
    subst member
    exact Int.le_of_eq (preorder.refl c)

/-! ## The second loop -/

theorem genericEliminate_eq (best : α) (index : Nat) (routes : List α)
    (kept : ∀ c ∈ routes.take index, ¬ compare c best < 0) :
    genericEliminate compare best index routes =
      routes.filter fun c => !decide (compare c best < 0) := by
  induction left : routes.length - index generalizing index routes with
  | zero =>
    have all : routes.take index = routes := List.take_of_length_le (by omega)
    rw [genericEliminate, dif_neg (by omega)]
    symm
    rw [List.filter_eq_self]
    intro c member
    rw [← all] at member
    simpa using kept c member
  | succ left inductionHypothesis =>
    have inside : index < routes.length := by omega
    rw [genericEliminate, dif_pos inside]
    by_cases worse : compare routes[index] best < 0
    · rw [if_pos worse, inductionHypothesis]
      · exact filter_eraseIdx inside (by simpa using worse)
      · rw [List.take_eraseIdx_eq_take_of_le routes index index (Nat.le_refl _)]
        exact kept
      · rw [List.length_eraseIdx_of_lt inside]
        omega
    · rw [if_neg worse, inductionHypothesis]
      · rw [List.take_succ_eq_append_getElem inside]
        intro c member
        rcases List.mem_append.mp member with old | new
        · exact kept c old
        · rwa [List.mem_singleton.mp new]
      · omega

/-! ## The rule -/

/-- The generic rule is one rule of elimination. -/
theorem bgpDpRuleGeneric_eq {router : Router} {compare : DpRouteCompare α}
    (preorder : TotalPreorder (compare router)) (routes : List α) :
    bgpDpRuleGeneric router routes compare = undominated (genericDom (compare router)) routes := by
  cases routes with
  | nil =>
    have empty : ¬ 0 < ([] : List α).length := Nat.lt_irrefl 0
    rw [bgpDpRuleGeneric, genericDetermineBest, dif_neg empty]
    rfl
  | cons route rest =>
    obtain ⟨best, after, found, determined⟩ := genericDetermineBest_cons preorder route rest
    simp only [bgpDpRuleGeneric, found]
    rw [genericEliminate_eq best 0 after (by simp), determined.kept]
    apply List.filter_congr
    intro c member
    simp only [genericDom]
    -- a route that is as good as the best one is no worse than any route
    rw [Bool.eq_iff_iff]
    simp only [Bool.not_eq_true', decide_eq_false_iff_not, List.all_eq_true]
    constructor
    · intro good d member' worse
      exact good (preorder.lt_of_lt_of_le worse (determined.bestSoFar.bound d member'))
    · intro good
      exact good best determined.bestSoFar.member

/-- The rule keeps the maximal routes, in their order, and there are some. -/
theorem bgpDpRuleGeneric_keeps_best {router : Router} {compare : DpRouteCompare α}
    (preorder : TotalPreorder (compare router)) {routes : List α} (nonempty : routes ≠ []) :
    bgpDpRuleGeneric router routes compare =
        routes.filter (fun c => routes.all fun d => decide (0 ≤ compare router c d)) ∧
      bgpDpRuleGeneric router routes compare ≠ [] := by
  rw [bgpDpRuleGeneric_eq preorder]
  refine ⟨?_, preorder.weakOrder.strictRule.undominated_ne_nil nonempty⟩
  simp only [undominated, genericDom, ← decide_not, Int.not_lt]

/-! ## The routes that are locally originated -/

theorem bgpDpRuleLocalRouteCmp_preorder (router : Router) :
    TotalPreorder (bgpDpRuleLocalRouteCmp router) where
  swap := by
    intro x y
    simp only [bgpDpRuleLocalRouteCmp]
    omega
  trans := by
    intro x y z
    simp only [bgpDpRuleLocalRouteCmp]
    omega

theorem bgpDpRuleLocalRouteCmp_neg {router : Router} {route1 route2 : Route} :
    bgpDpRuleLocalRouteCmp router route1 route2 < 0 ↔
      route1.flags.internal = false ∧ route2.flags.internal = true := by
  unfold bgpDpRuleLocalRouteCmp Route.internalFlag
  cases route1.flags.internal <;> cases route2.flags.internal <;> decide

/-- Routes learned from peers are kept only when no route is locally originated. -/
theorem mem_bgpDpRuleLocal {router : Router} {routes : List Route} {c : Route} :
    c ∈ bgpDpRuleLocal router routes ↔
      c ∈ routes ∧ (c.flags.internal = true ∨ ∀ d ∈ routes, d.flags.internal = false) := by
  rw [bgpDpRuleLocal, bgpDpRuleGeneric_eq (bgpDpRuleLocalRouteCmp_preorder router), mem_undominated]
  simp only [genericDom, decide_eq_false_iff_not, bgpDpRuleLocalRouteCmp_neg]
  cases c.flags.internal <;> simp

def learnedRoute (peer : NetAddr) : Route :=
  routeCreate ⟨0x0a000000, 8, short8⟩ (some peer) peer .igp

def originatedRoute : Route :=
  (routeCreate ⟨0x0a000000, 8, short8⟩ none 1 .igp).setFlags fun flags =>
    { flags with internal := true }

/-- Two learned routes and one that is locally originated. -/
theorem originatedRoute_kept :
    bgpDpRuleGeneric (bgpRouterCreate 1 1 ∅ Env.default)
      [learnedRoute 2, originatedRoute, learnedRoute 3] bgpDpRuleLocalRouteCmp = [originatedRoute] := by
  have kept := (bgpDpRuleGeneric_keeps_best (bgpDpRuleLocalRouteCmp_preorder
    (bgpRouterCreate 1 1 ∅ Env.default)) (List.cons_ne_nil (learnedRoute 2)
      [originatedRoute, learnedRoute 3])).1
  rw [kept]
  decide

end Cbgp.Verified
