import Cbgp.Lib.Run

/-! # Interleavings

A system of components whose steps each concern one component.  What a component looks like after a
run depends on its own steps only (`Apart.view_eq`): runs that give every component the same steps
in the same order differ in the order of the components alone.
-/

namespace Cbgp.Lib

universe u w

variable {σ ι : Type u} {ε : Type w} {κ ν : Type*}

/-- What a component becomes depends on how it looks and on the step, and the steps of the others
leave it as it is. -/
structure Apart (step : σ → ι → Except ε σ) (guard : σ → ι → Prop) (key : ι → κ) (view : σ → κ → ν) :
    Prop where
  own : ∀ {s t s' t' : σ} {i : ι}, guard s i → guard t i → view s (key i) = view t (key i) →
    step s i = .ok s' → step t i = .ok t' → view s' (key i) = view t' (key i)
  others : ∀ {s s' : σ} {i : ι} {k : κ}, guard s i → step s i = .ok s' → k ≠ key i →
    view s' k = view s k

variable {step : σ → ι → Except ε σ} {guard : σ → ι → Prop} {key : ι → κ} {view : σ → κ → ν}

/-- The steps of a component, as they turn its view. -/
inductive OwnSteps (step : σ → ι → Except ε σ) (guard : σ → ι → Prop) (key : ι → κ) (view : σ → κ → ν) :
    List ι → ν → ν → Prop where
  | nil (before : ν) : OwnSteps step guard key view [] before before
  | cons {s s' : σ} {i : ι} {rest : List ι} {after : ν} (allowed : guard s i)
      (stepped : step s i = .ok s') (own : OwnSteps step guard key view rest (view s' (key i)) after) :
      OwnSteps step guard key view (i :: rest) (view s (key i)) after

theorem OwnSteps.unique (apart : Apart step guard key view) {l : List ι} {before after after' : ν}
    (first : OwnSteps step guard key view l before after)
    (second : OwnSteps step guard key view l before after') : after = after' := by
  induction first with
  | nil before =>
    cases second
    rfl
  | @cons s s' i rest after allowed stepped own inductionHypothesis =>
    generalize same : view s (key i) = before at second
    cases second with
    | cons allowed' stepped' own' =>
      refine inductionHypothesis ?_
      rw [apart.own allowed allowed' same stepped stepped']
      exact own'

variable [DecidableEq κ]

/-- Along a run a component takes its own steps. -/
theorem Apart.ownSteps (apart : Apart step guard key view) (k : κ) {s s' : σ} {l : List ι}
    (allowed : ∀ entry ∈ loopStates step s l, guard entry.1 entry.2) (ran : l.foldlM step s = .ok s') :
    OwnSteps step guard key view (l.filter fun i => decide (key i = k)) (view s k) (view s' k) := by
  induction l generalizing s with
  | nil =>
    cases ran
    exact .nil _
  | cons i l inductionHypothesis =>
    rw [List.foldlM_cons, except_bind_eq_ok] at ran
    obtain ⟨t, stepped, ran⟩ := ran
    have here : guard s i := allowed (s, i) List.mem_cons_self
    have later := inductionHypothesis (s := t)
      (fun entry member => allowed entry (by simp [loopStates, stepped, member])) ran
    by_cases same : key i = k
    · subst same
      rw [List.filter_cons_of_pos (by simp)]
      exact .cons here stepped later
    · rw [List.filter_cons_of_neg (by simpa using same), ← apart.others here stepped (Ne.symm same)]
      exact later

/-- Runs that give a component the same steps leave it looking the same. -/
theorem Apart.view_eq (apart : Apart step guard key view) {k : κ} {s t s' t' : σ} {l l' : List ι}
    (start : view s k = view t k)
    (same : (l.filter fun i => decide (key i = k)) = l'.filter fun i => decide (key i = k))
    (allowed : ∀ entry ∈ loopStates step s l, guard entry.1 entry.2)
    (allowed' : ∀ entry ∈ loopStates step t l', guard entry.1 entry.2)
    (ran : l.foldlM step s = .ok s') (ran' : l'.foldlM step t = .ok t') : view s' k = view t' k := by
  have own := apart.ownSteps k allowed ran
  rw [same, start] at own
  exact own.unique apart (apart.ownSteps k allowed' ran')

end Cbgp.Lib
