import Mathlib.Data.List.Forall2
import Mathlib.Data.List.Infix

/-! # Runs in a list

A run is a stretch of neighbours that pass a test.  Counting along the list finds out whether some run
is longer than a limit.
-/

namespace Cbgp.Lib

universe u

variable {α : Type u} (p : α → Bool) (limit : ℕ)

/-- No run is longer than the limit, when one of a length has just been read. -/
def RunsWithin : ℕ → List α → Prop
  | _, [] => True
  | k, a :: l => if p a then k < limit ∧ RunsWithin (k + 1) l else RunsWithin 0 l

theorem runsWithin_iff {k : ℕ} (le : k ≤ limit) {l : List α} :
    RunsWithin p limit k l ↔
      (∀ run, run <+: l → (∀ a ∈ run, p a) → k + run.length ≤ limit) ∧
        (∀ run, run <:+: l → (∀ a ∈ run, p a) → run.length ≤ limit) := by
  induction l generalizing k with
  | nil =>
    simp only [RunsWithin, List.prefix_nil, List.infix_nil, true_iff]
    constructor
    · rintro _ rfl _
      exact le
    · rintro _ rfl _
      exact Nat.zero_le _
  | cons a l inductionHypothesis =>
    -- The induction carries both bounds: k counts what the run at the head has behind it.
    by_cases passes : p a
    · simp only [RunsWithin, passes, if_true]
      constructor
      · rintro ⟨less, rest⟩
        obtain ⟨prefixes, infixes⟩ := (inductionHypothesis less).mp rest
        have here : ∀ run, run <+: a :: l → (∀ b ∈ run, p b) → k + run.length ≤ limit := by
          intro run start all
          cases run with
          | nil => exact le
          | cons b run =>
            have := prefixes run (List.cons_prefix_cons.mp start).2
              fun c member => all c (List.mem_cons_of_mem _ member)
            rw [List.length_cons]
            omega
        refine ⟨here, fun run inside all => ?_⟩
        cases List.infix_cons_iff.mp inside with
        | inl start => exact Nat.le_trans (Nat.le_add_left _ _) (here run start all)
        | inr later => exact infixes run later all
      · rintro ⟨prefixes, infixes⟩
        have less : k + 1 ≤ limit :=
          prefixes [a] ⟨l, rfl⟩ fun b member => by rwa [List.mem_singleton.mp member]
        refine ⟨less, (inductionHypothesis less).mpr ⟨fun run start all => ?_, fun run inside all =>
          infixes run (List.infix_cons inside) all⟩⟩
        have := prefixes (a :: run) (List.cons_prefix_cons.mpr ⟨rfl, start⟩) fun b member => by
          cases List.mem_cons.mp member with
          | inl same => rwa [same]
          | inr later => exact all b later
        rw [List.length_cons] at this
        omega
    · simp only [RunsWithin, passes, Bool.false_eq_true, if_false]
      -- An element that does not pass ends the run, and the count starts again.
      rw [inductionHypothesis (Nat.zero_le limit)]
      constructor
      · rintro ⟨_, infixes⟩
        have here : ∀ run, run <+: a :: l → (∀ b ∈ run, p b) → run = [] := by
          intro run start all
          cases run with
          | nil => rfl
          | cons b run =>
            have same : b = a := (List.cons_prefix_cons.mp start).1
            exact absurd (same ▸ all b List.mem_cons_self) passes
        refine ⟨fun run start all => ?_, fun run inside all => ?_⟩
        · rw [here run start all]
          exact le
        · cases List.infix_cons_iff.mp inside with
          | inl start =>
            rw [here run start all]
            exact Nat.zero_le _
          | inr later => exact infixes run later all
      · rintro ⟨_, infixes⟩
        refine ⟨fun run start all => ?_, fun run inside all => infixes run (List.infix_cons inside) all⟩
        rw [Nat.zero_add]
        exact infixes run (List.infix_cons start.isInfix) all

/-- Counting from the start, in either direction. -/
theorem runsWithin_reverse {l : List α} :
    RunsWithin p limit 0 l.reverse ↔
      ∀ run, run <:+: l → (∀ a ∈ run, p a) → run.length ≤ limit := by
  rw [runsWithin_iff p limit (Nat.zero_le limit)]
  constructor
  · rintro ⟨_, infixes⟩ run inside all
    have := infixes run.reverse (List.reverse_infix.mpr inside)
      fun a member => all a (List.mem_reverse.mp member)
    rwa [List.length_reverse] at this
  · intro infixes
    have all : ∀ run, run <:+: l.reverse → (∀ a ∈ run, p a) → run.length ≤ limit := by
      intro run inside passes
      have turned : run.reverse <:+: l := List.reverse_infix.mp (by rwa [List.reverse_reverse])
      have := infixes run.reverse turned fun a member => passes a (List.mem_reverse.mp member)
      rwa [List.length_reverse] at this
    refine ⟨fun run start passes => ?_, all⟩
    rw [Nat.zero_add]
    exact all run start.isInfix passes

/-- A run at the start. -/
theorem runsWithin_append {k : ℕ} {run : List α} (all : ∀ a ∈ run, p a = true) (short : k + run.length ≤ limit)
    (l : List α) : RunsWithin p limit k (run ++ l) ↔ RunsWithin p limit (k + run.length) l := by
  induction run generalizing k with
  | nil => rfl
  | cons a run inductionHypothesis =>
    rw [List.length_cons] at short
    have rest := inductionHypothesis (k := k + 1) (fun b member => all b (List.mem_cons_of_mem _ member)) (by omega)
    rw [List.cons_append, RunsWithin, if_pos (all a List.mem_cons_self), rest, List.length_cons]
    rw [show k + 1 + run.length = k + (run.length + 1) by omega]
    exact and_iff_right (by omega)

/-- Lists that pass the tests in the same places. -/
theorem runsWithin_forall₂ {β : Type u} {q : β → Bool} {related : α → β → Prop}
    (agree : ∀ a b, related a b → p a = q b) {k : ℕ} {l : List α} {l' : List β}
    (both : List.Forall₂ related l l') : RunsWithin p limit k l ↔ RunsWithin q limit k l' := by
  induction both generalizing k with
  | nil => rfl
  | cons first _ inductionHypothesis =>
    rw [RunsWithin, RunsWithin, agree _ _ first]
    split
    · rw [inductionHypothesis]
    · exact inductionHypothesis

end Cbgp.Lib
