import Mathlib.Data.Nat.Notation
import Mathlib.Logic.Relation

/-! # Loops that may not end

`looping turn fuel s` runs a loop from the state `s`: `turn` gives the result of the loop or the next
state, and `none` means that the fuel is used up.

* `looping_none` — states that a turn never leaves keep the loop going.
* `looping_some` — a number that every turn lowers ends it.
* `looping_result` — what an invariant says of the result.
* `looping_steps` — turns may be taken in front of a loop that ends.
* `looping_mono` — fuel that is enough stays enough.
-/

namespace Cbgp.Lib

universe u v

variable {σ : Type u} {ρ : Type v}

/-- Run a loop for at most `fuel` turns. -/
def looping (turn : σ → ρ ⊕ σ) : ℕ → σ → Option ρ
  | 0, _ => none
  | fuel + 1, s =>
    match turn s with
    | .inl result => some result
    | .inr next => looping turn fuel next

variable {turn : σ → ρ ⊕ σ}

theorem looping_inl {s : σ} {result : ρ} (ends : turn s = .inl result) (fuel : ℕ) :
    looping turn (fuel + 1) s = some result := by
  simp only [looping, ends]

theorem looping_inr {s next : σ} (continues : turn s = .inr next) (fuel : ℕ) :
    looping turn (fuel + 1) s = looping turn fuel next := by
  simp only [looping, continues]

/-- The loop never ends in a set of states that its turns do not leave. -/
theorem looping_none (inv : σ → Prop) (stays : ∀ s, inv s → ∃ next, turn s = .inr next ∧ inv next) {s : σ}
    (holds : inv s) (fuel : ℕ) : looping turn fuel s = none := by
  induction fuel generalizing s with
  | zero => rfl
  | succ fuel inductionHypothesis =>
    obtain ⟨next, continues, holds'⟩ := stays s holds
    rw [looping_inr continues]
    exact inductionHypothesis holds'

/-- The loop ends when every turn lowers a number. -/
theorem looping_some (inv : σ → Prop) (rank : σ → ℕ)
    (lowers : ∀ s next, inv s → turn s = .inr next → inv next ∧ rank next < rank s) {s : σ}
    (holds : inv s) : ∃ fuel result, looping turn fuel s = some result := by
  induction bound : rank s using Nat.strongRecOn generalizing s with
  | ind n smaller =>
    cases step : turn s with
    | inl result => exact ⟨1, result, looping_inl step 0⟩
    | inr next =>
      obtain ⟨holds', less⟩ := lowers s next holds step
      obtain ⟨fuel, result, ended⟩ := smaller (rank next) (bound ▸ less) holds' rfl
      exact ⟨fuel + 1, result, (looping_inr step fuel).trans ended⟩

/-- What holds of every result reached from states with the invariant. -/
theorem looping_result (inv : σ → Prop) (post : ρ → Prop)
    (keeps : ∀ s next, inv s → turn s = .inr next → inv next)
    (ends : ∀ s result, inv s → turn s = .inl result → post result) {s : σ} (holds : inv s)
    {fuel : ℕ} {result : ρ} (ended : looping turn fuel s = some result) : post result := by
  induction fuel generalizing s with
  | zero => cases ended
  | succ fuel inductionHypothesis =>
    cases step : turn s with
    | inl result' =>
      rw [looping_inl step] at ended
      cases ended
      exact ends s result holds step
    | inr next =>
      rw [looping_inr step] at ended
      exact inductionHypothesis (keeps s next holds step) ended

theorem looping_mono {s : σ} {result : ρ} {fuel fuel' : ℕ} (ended : looping turn fuel s = some result)
    (more : fuel ≤ fuel') : looping turn fuel' s = some result := by
  induction fuel generalizing s fuel' with
  | zero => cases ended
  | succ fuel inductionHypothesis =>
    obtain ⟨fuel', rfl⟩ : ∃ n, fuel' = n + 1 := ⟨fuel' - 1, by omega⟩
    cases step : turn s with
    | inl result' =>
      rw [looping_inl step] at ended ⊢
      exact ended
    | inr next =>
      rw [looping_inr step] at ended ⊢
      exact inductionHypothesis ended (Nat.le_of_succ_le_succ more)

/-- The turns of a loop that lead from one state to another. -/
def Turns (turn : σ → ρ ⊕ σ) : σ → σ → Prop :=
  Relation.ReflTransGen fun s next => turn s = .inr next

theorem looping_steps {s s' : σ} (steps : Turns turn s s') {fuel : ℕ} {result : ρ}
    (ended : looping turn fuel s' = some result) : ∃ fuel', looping turn fuel' s = some result := by
  induction steps using Relation.ReflTransGen.head_induction_on with
  | refl => exact ⟨fuel, ended⟩
  | head continues _ inductionHypothesis =>
    obtain ⟨fuel', ended'⟩ := inductionHypothesis
    exact ⟨fuel' + 1, (looping_inr continues fuel').trans ended'⟩

end Cbgp.Lib
