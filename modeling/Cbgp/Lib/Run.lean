import Mathlib.Logic.Basic

/-! # Runs of a step function that may fail

`Reach step guard s₀ s`: from `s₀`, steps that succeed and meet `guard` lead to `s`.  A property
that the start has and each such step keeps holds in every state reached (`Reach.invariant`).

`Ends P Q x`: the computation `x` ends with a value in `P` or an error in `Q`, with the rules by
which such a fact is proved along the program text.  A loop is handled through the states in which
its body is entered (`loopStates`, `Ends.loop`).
-/

namespace Cbgp.Lib

universe u v w

variable {σ : Type u} {ι : Type v} {ε : Type w}

/-- The states reached by successful steps that meet a guard. -/
inductive Reach (step : σ → ι → Except ε σ) (guard : σ → ι → Prop) (s₀ : σ) : σ → Prop where
  | start : Reach step guard s₀ s₀
  | next {s s' : σ} {i : ι} :
      Reach step guard s₀ s → guard s i → step s i = .ok s' → Reach step guard s₀ s'

/-- What holds at the start and is kept by each step holds in every state reached. -/
theorem Reach.invariant {step : σ → ι → Except ε σ} {guard : σ → ι → Prop} {s₀ s : σ}
    {inv : σ → Prop} (reached : Reach step guard s₀ s) (initially : inv s₀)
    (kept : ∀ {s i s'}, inv s → guard s i → step s i = .ok s' → inv s') : inv s := by
  induction reached with
  | start => exact initially
  | next _ allowed stepped inductionHypothesis => exact kept inductionHypothesis allowed stepped

theorem Reach.trans {step : σ → ι → Except ε σ} {guard : σ → ι → Prop} {s₀ s₁ s₂ : σ}
    (first : Reach step guard s₀ s₁) (second : Reach step guard s₁ s₂) : Reach step guard s₀ s₂ := by
  induction second with
  | start => exact first
  | next _ allowed stepped inductionHypothesis => exact .next inductionHypothesis allowed stepped

/-! ## Computations that may fail -/

section Except

variable {α β : Type u} {x : Except ε α}

theorem except_bind_eq_ok {f : α → Except ε β} {b : β} :
    (x >>= f) = .ok b ↔ ∃ a, x = .ok a ∧ f a = .ok b := by
  cases x with
  | error e => simp [bind, Except.bind]
  | ok a => simp [bind, Except.bind]

theorem except_map_eq_ok {f : α → β} {b : β} :
    x.map f = .ok b ↔ ∃ a, x = .ok a ∧ f a = b := by
  cases x with
  | error e => simp [Except.map]
  | ok a => simp [Except.map]

theorem except_map_eq_error {f : α → β} {e : ε} : x.map f = .error e ↔ x = .error e := by
  cases x with
  | error e' => simp [Except.map]
  | ok a => simp [Except.map]

/-- The computation ends with a value that passes a test. -/
def okAnd (x : Except ε α) (test : α → Bool) : Bool :=
  match x with
  | .ok a => test a
  | .error _ => false

theorem okAnd_iff {test : α → Bool} : okAnd x test = true ↔ ∃ a, x = .ok a ∧ test a = true := by
  cases x with
  | error e => simp [okAnd]
  | ok a => simp [okAnd]

/-- The computation ends with a value in `P` or with an error in `Q`. -/
def Ends (P : α → Prop) (Q : ε → Prop) (x : Except ε α) : Prop :=
  match x with
  | .ok a => P a
  | .error e => Q e

instance {P : α → Prop} {Q : ε → Prop} [DecidablePred P] [DecidablePred Q] : Decidable (Ends P Q x) :=
  match x with
  | .ok a => inferInstanceAs (Decidable (P a))
  | .error e => inferInstanceAs (Decidable (Q e))

namespace Ends

variable {P P' : α → Prop} {R : β → Prop} {Q Q' : ε → Prop}

theorem value {a : α} (ends : Ends P Q x) (h : x = .ok a) : P a := by
  subst h
  exact ends

theorem error {e : ε} (ends : Ends P Q x) (h : x = .error e) : Q e := by
  subst h
  exact ends

theorem eq_error {e : ε} (ends : Ends (fun _ => False) (· = e) x) : x = .error e := by
  cases x with
  | error e' => exact congrArg Except.error ends
  | ok a => exact ends.elim

theorem intro (value : ∀ a, x = .ok a → P a) (error : ∀ e, x = .error e → Q e) : Ends P Q x := by
  cases x with
  | error e => exact error e rfl
  | ok a => exact value a rfl

theorem mono (ends : Ends P Q x) (value : ∀ a, P a → P' a) (error : ∀ e, Q e → Q' e) :
    Ends P' Q' x := by
  cases x with
  | error e => exact error e ends
  | ok a => exact value a ends

theorem and (first : Ends P Q x) (second : Ends P' Q' x) :
    Ends (fun a => P a ∧ P' a) (fun e => Q e ∧ Q' e) x := by
  cases x with
  | error e => exact ⟨first, second⟩
  | ok a => exact ⟨first, second⟩

theorem bind {f : α → Except ε β} (first : Ends P Q x) (second : ∀ a, P a → Ends R Q (f a)) :
    Ends R Q (x >>= f) := by
  cases x with
  | error e => exact first
  | ok a => exact second a first

theorem map {f : α → β} (ends : Ends (fun a => R (f a)) Q x) : Ends R Q (x.map f) := by
  cases x with
  | error e => exact ends
  | ok a => exact ends

end Ends

end Except

/-! ## Loops -/

section Loop

variable {β : Type u} {f : σ → β → Except ε σ} {inv : σ → Prop} {Q : ε → Prop}

/-- The states in which the body of a loop over a list is entered, with the element there. -/
def loopStates (f : σ → β → Except ε σ) : σ → List β → List (σ × β)
  | _, [] => []
  | s, b :: l =>
    (s, b) ::
      match f s b with
      | .ok s' => loopStates f s' l
      | .error _ => []

theorem loopStates_snd {s s' : σ} {b : β} {l : List β} (member : (s', b) ∈ loopStates f s l) :
    b ∈ l := by
  induction l generalizing s with
  | nil => cases member
  | cons c l inductionHypothesis =>
    rw [loopStates, List.mem_cons] at member
    cases member with
    | inl first =>
      cases first
      exact List.mem_cons_self
    | inr later =>
      split at later
      · exact List.mem_cons_of_mem _ (inductionHypothesis later)
      · cases later

/-- What a loop keeps: each entry of its body keeps it. -/
theorem Ends.loop {l : List β} {s : σ}
    (body : ∀ s' b, (s', b) ∈ loopStates f s l → inv s' → Ends inv Q (f s' b)) (initially : inv s) :
    Ends inv Q (l.foldlM f s) := by
  induction l generalizing s with
  | nil => exact initially
  | cons b l inductionHypothesis =>
    rw [List.foldlM_cons]
    cases entered : f s b with
    | error e => exact (body s b List.mem_cons_self initially).error entered
    | ok s' =>
      refine inductionHypothesis (s := s') (fun t c member => body t c ?_)
        ((body s b List.mem_cons_self initially).value entered)
      rw [loopStates, entered]
      exact List.mem_cons_of_mem _ member

/-- A loop whose invariant speaks of the elements that are still to come. -/
theorem Ends.loop_rest {rest : List β → σ → Prop} {l : List β} {s : σ}
    (body : ∀ s' b l', (s', b) ∈ loopStates f s l → rest (b :: l') s' → Ends (rest l') Q (f s' b))
    (initially : rest l s) : Ends (rest []) Q (l.foldlM f s) := by
  induction l generalizing s with
  | nil => exact initially
  | cons b l inductionHypothesis =>
    rw [List.foldlM_cons]
    cases entered : f s b with
    | error e => exact (body s b l List.mem_cons_self initially).error entered
    | ok s' =>
      refine inductionHypothesis (fun t c l' member => body t c l' ?_)
        ((body s b l List.mem_cons_self initially).value entered)
      rw [loopStates, entered]
      exact List.mem_cons_of_mem _ member

/-- A loop of steps is a run. -/
theorem Reach.of_foldlM {guard : σ → β → Prop} {s s' : σ} {l : List β}
    (allowed : ∀ entry ∈ loopStates f s l, guard entry.1 entry.2) (h : l.foldlM f s = .ok s') :
    Reach f guard s s' := by
  suffices extended : ∀ t, Reach f guard t s → Reach f guard t s' from extended s .start
  induction l generalizing s with
  | nil =>
    cases h
    exact fun _ => id
  | cons b l inductionHypothesis =>
    intro t reached
    rw [List.foldlM_cons, except_bind_eq_ok] at h
    obtain ⟨mid, first, rest⟩ := h
    rw [loopStates, first] at allowed
    refine inductionHypothesis (fun entry member => allowed entry ?_) rest t
      (reached.next (allowed (s, b) List.mem_cons_self) first)
    exact List.mem_cons_of_mem _ member

/-- The same for the value alone. -/
theorem foldlM_invariant {l : List β} {s s' : σ}
    (kept : ∀ {t b t'}, b ∈ l → inv t → f t b = .ok t' → inv t') (initially : inv s)
    (h : l.foldlM f s = .ok s') : inv s' := by
  have ends : Ends inv (fun _ => True) (l.foldlM f s) := by
    refine Ends.loop (fun t b member holds => ?_) initially
    exact Ends.intro (fun t' => kept (loopStates_snd member) holds) fun _ _ => trivial
  exact ends.value h

end Loop

end Cbgp.Lib
