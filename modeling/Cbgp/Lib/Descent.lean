import Mathlib.Data.Fintype.EquivFin
import Mathlib.Data.List.Chain
import Mathlib.Order.WellFounded
import Mathlib.Logic.Relation

/-! # Chains and cycles of a relation

* `Shallow.reaches`, `Shallow.acyclic` — what a bound on the chains from an element gives.
* `reaches_of_mem` — the head of a chain reaches its elements.
* `cyclic_of_predecessors` — a finite nonempty set whose elements have predecessors in it has a cycle.
* `acyclic_induction` — induction along the edges, where finitely many elements are reached and none again.
* `Descends.exists_`, `Descends.sound`, `Descends.shallow` — a depth-first descent that does not enter the cycles
  it has found: it ends, finds cycles only, and when it finds none there is none.
-/

namespace Cbgp.Lib

open Relation

universe u

variable {α : Type u} {r : α → α → Prop}

/-- Every chain from the element has at most that many elements. -/
def Shallow (r : α → α → Prop) : ℕ → α → Prop
  | 0, _ => False
  | n + 1, a => ∀ b, r a b → Shallow r n b

theorem Shallow.mono {n m : ℕ} {a : α} (shallow : Shallow r n a) (le : n ≤ m) : Shallow r m a := by
  induction n generalizing m a with
  | zero => exact shallow.elim
  | succ n inductionHypothesis =>
    obtain ⟨m, rfl⟩ := Nat.exists_eq_add_of_le' (Nat.le_of_add_left_le le)
    exact fun b edge => inductionHypothesis (shallow b edge) (by omega)

/-- What is reached from a shallow element is shallow. -/
theorem Shallow.reaches {n : ℕ} {a b : α} (shallow : Shallow r n a) (path : ReflTransGen r a b) :
    ∃ m, Shallow r m b := by
  induction path with
  | refl => exact ⟨n, shallow⟩
  | tail _ edge inductionHypothesis =>
    obtain ⟨m, shallow'⟩ := inductionHypothesis
    cases m with
    | zero => exact shallow'.elim
    | succ m => exact ⟨m, shallow' _ edge⟩

theorem Shallow.acyclic {n : ℕ} {a : α} (shallow : Shallow r n a) : ¬ TransGen r a a := by
  induction n generalizing a with
  | zero => exact shallow.elim
  | succ n inductionHypothesis =>
    intro cycle
    obtain ⟨b, edge, back⟩ := TransGen.head'_iff.mp cycle
    exact inductionHypothesis (shallow b edge) (TransGen.tail' back edge)

/-- The last element of a chain of reversed edges reaches the others, and they reach its head. -/
theorem reaches_of_mem {l : List α} (chain : l.IsChain fun b a => r a b) {a : α} (member : a ∈ l) :
    (∀ last ∈ l.getLast?, ReflTransGen r last a) ∧ (∀ head ∈ l.head?, ReflTransGen r a head) := by
  induction l generalizing a with
  | nil => cases member
  | cons b l inductionHypothesis =>
    rw [List.isChain_cons] at chain
    rcases List.mem_cons.mp member with same | below
    · subst same
      refine ⟨fun last found => ?_, fun head found => ?_⟩
      · cases l with
        | nil =>
          cases found
          exact .refl
        | cons c l =>
          rw [List.getLast?_cons_cons] at found
          exact ((inductionHypothesis chain.2 List.mem_cons_self).1 last found).tail (chain.1 c rfl)
      · cases found
        exact .refl
    · obtain ⟨c, l, rfl⟩ := List.exists_cons_of_ne_nil (List.ne_nil_of_mem below)
      obtain ⟨fromLast, toHead⟩ := inductionHypothesis chain.2 below
      refine ⟨fun last found => fromLast last (by simpa using found), fun head found => ?_⟩
      cases found
      exact (toHead c rfl).tail (chain.1 c rfl)

theorem cyclic_of_predecessors [Finite α] {p : α → Prop} (nonempty : ∃ a, p a)
    (predecessor : ∀ a, p a → ∃ b, p b ∧ r b a) : ∃ a, TransGen r a a := by
  by_contra acyclic
  have : Std.Irrefl (TransGen r) := ⟨fun a cycle => acyclic ⟨a, cycle⟩⟩
  obtain ⟨a, holds, least⟩ := (Finite.wellFounded_of_trans_of_irrefl (TransGen r)).has_min
    {a | p a} nonempty
  obtain ⟨b, holds', edge⟩ := predecessor a holds
  exact least b holds' (.single edge)

theorem acyclic_induction {a : α} (finite : {b | ReflTransGen r a b}.Finite)
    (acyclic : ∀ b, ReflTransGen r a b → ¬ TransGen r b b) {p : α → Prop}
    (step : ∀ b, ReflTransGen r a b → (∀ c, r b c → p c) → p b) : p a := by
  by_contra fails
  have : Finite {b | ReflTransGen r a b} := finite
  let back (c b : {b | ReflTransGen r a b}) : Prop := r b c
  obtain ⟨b, cycle⟩ : ∃ b, TransGen back b b := by
    refine cyclic_of_predecessors (p := fun b => ¬ p b.1) ⟨⟨a, .refl⟩, fails⟩ fun b failsHere => ?_
    by_contra none
    refine failsHere (step b.1 b.2 fun c edge => ?_)
    by_contra failsNext
    exact none ⟨⟨c, b.2.tail edge⟩, failsNext, edge⟩
  refine acyclic b.1 b.2 ?_
  have forward : TransGen (Function.swap r) b.1 b.1 := cycle.lift Subtype.val fun _ _ => id
  exact transGen_swap.mp forward

/-! ## Descents that do not enter the cycles they have found -/

section Descents

variable (succs : α → List α)

/-- A descent from the end of a chain (its last element first) along the elements of a list, in their order.
An element on a cycle that was found before is passed over, one on the chain closes a cycle, and any other is
entered.  The sets are those of the elements on cycles before and after, and the longest chain has `deepest`
elements. -/
inductive Descends : List α → List α → Set α → Set α → ℕ → Prop where
  | done {chain : List α} {found : Set α} : Descends chain [] found found chain.length
  | passes {chain rest : List α} {b : α} {found found' : Set α} {deepest : ℕ} : b ∈ found →
      Descends chain rest found found' deepest → Descends chain (b :: rest) found found' deepest
  | closes {behind before rest : List α} {b : α} {found found' : Set α} {deepest : ℕ} : b ∉ found →
      Descends (behind ++ b :: before) rest (found ∪ {c | c ∈ b :: behind}) found' deepest →
      Descends (behind ++ b :: before) (b :: rest) found found' deepest
  | enters {chain rest : List α} {b : α} {found between found' : Set α} {deepest deepest' : ℕ} : b ∉ found →
      b ∉ chain → Descends (b :: chain) (succs b) found between deepest →
      Descends chain rest between found' deepest' →
      Descends chain (b :: rest) found found' (max deepest deepest')

variable {succs} {chain rest : List α} {found found' : Set α} {deepest : ℕ}

/-- A descent ends. -/
theorem Descends.exists_ [Finite α] (distinct : chain.Nodup) (rest : List α) (found : Set α) :
    ∃ found' deepest, Descends succs chain rest found found' deepest := by
  have := Fintype.ofFinite α
  -- the deeper the chain, the fewer elements are left for it
  induction left : Fintype.card α - chain.length using Nat.strong_induction_on generalizing chain rest found with
  | _ left deeper =>
    induction rest generalizing found with
    | nil => exact ⟨found, _, .done⟩
    | cons b rest inductionHypothesis =>
      by_cases known : b ∈ found
      · obtain ⟨found', deepest, later⟩ := inductionHypothesis found
        exact ⟨found', deepest, .passes known later⟩
      · by_cases above : b ∈ chain
        · obtain ⟨behind, before, rfl⟩ := List.append_of_mem above
          obtain ⟨found', deepest, later⟩ := inductionHypothesis (found ∪ {c | c ∈ b :: behind})
          exact ⟨found', deepest, .closes known later⟩
        · have distinct' : (b :: chain).Nodup := List.nodup_cons.mpr ⟨above, distinct⟩
          have bound : (b :: chain).length ≤ Fintype.card α := distinct'.length_le_card
          rw [List.length_cons] at bound
          obtain ⟨between, deepest, first⟩ := deeper (Fintype.card α - (b :: chain).length)
            (by rw [List.length_cons]; omega) distinct' (succs b) found rfl
          obtain ⟨found', deepest', later⟩ := inductionHypothesis between
          exact ⟨found', _, .enters known above first later⟩

theorem Descends.grows (descends : Descends succs chain rest found found' deepest) : found ⊆ found' := by
  induction descends with
  | done => exact subset_rfl
  | passes _ _ inductionHypothesis => exact inductionHypothesis
  | closes _ _ inductionHypothesis => exact Set.subset_union_left.trans inductionHypothesis
  | enters _ _ _ _ first later => exact first.trans later

theorem Descends.length_le (descends : Descends succs chain rest found found' deepest) :
    chain.length ≤ deepest := by
  induction descends with
  | done => exact Nat.le_refl _
  | passes _ _ inductionHypothesis => exact inductionHypothesis
  | closes _ _ inductionHypothesis => exact inductionHypothesis
  | enters _ _ _ _ _ later => exact later.trans (Nat.le_max_right _ _)

/-- What is found is on a cycle below the elements of the list. -/
theorem Descends.sound (descends : Descends succs chain rest found found' deepest)
    (linked : chain.IsChain fun b a => b ∈ succs a) (below : ∀ a ∈ chain.head?, ∀ b ∈ rest, b ∈ succs a) :
    ∀ c ∈ found', c ∈ found ∨
      ∃ b ∈ rest, ReflTransGen (fun a b => b ∈ succs a) b c ∧ TransGen (fun a b => b ∈ succs a) c c := by
  induction descends with
  | done => exact fun c member => .inl member
  | passes _ _ inductionHypothesis =>
    intro c member
    obtain old | ⟨b, inside, cyclic⟩ :=
      inductionHypothesis linked (fun a head b inside => below a head b (List.mem_cons_of_mem _ inside)) c member
    · exact .inl old
    · exact .inr ⟨b, List.mem_cons_of_mem _ inside, cyclic⟩
  | @closes behind before rest b found found' deepest _ _ inductionHypothesis =>
    intro c member
    obtain (old | new) | ⟨b', inside, cyclic⟩ :=
      inductionHypothesis linked (fun a head b inside => below a head b (List.mem_cons_of_mem _ inside)) c member
    · exact .inl old
    · -- the end of the chain leads to `b`, and `b` down the chain to its end
      have linked' : (behind ++ [b]).IsChain fun b a => b ∈ succs a := by
        rw [show behind ++ b :: before = behind ++ [b] ++ before by simp] at linked
        exact linked.left_of_append
      have inside : c ∈ behind ++ [b] := by
        rw [Set.mem_ofPred_eq, List.mem_cons] at new
        simpa [or_comm] using new
      obtain ⟨fromB, toEnd⟩ := reaches_of_mem linked' inside
      have path := fromB b (by simp)
      obtain ⟨last, isLast⟩ : ∃ last, last ∈ (behind ++ [b]).head? := by
        cases behind <;> exact ⟨_, rfl⟩
      have isEnd : last ∈ (behind ++ b :: before).head? := by
        cases behind <;> exact isLast
      exact .inr ⟨b, List.mem_cons_self, path,
        (TransGen.tail' (toEnd last isLast) (below last isEnd b List.mem_cons_self)).trans_left path⟩
    · exact .inr ⟨b', List.mem_cons_of_mem _ inside, cyclic⟩
  | @enters chain rest b found between found' deepest deepest' _ _ _ _ first later =>
    intro c member
    have entered : (b :: chain).IsChain fun b a => b ∈ succs a :=
      List.isChain_cons.mpr ⟨fun a head => below a head b List.mem_cons_self, linked⟩
    obtain old | ⟨b', inside, cyclic⟩ :=
      later linked (fun a head b inside => below a head b (List.mem_cons_of_mem _ inside)) c member
    · obtain old | ⟨b', edge, path, cyclic⟩ := first entered
        (by rintro a head b inside; cases head; exact inside) c old
      · exact .inl old
      · exact .inr ⟨b, List.mem_cons_self, .head edge path, cyclic⟩
    · exact .inr ⟨b', List.mem_cons_of_mem _ inside, cyclic⟩

/-- When nothing is found, no chain below goes beyond the deepest. -/
theorem Descends.shallow (descends : Descends succs chain rest found found' deepest) (none : found' = ∅) :
    ∀ b ∈ rest, Shallow (fun a b => b ∈ succs a) (deepest - chain.length) b := by
  induction descends with
  | done => simp
  | passes known later _ =>
    have still := later.grows known
    rw [none] at still
    exact still.elim
  | closes _ later _ =>
    have still := later.grows (Or.inr List.mem_cons_self)
    rw [none] at still
    exact still.elim
  | @enters chain rest b found between found' deepest deepest' _ _ entered later firstShallow laterShallow =>
    have none' : between = ∅ := Set.subset_eq_empty later.grows none
    have deep := entered.length_le
    rw [List.length_cons] at deep
    intro c member
    cases member with
    | head =>
      obtain ⟨extra, rfl⟩ := Nat.exists_eq_add_of_le deep
      have shallow : Shallow (fun a b => b ∈ succs a) (extra + 1) b := by
        intro c edge
        have below := firstShallow none' c edge
        rwa [List.length_cons, Nat.add_sub_cancel_left] at below
      exact shallow.mono (by omega)
    | tail _ member => exact (laterShallow none c member).mono (by omega)

end Descents

end Cbgp.Lib
