import Mathlib.Algebra.BigOperators.Group.Finset.Basic
import Mathlib.Algebra.Order.BigOperators.Group.Finset

/-! # Label-correcting shortest paths

A search keeps for each vertex a tentative distance and a set of predecessors, and relaxes edges in
any order, each as often as it likes.  The library gives the invariant such a search keeps whatever
the order: `Sound dist pred todo`, where `todo` are the edges that may still have to be relaxed.

* `Walk` — the walks from the root whose cost stays below a bound.
* `Sound.improve`, `Sound.tie`, `Sound.skip` — what relaxing one edge does in the three cases.
* `Sound.dist_eq`, `Sound.pred_iff` — once nothing is left to relax, the labels are the least costs
  and the predecessors are exactly the tight edges.
* `potential` — a number that every improvement lowers, on a finite set of vertices.
-/

namespace Cbgp.Lib.Relaxation

universe u

variable {V : Type u} (edge : V → V → ℕ → Prop) (root : V) (bound : ℕ)

/-- Walks from the root, with their cost, which stays below the bound. -/
inductive Walk : V → ℕ → Prop where
  | start : Walk root 0
  | step {a b : V} {d c : ℕ} : Walk a d → edge a b c → d + c < bound → Walk b (d + c)

/-- What a search keeps true of its labels.  An edge that is not to be relaxed again is respected by
the labels of its ends; a predecessor is tight, or the edge from it is to be relaxed again. -/
structure Sound (dist : V → Option ℕ) (pred : V → V → Prop) (todo : V → V → ℕ → Prop) : Prop where
  origin : dist root = some 0
  walk : ∀ {v d}, dist v = some d → Walk edge root bound v d
  done : ∀ {a b d c}, dist a = some d → edge a b c → d + c < bound → ¬ todo a b c →
    ∃ e, dist b = some e ∧ (e < d + c ∨ e = d + c ∧ pred b a)
  pred : ∀ {b a}, pred b a → ∃ d c e, dist a = some d ∧ edge a b c ∧ dist b = some e ∧
    (e = d + c ∨ d + c < e ∧ todo a b c)

variable {edge root bound}
variable {dist : V → Option ℕ} {pred : V → V → Prop} {todo : V → V → ℕ → Prop}

theorem Walk.cost_lt {v : V} {d : ℕ} (walk : Walk edge root bound v d) (positive : 0 < bound) :
    d < bound := by
  cases walk with
  | start => exact positive
  | step _ _ below => exact below

/-- A walk is continued by one that starts where it ends. -/
theorem Walk.append {v w : V} {d e : ℕ} (first : Walk edge root bound v d) (second : Walk edge v bound w e)
    (below : d + e < bound) : Walk edge root bound w (d + e) := by
  induction second with
  | start => exact first
  | @step a b e c _ isEdge _ inductionHypothesis =>
    have part := inductionHypothesis (by omega)
    rw [← Nat.add_assoc]
    exact part.step isEdge (by omega)

namespace Sound

/-- The labels before the first edge is relaxed. -/
theorem start (bounded : ∀ {v d}, dist v = some d → v = root ∧ d = 0) (atRoot : dist root = some 0)
    (none : ∀ {b a}, ¬ pred b a) : Sound edge root bound dist pred fun a _ _ => a = root where
  origin := atRoot
  walk labelled := by
    obtain ⟨rfl, rfl⟩ := bounded labelled
    exact .start
  done labelled _ _ pending := absurd (bounded labelled).1 pending
  pred isPred := absurd isPred none

/-- More may be left to do. -/
theorem mono {todo' : V → V → ℕ → Prop} (sound : Sound edge root bound dist pred todo)
    (more : ∀ {a b c}, edge a b c → todo a b c → todo' a b c) :
    Sound edge root bound dist pred todo' where
  origin := sound.origin
  walk := sound.walk
  done labelled isEdge below finished :=
    sound.done labelled isEdge below fun pending => finished (more isEdge pending)
  pred isPred := by
    obtain ⟨d, c, e, labelA, isEdge, labelB, tight⟩ := sound.pred isPred
    exact ⟨d, c, e, labelA, isEdge, labelB, tight.imp_right (.imp_right (more isEdge))⟩

/-- An edge need not be relaxed when its head is nearer anyway, or the bound stops the walk. -/
theorem skip (sound : Sound edge root bound dist pred todo) {a b : V} {c : ℕ}
    (dominated : ∀ d, dist a = some d → d + c < bound → ∃ e, dist b = some e ∧ e < d + c) :
    Sound edge root bound dist pred fun a' b' c' =>
      todo a' b' c' ∧ ¬ (a' = a ∧ b' = b ∧ c' = c) where
  origin := sound.origin
  walk := sound.walk
  done {a' b' d c'} labelled isEdge below finished := by
    by_cases same : a' = a ∧ b' = b ∧ c' = c
    · obtain ⟨rfl, rfl, rfl⟩ := same
      obtain ⟨e, labelB, nearer⟩ := dominated d labelled below
      exact ⟨e, labelB, .inl nearer⟩
    · exact sound.done labelled isEdge below fun pending => finished ⟨pending, same⟩
  pred {b' a'} isPred := by
    obtain ⟨d, c', e, labelA, isEdge, labelB, tight⟩ := sound.pred isPred
    refine ⟨d, c', e, labelA, isEdge, labelB, ?_⟩
    rcases tight with tight | ⟨stale, pending⟩
    · exact .inl tight
    · refine .inr ⟨stale, pending, ?_⟩
      rintro ⟨rfl, rfl, rfl⟩
      -- a stale predecessor is nearer than the head, so the edge was neither dominated nor stopped
      have below : d + c' < bound := by
        cases sound.walk labelB with
        | start => omega
        | step _ _ limit => omega
      obtain ⟨e', labelB', nearer⟩ := dominated d labelA below
      rw [labelB, Option.some.injEq] at labelB'
      omega

/-- Relaxing an edge that is tight adds a predecessor. -/
theorem tie (sound : Sound edge root bound dist pred todo) {a b : V} {c d : ℕ}
    (labelA : dist a = some d) (isEdge : edge a b c) (labelB : dist b = some (d + c)) :
    Sound edge root bound dist (fun b' a' => pred b' a' ∨ b' = b ∧ a' = a) fun a' b' c' =>
      todo a' b' c' ∧ ¬ (a' = a ∧ b' = b ∧ c' = c) where
  origin := sound.origin
  walk := sound.walk
  done {a' b' d' c'} labelled isEdge' below finished := by
    by_cases same : a' = a ∧ b' = b ∧ c' = c
    · obtain ⟨rfl, rfl, rfl⟩ := same
      rw [labelA, Option.some.injEq] at labelled
      subst labelled
      exact ⟨_, labelB, .inr ⟨rfl, .inr ⟨rfl, rfl⟩⟩⟩
    · obtain ⟨e, labelB', respected⟩ :=
        sound.done labelled isEdge' below fun pending => finished ⟨pending, same⟩
      exact ⟨e, labelB', respected.imp_right (.imp_right .inl)⟩
  pred {b' a'} isPred := by
    rcases isPred with old | ⟨rfl, rfl⟩
    · obtain ⟨d', c', e, labelA', isEdge', labelB', tight⟩ := sound.pred old
      refine ⟨d', c', e, labelA', isEdge', labelB', ?_⟩
      rcases tight with tight | ⟨stale, pending⟩
      · exact .inl tight
      · refine .inr ⟨stale, pending, ?_⟩
        rintro ⟨rfl, rfl, rfl⟩
        rw [labelA, Option.some.injEq] at labelA'
        rw [labelB, Option.some.injEq] at labelB'
        omega
    · exact ⟨d, c, d + c, labelA, isEdge, labelB, .inl rfl⟩

/-- Relaxing an edge whose head is farther lowers the label of the head, makes the tail its only
predecessor, and puts every edge out of the head back on the list. -/
theorem improve [DecidableEq V] (sound : Sound edge root bound dist pred todo) {a b : V} {c d : ℕ}
    (labelA : dist a = some d) (isEdge : edge a b c) (below : d + c < bound)
    (better : ∀ e, dist b = some e → d + c < e) :
    Sound edge root bound (Function.update dist b (some (d + c)))
      (fun b' a' => if b' = b then a' = a else pred b' a') fun a' b' c' =>
      todo a' b' c' ∧ ¬ (a' = a ∧ b' = b ∧ c' = c) ∨ a' = b := by
  have tail : a ≠ b := by
    rintro rfl
    have := better d labelA
    omega
  exact {
    origin := by
      have rootNe : root ≠ b := by
        rintro rfl
        have := better 0 sound.origin
        omega
      rw [Function.update_of_ne rootNe]
      exact sound.origin
    walk := by
      intro v e labelled
      by_cases same : v = b
      · subst same
        rw [Function.update_self, Option.some.injEq] at labelled
        subst labelled
        exact (sound.walk labelA).step isEdge below
      · rw [Function.update_of_ne same] at labelled
        exact sound.walk labelled
    done := by
      intro a' b' d' c' labelled isEdge' below' finished
      push Not at finished
      obtain ⟨handled, other⟩ := finished
      rw [Function.update_of_ne other] at labelled
      by_cases same : a' = a ∧ b' = b ∧ c' = c
      · obtain ⟨rfl, rfl, rfl⟩ := same
        rw [labelA, Option.some.injEq] at labelled
        subst labelled
        exact ⟨_, Function.update_self .., .inr ⟨rfl, by simp⟩⟩
      · obtain ⟨e, labelB, respected⟩ :=
          sound.done labelled isEdge' below' fun pending => same (handled pending)
        by_cases head : b' = b
        · subst head
          have := better e labelB
          exact ⟨_, Function.update_self .., .inl (by omega)⟩
        · refine ⟨e, by rw [Function.update_of_ne head, labelB], ?_⟩
          rw [if_neg head]
          exact respected
    pred := by
      intro b' a' isPred
      by_cases head : b' = b
      · subst head
        rw [if_pos rfl] at isPred
        subst isPred
        exact ⟨d, c, d + c, by rw [Function.update_of_ne tail, labelA], isEdge,
          Function.update_self .., .inl rfl⟩
      · rw [if_neg head] at isPred
        obtain ⟨d', c', e, labelA', isEdge', labelB', tight⟩ := sound.pred isPred
        by_cases same : a' = b
        · -- the predecessor has just come nearer
          subst same
          have := better d' labelA'
          refine ⟨d + c, c', e, Function.update_self .., isEdge', ?_, .inr ⟨?_, .inr rfl⟩⟩
          · rw [Function.update_of_ne head, labelB']
          · rcases tight with tight | ⟨stale, _⟩ <;> omega
        · refine ⟨d', c', e, by rw [Function.update_of_ne same, labelA'], isEdge', ?_, ?_⟩
          · rw [Function.update_of_ne head, labelB']
          · refine tight.imp_right (.imp_right fun pending => .inl ⟨pending, ?_⟩)
            rintro ⟨-, rfl, -⟩
            exact head rfl }

/-! ## Nothing left to relax -/

section Finished

variable (sound : Sound edge root bound dist pred fun _ _ _ => False)

include sound

/-- Every walk ends at a vertex whose label is at most its cost. -/
theorem le_walk {v : V} {d : ℕ} (walk : Walk edge root bound v d) : ∃ e, dist v = some e ∧ e ≤ d := by
  induction walk with
  | start => exact ⟨0, sound.origin, Nat.le_refl _⟩
  | @step a b d c _ isEdge below inductionHypothesis =>
    obtain ⟨e, labelA, nearer⟩ := inductionHypothesis
    obtain ⟨e', labelB, respected⟩ := sound.done labelA isEdge (by omega) not_false
    refine ⟨e', labelB, ?_⟩
    rcases respected with less | ⟨equal, _⟩ <;> omega

/-- The label is the least cost of a walk. -/
theorem dist_eq {v : V} {d : ℕ} :
    dist v = some d ↔ Walk edge root bound v d ∧ ∀ e, Walk edge root bound v e → d ≤ e := by
  constructor
  · intro labelled
    refine ⟨sound.walk labelled, fun e walk => ?_⟩
    obtain ⟨d', labelled', nearer⟩ := sound.le_walk walk
    rw [labelled, Option.some.injEq] at labelled'
    omega
  · rintro ⟨walk, least⟩
    obtain ⟨d', labelled, nearer⟩ := sound.le_walk walk
    have := least d' (sound.walk labelled)
    rw [labelled, Nat.le_antisymm nearer this]

/-- The predecessors are the tails of the tight edges. -/
theorem pred_iff (positive : 0 < bound) {b a : V} :
    pred b a ↔ ∃ d c, dist a = some d ∧ edge a b c ∧ dist b = some (d + c) := by
  constructor
  · intro isPred
    obtain ⟨d, c, e, labelA, isEdge, labelB, tight⟩ := sound.pred isPred
    rcases tight with tight | ⟨_, pending⟩
    · exact ⟨d, c, labelA, isEdge, by rw [labelB, tight]⟩
    · exact absurd pending not_false
  · rintro ⟨d, c, labelA, isEdge, labelB⟩
    obtain ⟨e, labelB', respected⟩ :=
      sound.done labelA isEdge ((sound.walk labelB).cost_lt positive) not_false
    rw [labelB, Option.some.injEq] at labelB'
    rcases respected with less | ⟨_, isPred⟩
    · omega
    · exact isPred

end Finished

end Sound

/-! ## Termination -/

/-- The sum of the labels, where a vertex without label counts as the bound. -/
def potential (bound : ℕ) (vertices : Finset V) (dist : V → Option ℕ) : ℕ :=
  ∑ v ∈ vertices, (dist v).getD bound

theorem potential_update_lt [DecidableEq V] {vertices : Finset V} {v : V} {d : ℕ}
    (known : v ∈ vertices) (below : d < bound) (better : ∀ e, dist v = some e → d < e) :
    potential bound vertices (Function.update dist v (some d)) < potential bound vertices dist := by
  refine Finset.sum_lt_sum (fun w _ => ?_) ⟨v, known, ?_⟩
  · by_cases same : w = v
    · subst same
      rw [Function.update_self, Option.getD_some]
      cases labelled : dist w with
      | none => simpa using Nat.le_of_lt below
      | some e => simpa using Nat.le_of_lt (better e labelled)
    · rw [Function.update_of_ne same]
  · rw [Function.update_self, Option.getD_some]
    cases labelled : dist v with
    | none => simpa using below
    | some e => simpa using better e labelled

end Cbgp.Lib.Relaxation
