import Mathlib.Data.Set.Defs

/-! # Arrays kept in order by a comparison

An array that a comparison function keeps sorted and without duplicates, with operations that come from
elsewhere.  `ArrayOps.Correct` says what may be relied on: what is added is there, only an equal item stands in
its way, what is found is equal; and where the comparison is a total order, the array stays sorted and its items
are found.  Insertion and search from the first item on are such operations (`linearOps_correct`).
-/

namespace Cbgp.Lib

universe u

variable {α : Type u} {cmp : α → α → Ordering}

/-- A comparison orders the items of a set totally. -/
structure TotalOn (cmp : α → α → Ordering) (s : Set α) : Prop where
  refl : ∀ a ∈ s, cmp a a = .eq
  eq : ∀ a ∈ s, ∀ b ∈ s, cmp a b = .eq → a = b
  swap : ∀ a ∈ s, ∀ b ∈ s, cmp b a = (cmp a b).swap
  trans : ∀ a ∈ s, ∀ b ∈ s, ∀ c ∈ s, cmp a b = .lt → cmp b c = .lt → cmp a c = .lt

/-- Strictly increasing items. -/
def SortedBy (cmp : α → α → Ordering) (items : List α) : Prop := items.Pairwise fun a b => cmp a b = .lt

/-- The two ways to be found equal. -/
def Equated (cmp : α → α → Ordering) (a b : α) : Prop := cmp a b = .eq ∨ cmp b a = .eq

/-- Addition, unless an equal item is there, and search. -/
structure ArrayOps (α : Type u) where
  add : List α → α → Option (List α)
  findIndex : List α → α → Option Nat

/-- What may be relied on. -/
structure ArrayOps.Correct (ops : ArrayOps α) (cmp : α → α → Ordering) : Prop where
  add_perm : ∀ {items a items'}, ops.add items a = some items' → items'.Perm (a :: items)
  add_taken : ∀ {items a}, ops.add items a = none → ∃ b ∈ items, Equated cmp a b
  find_equated : ∀ {items a i}, ops.findIndex items a = some i → ∃ b, items[i]? = some b ∧ Equated cmp a b
  add_sorted : ∀ {items a items'}, TotalOn cmp {b | b ∈ a :: items} → SortedBy cmp items →
    ops.add items a = some items' → SortedBy cmp items'
  find_stored : ∀ {items a}, TotalOn cmp {b | b ∈ items} → SortedBy cmp items → a ∈ items →
    ∃ i, ops.findIndex items a = some i

theorem TotalOn.subset {s t : Set α} (total : TotalOn cmp s) (part : t ⊆ s) : TotalOn cmp t where
  refl a inside := total.refl a (part inside)
  eq a inside b inside' := total.eq a (part inside) b (part inside')
  swap a inside b inside' := total.swap a (part inside) b (part inside')
  trans a inside b inside' c inside'' := total.trans a (part inside) b (part inside') c (part inside'')

/-- Nothing stands twice in a sorted array. -/
theorem SortedBy.nodup {items : List α} (sorted : SortedBy cmp items) (total : TotalOn cmp {b | b ∈ items}) :
    items.Nodup := by
  refine List.Pairwise.imp_of_mem (fun {a b} member _ less same => ?_) sorted
  subst same
  rw [total.refl a member] at less
  cases less

/-! ## From the first item on -/

/-- Insertion in front of the first greater item. -/
def insertBy (cmp : α → α → Ordering) (a : α) : List α → Option (List α)
  | [] => some [a]
  | b :: items =>
    match cmp a b with
    | .lt => some (a :: b :: items)
    | .eq => none
    | .gt => (insertBy cmp a items).map (b :: ·)

/-- Insertion and search from the first item on. -/
def linearOps (cmp : α → α → Ordering) : ArrayOps α where
  add items a := insertBy cmp a items
  findIndex items a := items.findIdx? fun b => cmp a b = .eq

theorem insertBy_perm {items items' : List α} {a : α} (added : insertBy cmp a items = some items') :
    items'.Perm (a :: items) := by
  induction items generalizing items' with
  | nil =>
    cases added
    exact List.Perm.refl _
  | cons b items inductionHypothesis =>
    rw [insertBy] at added
    split at added
    next =>
      cases added
      exact List.Perm.refl _
    next => cases added
    next =>
      obtain ⟨rest, inserted, rfl⟩ := Option.map_eq_some_iff.mp added
      exact ((inductionHypothesis inserted).cons b).trans (List.Perm.swap _ _ _)

theorem insertBy_taken {items : List α} {a : α} (taken : insertBy cmp a items = none) :
    ∃ b ∈ items, cmp a b = .eq := by
  induction items with
  | nil => cases taken
  | cons b items inductionHypothesis =>
    rw [insertBy] at taken
    split at taken
    next => cases taken
    next equal => exact ⟨b, List.mem_cons_self, equal⟩
    next =>
      obtain ⟨c, member, equal⟩ := inductionHypothesis (Option.map_eq_none_iff.mp taken)
      exact ⟨c, List.mem_cons_of_mem _ member, equal⟩

theorem insertBy_sorted {items items' : List α} {a : α} (total : TotalOn cmp {b | b ∈ a :: items})
    (sorted : SortedBy cmp items) (added : insertBy cmp a items = some items') : SortedBy cmp items' := by
  induction items generalizing items' with
  | nil =>
    cases added
    exact List.pairwise_singleton _ _
  | cons b items inductionHypothesis =>
    obtain ⟨above, sorted'⟩ := List.pairwise_cons.mp sorted
    have insideA : a ∈ a :: b :: items := List.mem_cons_self
    have insideB : b ∈ a :: b :: items := List.mem_cons_of_mem _ List.mem_cons_self
    rw [insertBy] at added
    split at added
    next less =>
      cases added
      refine List.pairwise_cons.mpr ⟨fun c member => ?_, sorted⟩
      cases List.mem_cons.mp member with
      | inl same => exact same ▸ less
      | inr later => exact total.trans a insideA b insideB c (List.mem_cons_of_mem _ member) less (above c later)
    next => cases added
    next greater =>
      obtain ⟨rest, inserted, rfl⟩ := Option.map_eq_some_iff.mp added
      have total' : TotalOn cmp {c | c ∈ a :: items} := total.subset fun c inside => by
        cases List.mem_cons.mp inside with
        | inl same => exact same ▸ insideA
        | inr later => exact List.mem_cons_of_mem _ (List.mem_cons_of_mem _ later)
      refine List.pairwise_cons.mpr ⟨fun c member => ?_, inductionHypothesis total' sorted' inserted⟩
      cases List.mem_cons.mp ((insertBy_perm inserted).mem_iff.mp member) with
      | inl same =>
        subst same
        rw [total.swap c insideA b insideB, greater]
        rfl
      | inr later => exact above c later

theorem linearOps_correct (cmp : α → α → Ordering) : (linearOps cmp).Correct cmp where
  add_perm := insertBy_perm
  add_taken taken := by
    obtain ⟨b, member, equal⟩ := insertBy_taken taken
    exact ⟨b, member, .inl equal⟩
  find_equated found := by
    obtain ⟨inside, equal, -⟩ := List.findIdx?_eq_some_iff_getElem.mp found
    exact ⟨_, List.getElem?_eq_getElem inside, .inl (of_decide_eq_true equal)⟩
  add_sorted := insertBy_sorted
  find_stored total _ member := by
    refine Option.isSome_iff_exists.mp ?_
    rw [linearOps, List.findIdx?_isSome, List.any_eq_true]
    exact ⟨_, member, decide_eq_true (total.refl _ member)⟩

end Cbgp.Lib
