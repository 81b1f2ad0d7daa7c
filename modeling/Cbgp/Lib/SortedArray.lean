import Mathlib.Data.List.Sort

/-! # Sorted arrays without duplicates

A `SortedArray key` holds its items in the order of their keys, each key once.  Items are found, added,
replaced and removed by key.
-/

namespace Cbgp.Lib

universe u v

/-- In a sorted list the first item that passes a test is the least one that does. -/
theorem find?_eq_some_iff_least {α : Type u} {r : α → α → Prop} (asymm : ∀ a b, r a b → ¬ r b a) {items : List α}
    (sorted : items.Pairwise r) {p : α → Bool} {a : α} :
    items.find? p = some a ↔ a ∈ items ∧ p a = true ∧ ∀ b ∈ items, p b = true → b = a ∨ r a b := by
  induction items with
  | nil => simp
  | cons c items inductionHypothesis =>
    obtain ⟨below, sorted⟩ := List.pairwise_cons.mp sorted
    by_cases passes : p c = true
    · rw [List.find?_cons_of_pos passes, Option.some.injEq]
      constructor
      · rintro rfl
        refine ⟨List.mem_cons_self, passes, fun b member _ => ?_⟩
        cases List.mem_cons.mp member with
        | inl same => exact .inl same
        | inr later => exact .inr (below b later)
      · intro ⟨member, _, least⟩
        cases least c List.mem_cons_self passes with
        | inl same => exact same
        | inr less =>
          cases List.mem_cons.mp member with
          | inl same => exact same.symm
          | inr later => exact absurd less (asymm _ _ (below a later))
    · rw [List.find?_cons_of_neg passes, inductionHypothesis sorted]
      constructor
      · intro ⟨member, passes', least⟩
        refine ⟨List.mem_cons_of_mem _ member, passes', fun b member' passes'' => ?_⟩
        cases List.mem_cons.mp member' with
        | inl same => exact absurd (same ▸ passes'') passes
        | inr later => exact least b later passes''
      · intro ⟨member, passes', least⟩
        cases List.mem_cons.mp member with
        | inl same => exact absurd (same ▸ passes') passes
        | inr later => exact ⟨later, passes', fun b member' => least b (List.mem_cons_of_mem _ member')⟩

variable {α : Type u} {K : Type v} [LinearOrder K]

/-- A list of items with strictly increasing keys. -/
structure SortedArray (key : α → K) where
  items : List α
  sorted : items.Pairwise fun a b => key a < key b

namespace SortedArray

variable {key : α → K}

/-- The array without items. -/
def empty : SortedArray key where
  items := []
  sorted := .nil

/-- The item under a key. -/
def find (array : SortedArray key) (k : K) : Option α :=
  array.items.find? fun a => key a = k

/-- Some of the items, in their order. -/
def restrict (array : SortedArray key) (items : List α) (part : items.Sublist array.items) :
    SortedArray key where
  items := items
  sorted := array.sorted.sublist part

/-- The items that pass a test. -/
def filter (array : SortedArray key) (p : α → Bool) : SortedArray key :=
  array.restrict (array.items.filter p) List.filter_sublist

/-- Remove the item under a key. -/
def erase (array : SortedArray key) (k : K) : SortedArray key :=
  array.filter fun a => key a ≠ k

/-- Update the items where they stand; their keys stay. -/
def map (array : SortedArray key) (f : α → α) (same : ∀ a, key (f a) = key a) : SortedArray key where
  items := array.items.map f
  sorted := by
    rw [List.pairwise_map]
    simpa only [same] using array.sorted

/-- Ordered insertion of an item whose key is not taken. -/
theorem orderedInsert_sorted {a : α} {items : List α}
    (sorted : items.Pairwise fun a b => key a < key b) (fresh : ∀ b ∈ items, key b ≠ key a) :
    (items.orderedInsert (fun a b => key a ≤ key b) a).Pairwise fun a b => key a < key b := by
  have ordered : (items.orderedInsert (fun a b => key a ≤ key b) a).Pairwise fun a b => key a ≤ key b :=
    (sorted.imp fun less => less.le).orderedInsert a items
  have apart : (items.orderedInsert (fun a b => key a ≤ key b) a).Pairwise fun a b => key a ≠ key b := by
    rw [(List.perm_orderedInsert _ a items).pairwise_iff fun differ => differ.symm]
    exact List.pairwise_cons.mpr ⟨fun b member => (fresh b member).symm, sorted.imp fun less => less.ne⟩
  exact ordered.imp₂ (fun _ _ le ne => lt_of_le_of_ne le ne) apart

/-- Add an item, unless its key is taken. -/
def add (array : SortedArray key) (a : α) : Option (SortedArray key) :=
  if fresh : ∀ b ∈ array.items, key b ≠ key a then
    some { items := array.items.orderedInsert (fun a b => key a ≤ key b) a
           sorted := orderedInsert_sorted array.sorted fresh }
  else none

/-! ## Members -/

theorem eq_of_key {array : SortedArray key} {a b : α} (memberA : a ∈ array.items)
    (memberB : b ∈ array.items) (same : key a = key b) : a = b := by
  obtain ⟨n, inside, rfl⟩ := List.getElem_of_mem memberA
  obtain ⟨m, inside', rfl⟩ := List.getElem_of_mem memberB
  have ordered := List.pairwise_iff_getElem.mp array.sorted
  rcases Nat.lt_trichotomy n m with less | equal | greater
  · exact absurd same (ordered n m inside inside' less).ne
  · subst equal
    rfl
  · exact absurd same.symm (ordered m n inside' inside greater).ne

theorem find_eq_some {array : SortedArray key} {k : K} {a : α} :
    array.find k = some a ↔ a ∈ array.items ∧ key a = k := by
  unfold find
  constructor
  · intro found
    exact ⟨List.mem_of_find?_eq_some found, by simpa using List.find?_some found⟩
  · rintro ⟨member, rfl⟩
    cases found : array.items.find? fun b => key b = key a with
    | none => simpa using List.find?_eq_none.mp found a member
    | some b =>
      have same : key b = key a := by simpa using List.find?_some found
      rw [eq_of_key (List.mem_of_find?_eq_some found) member same]

theorem find_eq_none {array : SortedArray key} {k : K} :
    array.find k = none ↔ ∀ a ∈ array.items, key a ≠ k := by
  simp [find]

@[simp] theorem find_empty (k : K) : (empty : SortedArray key).find k = none := rfl

theorem mem_add {array array' : SortedArray key} {a : α} (added : array.add a = some array') :
    ∀ b, b ∈ array'.items ↔ b = a ∨ b ∈ array.items := by
  intro b
  unfold add at added
  split at added
  · cases added
    exact List.mem_orderedInsert _
  · cases added

/-- An item is added exactly when its key is free. -/
theorem add_isSome {array : SortedArray key} {a : α} :
    (∃ array', array.add a = some array') ↔ array.find (key a) = none := by
  rw [find_eq_none]
  unfold add
  split
  next fresh => simpa using fresh
  next taken => simpa using taken

theorem find_add {array array' : SortedArray key} {a : α} (added : array.add a = some array') (k : K) :
    array'.find k = if k = key a then some a else array.find k := by
  have members := mem_add added
  split
  next same => exact find_eq_some.mpr ⟨(members a).mpr (.inl rfl), same.symm⟩
  next differ =>
    apply Option.ext
    intro b
    simp only [find_eq_some, members]
    constructor
    · rintro ⟨rfl | member, key⟩
      · exact absurd key.symm differ
      · exact ⟨member, key⟩
    · rintro ⟨member, key⟩
      exact ⟨.inr member, key⟩

theorem find_filter (array : SortedArray key) (p : α → Bool) (k : K) :
    (array.filter p).find k = (array.find k).filter p := by
  apply Option.ext
  intro b
  rw [find_eq_some, Option.filter_eq_some_iff, find_eq_some]
  simp only [filter, restrict, List.mem_filter]
  tauto

theorem find_erase (array : SortedArray key) (k k' : K) :
    (array.erase k').find k = if k = k' then none else array.find k := by
  rw [erase, find_filter]
  split
  next same =>
    subst same
    cases found : array.find k with
    | none => rfl
    | some a => simp [Option.filter, (find_eq_some.mp found).2]
  next differ =>
    cases found : array.find k with
    | none => rfl
    | some a => simp [Option.filter, (find_eq_some.mp found).2, differ]

theorem find_map (array : SortedArray key) {f : α → α} (same : ∀ a, key (f a) = key a) (k : K) :
    (array.map f same).find k = (array.find k).map f := by
  simp only [find, map, List.find?_map, Function.comp_def, same]

end SortedArray

end Cbgp.Lib
