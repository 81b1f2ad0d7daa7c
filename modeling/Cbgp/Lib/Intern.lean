import Mathlib.Data.List.Basic

/-! # Interning with reference counts

A set of shared values: `addRef` returns the stored element that is taken for the value, or stores the
value itself, and counts the references; `removeRef` drops a reference, and the element with the last
one.  Which elements are taken for each other is a parameter, the null reference being an element like
any other.  An element that is held is found again as itself while the elements are told apart
(`addRef_self`).
-/

namespace Cbgp.Lib

universe u

/-- A value on the heap, which no longer changes. -/
structure Obj (α : Type u) where
  addr : ℕ
  value : α
  deriving DecidableEq

/-- A pointer. -/
abbrev Ref (α : Type u) := Option (Obj α)

/-- What a pointer points to. -/
def Ref.value {α : Type u} (ref : Ref α) : Option α := ref.map (·.value)

@[simp] theorem Ref.value_none {α : Type u} : Ref.value (none : Ref α) = none := rfl

@[simp] theorem Ref.value_some {α : Type u} (obj : Obj α) : Ref.value (some obj) = some obj.value := rfl

/-- An element with its number of references. -/
structure InternItem (α : Type u) where
  ref : Ref α
  count : ℕ

variable {α : Type u} (alike : Option α → Option α → Bool)

/-- The element that a value is taken for, or the value as a new element; and the set afterwards. -/
def addRef (ref : Ref α) : List (InternItem α) → Ref α × List (InternItem α)
  | [] => (ref, [⟨ref, 1⟩])
  | item :: items =>
    if alike item.ref.value ref.value then (item.ref, ⟨item.ref, item.count + 1⟩ :: items)
    else ((addRef ref items).1, item :: (addRef ref items).2)

/-- The set without a reference; `none` when the value is taken for no element. -/
def removeRef (ref : Ref α) : List (InternItem α) → Option (List (InternItem α))
  | [] => none
  | item :: items =>
    if alike item.ref.value ref.value then
      some (if item.count ≤ 1 then items else ⟨item.ref, item.count - 1⟩ :: items)
    else (removeRef ref items).map (item :: ·)

/-- The references counted for a pointer. -/
def refCount [DecidableEq α] (ref : Ref α) : List (InternItem α) → ℕ
  | [] => 0
  | item :: items => (if item.ref = ref then item.count else 0) + refCount ref items

/-- The pointers in the set. -/
def stored (items : List (InternItem α)) : List (Ref α) := items.map (·.ref)

theorem stored_cons (item : InternItem α) (items : List (InternItem α)) :
    stored (item :: items) = item.ref :: stored items := rfl

/-- The elements are told apart, and each is referred to. -/
structure Interned (items : List (InternItem α)) : Prop where
  distinct : items.Pairwise fun item item' => alike item.ref.value item'.ref.value = false
  counted : ∀ item ∈ items, 0 < item.count

theorem Interned.empty : Interned alike ([] : List (InternItem α)) where
  distinct := .nil
  counted _ member := nomatch member

variable {alike}

theorem Interned.tail {item : InternItem α} {items : List (InternItem α)}
    (interned : Interned alike (item :: items)) : Interned alike items where
  distinct := interned.distinct.of_cons
  counted other member := interned.counted other (List.mem_cons_of_mem _ member)

theorem refCount_pos [DecidableEq α] {items : List (InternItem α)} (interned : Interned alike items)
    {ref : Ref α} : 0 < refCount ref items ↔ ref ∈ stored items := by
  induction items with
  | nil => simp [refCount, stored]
  | cons item items inductionHypothesis =>
    have positive := interned.counted item List.mem_cons_self
    have rest := inductionHypothesis interned.tail
    simp only [refCount, stored, List.map_cons, List.mem_cons] at rest ⊢
    by_cases here : item.ref = ref
    · simp only [here, if_true, true_or, iff_true]
      omega
    · rw [if_neg here, Nat.zero_add, rest]
      constructor
      · exact .inr
      · rintro (same | later)
        · exact absurd same.symm here
        · exact later

/-! ## Adding -/

/-- The pointer that an addition returns, and the pointers afterwards. -/
theorem addRef_stored (alike : Option α → Option α → Bool) (ref : Ref α) (items : List (InternItem α)) :
    ((addRef alike ref items).1 ∈ stored items ∧
        alike (addRef alike ref items).1.value ref.value = true ∧
        stored (addRef alike ref items).2 = stored items) ∨
      ((∀ other ∈ stored items, alike other.value ref.value = false) ∧
        (addRef alike ref items).1 = ref ∧ stored (addRef alike ref items).2 = stored items ++ [ref]) := by
  induction items with
  | nil => exact .inr ⟨by simp [stored], rfl, rfl⟩
  | cons item items inductionHypothesis =>
    cases here : alike item.ref.value ref.value with
    | true =>
      rw [addRef, if_pos here]
      exact .inl ⟨List.mem_cons_self, here, rfl⟩
    | false =>
      simp only [addRef, here, Bool.false_eq_true, if_false, stored, List.map_cons] at inductionHypothesis ⊢
      rcases inductionHypothesis with ⟨member, same, kept⟩ | ⟨apart, result, more⟩
      · exact .inl ⟨List.mem_cons_of_mem _ member, same, by rw [kept]⟩
      · refine .inr ⟨fun other member => ?_, result, by rw [more, List.cons_append]⟩
        cases List.mem_cons.mp member with
        | inl same => rw [same, here]
        | inr later => exact apart other later

theorem addRef_alike (ref : Ref α) (self : alike ref.value ref.value = true) (items : List (InternItem α)) :
    alike (addRef alike ref items).1.value ref.value = true := by
  rcases addRef_stored alike ref items with ⟨_, same, _⟩ | ⟨_, result, _⟩
  · exact same
  · rwa [result]

theorem addRef_mem (alike : Option α → Option α → Bool) (ref : Ref α) (items : List (InternItem α)) :
    (addRef alike ref items).1 ∈ stored (addRef alike ref items).2 := by
  rcases addRef_stored alike ref items with ⟨member, _, kept⟩ | ⟨_, result, more⟩
  · rwa [kept]
  · rw [result, more]
    simp

theorem mem_stored_addRef {alike : Option α → Option α → Bool} {ref other : Ref α}
    {items : List (InternItem α)} (member : other ∈ stored (addRef alike ref items).2) :
    other ∈ stored items ∨ other = ref ∧ (addRef alike ref items).1 = ref := by
  rcases addRef_stored alike ref items with ⟨_, _, kept⟩ | ⟨_, result, more⟩
  · exact .inl (kept ▸ member)
  · rw [more, List.mem_append, List.mem_singleton] at member
    exact member.imp_right fun same => ⟨same, result⟩

/-- An element that is in the set is found as itself. -/
theorem addRef_self {items : List (InternItem α)} (interned : Interned alike items) {ref : Ref α}
    (self : alike ref.value ref.value = true) (member : ref ∈ stored items) :
    (addRef alike ref items).1 = ref := by
  induction items with
  | nil => cases member
  | cons item items inductionHypothesis =>
    rw [stored_cons] at member
    cases here : alike item.ref.value ref.value with
    | true =>
      rw [addRef, if_pos here]
      cases List.mem_cons.mp member with
      | inl same => exact same.symm
      | inr later =>
        obtain ⟨other, inside, same⟩ := List.mem_map.mp later
        have apart := (List.pairwise_cons.mp interned.distinct).1 other inside
        rw [same, here] at apart
        cases apart
    | false =>
      rw [addRef, if_neg (Bool.eq_false_iff.mp here)]
      refine inductionHypothesis interned.tail ?_
      cases List.mem_cons.mp member with
      | inl same =>
        rw [← same, self] at here
        cases here
      | inr later => exact later

/-- The element that a value is taken for is the one returned. -/
theorem addRef_of_alike {items : List (InternItem α)} (interned : Interned alike items)
    (common : ∀ {a b c}, alike a c = true → alike b c = true → alike a b = true) {ref other : Ref α}
    (member : other ∈ stored items) (same : alike other.value ref.value = true) :
    (addRef alike ref items).1 = other := by
  induction items with
  | nil => cases member
  | cons item items inductionHypothesis =>
    rw [stored_cons] at member
    cases here : alike item.ref.value ref.value with
    | true =>
      rw [addRef, if_pos here]
      cases List.mem_cons.mp member with
      | inl first => exact first.symm
      | inr later =>
        -- two elements taken for the same value are taken for each other
        obtain ⟨item', inside, pointer⟩ := List.mem_map.mp later
        have apart := (List.pairwise_cons.mp interned.distinct).1 item' inside
        rw [pointer, common here same] at apart
        cases apart
    | false =>
      rw [addRef, if_neg (Bool.eq_false_iff.mp here)]
      refine inductionHypothesis interned.tail ?_
      cases List.mem_cons.mp member with
      | inl first =>
        rw [← first, same] at here
        cases here
      | inr later => exact later

theorem Interned.add {items : List (InternItem α)} (interned : Interned alike items) (ref : Ref α) :
    Interned alike (addRef alike ref items).2 := by
  induction items with
  | nil =>
    refine ⟨List.pairwise_singleton _ _, fun item member => ?_⟩
    rw [List.mem_singleton.mp member]
    exact Nat.one_pos
  | cons item items inductionHypothesis =>
    obtain ⟨apart, _⟩ := List.pairwise_cons.mp interned.distinct
    cases here : alike item.ref.value ref.value with
    | true =>
      rw [addRef, if_pos here]
      refine ⟨List.pairwise_cons.mpr ⟨apart, interned.tail.distinct⟩, fun other member => ?_⟩
      cases List.mem_cons.mp member with
      | inl same =>
        rw [same]
        exact Nat.succ_pos _
      | inr later => exact interned.tail.counted other later
    | false =>
      rw [addRef, if_neg (Bool.eq_false_iff.mp here)]
      have rest := inductionHypothesis interned.tail
      refine ⟨List.pairwise_cons.mpr ⟨fun other member => ?_, rest.distinct⟩, fun other member => ?_⟩
      · have pointer : other.ref ∈ stored (addRef alike ref items).2 := List.mem_map_of_mem member
        rcases mem_stored_addRef pointer with old | ⟨new, _⟩
        · obtain ⟨item', inside, same⟩ := List.mem_map.mp old
          rw [← same]
          exact apart item' inside
        · rwa [new]
      · cases List.mem_cons.mp member with
        | inl same =>
          rw [same]
          exact interned.counted item List.mem_cons_self
        | inr later => exact rest.counted other later

/-- One more reference to the pointer that is returned. -/
theorem refCount_addRef [DecidableEq α] (alike : Option α → Option α → Bool) (ref other : Ref α)
    (items : List (InternItem α)) :
    refCount other (addRef alike ref items).2 =
      refCount other items + if (addRef alike ref items).1 = other then 1 else 0 := by
  induction items with
  | nil => by_cases same : ref = other <;> simp [addRef, refCount, same]
  | cons item items inductionHypothesis =>
    cases here : alike item.ref.value ref.value with
    | true =>
      simp only [addRef, here, if_true, refCount]
      split <;> omega
    | false =>
      simp only [addRef, here, Bool.false_eq_true, if_false, refCount, inductionHypothesis]
      omega

/-! ## Removing -/

/-- Dropping a reference to an element of the set. -/
theorem removeRef_self [DecidableEq α] {items : List (InternItem α)} (interned : Interned alike items)
    {ref : Ref α} (self : alike ref.value ref.value = true) (member : ref ∈ stored items) :
    ∃ items', removeRef alike ref items = some items' ∧ Interned alike items' ∧
      stored items' ⊆ stored items ∧
      ∀ other, refCount other items' + (if ref = other then 1 else 0) = refCount other items := by
  induction items with
  | nil => cases member
  | cons item items inductionHypothesis =>
    rw [stored_cons] at member
    obtain ⟨apart, distinct⟩ := List.pairwise_cons.mp interned.distinct
    have positive := interned.counted item List.mem_cons_self
    cases here : alike item.ref.value ref.value with
    | true =>
      -- Alike values are stored once, so the entry found is the reference's own.
      have same : item.ref = ref := by
        cases List.mem_cons.mp member with
        | inl same => exact same.symm
        | inr later =>
          obtain ⟨other, inside, same⟩ := List.mem_map.mp later
          have told := apart other inside
          rw [same, here] at told
          cases told
      rw [removeRef, if_pos here]
      refine ⟨_, rfl, ?_⟩
      split
      -- The last user gone, the entry goes; otherwise only its count falls.
      next last =>
        refine ⟨interned.tail, fun other later => List.mem_cons_of_mem _ later, fun other => ?_⟩
        simp only [refCount, same]
        split <;> omega
      next more =>
        refine ⟨⟨List.pairwise_cons.mpr ⟨apart, distinct⟩, fun other inside => ?_⟩, fun _ inside => inside,
          fun other => ?_⟩
        · cases List.mem_cons.mp inside with
          | inl first =>
            rw [first]
            simp only
            omega
          | inr later => exact interned.tail.counted other later
        · simp only [refCount, same]
          split <;> omega
    | false =>
      have later : ref ∈ stored items := by
        cases List.mem_cons.mp member with
        | inl same =>
          rw [← same, self] at here
          cases here
        | inr later => exact later
      obtain ⟨items', removed, interned', subset, counts⟩ := inductionHypothesis interned.tail later
      refine ⟨item :: items', ?_, ⟨List.pairwise_cons.mpr ⟨fun other inside => ?_, interned'.distinct⟩,
        fun other inside => ?_⟩, ?_, fun other => ?_⟩
      · rw [removeRef, if_neg (Bool.eq_false_iff.mp here), removed]
        rfl
      · obtain ⟨item', before, same⟩ := List.mem_map.mp (subset (List.mem_map_of_mem inside))
        rw [← same]
        exact apart item' before
      · cases List.mem_cons.mp inside with
        | inl same =>
          rw [same]
          exact positive
        | inr inside => exact interned'.counted other inside
      · intro other inside
        cases List.mem_cons.mp inside with
        | inl same =>
          rw [same]
          exact List.mem_cons_self
        | inr inside => exact List.mem_cons_of_mem _ (subset inside)
      · have := counts other
        simp only [refCount]
        omega

theorem removeRef_of_mem {items : List (InternItem α)} {ref : Ref α} (self : alike ref.value ref.value = true)
    (member : ref ∈ stored items) : ∃ items', removeRef alike ref items = some items' := by
  induction items with
  | nil => cases member
  | cons item items inductionHypothesis =>
    cases here : alike item.ref.value ref.value with
    | true => exact ⟨_, by rw [removeRef, if_pos here]⟩
    | false =>
      have later : ref ∈ stored items := by
        cases List.mem_cons.mp (stored_cons item items ▸ member) with
        | inl same =>
          rw [← same, self] at here
          cases here
        | inr later => exact later
      obtain ⟨items', removed⟩ := inductionHypothesis later
      exact ⟨item :: items', by rw [removeRef, if_neg (Bool.eq_false_iff.mp here), removed, Option.map_some]⟩

/-! ## The value that is kept -/

/-- The value of the element that a new value is taken for, or the value itself. -/
def keptFor (alike : Option α → Option α → Bool) (items : List (InternItem α)) (value : α) : Option α :=
  match items.find? fun item => alike item.ref.value (some value) with
  | some item => item.ref.value
  | none => some value

theorem addRef_value (alike : Option α → Option α → Bool) (obj : Obj α) (items : List (InternItem α)) :
    (addRef alike (some obj) items).1.value = keptFor alike items obj.value := by
  induction items with
  | nil => rfl
  | cons item items inductionHypothesis =>
    unfold keptFor at inductionHypothesis ⊢
    cases here : alike item.ref.value (some obj.value) with
    | true =>
      rw [List.find?_cons_of_pos (by exact here), addRef, Ref.value_some, if_pos here]
    | false =>
      have apart : ¬ alike item.ref.value (some obj.value) = true := Bool.eq_false_iff.mp here
      rw [List.find?_cons_of_neg (by exact apart), addRef, Ref.value_some, if_neg apart]
      exact inductionHypothesis

end Cbgp.Lib
