import Mathlib.Data.List.Basic
import Mathlib.Tactic.Ring.RingNF

/-! # Arrays behind a count

A `Counted α` is a block of cells of which a byte counts those in use.  Two loops delete elements in
place: one moves the cells behind an element down over it, the other copies down the elements that stay.
Both leave the elements that stay in their order (`deleteLoop_values`, `compactLoop_values`).
-/

namespace Cbgp.Lib

universe u

variable {α : Type u}

/-- `memmove` of `count` cells from `src` to `dst`. -/
def moveCells (cells : List α) (dst src count : ℕ) : List α :=
  cells.take dst ++ (cells.drop src).take count ++ cells.drop (dst + count)

theorem length_moveCells {cells : List α} {dst src count : ℕ} (fits : dst + count ≤ cells.length)
    (inside : src + count ≤ cells.length) : (moveCells cells dst src count).length = cells.length := by
  simp only [moveCells, List.length_append, List.length_take, List.length_drop]
  omega

/-- Cells with a byte that counts those in use. -/
structure Counted (α : Type u) where
  cells : List α
  num : UInt8
  inside : num.toNat ≤ cells.length

namespace Counted

/-- The elements. -/
def values (array : Counted α) : List α :=
  array.cells.take array.num.toNat

@[simp] theorem length_values (array : Counted α) : array.values.length = array.num.toNat := by
  rw [values, List.length_take, Nat.min_eq_left array.inside]

theorem length_values_le (array : Counted α) : array.values.length ≤ 255 := by
  rw [length_values]
  exact Nat.le_of_lt_succ array.num.toNat_lt

/-- The block without cells. -/
def empty : Counted α where
  cells := []
  num := 0
  inside := Nat.le_refl _

@[simp] theorem values_empty : (empty : Counted α).values = [] := rfl

/-- A block that holds a list. -/
def ofList (list : List α) (short : list.length ≤ 255) : Counted α where
  cells := list
  num := UInt8.ofNat list.length
  inside := by
    rw [UInt8.toNat_ofNat']
    omega

@[simp] theorem values_ofList (list : List α) (short : list.length ≤ 255) : (ofList list short).values = list := by
  rw [values, ofList, UInt8.toNat_ofNat', Nat.mod_eq_of_lt (by omega), List.take_length]

/-- The element at an index. -/
def get (array : Counted α) (index : ℕ) (inside : index < array.num.toNat) : α :=
  array.cells.get ⟨index, Nat.lt_of_lt_of_le inside array.inside⟩

theorem values_split (array : Counted α) {index : ℕ} (inside : index < array.num.toNat) :
    array.values.drop index = array.get index inside :: array.values.drop (index + 1) := by
  have cell : index < array.values.length := by rwa [length_values]
  rw [List.drop_eq_getElem_cons cell, get, List.get_eq_getElem]
  simp only [values, List.getElem_take]

/-- Write the element at an index. -/
def put (array : Counted α) (index : ℕ) (a : α) : Counted α where
  cells := array.cells.set index a
  num := array.num
  inside := by
    rw [List.length_set]
    exact array.inside

@[simp] theorem num_put (array : Counted α) (index : ℕ) (a : α) : (array.put index a).num = array.num := rfl

theorem values_put (array : Counted α) (index : ℕ) (a : α) :
    (array.put index a).values = array.values.set index a := by
  rw [values, values, put, List.take_set]

/-- `realloc` to as many cells as are in use from now on. -/
def resize (array : Counted α) (num : UInt8) (fewer : num.toNat ≤ array.num.toNat) : Counted α where
  cells := array.cells.take num.toNat
  num := num
  inside := by
    have := array.inside
    rw [List.length_take]
    omega

theorem values_resize (array : Counted α) {num : UInt8} (fewer : num.toNat ≤ array.num.toNat) :
    (array.resize num fewer).values = array.values.take num.toNat := by
  rw [values, values, resize, List.take_take, List.take_take, Nat.min_self, Nat.min_eq_left fewer]

theorem take_succ_values (array : Counted α) {index : ℕ} (inside : index < array.num.toNat) :
    array.values.take (index + 1) = array.values.take index ++ [array.get index inside] := by
  have cell : index < array.values.length := by rwa [length_values]
  have split := array.values_split inside
  rw [List.drop_eq_getElem_cons cell, List.cons.injEq] at split
  rw [List.take_add_one, List.getElem?_eq_getElem cell, split.1]
  rfl

/-- Add an element behind the others, after `realloc` to one more cell; the count must not wrap around. -/
def push (array : Counted α) (a : α) (room : array.num.toNat < 255) : Counted α where
  cells := array.cells.take array.num.toNat ++ [a]
  num := array.num + 1
  inside := by
    have := array.inside
    rw [UInt8.toNat_add, UInt8.toNat_one, Nat.mod_eq_of_lt (by omega), List.length_append, List.length_take]
    simp only [List.length_singleton]
    omega

theorem succ_eq_zero {num : UInt8} : num + 1 = 0 ↔ num.toNat = 255 := by
  have := num.toNat_lt
  rw [← UInt8.toNat_inj, UInt8.toNat_add, UInt8.toNat_one, UInt8.toNat_zero]
  omega

theorem room_of_succ {num : UInt8} (counts : num + 1 ≠ 0) : num.toNat < 255 := by
  have := num.toNat_lt
  rw [Ne, succ_eq_zero] at counts
  omega

theorem values_push (array : Counted α) (a : α) (room : array.num.toNat < 255) :
    (array.push a room).values = array.values ++ [a] := by
  have size : (array.values ++ [a]).length = (array.num + 1).toNat := by
    rw [UInt8.toNat_add, UInt8.toNat_one, Nat.mod_eq_of_lt (by omega), List.length_append, length_values]
    rfl
  exact List.take_of_length_le (Nat.le_of_eq size)

/-! ## Deletion by moving down -/

theorem toNat_pred {num : UInt8} (some : 0 < num.toNat) : (num - 1).toNat = num.toNat - 1 := by
  apply UInt8.toNat_sub_of_le
  rw [UInt8.le_iff_toNat_le]
  exact some

/-- Delete the element at an index: the cells behind it are moved down by one. -/
def removeAt (array : Counted α) (index : ℕ) (inside : index < array.num.toNat) : Counted α where
  cells := moveCells array.cells index (index + 1) (array.num.toNat - index - 1)
  num := array.num - 1
  inside := by
    have := array.inside
    rw [length_moveCells (by omega) (by omega), toNat_pred (by omega)]
    omega

theorem num_removeAt (array : Counted α) {index : ℕ} (inside : index < array.num.toNat) :
    (array.removeAt index inside).num.toNat = array.num.toNat - 1 :=
  toNat_pred (Nat.lt_of_le_of_lt (Nat.zero_le _) inside)

theorem values_removeAt (array : Counted α) {index : ℕ} (inside : index < array.num.toNat) :
    (array.removeAt index inside).values = array.values.take index ++ array.values.drop (index + 1) := by
  have within := array.inside
  have moved : ((array.cells.drop (index + 1)).take (array.num.toNat - index - 1)) =
      array.values.drop (index + 1) := by
    rw [values, List.drop_take]
    congr 1
  have kept : array.cells.take index = array.values.take index := by
    rw [values, List.take_take, Nat.min_eq_left (by omega)]
  have size : (array.values.take index ++ array.values.drop (index + 1)).length = array.num.toNat - 1 := by
    simp only [List.length_append, List.length_take, List.length_drop, length_values]
    omega
  rw [values, num_removeAt, ← size]
  simp only [removeAt, moveCells, moved, kept]
  exact List.take_left

/-- The loop that deletes what it should drop.  The index stays where an element was deleted, since
another one has moved there.  The flag says whether something was deleted. -/
def deleteLoop (drop : α → Bool) (array : Counted α) (index : ℕ) (resize : Bool) : Counted α × Bool :=
  if inside : index < array.num.toNat then
    if drop (array.get index inside) then deleteLoop drop (array.removeAt index inside) index true
    else deleteLoop drop array (index + 1) resize
  else (array, resize)
  termination_by array.num.toNat - index
  decreasing_by
    · rw [num_removeAt]
      omega
    · omega

/-- The elements before the index stay; of the others those that should not be dropped. -/
theorem deleteLoop_values (drop : α → Bool) (array : Counted α) (index : ℕ) (resize : Bool) :
    (deleteLoop drop array index resize).1.values =
        array.values.take index ++ (array.values.drop index).filter (fun a => !drop a) ∧
      (deleteLoop drop array index resize).2 = (resize || (array.values.drop index).any drop) := by
  induction array, index, resize using deleteLoop.induct drop with
  | case1 array index resize inside dropped inductionHypothesis =>
    -- what stood behind the element stands at the index now
    have front : (array.values.take index).length = index := by
      rw [List.length_take, length_values]
      omega
    have before : (array.removeAt index inside).values.take index = array.values.take index := by
      rw [values_removeAt]
      exact List.take_left' front
    have behind : (array.removeAt index inside).values.drop index = array.values.drop (index + 1) := by
      rw [values_removeAt]
      exact List.drop_left' front
    rw [deleteLoop, dif_pos inside, if_pos dropped, inductionHypothesis.1, inductionHypothesis.2, before,
      behind, array.values_split inside]
    simp [dropped]
  | case2 array index resize inside stays inductionHypothesis =>
    rw [deleteLoop, dif_pos inside, if_neg stays, inductionHypothesis.1, inductionHypothesis.2,
      array.values_split inside, array.take_succ_values inside]
    simp [stays]
  | case3 array index resize outside =>
    have all : array.values.length ≤ index := by
      rw [length_values]
      omega
    rw [deleteLoop, dif_neg outside, List.take_of_length_le all, List.drop_eq_nil_of_le all]
    simp

/-! ## Deletion by copying down -/

/-- Copy the element at an index down, unless it stands there. -/
def copyDown (array : Counted α) (index last : ℕ) (inside : index < array.num.toNat) : Counted α :=
  if index ≠ last then array.put last (array.get index inside) else array

@[simp] theorem num_copyDown (array : Counted α) {index last : ℕ} (inside : index < array.num.toNat) :
    (array.copyDown index last inside).num = array.num := by
  unfold copyDown
  split <;> rfl

/-- What stands behind the index does not change, and the element is the next of those that stay. -/
theorem copyDown_values (array : Counted α) {index last : ℕ} (inside : index < array.num.toNat)
    (behind : last ≤ index) :
    (array.copyDown index last inside).values.drop (index + 1) = array.values.drop (index + 1) ∧
      (array.copyDown index last inside).values.take (last + 1) =
        array.values.take last ++ [array.get index inside] := by
  have room : last < array.values.length := by
    rw [length_values]
    omega
  by_cases same : index = last
  · subst same
    simp only [copyDown, ne_eq, not_true_eq_false, if_false, true_and]
    exact array.take_succ_values inside
  · simp only [copyDown, ne_eq, same, not_false_eq_true, if_true, values_put]
    refine ⟨List.drop_set_of_lt (by omega), ?_⟩
    rw [List.take_add_one, List.take_set_of_le (Nat.le_refl _), List.getElem?_set_self room]
    rfl

/-- The loop that copies down what it should keep.  It returns the number of elements that stay; those
behind them are left as they are. -/
def compactLoop (keep : α → Bool) (array : Counted α) (index last : ℕ) : Counted α × ℕ :=
  if inside : index < array.num.toNat then
    if keep (array.get index inside) then
      compactLoop keep (array.copyDown index last inside) (index + 1) (last + 1)
    else compactLoop keep array (index + 1) last
  else (array, last)
  termination_by array.num.toNat - index
  decreasing_by
    · rw [num_copyDown]
      omega
    · omega

/-- The loop counts what stays and gathers it in front, in its order. -/
theorem compactLoop_values (keep : α → Bool) (array : Counted α) (index last : ℕ) (behind : last ≤ index) :
    (compactLoop keep array index last).1.num = array.num ∧
      (compactLoop keep array index last).2 = last + ((array.values.drop index).filter keep).length ∧
      (compactLoop keep array index last).1.values.take (compactLoop keep array index last).2 =
        array.values.take last ++ (array.values.drop index).filter keep := by
  induction array, index, last using compactLoop.induct keep with
  | case1 array index last inside kept inductionHypothesis =>
    obtain ⟨back, front⟩ := array.copyDown_values inside behind
    obtain ⟨num, count, gathered⟩ := inductionHypothesis (by omega)
    rw [compactLoop, dif_pos inside, if_pos kept]
    refine ⟨num.trans (array.num_copyDown inside), ?_, ?_⟩
    · rw [count, back, array.values_split inside, List.filter_cons_of_pos kept, List.length_cons]
      omega
    · rw [gathered, back, front, array.values_split inside, List.filter_cons_of_pos kept]
      simp
  | case2 array index last inside gone inductionHypothesis =>
    rw [compactLoop, dif_pos inside, if_neg gone, array.values_split inside, List.filter_cons_of_neg gone]
    exact inductionHypothesis (by omega)
  | case3 array index last outside =>
    have all : array.values.length ≤ index := by
      rw [length_values]
      omega
    rw [compactLoop, dif_neg outside, List.drop_eq_nil_of_le all]
    simp

theorem compactLoop_last (keep : α → Bool) (array : Counted α) :
    (UInt8.ofNat (array.compactLoop keep 0 0).2).toNat ≤ (array.compactLoop keep 0 0).1.num.toNat := by
  obtain ⟨num, count, _⟩ := compactLoop_values keep array 0 0 (Nat.le_refl 0)
  rw [num, count, UInt8.toNat_ofNat', ← length_values]
  refine Nat.le_trans (Nat.mod_le _ _) ?_
  rw [Nat.zero_add, List.drop_zero]
  exact List.length_filter_le _ _

/-- Keep the elements that pass a test: `none` when none is left, and the block was freed. -/
def gather (keep : α → Bool) (array : Counted α) : Option (Counted α) :=
  if (array.compactLoop keep 0 0).1.num.toNat = (array.compactLoop keep 0 0).2 then
    some (array.compactLoop keep 0 0).1
  else if UInt8.ofNat (array.compactLoop keep 0 0).2 = 0 then none
  else some ((array.compactLoop keep 0 0).1.resize _ (compactLoop_last keep array))

/-- What is left of the elements; nothing was deleted from a block that is kept without elements. -/
theorem gather_values (keep : α → Bool) (array : Counted α) :
    (array.gather keep).map values =
      if (array.values.filter keep).length = array.values.length then some array.values
      else if (array.values.filter keep).isEmpty then none
      else some (array.values.filter keep) := by
  obtain ⟨num, count, gathered⟩ := compactLoop_values keep array 0 0 (Nat.le_refl 0)
  rw [Nat.zero_add, List.drop_zero] at count
  rw [List.take_zero, List.nil_append, List.drop_zero] at gathered
  have few : (array.values.filter keep).length ≤ 255 :=
    Nat.le_trans (List.length_filter_le _ _) array.length_values_le
  have size : (UInt8.ofNat (array.compactLoop keep 0 0).2).toNat = (array.values.filter keep).length := by
    rw [count, UInt8.toNat_ofNat', Nat.mod_eq_of_lt (by omega)]
  have all : (array.compactLoop keep 0 0).1.num.toNat = array.values.length := by
    rw [num, length_values]
  by_cases kept : (array.values.filter keep).length = array.values.length
  -- Nothing dropped: the block is kept without a reallocation.
  · have stays : (array.compactLoop keep 0 0).1.num.toNat = (array.compactLoop keep 0 0).2 := by
      rw [all, count, kept]
    have same : array.values.filter keep = array.values :=
      List.filter_eq_self.mpr (List.length_filter_eq_length_iff.mp kept)
    rw [gather, if_pos stays, if_pos kept, Option.map_some, ← same, ← gathered, ← stays]
    exact congrArg some (List.take_of_length_le (by rw [length_values])).symm
  · have fewer : ¬(array.compactLoop keep 0 0).1.num.toNat = (array.compactLoop keep 0 0).2 := by
      rw [all, count]
      exact Ne.symm kept
    rw [gather, if_neg fewer, if_neg kept]
    -- Nothing kept: the block is freed.
    by_cases empty : array.values.filter keep = []
    · have zero : UInt8.ofNat (array.compactLoop keep 0 0).2 = 0 := by
        rw [count, empty]
        rfl
      rw [if_pos zero, empty]
      rfl
    · have left : ¬UInt8.ofNat (array.compactLoop keep 0 0).2 = 0 := by
        intro zero
        rw [zero] at size
        exact empty (List.length_eq_zero_iff.mp size.symm)
      rw [if_neg left, if_neg (by rwa [List.isEmpty_iff]), Option.map_some, values_resize, size, ← count, gathered]

end Counted

end Cbgp.Lib
