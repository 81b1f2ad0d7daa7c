import Mathlib.Data.List.GetD

/-! # Sets of numbers packed in words

A set of numbers below `words.length * w` as the bits of words of `w` bits.

* `bitTest_bitPut` — what a bit is after a bit was set.
* `packedTest_put` — what is in the set after a number was put in.
* `packedTest_of_lt`, `packedPut_of_lt` — the words are indexed within their bounds.
-/

namespace Cbgp.Lib

variable {w : ℕ}

/-! ## Words -/

/-- Test a bit with a mask. -/
def bitTest (word : BitVec w) (i : ℕ) : Bool := word &&& (1#w <<< i) ≠ 0

/-- Set a bit with a mask. -/
def bitPut (word : BitVec w) (i : ℕ) : BitVec w := word ||| (1#w <<< i)

theorem bitTest_eq_getLsbD (word : BitVec w) {i : ℕ} (inside : i < w) :
    bitTest word i = word.getLsbD i := by
  have mask := BitVec.twoPow_eq w i
  have some : BitVec.twoPow w i ≠ 0#w := by
    intro none
    have bit := congrArg (fun x => x.getLsbD i) none
    simp [inside] at bit
  rw [bitTest, ← mask, BitVec.and_twoPow]
  cases word.getLsbD i with
  | false => simp
  | true => simpa using some

@[simp] theorem bitTest_zero (i : ℕ) : bitTest 0#w i = false := by
  simp [bitTest]

theorem bitTest_bitPut (word : BitVec w) {i j : ℕ} (inside : i < w) (inside' : j < w) :
    bitTest (bitPut word i) j = (decide (i = j) || bitTest word j) := by
  have mask := BitVec.twoPow_eq w i
  rw [bitTest_eq_getLsbD _ inside', bitTest_eq_getLsbD _ inside', bitPut, ← mask, BitVec.getLsbD_or,
    BitVec.getLsbD_twoPow, Bool.or_comm]
  simp [inside]

/-! ## Sets -/

/-- The empty set. -/
def packedEmpty (w size : ℕ) : List (BitVec w) := List.replicate size 0

/-- Whether a number is in the set; `none` past the end of the words. -/
def packedTest (words : List (BitVec w)) (n : ℕ) : Option Bool :=
  words[n / w]?.map fun word => bitTest word (n % w)

/-- Put a number in the set; `none` past the end of the words. -/
def packedPut (words : List (BitVec w)) (n : ℕ) : Option (List (BitVec w)) :=
  words[n / w]?.map fun word => words.set (n / w) (bitPut word (n % w))

variable {words words' : List (BitVec w)} {m n : ℕ}

theorem packedTest_empty {size : ℕ} (inside : n / w < size) :
    packedTest (packedEmpty w size) n = some false := by
  simp [packedTest, packedEmpty, inside]

theorem length_packedPut (put : packedPut words n = some words') : words'.length = words.length := by
  obtain ⟨word, _, rfl⟩ := Option.map_eq_some_iff.mp put
  exact List.length_set

theorem packedPut_of_lt (inside : n / w < words.length) :
    ∃ words', packedPut words n = some words' :=
  ⟨_, by rw [packedPut, List.getElem?_eq_getElem inside, Option.map_some]⟩

theorem packedTest_of_lt (inside : n / w < words.length) : ∃ found, packedTest words n = some found :=
  ⟨_, by rw [packedTest, List.getElem?_eq_getElem inside, Option.map_some]⟩

/-- The numbers in the set after one was put in. -/
theorem packedTest_put (wide : 0 < w) (put : packedPut words n = some words') :
    packedTest words' m = if m = n then some true else packedTest words m := by
  obtain ⟨word, found, rfl⟩ := Option.map_eq_some_iff.mp put
  have inside : n / w < words.length := (List.getElem?_eq_some_iff.mp found).1
  have bound : n % w < w := Nat.mod_lt n wide
  have bound' : m % w < w := Nat.mod_lt m wide
  rw [packedTest, packedTest, List.getElem?_set]
  by_cases same : n / w = m / w
  · rw [if_pos same, if_pos inside, Option.map_some, bitTest_bitPut word bound bound', ← same, found]
    by_cases sameBit : n % w = m % w
    · have equal : m = n := by
        rw [← Nat.div_add_mod m w, ← Nat.div_add_mod n w, same, sameBit]
      simp [equal]
    · have other : m ≠ n := fun equal => sameBit (by rw [equal])
      simp [sameBit, other]
  · have other : m ≠ n := fun equal => same (by rw [equal])
    rw [if_neg same, if_neg other]

end Cbgp.Lib
