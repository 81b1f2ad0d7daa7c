import Mathlib.Algebra.Order.Ring.Nat
import Mathlib.Order.WithBot

/-! # Binary floating-point formats

Non-negative numbers are counted in units of the smallest step of the widest format at hand, so
that every number of every format is a natural number; `⊤` is the infinity.  A format rounds to the
nearest of its numbers, and to the one with the even significand between two equally near ones.
-/

namespace Cbgp.Lib

/-- A binary format: the digits of a significand, and the powers of two that are the smallest step
and the first number out of range. -/
structure BinaryFormat where
  precision : Nat
  quantum : Nat
  bound : Nat
  precision_pos : 0 < precision

namespace BinaryFormat

variable (f g : BinaryFormat) {m n : Nat}

/-- The power of two that is the step between the numbers of the format around `n`. -/
def shift (n : Nat) : Nat :=
  max f.quantum (n.log2 + 1 - f.precision)

/-- The nearest number with the precision of the format, whatever its range. -/
def nearest (n : Nat) : Nat :=
  let step := 2 ^ f.shift n
  let low := n / step
  let up := step < 2 * (n % step) ∨ step = 2 * (n % step) ∧ low % 2 = 1
  (if up then low + 1 else low) * step

/-- Round to the format. -/
def round : WithTop Nat → WithTop Nat
  | ⊤ => ⊤
  | WithTop.some n => if f.nearest n < 2 ^ f.bound then WithTop.some (f.nearest n) else ⊤

/-- The numbers of the format. -/
def Exact (t : WithTop Nat) : Prop :=
  t ≠ ⊤ ∧ f.round t = t

instance (t : WithTop Nat) : Decidable (f.Exact t) :=
  inferInstanceAs (Decidable (_ ∧ _))

theorem dvd_nearest (n : Nat) : 2 ^ f.shift n ∣ f.nearest n :=
  Dvd.intro_left _ rfl

theorem floor_le_nearest (n : Nat) : n / 2 ^ f.shift n * 2 ^ f.shift n ≤ f.nearest n := by
  apply Nat.mul_le_mul_right
  split
  · exact Nat.le_succ _
  · exact le_rfl

/-- A number is kept when it is a multiple of the step around it. -/
theorem nearest_eq_self_iff : f.nearest n = n ↔ 2 ^ f.shift n ∣ n := by
  constructor
  · intro kept
    have divides := f.dvd_nearest n
    rwa [kept] at divides
  · intro divides
    have exactly : n % 2 ^ f.shift n = 0 := Nat.mod_eq_zero_of_dvd divides
    simp [nearest, exactly, Nat.div_mul_cancel divides]

variable {f g}

/-- Rounding does not pass below a number that the format has. -/
theorem le_nearest (kept : f.nearest m = m) (le : m ≤ n) : m ≤ f.nearest n := by
  apply le_trans _ (f.floor_le_nearest n)
  rw [nearest_eq_self_iff] at kept
  by_cases divides : 2 ^ f.shift n ∣ m
  · obtain ⟨k, rfl⟩ := divides
    rw [mul_comm]
    apply Nat.mul_le_mul_right
    rwa [Nat.le_div_iff_mul_le (Nat.two_pow_pos _), mul_comm]
  · -- the steps around `m` are finer, hence `m` is below the power of two at `n`
    have finer : f.shift m < f.shift n := by
      by_contra coarser
      exact divides ((pow_dvd_pow 2 (not_lt.mp coarser)).trans kept)
    have logs : m.log2 < n.log2 ∧ f.shift n ≤ n.log2 := by
      have := f.precision_pos
      simp only [shift] at finer ⊢
      omega
    have nonzero : n ≠ 0 := by
      rintro rfl
      simp at logs
    calc m ≤ 2 ^ n.log2 := ((Nat.lt_log2_self).trans_le (Nat.pow_le_pow_right (by omega) logs.1)).le
      _ = 2 ^ (n.log2 - f.shift n) * 2 ^ f.shift n := by
          rw [← pow_add, Nat.sub_add_cancel logs.2]
      _ ≤ n / 2 ^ f.shift n * 2 ^ f.shift n := by
          apply Nat.mul_le_mul_right
          rw [Nat.le_div_iff_mul_le (Nat.two_pow_pos _), ← pow_add, Nat.sub_add_cancel logs.2]
          exact Nat.log2_self_le nonzero

theorem exact_coe_iff : f.Exact (WithTop.some n) ↔ f.nearest n = n ∧ n < 2 ^ f.bound := by
  simp only [Exact, round]
  split
  · rename_i inRange
    constructor
    · rintro ⟨-, kept⟩
      have kept : f.nearest n = n := WithTop.coe_injective kept
      exact ⟨kept, kept ▸ inRange⟩
    · rintro ⟨kept, -⟩
      exact ⟨WithTop.coe_ne_top, congrArg WithTop.some kept⟩
  · rename_i outOfRange
    constructor
    · rintro ⟨finite, top⟩
      exact absurd top.symm finite
    · rintro ⟨kept, inRange⟩
      exact absurd (kept.symm ▸ inRange) outOfRange

theorem exact_zero (f : BinaryFormat) : f.Exact (WithTop.some 0) :=
  exact_coe_iff.mpr ⟨f.nearest_eq_self_iff.mpr (Nat.dvd_zero _), Nat.two_pow_pos _⟩

theorem Exact.round_eq {t : WithTop Nat} (exactly : f.Exact t) : f.round t = t :=
  exactly.2

/-- Rounding does not pass below a number that the format has. -/
theorem Exact.le_round {s t : WithTop Nat} (exactly : f.Exact s) (le : s ≤ t) : s ≤ f.round t := by
  cases s with
  | top => exact absurd rfl exactly.1
  | coe m =>
    cases t with
    | top => exact le_top
    | coe n =>
      simp only [round]
      split
      · exact WithTop.coe_le_coe.mpr
          (le_nearest (exact_coe_iff.mp exactly).1 (WithTop.coe_le_coe.mp le))
      · exact le_top

/-- One format has all the numbers of another. -/
def Widens (g f : BinaryFormat) : Prop :=
  f.precision ≤ g.precision ∧ g.quantum ≤ f.quantum ∧ f.bound ≤ g.bound

theorem Exact.widen {t : WithTop Nat} (exactly : f.Exact t) (widens : g.Widens f) : g.Exact t := by
  obtain ⟨precision, quantum, bound⟩ := widens
  cases t with
  | top => exact absurd rfl exactly.1
  | coe n =>
    rw [exact_coe_iff, nearest_eq_self_iff] at exactly ⊢
    refine ⟨(pow_dvd_pow 2 ?_).trans exactly.1, exactly.2.trans_le (Nat.pow_le_pow_right two_pos bound)⟩
    simp only [shift]
    omega

end BinaryFormat

end Cbgp.Lib
