import Mathlib.Algebra.Order.BigOperators.Group.List
import Mathlib.Algebra.Order.Ring.Nat
import Cbgp.Bgp.AttrRepository
import Cbgp.Verified.PathPrinters

/-! # Communities as text -/

namespace Cbgp.Verified

open Cbgp.Lib Cbgp.Bgp

/-! ## Printing numbers into a buffer -/

/-- `%u` of a community value. -/
def commDigits (comm : Comm) : List Char := Nat.toDigits 10 comm.toNat

/-- The text that `comm_to_string` writes when there is room for it. -/
def commsText (comms : List Comm) : List Char := spaced (comms.map commDigits)

theorem commDigits_ne_nil (comm : Comm) : commDigits comm ≠ [] := Nat.toDigits_ne_nil

theorem printComms_prints (comms : List Comm) (first : Bool) :
    Prints (printComms first comms)
      (if comms = [] then [] else if first then commsText comms else ' ' :: commsText comms) :=
  printWords_prints commDigits_ne_nil (fun _ _ => rfl) (fun _ _ _ _ => rfl) comms first

theorem mem_commsText {comms : List Comm} {c : Char} (member : c ∈ commsText comms) :
    c = ' ' ∨ c.isDigit := by
  cases mem_spaced member with
  | inl space => exact .inl space
  | inr found =>
    obtain ⟨word, written, inside⟩ := found
    obtain ⟨comm, _, rfl⟩ := List.mem_map.mp written
    exact .inr (Nat.isDigit_of_mem_toDigits (by decide) (by decide) inside)

theorem commsText_ne_nil {comms : List Comm} (some : comms ≠ []) : commsText comms ≠ [] := by
  obtain ⟨comm, member⟩ := List.exists_mem_of_ne_nil _ some
  obtain ⟨c, digit⟩ := List.exists_mem_of_ne_nil _ (commDigits_ne_nil comm)
  exact List.ne_nil_of_mem (mem_spaced_of_mem (List.mem_map_of_mem member) digit)

/-- The whole text is written when it fits with its end, and nothing is reported otherwise. -/
theorem printComms_buffer {comms : List Comm} (some : comms ≠ []) {mem : List Char} (space : 0 < mem.length) :
    if (commsText comms).length < mem.length then
      ∃ dst, printComms true comms ⟨mem, 0, mem.length⟩ = .ok dst ∧ cString dst.mem = commsText comms
    else printComms true comms ⟨mem, 0, mem.length⟩ = .error .tooSmall := by
  have prints := printComms_prints comms true
  rw [if_neg some, if_pos rfl] at prints
  split
  next fits =>
    obtain ⟨dst, printed, filled⟩ := prints.fits (Filled.start space) (by simpa using fits)
    rw [List.nil_append] at filled
    refine ⟨dst, printed, filled.string (commsText_ne_nil some) fun c member null => ?_⟩
    cases mem_commsText member with
    | inl blank => cases null.symm.trans blank
    | inr digit =>
      rw [null] at digit
      cases digit
  next full => exact prints.full (Filled.start space) (by simpa using full)

theorem commTextIn_eq {size : ℕ} (space : 0 < size) (comms : Option (List Comm)) :
    commTextIn size comms =
      if (commsText (comms.getD [])).length < size then some (commsText (comms.getD [])) else none := by
  cases content : comms.getD [] with
  | nil =>
    have nothing : commsText [] = [] := rfl
    rw [nothing, List.length_nil, if_pos space]
    cases size with
    | zero => cases space
    | succ size => simp [commTextIn, content, printComms, cString, List.replicate_succ]
  | cons comm rest =>
    have length : (List.replicate size '\x00').length = size := List.length_replicate
    have room : 0 < (List.replicate size '\x00').length := length.symm ▸ space
    have printed := printComms_buffer (List.cons_ne_nil comm rest) room
    rw [length] at printed
    split at printed
    next fits =>
      obtain ⟨dst, printed, text⟩ := printed
      simp only [commTextIn, content, printed, text, if_pos fits]
    next full => simp only [commTextIn, content, printed, if_neg full]

/-- A part of a list of Communities has no longer text. -/
theorem length_commsText_sublist {comms comms' : List Comm} (part : comms.Sublist comms') :
    (commsText comms).length ≤ (commsText comms').length := by
  by_cases none : comms = []
  · rw [none]
    exact Nat.zero_le _
  · have length := length_spaced (mt List.map_eq_nil_iff.mp none : comms.map commDigits ≠ [])
    have length' := length_spaced (mt List.map_eq_nil_iff.mp (fun empty => none (List.sublist_nil.mp (empty ▸ part))) :
      comms'.map commDigits ≠ [])
    have fewer := ((part.map commDigits).map fun word => word.length + 1).sum_le_sum
      fun _ _ => Nat.zero_le _
    rw [← length, ← length'] at fewer
    exact Nat.le_of_succ_le_succ fewer

end Cbgp.Verified
