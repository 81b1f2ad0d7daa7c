import Cbgp.Bgp.Attr

/-! # AS-paths

What `path_append` does to a path: it adds a hop at the recent end, in the last segment or in a segment
of its own, and refuses when the last segment is a SEQUENCE without room.
-/

namespace Cbgp.Verified

open Cbgp.Bgp

/-- A path with one more hop at the recent end, in a segment of its own when the last segment takes
no more. -/
def prependAs (asn : Asn) : Path → Path
  | [] => [sequenceOf asn]
  | [seg] =>
    if h : seg.type = .sequence ∧ seg.asns.length < maxPathSequenceLength then
      [{ type := .sequence
         asns := seg.asns ++ [asn]
         short := by simpa using Nat.succ_le_of_lt h.2 }]
    else [seg, sequenceOf asn]
  | seg :: next :: path => seg :: prependAs asn (next :: path)

/-- The last segment is a SEQUENCE that takes no more hops. -/
def lastFull (path : Path) : Bool :=
  path.getLast?.any fun seg =>
    seg.type = .sequence && !decide (seg.asns.length < maxPathSequenceLength)

theorem lastFull_cons_cons (seg next : PathSeg) (path : Path) :
    lastFull (seg :: next :: path) = lastFull (next :: path) := by
  simp [lastFull, List.getLast?_cons_cons]

/-- A hop is appended unless the last segment is full. -/
theorem pathAppend_eq (path : Path) (asn : Asn) :
    pathAppend path asn = if lastFull path then none else some (prependAs asn path) := by
  induction path with
  | nil => simp [pathAppend, lastFull, prependAs]
  | cons seg path inductionHypothesis =>
    cases path with
    | cons next path =>
      rw [pathAppend, inductionHypothesis, lastFull_cons_cons, prependAs]
      · split <;> simp
      · simp
    | nil =>
      cases kind : seg.type with
      | set => simp [pathAppend, lastFull, prependAs, kind]
      | sequence =>
        by_cases room : seg.asns.length < maxPathSequenceLength
        · simp [pathAppend, pathSegmentAdd, lastFull, prependAs, kind, room]
        · simp [pathAppend, pathSegmentAdd, lastFull, kind, room]

theorem PathSeg.eq_of {seg seg' : PathSeg} (kind : seg.type = seg'.type) (asns : seg.asns = seg'.asns) :
    seg = seg' := by
  cases seg
  cases seg'
  cases kind
  cases asns
  rfl

/-- Behind a SET, and in an empty path, a hop starts a segment. -/
theorem pathAppend_set {path : Path} (set : ∀ last ∈ path.getLast?, last.type = .set) (asn : Asn) :
    pathAppend path asn = some (path ++ [sequenceOf asn]) := by
  induction path with
  | nil => rfl
  | cons seg path inductionHypothesis =>
    cases path with
    | nil =>
      have kind := set seg rfl
      simp [pathAppend, kind]
    | cons next path =>
      rw [pathAppend, inductionHypothesis (by simpa [List.getLast?_cons_cons] using set)]
      · rfl
      · simp

/-- A SEQUENCE at the end takes the hop. -/
theorem pathAppend_sequence {seg : PathSeg} (kind : seg.type = .sequence) (path : Path) (asn : Asn) :
    pathAppend (path ++ [seg]) asn = (pathSegmentAdd seg asn).map fun grown => path ++ [grown] := by
  induction path with
  | nil => simp [pathAppend, kind]
  | cons first path inductionHypothesis =>
    have more : path ++ [seg] ≠ [] := by simp
    obtain ⟨next, others, shape⟩ := List.exists_cons_of_ne_nil more
    rw [List.cons_append, shape, pathAppend, ← shape, inductionHypothesis]
    · simp [Option.map_map, Function.comp_def]
    · simp

theorem prependAs_lastFull (asn : Asn) {path : Path} (full : lastFull path = true) :
    (prependAs asn path).length = path.length + 1 := by
  induction path with
  | nil => simp [lastFull] at full
  | cons seg path inductionHypothesis =>
    cases path with
    | nil =>
      have noRoom : ¬ (seg.type = .sequence ∧ seg.asns.length < maxPathSequenceLength) := by
        simp only [lastFull, List.getLast?_singleton, Option.any_some, Bool.and_eq_true] at full
        rintro ⟨-, room⟩
        simp [room] at full
      simp [prependAs, noRoom]
    | cons next path =>
      rw [lastFull_cons_cons] at full
      simp [prependAs, inductionHypothesis full]

theorem pathAsns_prependAs (asn : Asn) (path : Path) :
    (prependAs asn path).flatMap (·.asns) = path.flatMap (·.asns) ++ [asn] := by
  induction path with
  | nil => rfl
  | cons seg path inductionHypothesis =>
    cases path with
    | nil =>
      simp only [prependAs]
      split
      · simp
      · simp [sequenceOf]
    | cons next path =>
      simp only [prependAs, List.flatMap_cons] at inductionHypothesis ⊢
      rw [inductionHypothesis]
      simp only [List.append_assoc]

/-- The hops of the last segment, when it is a SEQUENCE. -/
def lastRun (path : Path) : ℕ :=
  match path.getLast? with
  | some seg => if seg.type = .sequence then seg.asns.length else 0
  | none => 0

theorem lastRun_cons_cons (seg next : PathSeg) (path : Path) :
    lastRun (seg :: next :: path) = lastRun (next :: path) := by
  simp [lastRun, List.getLast?_cons_cons]

theorem lastRun_le (path : Path) : lastRun path ≤ maxPathSequenceLength := by
  simp only [lastRun]
  split
  next seg _ =>
    split
    · exact seg.short
    · exact Nat.zero_le _
  next => exact Nat.zero_le _

theorem lastRun_of_set {seg : PathSeg} (kind : seg.type = .set) (path : Path) :
    lastRun (path ++ [seg]) = 0 := by
  simp [lastRun, kind]

theorem lastFull_iff (path : Path) : lastFull path = true ↔ lastRun path = maxPathSequenceLength := by
  simp only [lastFull, lastRun]
  cases path.getLast? with
  | none => simp [maxPathSequenceLength]
  | some seg =>
    cases kind : seg.type with
    | set => simp [kind, maxPathSequenceLength]
    | sequence =>
      have short := seg.short
      simp only [Option.any_some, kind, decide_true, Bool.true_and, Bool.not_eq_true', decide_eq_false_iff_not,
        if_true]
      omega

/-- A hop added with room makes the last SEQUENCE longer by one. -/
theorem lastRun_prependAs (asn : Asn) {path : Path} (room : lastFull path = false) :
    lastRun (prependAs asn path) = lastRun path + 1 := by
  induction path with
  | nil => rfl
  | cons seg path inductionHypothesis =>
    cases path with
    | nil =>
      cases kind : seg.type with
      | set => simp [prependAs, lastRun, kind, sequenceOf]
      | sequence =>
        have space : seg.asns.length < maxPathSequenceLength := by
          simpa [lastFull, kind] using room
        simp [prependAs, lastRun, kind, space]
    | cons next path =>
      rw [lastFull_cons_cons] at room
      have rest := inductionHypothesis room
      obtain ⟨first, others, grown⟩ : ∃ first others, prependAs asn (next :: path) = first :: others := by
        cases path with
        | nil =>
          simp only [prependAs]
          split
          · exact ⟨_, _, rfl⟩
          · exact ⟨_, _, rfl⟩
        | cons next' path => exact ⟨_, _, rfl⟩
      rw [grown] at rest
      rw [prependAs, grown, lastRun_cons_cons, lastRun_cons_cons, rest]

end Cbgp.Verified
