import Cbgp.Verified.AsPaths
import Cbgp.Verified.AttrRepository

/-! # Prepending

`bgp_attr_path_prepend` puts copies of an ASN in front, as many as the last SEQUENCE takes, or nothing
(`pathAppendTimes_spec`).  What it misses is the text of the path: it grows with every hop, and the
buffers of the hash and of the regular expressions are smaller than the text of a full SEQUENCE
(`prepend_iff`).
-/

namespace Cbgp.Verified

open Cbgp.Lib Cbgp.Bgp

/-! ## Copies in front -/

/-- A path with copies of an ASN as its most recent hops: the last SEQUENCE has grown, or the copies are
a SEQUENCE of their own, after a SET and in an empty path. -/
inductive Prepended (asn : Asn) : ℕ → Path → Path → Prop where
  | nothing (old : Path) : Prepended asn 0 old old
  | grown {n : ℕ} {front : Path} {last last' : PathSeg} (kind : last.type = .sequence)
      (kind' : last'.type = .sequence) (asns : last'.asns = last.asns ++ List.replicate n asn) :
      Prepended asn n (front ++ [last]) (front ++ [last'])
  | fresh {n : ℕ} {old : Path} {seg : PathSeg} (some : 0 < n) (set : ∀ last ∈ old.getLast?, last.type = .set)
      (kind : seg.type = .sequence) (asns : seg.asns = List.replicate n asn) :
      Prepended asn n old (old ++ [seg])

theorem pathAppendTimes_sequence (asn : Asn) {n : ℕ} {seg : PathSeg} (kind : seg.type = .sequence)
    (room : seg.asns.length + n ≤ maxPathSequenceLength) (front : Path) :
    ∃ grown : PathSeg, grown.type = .sequence ∧ grown.asns = seg.asns ++ List.replicate n asn ∧
      pathAppendTimes asn n (front ++ [seg]) = some (front ++ [grown]) := by
  induction n generalizing seg with
  | zero => exact ⟨seg, kind, by simp, rfl⟩
  | succ n inductionHypothesis =>
    have space : seg.asns.length < maxPathSequenceLength := by omega
    obtain ⟨seg1, added, kind1, asns1⟩ : ∃ seg1, pathSegmentAdd seg asn = some seg1 ∧
        seg1.type = .sequence ∧ seg1.asns = seg.asns ++ [asn] := by
      rw [pathSegmentAdd, dif_pos space]
      exact ⟨_, rfl, kind, rfl⟩
    have room1 : seg1.asns.length + n ≤ maxPathSequenceLength := by
      rw [asns1, List.length_append, List.length_singleton]
      omega
    obtain ⟨grown, kind', asns, appended⟩ := inductionHypothesis kind1 room1
    refine ⟨grown, kind', ?_, ?_⟩
    · rw [asns, asns1, List.append_assoc]
      rfl
    · rw [pathAppendTimes, pathAppend_sequence kind, added]
      exact appended

theorem pathAppendTimes_full {asn : Asn} {n : ℕ} {seg : PathSeg} (kind : seg.type = .sequence)
    (full : maxPathSequenceLength < seg.asns.length + n) (front : Path) :
    pathAppendTimes asn n (front ++ [seg]) = none := by
  induction n generalizing seg with
  | zero => exact absurd full (Nat.not_lt.mpr seg.short)
  | succ n inductionHypothesis =>
    rw [pathAppendTimes, pathAppend_sequence kind]
    cases added : pathSegmentAdd seg asn with
    | none => rfl
    | some seg1 =>
      simp only [pathSegmentAdd] at added
      split at added
      next space =>
        cases added
        refine inductionHypothesis kind ?_
        rw [List.length_append, List.length_singleton]
        omega
      next => cases added

theorem pathAppendTimes_fresh (asn : Asn) {n : ℕ} {old : Path}
    (set : ∀ last ∈ old.getLast?, last.type = .set) (room : n + 1 ≤ maxPathSequenceLength) :
    ∃ seg : PathSeg, seg.type = .sequence ∧ seg.asns = List.replicate (n + 1) asn ∧
      pathAppendTimes asn (n + 1) old = some (old ++ [seg]) := by
  have single : (sequenceOf asn).type = .sequence := rfl
  have space : (sequenceOf asn).asns.length + n ≤ maxPathSequenceLength := by
    simpa [sequenceOf, Nat.add_comm] using room
  obtain ⟨seg, kind, asns, appended⟩ := pathAppendTimes_sequence asn single space old
  refine ⟨seg, kind, asns, ?_⟩
  rw [pathAppendTimes, pathAppend_set set]
  exact appended

/-- The last hops of a path: it is empty or ends in a SET, or it ends in a SEQUENCE. -/
theorem lastRun_cases (path : Path) :
    ((∀ last ∈ path.getLast?, last.type = .set) ∧ lastRun path = 0) ∨
      ∃ front last, path = front ++ [last] ∧ last.type = .sequence ∧ lastRun path = last.asns.length := by
  cases shape : path.getLast? with
  | none => exact .inl ⟨by simp, by simp [lastRun, shape]⟩
  | some last =>
    cases kind : last.type with
    | set => exact .inl ⟨by simpa using kind, by simp [lastRun, shape, kind]⟩
    | sequence =>
      obtain ⟨front, whole⟩ := List.getLast?_eq_some_iff.mp shape
      exact .inr ⟨front, last, whole, kind, by simp [lastRun, shape, kind]⟩

/-- All copies are put in front, or the last SEQUENCE does not take them. -/
theorem pathAppendTimes_spec (asn : Asn) (n : ℕ) (old : Path) :
    (lastRun old + n ≤ maxPathSequenceLength ∧
        ∃ new, pathAppendTimes asn n old = some new ∧ Prepended asn n old new) ∨
      (maxPathSequenceLength < lastRun old + n ∧ pathAppendTimes asn n old = none) := by
  rcases lastRun_cases old with ⟨set, run⟩ | ⟨front, last, rfl, kind, run⟩
  · rw [run, Nat.zero_add]
    cases n with
    | zero => exact .inl ⟨Nat.zero_le _, old, rfl, .nothing old⟩
    | succ n =>
      by_cases room : n + 1 ≤ maxPathSequenceLength
      · obtain ⟨seg, kind, asns, appended⟩ := pathAppendTimes_fresh asn set room
        exact .inl ⟨room, _, appended, .fresh (Nat.succ_pos n) set kind asns⟩
      · refine .inr ⟨Nat.lt_of_not_le room, ?_⟩
        rw [pathAppendTimes, pathAppend_set set]
        refine pathAppendTimes_full rfl ?_ old
        simp only [sequenceOf, List.length_singleton]
        omega
  · rw [run]
    by_cases room : last.asns.length + n ≤ maxPathSequenceLength
    · obtain ⟨grown, kind', asns, appended⟩ := pathAppendTimes_sequence asn kind room front
      exact .inl ⟨room, _, appended, .grown kind kind' asns⟩
    · exact .inr ⟨Nat.lt_of_not_le room, pathAppendTimes_full kind (Nat.lt_of_not_le room) front⟩

/-- There is one such path. -/
theorem Prepended.appended {asn : Asn} {n : ℕ} {old new : Path} (prepended : Prepended asn n old new) :
    pathAppendTimes asn n old = some new := by
  cases prepended with
  | nothing => rfl
  | @grown _ front last last' kind kind' asns =>
    have short := last'.short
    rw [asns, List.length_append, List.length_replicate] at short
    obtain ⟨grown, kind1, asns1, appended⟩ := pathAppendTimes_sequence asn kind short front
    rw [appended, PathSeg.eq_of (kind1.trans kind'.symm) (asns1.trans asns.symm)]
  | @fresh _ _ seg some set kind asns =>
    have short := seg.short
    rw [asns, List.length_replicate] at short
    obtain ⟨n, rfl⟩ := Nat.exists_eq_succ_of_ne_zero (Nat.pos_iff_ne_zero.mp some)
    obtain ⟨seg1, kind1, asns1, appended⟩ := pathAppendTimes_fresh asn set short
    rw [appended, PathSeg.eq_of (kind1.trans kind.symm) (asns1.trans asns.symm)]

theorem pathLength_append (front back : Path) :
    pathLength (some (front ++ back)) = pathLength (some front) + pathLength (some back) := by
  simp [pathLength]

theorem pathLength_single {seg : PathSeg} (kind : seg.type = .sequence) :
    pathLength (some [seg]) = seg.asns.length := by
  simp [pathLength, kind]

theorem Prepended.pathLength {asn : Asn} {n : ℕ} {old new : Path} (prepended : Prepended asn n old new) :
    pathLength (some new) = pathLength (some old) + n := by
  cases prepended with
  | nothing => rfl
  | grown kind kind' asns =>
    rw [pathLength_append, pathLength_append, pathLength_single kind, pathLength_single kind', asns,
      List.length_append, List.length_replicate, Nat.add_assoc]
  | fresh some set kind asns => rw [pathLength_append, pathLength_single kind, asns, List.length_replicate]

/-! ## The length of the text -/

/-- The digits of the ASNs of a list, with a space for each. -/
def asnsWeight (asns : List Asn) : ℕ := (asns.map fun asn => (asnDigits asn).length + 1).sum

/-- The characters of a segment, with a space. -/
def segmentWeight (seg : PathSeg) : ℕ :=
  match seg.type with
  | .sequence => asnsWeight seg.asns
  | .set => asnsWeight seg.asns + 2

theorem length_pathSegmentDump {seg : PathSeg} (nonempty : seg.asns ≠ []) :
    (pathSegmentDump seg true).length + 1 = segmentWeight seg := by
  have some : seg.asns.reverse.map asnDigits ≠ [] := by simpa using nonempty
  have text : (spaced (seg.asns.reverse.map asnDigits)).length + 1 = asnsWeight seg.asns := by
    rw [length_spaced some, asnsWeight, List.map_map, List.map_reverse, List.sum_reverse]
    rfl
  cases kind : seg.type with
  | sequence => simpa [pathSegmentDump, segmentWeight, kind, asnOrder] using text
  | set =>
    simp only [pathSegmentDump, segmentWeight, kind, asnOrder, if_true, List.length_cons, List.length_append,
      List.length_nil]
    omega

theorem length_pathDump {path : Path} (some : path ≠ []) (nonempty : ∀ seg ∈ path, seg.asns ≠ []) :
    (pathDump (Option.some path) true).length + 1 = (path.map segmentWeight).sum := by
  have words : (printOrder (Option.some path) true).map (fun seg => pathSegmentDump seg true) ≠ [] := by
    simpa [printOrder] using some
  rw [pathDump, length_spaced words, printOrder, if_pos rfl, Option.getD_some, List.map_map, List.map_reverse,
    List.sum_reverse]
  refine congrArg List.sum (List.map_congr_left fun seg member => ?_)
  exact length_pathSegmentDump (nonempty seg member)

/-- The characters of the text of a path with copies in front. -/
def grownLength (asn : Asn) (n : ℕ) (old : Path) : ℕ :=
  if old = [] then n * ((asnDigits asn).length + 1) - 1
  else (pathDump (some old) true).length + n * ((asnDigits asn).length + 1)

theorem asnsWeight_append (asns asns' : List Asn) :
    asnsWeight (asns ++ asns') = asnsWeight asns + asnsWeight asns' := by
  simp [asnsWeight]

theorem asnsWeight_replicate (n : ℕ) (asn : Asn) :
    asnsWeight (List.replicate n asn) = n * ((asnDigits asn).length + 1) := by
  simp [asnsWeight]

theorem Prepended.weight {asn : Asn} {n : ℕ} {old new : Path} (prepended : Prepended asn n old new) :
    (new.map segmentWeight).sum = (old.map segmentWeight).sum + n * ((asnDigits asn).length + 1) := by
  cases prepended with
  | nothing => simp
  | grown kind kind' asns =>
    simp [segmentWeight, kind, kind', asns, asnsWeight_append, asnsWeight_replicate, Nat.add_assoc]
  | fresh some set kind asns => simp [segmentWeight, kind, asns, asnsWeight_replicate]

theorem Prepended.nonempty {asn : Asn} {n : ℕ} {old new : Path} (prepended : Prepended asn n old new)
    (nonempty : ∀ seg ∈ old, seg.asns ≠ []) : ∀ seg ∈ new, seg.asns ≠ [] := by
  cases prepended with
  | nothing => exact nonempty
  | @grown _ front last last' kind kind' asns =>
    intro seg member
    cases List.mem_append.mp member with
    | inl earlier => exact nonempty seg (List.mem_append_left _ earlier)
    | inr here =>
      have before := nonempty last (by simp)
      rw [List.mem_singleton.mp here, asns]
      simp [before]
  | fresh some set kind asns =>
    intro seg member
    cases List.mem_append.mp member with
    | inl earlier => exact nonempty seg earlier
    | inr here =>
      rw [List.mem_singleton.mp here, asns]
      simp [Nat.pos_iff_ne_zero.mp some]

theorem Prepended.eq_nil {asn : Asn} {n : ℕ} {old new : Path} (prepended : Prepended asn n old new) :
    new = [] ↔ old = [] ∧ n = 0 := by
  cases prepended with
  | nothing => simp
  | grown => simp
  | fresh some => simp [Nat.pos_iff_ne_zero.mp some]

theorem Prepended.length_pathDump {asn : Asn} {n : ℕ} {old new : Path} (prepended : Prepended asn n old new)
    (nonempty : ∀ seg ∈ old, seg.asns ≠ []) :
    (pathDump (some new) true).length = grownLength asn n old := by
  have weight := prepended.weight
  by_cases empty : new = []
  · obtain ⟨rfl, rfl⟩ := prepended.eq_nil.mp empty
    rw [empty]
    simp [grownLength, pathDump, printOrder, spaced]
  · have text := Verified.length_pathDump empty (prepended.nonempty nonempty)
    rw [grownLength]
    split
    next none =>
      rw [none, List.map_nil, List.sum_nil] at weight
      omega
    next some =>
      have before := Verified.length_pathDump some nonempty
      omega

/-! ## Prepending to an attribute set -/

/-- Hashing and matching hit neither buffer. -/
def Evaluates (path : Option Path) : Prop :=
  pathHashText path ≠ none ∧ ∀ regexSearch, pathMatch regexSearch path ≠ none

/-- The buffer of the matching is the smaller one. -/
theorem evaluates_iff (path : Option Path) :
    Evaluates path ↔ (∀ seg ∈ path.getD [], seg.asns ≠ []) ∧ (pathDump path true).length < 1000 := by
  have matching : (∀ regexSearch, pathMatch regexSearch path ≠ none) ↔ pathMatchText path ≠ none := by
    simp [pathMatch]
  rw [Evaluates, matching, pathHashText, pathMatchText, textIn_ne_none (by decide), textIn_ne_none (by decide)]
  constructor
  · exact fun both => both.2
  · rintro ⟨nonempty, fits⟩
    exact ⟨⟨nonempty, by omega⟩, nonempty, fits⟩

section Prepend

variable {settings : HashSettings} {repo : Repository} {i : ℕ} {refs : AttrRefs}

/-- All copies are in front and the length has grown by as many, or the result is -1 and nothing has
changed; the path can be hashed and matched, before and after. -/
def ExactOrAtomic (settings : HashSettings) (repo : Repository) (refs : AttrRefs) (asn : Asn) (n : ℕ) : Prop :=
  Evaluates refs.path.value ∧
    ((∃ ref repo', attrPathPrepend settings repo refs.path asn n = .ok (0, ref, repo') ∧
        Prepended asn n (refs.path.value.getD []) (ref.value.getD []) ∧
        pathLength ref.value = pathLength refs.path.value + n ∧ Evaluates ref.value) ∨
      attrPathPrepend settings repo refs.path asn n = .ok (-1, refs.path, repo))

/-- The text of the path fits, also with the copies in front where the last SEQUENCE takes them; and the
new path is found for itself. -/
structure PrependFits (settings : HashSettings) (repo : Repository) (i : ℕ) (refs : AttrRefs) (asn : Asn)
    (amount : UInt8) : Prop where
  segments : ∀ seg ∈ refs.path.value.getD [], seg.asns ≠ []
  text : (pathDump refs.path.value true).length < 1000
  grown : lastRun (refs.path.value.getD []) + amount.toNat ≤ maxPathSequenceLength →
    grownLength asn amount.toNat (refs.path.value.getD []) < 1000
  unmixed : Unmixed settings repo (.pathPrepend i asn amount)
  null : refs.path.value.getD [] = [] → amount.toNat = 0 → none ∉ stored repo.paths

theorem pathLength_getD (path : Option Path) : pathLength (some (path.getD [])) = pathLength path := by
  cases path <;> rfl

theorem attrPathPrepend_some (settings : HashSettings) (repo : Repository) {asn : Asn} {n : ℕ} {new : Path}
    (appended : pathAppendTimes asn n (refs.path.value.getD []) = some new) :
    attrPathPrepend settings repo refs.path asn n =
      (attrSetPath settings repo refs.path (some new)).map fun (ref, repo) => (0, ref, repo) := by
  simp only [attrPathPrepend, appended, bind, Except.bind]
  cases attrSetPath settings repo refs.path (some new) with
  | error fault => rfl
  | ok result => rfl

theorem unmixed_prepend (here : repo.attrAt i = some refs) {asn : Asn} {amount : UInt8} {new : Path}
    (appended : pathAppendTimes asn amount.toNat (refs.path.value.getD []) = some new) :
    Unmixed settings repo (.pathPrepend i asn amount) ↔
      ∀ j other obj, j ≠ i → repo.attrAt j = some other → other.path = some obj →
        pathsAlike settings (some obj.value) (some new) = true → obj.value = new := by
  constructor
  · intro unmixed
    exact unmixed i refs new rfl here appended
  · intro unmixed j refs' new' place here' appended'
    cases place
    cases here.symm.trans here'
    cases appended.symm.trans appended'
    exact unmixed

theorem attrSetPath_ne_none {old ref : Ref Path} {path : Path} {repo' : Repository}
    (result : attrSetPath settings repo old (some path) = .ok (ref, repo')) : ref ≠ none := by
  obtain ⟨repo1, _, result⟩ := except_bind_eq_ok.mp result
  obtain ⟨⟨ref', repo2⟩, _, result⟩ := except_bind_eq_ok.mp result
  simp only at result
  split at result
  next => cases result
  next some =>
    cases result
    exact some

/-- With room in the last SEQUENCE. -/
theorem exactOrAtomic_room (inv : RepoInv settings repo) (here : repo.attrAt i = some refs) {asn : Asn}
    {amount : UInt8} {new : Path}
    (room : lastRun (refs.path.value.getD []) + amount.toNat ≤ maxPathSequenceLength)
    (prepended : Prepended asn amount.toNat (refs.path.value.getD []) new) :
    ExactOrAtomic settings repo refs asn amount.toNat ↔ PrependFits settings repo i refs asn amount := by
  have step := attrPathPrepend_some settings repo prepended.appended
  rw [ExactOrAtomic, evaluates_iff]
  constructor
  -- With room in the segment the prepending never fails: the second case is void.
  · rintro ⟨⟨segments, text⟩, ⟨ref, repo', result, prepended', _, after⟩ | unchanged⟩
    · rw [step] at result
      obtain ⟨⟨ref1, repo1⟩, set, same⟩ := except_map_eq_ok.mp result
      cases same
      have value : ref.value = some new := by
        obtain ⟨obj, held⟩ := Option.ne_none_iff_exists'.mp (attrSetPath_ne_none set)
        have found := Option.some.inj (prepended.appended.symm.trans prepended'.appended)
        rw [held] at found ⊢
        exact congrArg some found.symm
      rw [value, evaluates_iff, prepended.length_pathDump segments] at after
      refine ⟨segments, text, fun _ => after.2, ?_, fun empty zero null => ?_⟩
      · rw [unmixed_prepend here prepended.appended]
        exact (attrSetPath_value inv here set).2.mp value
      · rw [prepended.eq_nil.mpr ⟨empty, zero⟩, attrSetPath_null inv here null] at set
        cases set
    · rw [step] at unchanged
      obtain ⟨_, _, same⟩ := except_map_eq_ok.mp unchanged
      cases same
  · intro fits
    have after : Evaluates (some new) := by
      rw [evaluates_iff, prepended.length_pathDump fits.segments]
      exact ⟨prepended.nonempty fits.segments, fits.grown room⟩
    refine ⟨⟨fits.segments, fits.text⟩, .inl ?_⟩
    -- What can still stop it is the hash of the new path, which the buffer has to hold.
    cases set : attrSetPath settings repo refs.path (some new) with
    | error fault =>
      have apart : new = [] → none ∉ stored repo.paths := by
        intro empty
        obtain ⟨empty, zero⟩ := prepended.eq_nil.mp empty
        exact fits.null empty zero
      exact absurd (pathHashCompute_fault (attrSetPath_fault inv here apart set)).2.1 after.1
    | ok result =>
      obtain ⟨ref, repo'⟩ := result
      have value : ref.value = some new :=
        (attrSetPath_value inv here set).2.mpr ((unmixed_prepend here prepended.appended).mp fits.unmixed)
      refine ⟨ref, repo', ?_, ?_, ?_, ?_⟩
      · rw [step, set]
        rfl
      · rwa [value]
      · rw [value, prepended.pathLength, pathLength_getD]
      · rwa [value]

theorem exactOrAtomic_iff (inv : RepoInv settings repo) (here : repo.attrAt i = some refs) (asn : Asn)
    (amount : UInt8) :
    ExactOrAtomic settings repo refs asn amount.toNat ↔ PrependFits settings repo i refs asn amount := by
  rcases pathAppendTimes_spec asn amount.toNat (refs.path.value.getD []) with
    ⟨room, new, _, prepended⟩ | ⟨full, refused⟩
  · exact exactOrAtomic_room inv here room prepended
  · have step : attrPathPrepend settings repo refs.path asn amount.toNat = .ok (-1, refs.path, repo) := by
      simp only [attrPathPrepend, refused]
    rw [ExactOrAtomic, evaluates_iff]
    constructor
    · rintro ⟨⟨segments, text⟩, _⟩
      refine ⟨segments, text, fun room => absurd room (Nat.not_le.mpr full), ?_, fun _ zero => ?_⟩
      · -- nothing is interned
        intro j refs' new place here' appended
        cases place
        cases here.symm.trans here'
        cases refused.symm.trans appended
      · have short := lastRun_le (refs.path.value.getD [])
        omega
    · intro fits
      exact ⟨⟨fits.segments, fits.text⟩, .inr step⟩

/-! ## Runs -/

/-- An operation keeps the text of every path within the buffers. -/
def FitsOp (settings : HashSettings) (repo : Repository) (op : AttrOp) : Prop :=
  ∀ i refs, op.place = some i → repo.attrAt i = some refs →
    match op with
    | .pathPrepend _ asn amount => PrependFits settings repo i refs asn amount
    | op => ∀ path, AttrOp.interns op refs.path.value = some path →
        Evaluates (some path) ∧ Unmixed settings repo op

theorem FitsOp.interns {op : AttrOp} (fits : FitsOp settings repo op) (place : op.place = some i)
    (here : repo.attrAt i = some refs) {path : Path} (interns : AttrOp.interns op refs.path.value = some path) :
    Evaluates (some path) ∧ Unmixed settings repo op := by
  have fits := fits i refs place here
  cases op with
  | pathPrepend j asn amount =>
    cases place
    rcases pathAppendTimes_spec asn amount.toNat (refs.path.value.getD []) with
      ⟨room, new, appended, prepended⟩ | ⟨_, refused⟩
    · cases appended.symm.trans interns
      refine ⟨?_, fits.unmixed⟩
      rw [evaluates_iff, prepended.length_pathDump fits.segments]
      exact ⟨prepended.nonempty fits.segments, fits.grown room⟩
    · cases refused.symm.trans interns
  | _ => exact fits path interns

theorem FitsOp.unmixed {op : AttrOp} (fits : FitsOp settings repo op) : Unmixed settings repo op := by
  intro i refs path place here interns
  exact (fits.interns place here interns).2 i refs path place here interns

/-- The paths after an operation: those before, none, and the one interned. -/
theorem mem_plainOp {values : List (Option (Option Path))} {old : Option Path} (held : some old ∈ values)
    {op : AttrOp} {path : Path} (member : some (some path) ∈ plainOp values i old op) :
    some (some path) ∈ values ∨ AttrOp.interns op old = some path := by
  have setting : ∀ {path' : Option Path}, some (some path) ∈ values.set i (some path') →
      some (some path) ∈ values ∨ path' = some path := by
    intro path' member
    cases List.mem_or_eq_of_mem_set member with
    | inl before => exact .inl before
    | inr new => exact .inr (Option.some.inj new).symm
  cases op with
  | copy j =>
    cases List.mem_append.mp member with
    | inl before => exact .inl before
    | inr new =>
      rw [List.mem_singleton.mp new]
      exact .inl held
  | setPath j path' => exact setting member
  | pathPrepend j asn amount =>
    cases appended : pathAppendTimes asn amount.toNat (old.getD []) with
    | none =>
      simp only [plainOp, appended] at member
      exact .inl member
    | some new =>
      simp only [plainOp, appended] at member
      cases setting member with
      | inl before => exact .inl before
      | inr same => exact .inr (appended.trans same)
  | pathRemPrivate j => exact setting member
  | destroy j =>
    cases List.mem_or_eq_of_mem_set member with
    | inl before => exact .inl before
    | inr new => cases new
  | _ => exact .inl member

theorem evaluates_none : Evaluates none := by
  rw [evaluates_iff]
  decide

/-- All paths fit. -/
def AllEvaluate (settings : HashSettings) (repo : Repository) : Prop :=
  RepoInv settings repo ∧ ∀ path, some (some path) ∈ storedPaths repo → Evaluates (some path)

theorem attrStep_evaluates {op : AttrOp} {repo' : Repository} (all : AllEvaluate settings repo)
    (fits : FitsOp settings repo op) (result : attrStep settings repo op = .ok repo') :
    AllEvaluate settings repo' := by
  refine ⟨attrStep_inv all.1 result, fun path member => ?_⟩
  rw [(attrStep_storedPaths all.1 op result).mpr fits.unmixed, plainStep] at member
  cases place : op.place with
  | none =>
    simp only [place] at member
    cases List.mem_append.mp member with
    | inl before => exact all.2 path before
    | inr new => cases List.mem_singleton.mp new
  | some i =>
    cases here : repo.attrAt i with
    | none =>
      simp only [place, storedPaths_absent here] at member
      exact all.2 path member
    | some refs =>
      simp only [place, storedPaths_at here, Option.join_some] at member
      cases mem_plainOp (List.mem_of_getElem? (storedPaths_at here)) member with
      | inl before => exact all.2 path before
      | inr interns => exact (fits.interns place here interns).1

/-- Prepending is exact or changes nothing exactly when the text fits, in every state that operations
reach; and in every run whose operations keep to the buffers, every path fits. -/
theorem prepend_iff (settings : HashSettings) :
    (∀ repo, Reach (attrStep settings) (fun _ _ => True) .empty repo →
      ∀ i refs asn amount, repo.attrAt i = some refs →
        (ExactOrAtomic settings repo refs asn amount.toNat ↔ PrependFits settings repo i refs asn amount)) ∧
    (∀ repo, Reach (attrStep settings) (FitsOp settings) .empty repo →
      ∀ i refs, repo.attrAt i = some refs → Evaluates refs.path.value) := by
  constructor
  · intro repo reached i refs asn amount here
    have inv : RepoInv settings repo :=
      reached.invariant .empty fun holds _ stepped => attrStep_inv holds stepped
    exact exactOrAtomic_iff inv here asn amount
  · intro repo reached i refs here
    have all : AllEvaluate settings repo :=
      reached.invariant ⟨.empty, fun _ member => nomatch member⟩ attrStep_evaluates
    cases held : refs.path with
    | none => exact evaluates_none
    | some obj =>
      refine all.2 obj.value ?_
      have member := List.mem_of_getElem? (storedPaths_at here)
      rwa [held] at member

end Prepend

theorem oneTwo_short : ([1, 2] : List Asn).length ≤ maxPathSequenceLength := by decide

/-- The path 1 2. -/
def oneTwo : Path := [⟨.sequence, [1, 2], oneTwo_short⟩]

/-- The repository after an attribute set is created and gets the path 1 2. -/
def oneTwoStored : Repository := ⟨[⟨some ⟨0, oneTwo⟩, 1⟩], [], 1, [some ⟨some ⟨0, oneTwo⟩, none⟩]⟩

theorem setOneTwo_fits :
    FitsOp zebraHashes ⟨[], [], 0, [some ⟨none, none⟩]⟩ (.setPath 0 (some oneTwo)) := by
  rintro i refs ⟨⟩ ⟨⟩ path ⟨⟩
  refine ⟨(evaluates_iff _).mpr (by decide), ?_⟩
  rintro i refs path ⟨⟩ - - j other obj away content
  cases j with
  | zero => exact absurd rfl away
  | succ j => cases content

/-- The ASN 100 is put twice in front of a path. -/
theorem prepend_iff_oneTwo :
    (ExactOrAtomic zebraHashes oneTwoStored ⟨some ⟨0, oneTwo⟩, none⟩ 100 2 ↔
      PrependFits zebraHashes oneTwoStored 0 ⟨some ⟨0, oneTwo⟩, none⟩ 100 2) ∧
    Evaluates (some oneTwo) := by
  have reached {guard : Repository → AttrOp → Prop} (first : guard .empty .create)
      (second : guard ⟨[], [], 0, [some ⟨none, none⟩]⟩ (.setPath 0 (some oneTwo))) :
      Reach (attrStep zebraHashes) guard .empty oneTwoStored :=
    .next (i := .setPath 0 (some oneTwo)) (.next (i := .create) .start first rfl) second rfl
  have created : FitsOp zebraHashes .empty .create := fun i refs place => nomatch place
  exact ⟨(prepend_iff zebraHashes).1 _ (reached trivial trivial) 0 _ 100 2 rfl,
    (prepend_iff zebraHashes).2 _ (reached created setOneTwo_fits) 0 ⟨some ⟨0, oneTwo⟩, none⟩ rfl⟩

/-- The text of two hundred copies of an ASN of five digits. -/
theorem prepend_asserted :
    ¬ ∀ repo refs asn (amount : UInt8), Reach (attrStep defaultHashes) (fun _ _ => True) .empty repo →
      repo.attrAt 0 = some refs → ExactOrAtomic defaultHashes repo refs asn amount.toNat := by
  intro always
  have created : Reach (attrStep defaultHashes) (fun _ _ => True) .empty ⟨[], [], 0, [some ⟨none, none⟩]⟩ :=
    .next (i := .create) .start trivial rfl
  have inv : RepoInv defaultHashes ⟨[], [], 0, [some ⟨none, none⟩]⟩ :=
    created.invariant .empty fun holds _ stepped => attrStep_inv holds stepped
  have exact' := always _ ⟨none, none⟩ 10000 200 created rfl
  have here : Repository.attrAt ⟨[], [], 0, [some ⟨none, none⟩]⟩ 0 = some ⟨none, none⟩ := rfl
  have short := ((exactOrAtomic_iff inv here 10000 200).mp exact').grown (by decide)
  revert short
  decide

end Cbgp.Verified
