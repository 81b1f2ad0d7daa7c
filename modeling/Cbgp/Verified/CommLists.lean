import Mathlib.Data.List.Induction
import Cbgp.Verified.AttrBlocks
import Cbgp.Verified.AttrRepository
import Cbgp.Verified.CommText

/-! # Communities as sets

A route's Communities under appending and removing.  While the list does not get too long they are the
set of the values that were appended and not removed since; both the block and the buffer in which the
list is printed for the hash bound its length, and at either bound the program stops instead of reporting
a failure (`comm_lists_iff`).
-/

namespace Cbgp.Verified

open Cbgp.Lib Cbgp.Bgp

/-! ## What the operations do to the list -/

/-- `route_comm_append` and `route_comm_remove`. -/
inductive CommChange where
  | append (comm : Comm)
  | remove (comm : Comm)

/-- The change of the attribute set in a place. -/
def CommChange.op (i : ℕ) : CommChange → AttrOp
  | .append comm => .commAppend i comm
  | .remove comm => .commRemove i comm

/-- One change, with the result of `route_comm_append`: where `comms_add` returns, it returns 0
(`bgpAttrCommAppend_value`). -/
def commChange (settings : HashSettings) (i : ℕ) (repo : Repository) (change : CommChange) :
    Except AttrFault (ℤ × Repository) :=
  (attrStep settings repo (change.op i)).map fun repo => (0, repo)

/-- The Communities of the attribute set in a place. -/
def commsAt (repo : Repository) (i : ℕ) : Option (List Comm) :=
  (repo.attrAt i).bind fun refs => refs.comms.value

/-- The value was appended, and not removed since. -/
def Present (comm : Comm) (changes : List CommChange) : Prop :=
  ∃ before after, changes = before ++ .append comm :: after ∧ .remove comm ∉ after

/-- What a change should do: an addition puts the value behind the others, or reports a failure and
changes nothing when there are 255 values; a removal deletes every occurrence. -/
def CommEffect (old new : List Comm) (result : ℤ) : CommChange → Prop
  | .append comm =>
    if old.length < 255 then result = 0 ∧ new = old ++ [comm] else result ≠ 0 ∧ new = old
  | .remove comm => new = old.filter (· ≠ comm)

/-- After some changes the list is the set of the values present, and it can be hashed. -/
structure CommSet (settings : HashSettings) (repo : Repository) (i : ℕ) (done : List CommChange) : Prop where
  contains_iff : ∀ comm, commsContains (commsAt repo i) comm = true ↔ Present comm done
  hashed : ∀ comms, commsAt repo i = some comms → ∃ key, commHashCompute settings (some comms) = .ok key

/-- Each of the changes ends and does what it should, and the list is a set before and after. -/
def ActsAsSet (settings : HashSettings) (i : ℕ) : Repository → List CommChange → List CommChange → Prop
  | repo, done, [] => CommSet settings repo i done
  | repo, done, change :: changes =>
    CommSet settings repo i done ∧
      ∃ result repo', commChange settings i repo change = .ok (result, repo') ∧
        CommEffect ((commsAt repo i).getD []) ((commsAt repo' i).getD []) result change ∧
        ActsAsSet settings i repo' (done ++ [change]) changes

/-- The list with a value behind it can be stored: it fits its count, and its text the buffer of the
hash. -/
def CommFits (settings : HashSettings) (comms : List Comm) (comm : Comm) : Prop :=
  comms.length < 255 ∧ (settings.commMethod = .string → (commsText (comms ++ [comm])).length < 1024)

/-- Every addition to the list fits. -/
def CommsFit (settings : HashSettings) : List Comm → List CommChange → Prop
  | _, [] => True
  | comms, .append comm :: changes =>
    CommFits settings comms comm ∧ CommsFit settings (comms ++ [comm]) changes
  | comms, .remove comm :: changes => CommsFit settings (comms.filter (· ≠ comm)) changes

/-! ## Which values are present -/

theorem present_nil (comm : Comm) : ¬Present comm [] := by
  rintro ⟨before, after, split, _⟩
  simp at split

theorem present_append (comm comm' : Comm) (changes : List CommChange) :
    Present comm (changes ++ [.append comm']) ↔ comm = comm' ∨ Present comm changes := by
  constructor
  · rintro ⟨before, after, split, kept⟩
    cases after using List.reverseRecOn with
    | nil =>
      have last := (List.append_inj' split rfl).2
      simp only [List.cons.injEq, CommChange.append.injEq, and_true] at last
      exact .inl last.symm
    | append_singleton after change =>
      rw [← List.cons_append, ← List.append_assoc] at split
      have rest := (List.append_inj' split rfl).1
      exact .inr ⟨before, after, rest, fun member => kept (List.mem_append_left _ member)⟩
  · rintro (rfl | ⟨before, after, rfl, kept⟩)
    · exact ⟨changes, [], rfl, List.not_mem_nil⟩
    · refine ⟨before, after ++ [.append comm'], by simp, fun member => ?_⟩
      cases List.mem_append.mp member with
      | inl old => exact kept old
      | inr new => simp at new

theorem present_remove (comm comm' : Comm) (changes : List CommChange) :
    Present comm (changes ++ [.remove comm']) ↔ comm ≠ comm' ∧ Present comm changes := by
  constructor
  · rintro ⟨before, after, split, kept⟩
    cases after using List.reverseRecOn with
    | nil =>
      have last := (List.append_inj' split rfl).2
      simp at last
    | append_singleton after change =>
      rw [← List.cons_append, ← List.append_assoc] at split
      obtain ⟨rest, last⟩ := List.append_inj' split rfl
      rw [List.singleton_inj] at last
      refine ⟨fun same => kept ?_, before, after, rest, fun member => kept (List.mem_append_left _ member)⟩
      rw [same, last]
      exact List.mem_append_right _ List.mem_cons_self
  · rintro ⟨differ, before, after, rfl, kept⟩
    refine ⟨before, after ++ [.remove comm'], by simp, fun member => ?_⟩
    cases List.mem_append.mp member with
    | inl old => exact kept old
    | inr new =>
      simp only [List.mem_singleton, CommChange.remove.injEq] at new
      exact differ new

/-! ## Hashing a list -/

theorem commHashCompute_some {settings : HashSettings} (comms : List Comm) :
    (∃ key, commHashCompute settings (some comms) = .ok key) ↔
      (settings.commMethod = .string → (commsText comms).length < 1024) := by
  cases method : settings.commMethod with
  | zebra => simp [commHashCompute, method]
  | string =>
    have text := commTextIn_eq (by decide : 0 < 1024) (some comms)
    rw [Option.getD_some] at text
    by_cases fits : (commsText comms).length < 1024
    · rw [if_pos fits] at text
      simp [commHashCompute, method, text, fits]
    · rw [if_neg fits] at text
      simp [commHashCompute, method, text, fits]

/-- A part of a list that can be hashed can be hashed. -/
theorem commHashCompute_sublist {settings : HashSettings} {comms comms' : List Comm}
    (part : comms.Sublist comms') (hashed : ∃ key, commHashCompute settings (some comms') = .ok key) :
    ∃ key, commHashCompute settings (some comms) = .ok key := by
  rw [commHashCompute_some] at hashed ⊢
  exact fun method => Nat.lt_of_le_of_lt (length_commsText_sublist part) (hashed method)

/-! ## One change -/

theorem commsRemove_getD (comms : List Comm) (comm : Comm) :
    (commsRemove comms comm).getD [] = comms.filter (· ≠ comm) := by
  simp only [commsRemove]
  split
  next all => exact (List.filter_eq_self.mpr (List.length_filter_eq_length_iff.mp all)).symm
  next =>
    split
    next empty => exact (List.isEmpty_iff.mp empty).symm
    next => rfl

section Change

variable {settings : HashSettings} {repo : Repository} {i : ℕ} {refs : AttrRefs}

/-- The list that is set is found again, whatever it is shared with. -/
theorem attrSetComm_value (inv : RepoInv settings repo) (here : repo.attrAt i = some refs) {comms : List Comm}
    (some : comms ≠ []) (hashed : ∃ key, commHashCompute settings (Option.some comms) = .ok key) :
    ∃ ref repo', attrSetComm settings repo refs.comms (Option.some comms) = .ok (ref, repo') ∧
      repo'.attrs = repo.attrs ∧ ref.value = Option.some comms := by
  obtain ⟨key, hashed⟩ := hashed
  obtain ⟨items, _, set⟩ := attrSetComm_some inv here some
  rw [hashed] at set
  refine ⟨_, _, set, rfl, ?_⟩
  have alike : commsAlike settings (Ref.value (addRef (commsAlike settings) (Option.some ⟨repo.fresh, comms⟩) items).1)
      (Option.some comms) = true :=
    addRef_alike (Option.some ⟨repo.fresh, comms⟩) (commsAlike_self settings (Option.some comms)) items
  have same := ((commsAlike_iff settings _ _).mp alike).2
  rw [Option.getD_some] at same
  cases value : Ref.value (addRef (commsAlike settings) (Option.some ⟨repo.fresh, comms⟩) items).1 with
  | none =>
    rw [value] at same
    exact absurd same.symm some
  | some comms' =>
    rw [value] at same
    exact congrArg Option.some same

theorem commsAt_put (here : repo.attrAt i = some refs) {repo' : Repository} (attrs : repo'.attrs = repo.attrs)
    (comms : Ref (List Comm)) : ∃ refs', (putComms repo' i refs comms).attrAt i = some refs' ∧
      refs'.comms = comms := by
  obtain ⟨inside, _⟩ := List.getElem?_eq_some_iff.mp (attrAt_eq_some.mp here)
  refine ⟨{ refs with comms := comms }, attrAt_eq_some.mpr ?_, rfl⟩
  simp only [putComms, Repository.put, attrs]
  exact List.getElem?_set_self inside

/-- An addition that fits. -/
theorem commChange_append (inv : RepoInv settings repo) (here : repo.attrAt i = some refs) {comm : Comm}
    (fits : CommFits settings ((commsAt repo i).getD []) comm) :
    ∃ repo' refs', commChange settings i repo (.append comm) = .ok (0, repo') ∧ RepoInv settings repo' ∧
      repo'.attrAt i = some refs' ∧ commsAt repo' i = some ((commsAt repo i).getD [] ++ [comm]) := by
  have held : commsAt repo i = refs.comms.value := by rw [commsAt, here, Option.bind_some]
  obtain ⟨room, text⟩ := fits
  have added : commsAdd (refs.comms.value.getD []) comm = .ok ((commsAt repo i).getD [] ++ [comm]) := by
    rw [← held]
    exact if_pos room
  obtain ⟨ref, repo₁, set, attrs, value⟩ :=
    attrSetComm_value inv here (by simp) (commHashCompute_some _ |>.mpr text)
  have stepped : attrStep settings repo (.commAppend i comm) = .ok (putComms repo₁ i refs ref) := by
    rw [attrStep_place rfl here, attrOp, attrCommAppend, added]
    simp only [set]
    rfl
  obtain ⟨refs', here', pointer⟩ := commsAt_put here attrs ref
  refine ⟨_, refs', ?_, attrStep_inv inv stepped, here', ?_⟩
  · rw [commChange, CommChange.op, stepped]
    rfl
  · rw [commsAt, here', Option.bind_some, pointer, value]

/-- An addition that does not fit stops the program. -/
theorem commChange_overflow (inv : RepoInv settings repo) (here : repo.attrAt i = some refs) {comm : Comm}
    (overflow : ¬CommFits settings ((commsAt repo i).getD []) comm) :
    ∃ fault, commChange settings i repo (.append comm) = .error fault := by
  have held : commsAt repo i = refs.comms.value := by rw [commsAt, here, Option.bind_some]
  by_cases room : ((commsAt repo i).getD []).length < 255
  · have added : commsAdd (refs.comms.value.getD []) comm = .ok ((commsAt repo i).getD [] ++ [comm]) := by
      rw [← held]
      exact if_pos room
    obtain ⟨items, _, set⟩ := attrSetComm_some inv here
      (by simp : (commsAt repo i).getD [] ++ [comm] ≠ [])
    cases hashed : commHashCompute settings (some ((commsAt repo i).getD [] ++ [comm])) with
    | ok key => exact absurd ⟨room, (commHashCompute_some _).mp ⟨key, hashed⟩⟩ overflow
    | error fault =>
      refine ⟨fault, ?_⟩
      rw [commChange, CommChange.op, attrStep_place rfl here, attrOp, attrCommAppend, added]
      simp only [set, hashed, Except.map]
  · have full : commsAdd (refs.comms.value.getD []) comm = .error .commsFull := by
      rw [← held]
      exact if_neg room
    refine ⟨.commsFull, ?_⟩
    rw [commChange, CommChange.op, attrStep_place rfl here, attrOp, attrCommAppend, full]
    rfl

/-- A removal. -/
theorem commChange_remove (inv : RepoInv settings repo) (here : repo.attrAt i = some refs) (comm : Comm) :
    ∃ repo' refs', commChange settings i repo (.remove comm) = .ok (0, repo') ∧ RepoInv settings repo' ∧
      repo'.attrAt i = some refs' ∧
      (commsAt repo' i).getD [] = ((commsAt repo i).getD []).filter (· ≠ comm) := by
  have held : commsAt repo i = refs.comms.value := by rw [commsAt, here, Option.bind_some]
  -- However the list is stored again, the operation puts the new reference in the same attributes.
  have finish {ref : Ref (List Comm)} {repo₁ : Repository} (attrs : repo₁.attrs = repo.attrs)
      (removed : attrCommRemove settings repo refs.comms comm = .ok (ref, repo₁))
      (value : ref.value.getD [] = ((commsAt repo i).getD []).filter (· ≠ comm)) :
      ∃ repo' refs', commChange settings i repo (.remove comm) = .ok (0, repo') ∧ RepoInv settings repo' ∧
        repo'.attrAt i = some refs' ∧
        (commsAt repo' i).getD [] = ((commsAt repo i).getD []).filter (· ≠ comm) := by
    have stepped : attrStep settings repo (.commRemove i comm) = .ok (putComms repo₁ i refs ref) := by
      rw [attrStep_place rfl here, attrOp, removed]
      rfl
    obtain ⟨refs', here', pointer⟩ := commsAt_put here attrs ref
    refine ⟨_, refs', ?_, attrStep_inv inv stepped, here', ?_⟩
    · rw [commChange, CommChange.op, stepped]
      rfl
    · rw [commsAt, here', Option.bind_some, pointer, value]
  cases pointer : refs.comms with
  | none =>
    have nothing : commsAt repo i = none := by rw [held, pointer, Ref.value_none]
    have removed : attrCommRemove settings repo refs.comms comm = .ok (none, repo) := by
      rw [attrCommRemove, pointer]
      rfl
    refine finish rfl removed ?_
    rw [nothing]
    rfl
  | some obj =>
    have content : commsAt repo i = some obj.value := by rw [held, pointer, Ref.value_some]
    have hashed := inv.comms.hashed _ (inv.comms_stored here pointer)
    have nonempty := inv.someComms obj (inv.comms_stored here pointer)
    have values := commsRemove_getD obj.value comm
    rw [content, Option.getD_some, ← values]
    rw [content, Option.getD_some, ← values] at finish
    have removed : attrCommRemove settings repo refs.comms comm =
        attrSetComm settings repo refs.comms (commsRemove obj.value comm) := by
      rw [attrCommRemove, pointer]
      rfl
    -- The last community gone, the list itself is dropped.
    cases kept : commsRemove obj.value comm with
    | none =>
      obtain ⟨items, _, set⟩ := attrSetComm_none inv here
      rw [kept, set] at removed
      rw [kept] at finish
      exact @finish none { repo with comms := items } rfl removed rfl
    | some comms =>
      have left : comms ≠ [] := fun empty => commsRemove_ne_nil nonempty comm (kept.trans (congrArg some empty))
      have part : comms.Sublist obj.value := by
        rw [kept, Option.getD_some] at values
        rw [values]
        exact List.filter_sublist
      obtain ⟨ref, repo₁, set, attrs, value⟩ :=
        attrSetComm_value inv here left (commHashCompute_sublist part hashed)
      rw [kept, set] at removed
      rw [kept] at finish
      exact finish attrs removed (congrArg (Option.getD · []) value)

end Change

/-! ## Sequences of changes -/

section Runs

variable {settings : HashSettings} {i : ℕ}

theorem commSet_of (repo : Repository) {refs : AttrRefs} (inv : RepoInv settings repo)
    (here : repo.attrAt i = some refs) {done : List CommChange}
    (present : ∀ comm, comm ∈ (commsAt repo i).getD [] ↔ Present comm done) : CommSet settings repo i done where
  contains_iff comm := by
    rw [commsContains, List.contains_iff_mem, present]
  hashed comms content := by
    rw [commsAt, here, Option.bind_some] at content
    cases pointer : refs.comms with
    | none =>
      rw [pointer] at content
      cases content
    | some obj =>
      rw [pointer, Ref.value_some, Option.some.injEq] at content
      exact content ▸ inv.comms.hashed _ (inv.comms_stored here pointer)

theorem actsAsSet_iff {repo : Repository} {refs : AttrRefs} (inv : RepoInv settings repo)
    (here : repo.attrAt i = some refs) {done : List CommChange}
    (present : ∀ comm, comm ∈ (commsAt repo i).getD [] ↔ Present comm done) (changes : List CommChange) :
    ActsAsSet settings i repo done changes ↔ CommsFit settings ((commsAt repo i).getD []) changes := by
  induction changes generalizing repo refs done with
  | nil => exact iff_of_true (commSet_of repo inv here present) trivial
  | cons change changes inductionHypothesis =>
    have before := commSet_of repo inv here present
    cases change with
    -- A removal always succeeds; an addition succeeds when its list fits into the block hashed.
    | remove comm =>
      obtain ⟨repo', refs', changed, inv', here', values⟩ := commChange_remove inv here comm
      have present' (comm' : Comm) : comm' ∈ (commsAt repo' i).getD [] ↔ Present comm' (done ++ [.remove comm]) := by
        rw [values, List.mem_filter, present, present_remove, decide_eq_true_eq, and_comm]
      have rest := inductionHypothesis inv' here' present'
      rw [values] at rest
      simp only [ActsAsSet, CommsFit, ← rest]
      constructor
      · rintro ⟨_, result, after, changed', _, later⟩
        rw [changed] at changed'
        cases changed'
        exact later
      · exact fun later => ⟨before, 0, repo', changed, values, later⟩
    | append comm =>
      simp only [ActsAsSet, CommsFit]
      by_cases fits : CommFits settings ((commsAt repo i).getD []) comm
      · obtain ⟨repo', refs', changed, inv', here', value⟩ := commChange_append inv here fits
        have values : (commsAt repo' i).getD [] = (commsAt repo i).getD [] ++ [comm] :=
          congrArg (Option.getD · []) value
        have present' (comm' : Comm) :
            comm' ∈ (commsAt repo' i).getD [] ↔ Present comm' (done ++ [.append comm]) := by
          rw [values, List.mem_append, present, present_append, List.mem_singleton, or_comm]
        have rest := inductionHypothesis inv' here' present'
        rw [values] at rest
        rw [← rest]
        constructor
        · rintro ⟨_, result, after, changed', _, later⟩
          rw [changed] at changed'
          cases changed'
          exact ⟨fits, later⟩
        · rintro ⟨_, later⟩
          refine ⟨before, 0, repo', changed, ?_, later⟩
          rw [CommEffect, if_pos fits.1]
          exact ⟨rfl, values⟩
      · obtain ⟨fault, stopped⟩ := commChange_overflow inv here fits
        constructor
        · rintro ⟨_, result, after, changed, _⟩
          rw [stopped] at changed
          cases changed
        · exact fun all => absurd all.1 fits

end Runs

/-- For every sequence of additions to the Communities of a new route and removals from them, whatever
other routes there are: they behave as a set that reports a failure when it is full exactly when no
addition is made to 255 values, or to values whose text with the new one takes more than 1023 characters. -/
theorem comm_lists_iff {settings : HashSettings} {repo : Repository} {i : ℕ} {refs : AttrRefs}
    (reached : Reach (attrStep settings) (fun _ _ => True) .empty repo) (here : repo.attrAt i = some refs)
    (fresh : refs.comms = none) (changes : List CommChange) :
    ActsAsSet settings i repo [] changes ↔ CommsFit settings [] changes := by
  have inv : RepoInv settings repo :=
    reached.invariant .empty fun holds _ stepped => attrStep_inv holds stepped
  have nothing : commsAt repo i = none := by rw [commsAt, here, Option.bind_some, fresh, Ref.value_none]
  have present (comm : Comm) : comm ∈ (commsAt repo i).getD [] ↔ Present comm [] := by
    rw [nothing]
    exact iff_of_false List.not_mem_nil (present_nil comm)
  have all := actsAsSet_iff inv here present changes
  rwa [nothing] at all

/-- One route. -/
def oneRoute : Repository := ⟨[], [], 0, [some ⟨none, none⟩]⟩

theorem oneRoute_reached (settings : HashSettings) :
    Reach (attrStep settings) (fun _ _ => True) .empty oneRoute :=
  .next (i := .create) .start trivial rfl

theorem comm_lists_iff_created :
    ActsAsSet defaultHashes 0 oneRoute [] [.append 1, .append 1, .remove 1] ↔
      CommsFit defaultHashes [] [.append 1, .append 1, .remove 1] :=
  comm_lists_iff (oneRoute_reached _) rfl rfl _

theorem commsFit_appends {settings : HashSettings} {comms done : List Comm} {comm : Comm}
    (fit : CommsFit settings comms (done.map .append ++ [.append comm])) :
    CommFits settings (comms ++ done) comm := by
  induction done generalizing comms with
  | nil =>
    rw [List.append_nil]
    exact fit.1
  | cons first done inductionHypothesis =>
    have later := inductionHypothesis fit.2
    rwa [List.append_assoc] at later

/-- The text of 94 values of ten digits has 1033 characters. -/
theorem comms_too_long :
    ¬ActsAsSet defaultHashes 0 oneRoute [] ((List.replicate 93 4294967295).map .append ++ [.append 4294967295]) := by
  intro acts
  have nothing (comm : Comm) : comm ∈ (commsAt oneRoute 0).getD [] ↔ Present comm [] :=
    iff_of_false List.not_mem_nil (present_nil comm)
  have inv : RepoInv defaultHashes oneRoute :=
    (oneRoute_reached defaultHashes).invariant .empty fun holds _ stepped => attrStep_inv holds stepped
  have fits := commsFit_appends ((actsAsSet_iff inv rfl nothing _).mp acts)
  have short := fits.2 rfl
  have digits : (commDigits 4294967295).length = 10 := by decide
  have length := length_spaced (by simp : (List.replicate 94 4294967295).map commDigits ≠ [])
  simp only [List.map_replicate, List.sum_replicate, digits] at length
  have text : commsText (List.replicate 94 4294967295) = spaced (List.replicate 94 (commDigits 4294967295)) := by
    rw [commsText, List.map_replicate]
  change (commsText (List.replicate 94 4294967295)).length < 1024 at short
  rw [text] at short
  simp only [Nat.nsmul_eq_mul] at length
  omega

end Cbgp.Verified
