import Cbgp.Net.RtEntries

/-! # The order of the entries of a route

`rt_entry_compare` orders the entries that have an interface.  An entry without interface differs from itself:
the array never finds it (`not_equated_of_none`), and adds it again and again.
-/

namespace Cbgp.Verified

open Cbgp.Lib Cbgp.Net

/-! ## The comparison -/

theorem rtEntryCompare_eq_iff {a b : RtEntry} : rtEntryCompare a b = .eq ↔ a = b ∧ a.oif ≠ none := by
  obtain ⟨oif, gateway⟩ := a
  obtain ⟨oif', gateway'⟩ := b
  cases oif <;> cases oif' <;> simp only [rtEntryCompare, RtEntry.mk.injEq] <;> grind

/-- Entries that have an interface are ordered by gateway and interface. -/
theorem rtEntryCompare_total : TotalOn rtEntryCompare {entry | entry.oif ≠ none} where
  refl a inside := rtEntryCompare_eq_iff.mpr ⟨rfl, inside⟩
  eq a _ b _ equal := (rtEntryCompare_eq_iff.mp equal).1
  swap a inside b inside' := by
    obtain ⟨oif, gateway⟩ := a
    obtain ⟨oif', gateway'⟩ := b
    obtain ⟨addr, rfl⟩ := Option.ne_none_iff_exists'.mp inside
    obtain ⟨addr', rfl⟩ := Option.ne_none_iff_exists'.mp inside'
    simp only [rtEntryCompare]
    grind [Ordering.swap]
  trans a inside b inside' c inside'' less less' := by
    obtain ⟨oif, gateway⟩ := a
    obtain ⟨oif', gateway'⟩ := b
    obtain ⟨oif'', gateway''⟩ := c
    obtain ⟨addr, rfl⟩ := Option.ne_none_iff_exists'.mp inside
    obtain ⟨addr', rfl⟩ := Option.ne_none_iff_exists'.mp inside'
    obtain ⟨addr'', rfl⟩ := Option.ne_none_iff_exists'.mp inside''
    simp only [rtEntryCompare] at less less' ⊢
    grind

/-- An entry without interface is equal to nothing. -/
theorem not_equated_of_none {a b : RtEntry} (unspecified : a.oif = none) : ¬ Equated rtEntryCompare a b := by
  rintro (equal | equal)
  · exact (rtEntryCompare_eq_iff.mp equal).2 unspecified
  · obtain ⟨rfl, some⟩ := rtEntryCompare_eq_iff.mp equal
    exact some unspecified

/-- The comparison orders a set of entries, those without interface first. -/
structure OrdersEntries (s : Set RtEntry) : Prop where
  total : TotalOn rtEntryCompare s
  first : ∀ a ∈ s, ∀ b ∈ s, a.gateway = b.gateway → a.oif = none → b.oif ≠ none → rtEntryCompare a b = .lt

theorem ordersEntries_iff (s : Set RtEntry) : OrdersEntries s ↔ ∀ entry ∈ s, entry.oif ≠ none := by
  constructor
  · intro ordered entry inside
    exact (rtEntryCompare_eq_iff.mp (ordered.total.refl entry inside)).2
  · intro some
    exact ⟨rtEntryCompare_total.subset some, fun a inside b _ _ unspecified _ => absurd unspecified (some a inside)⟩

/-! ## Runs -/

/-- `rt_entries_add` and `rt_entries_del`. -/
inductive EntryCall where
  | add (entry : RtEntry)
  | del (entry : RtEntry)

section Runs

variable (ops : ArrayOps RtEntry)

/-- One call. -/
def entryStep (entries : List RtEntry) : EntryCall → List RtEntry
  | .add entry => (rtEntriesAddIn ops entries entry).2
  | .del entry => (rtEntriesDel ops entries entry).2

/-- The entries after some calls. -/
def entryRun (calls : List EntryCall) : List RtEntry := calls.foldl (entryStep ops) []

/-- Entries as they should be: in order, no two equal, and each of them is found, and removed when asked for. -/
structure EntriesKept (entries : List RtEntry) : Prop where
  sorted : SortedBy rtEntryCompare entries
  nodup : entries.Nodup
  contains : ∀ entry ∈ entries, rtEntriesContains ops entries entry = true
  removes : ∀ entry ∈ entries, rtEntriesDel ops entries entry = (.success, entries.erase entry)

/-- Entries with interfaces, in order. -/
structure EntriesOrdered (entries : List RtEntry) : Prop where
  specified : ∀ entry ∈ entries, entry.oif ≠ none
  sorted : SortedBy rtEntryCompare entries

variable {ops}

theorem EntriesOrdered.total {entries : List RtEntry} (ordered : EntriesOrdered entries) :
    TotalOn rtEntryCompare {entry | entry ∈ entries} :=
  rtEntryCompare_total.subset ordered.specified

theorem EntriesOrdered.kept (correct : ops.Correct rtEntryCompare) {entries : List RtEntry}
    (ordered : EntriesOrdered entries) : EntriesKept ops entries where
  sorted := ordered.sorted
  nodup := ordered.sorted.nodup ordered.total
  contains entry member := by
    obtain ⟨i, found⟩ := correct.find_stored ordered.total ordered.sorted member
    rw [rtEntriesContains, found]
    rfl
  removes entry member := by
    obtain ⟨i, found⟩ := correct.find_stored ordered.total ordered.sorted member
    obtain ⟨other, there, alike⟩ := correct.find_equated found
    have same : other = entry := by
      cases alike with
      | inl equal => exact (rtEntryCompare_eq_iff.mp equal).1.symm
      | inr equal => exact (rtEntryCompare_eq_iff.mp equal).1
    obtain ⟨inside, there⟩ := List.getElem?_eq_some_iff.mp there
    have erased := (ordered.sorted.nodup ordered.total).erase_getElem i inside
    rw [there, same] at erased
    rw [rtEntriesDel, found, erased]

theorem EntriesOrdered.step (correct : ops.Correct rtEntryCompare) {entries : List RtEntry}
    (ordered : EntriesOrdered entries) {call : EntryCall} (specified : ∀ entry, call = .add entry → entry.oif ≠ none) :
    EntriesOrdered (entryStep ops entries call) := by
  cases call with
  | add entry =>
    rw [entryStep, rtEntriesAddIn]
    split
    next added inserted =>
      have members : ∀ other ∈ entry :: entries, other.oif ≠ none :=
        List.forall_mem_cons.mpr ⟨specified entry rfl, ordered.specified⟩
      refine ⟨fun other member => members other ((correct.add_perm inserted).mem_iff.mp member), ?_⟩
      exact correct.add_sorted (rtEntryCompare_total.subset members) ordered.sorted inserted
    next => exact ordered
  | del entry =>
    rw [entryStep, rtEntriesDel]
    split
    next => exact ordered
    next index _ =>
      have part : (entries.eraseIdx index).Sublist entries := List.eraseIdx_sublist _ _
      exact ⟨fun other member => ordered.specified other (part.subset member), ordered.sorted.sublist part⟩

theorem entriesOrdered_run (correct : ops.Correct rtEntryCompare) {calls : List EntryCall}
    (specified : ∀ entry, .add entry ∈ calls → entry.oif ≠ none) {entries : List RtEntry}
    (ordered : EntriesOrdered entries) : EntriesOrdered (calls.foldl (entryStep ops) entries) := by
  induction calls generalizing entries with
  | nil => exact ordered
  | cons call calls inductionHypothesis =>
    refine inductionHypothesis (fun entry member => specified entry (List.mem_cons_of_mem _ member)) ?_
    exact ordered.step correct fun entry same => specified entry (same ▸ List.mem_cons_self)

/-- An entry without interface is always added, and never found. -/
theorem not_entriesKept_add (correct : ops.Correct rtEntryCompare) {entries : List RtEntry} {entry : RtEntry}
    (unspecified : entry.oif = none) : ¬ EntriesKept ops (entryStep ops entries (.add entry)) := by
  rw [entryStep, rtEntriesAddIn]
  intro kept
  split at kept
  next added inserted =>
    have member : entry ∈ added := (correct.add_perm inserted).mem_iff.mpr List.mem_cons_self
    have found := kept.contains entry member
    rw [rtEntriesContains] at found
    obtain ⟨i, found⟩ := Option.isSome_iff_exists.mp found
    obtain ⟨other, _, alike⟩ := correct.find_equated found
    exact not_equated_of_none unspecified alike
  next taken =>
    obtain ⟨other, _, alike⟩ := correct.add_taken taken
    exact not_equated_of_none unspecified alike

/-- The comparison orders entries exactly when each has an interface, and the entries are kept as they should be
all along a run exactly when no entry without interface is added. -/
theorem entries_ordered_iff (correct : ops.Correct rtEntryCompare) (s : Set RtEntry) (calls : List EntryCall) :
    (OrdersEntries s ↔ ∀ entry ∈ s, entry.oif ≠ none) ∧
      ((∀ done, done <+: calls → EntriesKept ops (entryRun ops done)) ↔
        ∀ entry, .add entry ∈ calls → entry.oif ≠ none) := by
  refine ⟨ordersEntries_iff s, fun kept entry member unspecified => ?_, fun specified done part => ?_⟩
  · obtain ⟨before, after, rfl⟩ := List.append_of_mem member
    have kept := kept (before ++ [.add entry]) ⟨after, by simp⟩
    rw [entryRun, List.foldl_append] at kept
    exact not_entriesKept_add correct unspecified kept
  · have start : EntriesOrdered [] := ⟨nofun, .nil⟩
    exact (entriesOrdered_run correct (fun entry member => specified entry (part.subset member)) start).kept correct

end Runs

/-- The operations from the first entry on. -/
theorem entries_ordered_iff_linear :
    (OrdersEntries {entry | entry.gateway = 0} ↔
        ∀ entry ∈ ({entry | entry.gateway = 0} : Set RtEntry), entry.oif ≠ none) ∧
      ((∀ done, done <+: [EntryCall.add ⟨none, 0⟩] →
          EntriesKept (linearOps rtEntryCompare) (entryRun (linearOps rtEntryCompare) done)) ↔
        ∀ entry, .add entry ∈ [EntryCall.add ⟨none, 0⟩] → entry.oif ≠ none) :=
  entries_ordered_iff (linearOps_correct rtEntryCompare) _ _

/-- An entry without interface comes after one that has an interface, is not equal to itself, and is there twice
after it was added twice. -/
theorem unspecified_entries :
    rtEntryCompare ⟨none, 1⟩ ⟨none, 1⟩ = .gt ∧ rtEntryCompare ⟨none, 1⟩ ⟨some 5, 1⟩ = .gt ∧
      ¬ OrdersEntries {⟨none, 1⟩, ⟨some 5, 1⟩} ∧
      entryRun (linearOps rtEntryCompare) [.add ⟨none, 1⟩, .add ⟨none, 1⟩] = [⟨none, 1⟩, ⟨none, 1⟩] := by
  refine ⟨by decide, by decide, fun ordered => ?_, by decide⟩
  have same := ordered.total.refl ⟨none, 1⟩ (.inl rfl)
  cases same

end Cbgp.Verified
