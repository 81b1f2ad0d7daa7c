import Cbgp.Lib.CompareArray
import Cbgp.Net.Routing

/-! # The entries of a route

`rt_entries_t` of `net/routing.c`, over the sorted arrays of a library outside the repository.
-/

namespace Cbgp.Net

open Cbgp.Lib

variable (ops : ArrayOps RtEntry)

/-- `rt_entries_contains`. -/
def rtEntriesContains (entries : List RtEntry) (entry : RtEntry) : Bool := (ops.findIndex entries entry).isSome

/-- `rt_entries_add`. -/
def rtEntriesAddIn (entries : List RtEntry) (entry : RtEntry) : NetError × List RtEntry :=
  match ops.add entries entry with
  | some added => (.success, added)
  | none => (.rtDuplicate, entries)

/-- `rt_entries_del`. -/
def rtEntriesDel (entries : List RtEntry) (entry : RtEntry) : NetError × List RtEntry :=
  match ops.findIndex entries entry with
  | none => (.failure, entries)
  | some index => (.success, entries.eraseIdx index)

/-- `rtEntriesAdd` is the insertion from the first entry on. -/
theorem rtEntriesAdd_eq (entries : List RtEntry) (entry : RtEntry) :
    rtEntriesAdd entry entries = (linearOps rtEntryCompare).add entries entry := by
  induction entries with
  | nil => rfl
  | cons other entries inductionHypothesis =>
    simp only [linearOps] at inductionHypothesis ⊢
    cases order : rtEntryCompare entry other <;> simp only [rtEntriesAdd, insertBy, order, inductionHypothesis]

end Cbgp.Net
