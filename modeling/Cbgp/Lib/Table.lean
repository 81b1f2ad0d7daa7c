import Mathlib.Data.List.AList

/-! # Finite maps with in-place update

A `Table` is an association list with pairwise distinct keys.  Insertion, deletion and lookup are
Mathlib's; what is added here is updating values where they stand, so that the order in which a
loop visits the entries does not change under it.

* `Table.modify` — update the value of one key, if present.
* `Table.mapVals` — update every value.
-/

namespace Cbgp.Lib

universe u v

/-- A finite map from `K` to `V`. -/
abbrev Table (K : Type u) (V : Type v) := AList (fun _ : K => V)

namespace Table

variable {K : Type u} {V : Type v} [DecidableEq K]

/-! ## Updating every value -/

/-- Replace every value by its image; keys and their order stay. -/
def mapVals (t : Table K V) (f : K → V → V) : Table K V where
  entries := t.entries.map fun e => ⟨e.1, f e.1 e.2⟩
  nodupKeys := by
    have same : (t.entries.map fun e => (⟨e.1, f e.1 e.2⟩ : Sigma fun _ : K => V)).keys
        = t.entries.keys := by
      simp [List.keys, Function.comp_def]
    rw [List.NodupKeys, same]
    exact t.nodupKeys

omit [DecidableEq K] in
@[simp] theorem keys_mapVals (t : Table K V) (f : K → V → V) : (t.mapVals f).keys = t.keys := by
  simp [mapVals, AList.keys, List.keys, Function.comp_def]

theorem dlookup_map_vals (l : List (Sigma fun _ : K => V)) (f : K → V → V) (k : K) :
    List.dlookup k (l.map fun e => (⟨e.1, f e.1 e.2⟩ : Sigma fun _ : K => V))
      = (List.dlookup k l).map (f k) := by
  induction l with
  | nil => rfl
  | cons e l inductionHypothesis =>
    obtain ⟨k', v⟩ := e
    by_cases same : k = k'
    · subst same
      simp
    · rw [List.map_cons, List.dlookup_cons_ne, List.dlookup_cons_ne]
      · exact inductionHypothesis
      · exact same
      · exact same

@[simp] theorem lookup_mapVals (t : Table K V) (f : K → V → V) (k : K) :
    (t.mapVals f).lookup k = (t.lookup k).map (f k) :=
  dlookup_map_vals t.entries f k

/-! ## Updating one value -/

/-- Update the value stored under `k`; nothing happens when `k` has no entry. -/
def modify (t : Table K V) (k : K) (f : V → V) : Table K V :=
  t.mapVals fun k' v => if k' = k then f v else v

@[simp] theorem keys_modify (t : Table K V) (k : K) (f : V → V) : (t.modify k f).keys = t.keys :=
  keys_mapVals _ _

theorem lookup_modify (t : Table K V) (k k' : K) (f : V → V) :
    (t.modify k f).lookup k' = if k' = k then (t.lookup k').map f else t.lookup k' := by
  rw [modify, lookup_mapVals]
  by_cases same : k' = k
  · simp [same]
  · simp [same]

@[simp] theorem lookup_modify_self (t : Table K V) (k : K) (f : V → V) :
    (t.modify k f).lookup k = (t.lookup k).map f := by
  simp [lookup_modify]

theorem lookup_modify_ne (t : Table K V) {k k' : K} (differ : k' ≠ k) (f : V → V) :
    (t.modify k f).lookup k' = t.lookup k' := by
  simp [lookup_modify, differ]

theorem mem_keys_iff {t : Table K V} {k : K} : k ∈ t.keys ↔ ∃ v, t.lookup k = some v := by
  rw [← AList.mem_keys, ← AList.lookup_isSome, Option.isSome_iff_exists]

theorem mem_entries_iff {t : Table K V} {k : K} {v : V} :
    (⟨k, v⟩ : Sigma fun _ : K => V) ∈ t.entries ↔ t.lookup k = some v := by
  simpa using (AList.mem_lookup_iff (a := k) (b := v) (s := t)).symm

end Table

end Cbgp.Lib
