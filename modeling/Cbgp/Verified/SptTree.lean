import Cbgp.Net.Igp
import Cbgp.Lib.Run

/-! # Updating the shortest-path tree

What `_spt_update_node` does to a tree, seen through four views: the weight, the element, the
predecessors and the successors of each vertex.  `Linked` says that the two lists of neighbours
mirror each other, which is what the assertions of `spt.h` check; with it none of them fails
(`sptVertexAddPred_spec`, `sptVertexClearPreds_spec`), and an update has one of three outcomes
(`sptUpdateNode_new`, `sptUpdateNode_better`, `sptUpdateNode_equal`).
-/

namespace Cbgp.Verified

open Cbgp.Lib Cbgp.Net

variable {N I S : Type}
variable {spt spt' : Spt N I S} {v p : Pfx}

/-! ## Views -/

/-- The weight of a vertex. -/
def weightOf (spt : Spt N I S) (key : Pfx) : Option UInt32 :=
  (spt.lookup key).map (·.weight)

/-- The element of a vertex. -/
def elemOf (spt : Spt N I S) (key : Pfx) : Option (NetElem N I S) :=
  (spt.lookup key).map (·.elem)

/-- Predecessors and successors mirror each other, without duplicates. -/
structure Linked (spt : Spt N I S) : Prop where
  mirror : ∀ {b a}, a ∈ predsOf spt b ↔ b ∈ succsOf spt a
  preds_nodup : ∀ {b}, (predsOf spt b).Nodup
  succs_nodup : ∀ {a}, (succsOf spt a).Nodup

theorem weightOf_isSome {key : Pfx} : (∃ w, weightOf spt key = some w) ↔ key ∈ spt := by
  rw [← AList.lookup_isSome, ← Option.isSome_iff_exists, weightOf, Option.isSome_map]

theorem elemOf_isSome {key : Pfx} : (∃ e, elemOf spt key = some e) ↔ key ∈ spt := by
  rw [← AList.lookup_isSome, ← Option.isSome_iff_exists, elemOf, Option.isSome_map]

theorem predsOf_absent {key : Pfx} (absent : key ∉ spt) : predsOf spt key = [] := by
  rw [predsOf, AList.lookup_eq_none.mpr absent]
  rfl

theorem succsOf_absent {key : Pfx} (absent : key ∉ spt) : succsOf spt key = [] := by
  rw [succsOf, AList.lookup_eq_none.mpr absent]
  rfl

/-- A view of a tree in which one vertex was updated in place. -/
theorem view_modify {α : Type} (spt : Spt N I S) (key k : Pfx)
    (f : SptVertex N I S → SptVertex N I S) (view : SptVertex N I S → α) :
    ((spt.modify key f).lookup k).map view =
      if k = key then (spt.lookup k).map fun x => view (f x) else (spt.lookup k).map view := by
  rw [Table.lookup_modify]
  split
  · rw [Option.map_map]
    rfl
  · rfl

/-- A view that the update does not touch. -/
theorem view_modify_same {α : Type} (spt : Spt N I S) (key k : Pfx)
    {f : SptVertex N I S → SptVertex N I S} {view : SptVertex N I S → α}
    (same : ∀ x, view (f x) = view x) :
    ((spt.modify key f).lookup k).map view = (spt.lookup k).map view := by
  rw [view_modify]
  simp only [same, ite_self]

section Frame

variable {key : Pfx} {f : SptVertex N I S → SptVertex N I S}

theorem weightOf_modify (same : ∀ x, (f x).weight = x.weight) (k : Pfx) :
    weightOf (spt.modify key f) k = weightOf spt k :=
  view_modify_same spt key k same

theorem elemOf_modify (same : ∀ x, (f x).elem = x.elem) (k : Pfx) :
    elemOf (spt.modify key f) k = elemOf spt k :=
  view_modify_same spt key k same

theorem predsOf_modify (same : ∀ x, (f x).preds = x.preds) (k : Pfx) :
    predsOf (spt.modify key f) k = predsOf spt k := by
  rw [predsOf, predsOf, view_modify_same spt key k same]

theorem succsOf_modify (same : ∀ x, (f x).succs = x.succs) (k : Pfx) :
    succsOf (spt.modify key f) k = succsOf spt k := by
  rw [succsOf, succsOf, view_modify_same spt key k same]

end Frame

theorem mem_modify {key k : Pfx} {f : SptVertex N I S → SptVertex N I S} :
    k ∈ spt.modify key f ↔ k ∈ spt := by
  rw [AList.mem_keys, Table.keys_modify, ← AList.mem_keys]

/-! ## Adding a predecessor -/

/-- The tree once `p` is a predecessor of `v`. -/
def linkPred (spt : Spt N I S) (v p : Pfx) : Spt N I S :=
  (spt.modify v fun x => { x with preds := p :: x.preds }).modify p fun x =>
    { x with succs := v :: x.succs }

theorem weightOf_linkPred (k : Pfx) : weightOf (linkPred spt v p) k = weightOf spt k := by
  rw [linkPred, weightOf_modify (by simp), weightOf_modify (by simp)]

theorem elemOf_linkPred (k : Pfx) : elemOf (linkPred spt v p) k = elemOf spt k := by
  rw [linkPred, elemOf_modify (by simp), elemOf_modify (by simp)]

theorem predsOf_linkPred (present : v ∈ spt) (k : Pfx) :
    predsOf (linkPred spt v p) k = if k = v then p :: predsOf spt k else predsOf spt k := by
  rw [linkPred, predsOf_modify (by simp), predsOf, predsOf, view_modify]
  cases found : spt.lookup k with
  | some x => split <;> rfl
  | none =>
    have : k ≠ v := by
      rintro rfl
      exact (AList.lookup_eq_none.mp found) present
    simp [this]

theorem succsOf_linkPred (present : p ∈ spt) (k : Pfx) :
    succsOf (linkPred spt v p) k = if k = p then v :: succsOf spt k else succsOf spt k := by
  have first : succsOf (spt.modify v fun x => { x with preds := p :: x.preds }) k = succsOf spt k :=
    succsOf_modify (by simp) k
  rw [← first, linkPred, succsOf, succsOf, view_modify]
  cases found : (spt.modify v fun x => { x with preds := p :: x.preds }).lookup k with
  | some x => split <;> rfl
  | none =>
    have : k ≠ p := by
      rintro rfl
      exact (AList.lookup_eq_none.mp found) (mem_modify.mpr present)
    simp [this]

/-- `spt_vertex_add_pred` never fails its assertion, and makes `p` a predecessor of `v`. -/
theorem sptVertexAddPred_spec (linked : Linked spt) (presentV : v ∈ spt) (presentP : p ∈ spt) :
    ∃ spt', sptVertexAddPred spt v p = .ok spt' ∧ Linked spt' ∧
      (∀ k, weightOf spt' k = weightOf spt k) ∧ (∀ k, elemOf spt' k = elemOf spt k) ∧
      ∀ b a, a ∈ predsOf spt' b ↔ a ∈ predsOf spt b ∨ b = v ∧ a = p := by
  unfold sptVertexAddPred
  -- A predecessor already there is not added twice, and then neither is the successor.
  by_cases known : p ∈ predsOf spt v
  · rw [if_pos known]
    refine ⟨spt, rfl, linked, fun _ => rfl, fun _ => rfl, fun b a => ?_⟩
    constructor
    · exact .inl
    · rintro (old | ⟨rfl, rfl⟩)
      · exact old
      · exact known
  · have fresh : v ∉ succsOf spt p := fun isSucc => known (linked.mirror.mpr isSucc)
    rw [if_neg known, if_neg fresh]
    have preds := fun b a : Pfx => show a ∈ predsOf (linkPred spt v p) b ↔
        a ∈ predsOf spt b ∨ b = v ∧ a = p by
      rw [predsOf_linkPred presentV]
      split
      next same => simp [same, or_comm]
      next other => simp [other]
    have succs := fun a b : Pfx => show b ∈ succsOf (linkPred spt v p) a ↔
        b ∈ succsOf spt a ∨ b = v ∧ a = p by
      rw [succsOf_linkPred presentP]
      split
      next same => simp [same, or_comm]
      next other => simp [other]
    refine ⟨linkPred spt v p, rfl, ?_, weightOf_linkPred, elemOf_linkPred, preds⟩
    refine { mirror := ?_, preds_nodup := ?_, succs_nodup := ?_ }
    · intro b a
      rw [preds, succs, linked.mirror]
    · intro b
      rw [predsOf_linkPred presentV]
      split
      next same =>
        subst same
        exact List.nodup_cons.mpr ⟨known, linked.preds_nodup⟩
      next => exact linked.preds_nodup
    · intro a
      rw [succsOf_linkPred presentP]
      split
      next same =>
        subst same
        exact List.nodup_cons.mpr ⟨fresh, linked.succs_nodup⟩
      next => exact linked.succs_nodup

/-! ## Clearing the predecessors -/

/-- The loop of `spt_vertex_clear_preds` over part of the predecessors. -/
theorem removeSucc_loop {preds : List Pfx} (distinct : preds.Nodup)
    (succs : ∀ p ∈ preds, v ∈ succsOf spt p) :
    ∃ spt', preds.foldlM (removeSucc v) spt = .ok spt' ∧
      (∀ k, weightOf spt' k = weightOf spt k) ∧ (∀ k, elemOf spt' k = elemOf spt k) ∧
      (∀ k, predsOf spt' k = predsOf spt k) ∧ (∀ k, k ∈ spt' ↔ k ∈ spt) ∧
      ∀ k, succsOf spt' k = if k ∈ preds then (succsOf spt k).erase v else succsOf spt k := by
  induction preds generalizing spt with
  | nil => exact ⟨spt, rfl, fun _ => rfl, fun _ => rfl, fun _ => rfl, fun _ => .rfl, by simp⟩
  | cons p preds inductionHypothesis =>
    obtain ⟨notLater, distinct⟩ := List.nodup_cons.mp distinct
    have first := succs p List.mem_cons_self
    let mid := spt.modify p fun x => { x with succs := x.succs.erase v }
    have succsMid : ∀ k, succsOf mid k =
        if k = p then (succsOf spt k).erase v else succsOf spt k := by
      intro k
      rw [succsOf, succsOf, view_modify]
      split
      · cases spt.lookup k <;> rfl
      · rfl
    -- The predecessors are distinct, so the turns to come still find the vertex in their lists.
    have others : ∀ q ∈ preds, v ∈ succsOf mid q := by
      intro q member
      have differ : q ≠ p := by
        rintro rfl
        exact notLater member
      rw [succsMid, if_neg differ]
      exact succs q (List.mem_cons_of_mem _ member)
    obtain ⟨spt', loop, weights, elems, predsSame, present, final⟩ :=
      @inductionHypothesis mid distinct others
    refine ⟨spt', ?_, ?_, ?_, ?_, ?_, ?_⟩
    · rw [List.foldlM_cons, removeSucc, if_pos first]
      exact loop
    · intro k
      exact (weights k).trans (weightOf_modify (by simp) k)
    · intro k
      exact (elems k).trans (elemOf_modify (by simp) k)
    · intro k
      exact (predsSame k).trans (predsOf_modify (by simp) k)
    · intro k
      rw [present, mem_modify]
    · intro k
      rw [final, succsMid]
      by_cases same : k = p
      · subst same
        simp [notLater]
      · simp [same]

/-- `spt_vertex_clear_preds` never fails an assertion, and leaves the vertex without
predecessors. -/
theorem sptVertexClearPreds_spec (linked : Linked spt) :
    ∃ spt', sptVertexClearPreds spt v = .ok spt' ∧ Linked spt' ∧
      (∀ k, weightOf spt' k = weightOf spt k) ∧ (∀ k, elemOf spt' k = elemOf spt k) ∧
      ∀ b a, a ∈ predsOf spt' b ↔ a ∈ predsOf spt b ∧ b ≠ v := by
  obtain ⟨mid, loop, weights, elems, preds, _, succs⟩ :=
    removeSucc_loop linked.preds_nodup fun p (isPred : p ∈ predsOf spt v) => linked.mirror.mp isPred
  -- The loop takes the vertex out of its predecessors' successors, then its own list is emptied.
  have predsFinal : ∀ k, predsOf (mid.modify v fun x => { x with preds := [] }) k =
      if k = v then [] else predsOf spt k := by
    intro k
    rw [← preds, predsOf, predsOf, view_modify]
    split
    · cases mid.lookup k <;> rfl
    · rfl
  have succsFinal : ∀ k, succsOf (mid.modify v fun x => { x with preds := [] }) k =
      if k ∈ predsOf spt v then (succsOf spt k).erase v else succsOf spt k := by
    intro k
    exact (succsOf_modify (by simp) k).trans (succs k)
  refine ⟨_, by rw [sptVertexClearPreds, loop]; rfl, ?_, ?_, ?_, ?_⟩
  · refine { mirror := ?_, preds_nodup := ?_, succs_nodup := ?_ }
    · intro b a
      rw [predsFinal, succsFinal]
      -- Only at the vertex or at one of its former predecessors has either list changed.
      by_cases same : b = v
      · subst same
        by_cases isPred : a ∈ predsOf spt b
        · simp [isPred, linked.succs_nodup.mem_erase_iff]
        · simp [isPred, ← linked.mirror]
      · by_cases isPred : a ∈ predsOf spt v
        · simp [same, isPred, linked.succs_nodup.mem_erase_iff, linked.mirror]
        · simp [same, isPred, linked.mirror]
    · intro b
      rw [predsFinal]
      split
      · exact List.nodup_nil
      · exact linked.preds_nodup
    · intro a
      rw [succsFinal]
      split
      · exact linked.succs_nodup.erase v
      · exact linked.succs_nodup
  · intro k
    exact (weightOf_modify (by simp) k).trans (weights k)
  · intro k
    exact (elemOf_modify (by simp) k).trans (elems k)
  · intro b a
    rw [predsFinal]
    by_cases same : b = v
    · simp [same]
    · simp [same]

/-! ## Updating a vertex -/

/-- Inserting a vertex without neighbours changes no neighbours. -/
theorem linked_insert (linked : Linked spt) {key : Pfx} (absent : key ∉ spt)
    (elem : NetElem N I S) (weight : UInt32) :
    let spt' := spt.insert key { elem := elem, weight := weight, preds := [], succs := [] }
    Linked spt' ∧ ∀ k, predsOf spt' k = predsOf spt k := by
  intro spt'
  have preds : ∀ k, predsOf spt' k = predsOf spt k := by
    intro k
    by_cases same : k = key
    · rw [same, predsOf_absent absent, predsOf, AList.lookup_insert]
      rfl
    · rw [predsOf, predsOf, AList.lookup_insert_ne same]
  have succs : ∀ k, succsOf spt' k = succsOf spt k := by
    intro k
    by_cases same : k = key
    · rw [same, succsOf_absent absent, succsOf, AList.lookup_insert]
      rfl
    · rw [succsOf, succsOf, AList.lookup_insert_ne same]
  refine ⟨{ mirror := ?_, preds_nodup := ?_, succs_nodup := ?_ }, preds⟩
  · intro b a
    rw [preds, succs, linked.mirror]
  · intro b
    rw [preds]
    exact linked.preds_nodup
  · intro a
    rw [succs]
    exact linked.succs_nodup

variable {net : Topology N I S} {elem : NetElem N I S} {prev : Pfx} {weight : UInt32}

/-- The views of a tree in which the vertex of `elem` was reached through `prev` for less than
before. -/
structure Improved (net : Topology N I S) (elem : NetElem N I S) (prev : Pfx) (weight : UInt32)
    (spt spt' : Spt N I S) : Prop where
  linked : Linked spt'
  weights : ∀ k, weightOf spt' k = if k = elemKey net elem then some weight else weightOf spt k
  elems : ∀ k, elemOf spt' k =
    if k = elemKey net elem ∧ elemKey net elem ∉ spt then some elem else elemOf spt k
  preds : ∀ b a, a ∈ predsOf spt' b ↔ if b = elemKey net elem then a = prev else a ∈ predsOf spt b

/-- The views of a tree in which the vertex of `elem` got `prev` as one more predecessor. -/
structure Joined (net : Topology N I S) (elem : NetElem N I S) (prev : Pfx)
    (spt spt' : Spt N I S) : Prop where
  linked : Linked spt'
  weights : ∀ k, weightOf spt' k = weightOf spt k
  elems : ∀ k, elemOf spt' k = elemOf spt k
  preds : ∀ b a, a ∈ predsOf spt' b ↔ a ∈ predsOf spt b ∨ b = elemKey net elem ∧ a = prev

/-- Case 1: the vertex is created. -/
theorem sptUpdateNode_new (linked : Linked spt) (present : prev ∈ spt)
    (absent : elemKey net elem ∉ spt) :
    ∃ spt', sptUpdateNode net spt elem prev weight = .ok (spt', some (elemKey net elem)) ∧
      Improved net elem prev weight spt spt' := by
  obtain ⟨linkedMid, predsMid⟩ := linked_insert linked absent elem weight
  obtain ⟨spt', added, linked', weights, elems, preds⟩ := sptVertexAddPred_spec linkedMid
    ((AList.mem_insert _).mpr (.inl rfl)) ((AList.mem_insert _).mpr (.inr present))
  refine ⟨spt', ?_, { linked := linked', weights := ?_, elems := ?_, preds := ?_ }⟩
  · simp only [sptUpdateNode, AList.lookup_eq_none.mpr absent, added]
    rfl
  · intro k
    rw [weights, weightOf, weightOf]
    split
    next same => rw [same, AList.lookup_insert, Option.map_some]
    next other => rw [AList.lookup_insert_ne other]
  · intro k
    rw [elems, elemOf, elemOf]
    by_cases same : k = elemKey net elem
    · rw [if_pos ⟨same, absent⟩, same, AList.lookup_insert, Option.map_some]
    · rw [if_neg (fun h => same h.1), AList.lookup_insert_ne same]
  · intro b a
    rw [preds, predsMid]
    split
    next same => simp [same, predsOf_absent absent]
    next other => simp [other]

/-- Case 2.1: the vertex is reached for less. -/
theorem sptUpdateNode_better (linked : Linked spt) (present : prev ∈ spt) {w : UInt32}
    (known : weightOf spt (elemKey net elem) = some w) (better : weight < w) :
    ∃ spt', sptUpdateNode net spt elem prev weight = .ok (spt', some (elemKey net elem)) ∧
      Improved net elem prev weight spt spt' := by
  have there : elemKey net elem ∈ spt := weightOf_isSome.mp ⟨w, known⟩
  obtain ⟨vertex, found, rfl⟩ := Option.map_eq_some_iff.mp known
  -- Three writes: the weight, the predecessors cleared, the new predecessor added.
  let first := spt.modify (elemKey net elem) fun v => { v with weight := weight }
  have predsFirst : ∀ k, predsOf first k = predsOf spt k := predsOf_modify (by simp)
  have linkedFirst : Linked first := by
    have succsFirst : ∀ k, succsOf first k = succsOf spt k := succsOf_modify (by simp)
    refine { mirror := ?_, preds_nodup := ?_, succs_nodup := ?_ }
    · intro b a
      rw [predsFirst, succsFirst, linked.mirror]
    · intro b
      rw [predsFirst]
      exact linked.preds_nodup
    · intro a
      rw [succsFirst]
      exact linked.succs_nodup
  obtain ⟨mid, cleared, linkedMid, weightsMid, elemsMid, predsMid⟩ :=
    sptVertexClearPreds_spec (v := elemKey net elem) linkedFirst
  have inMid : ∀ k, k ∈ spt → k ∈ mid := by
    intro k member
    rw [← elemOf_isSome] at member ⊢
    rw [elemsMid, show elemOf first k = elemOf spt k from elemOf_modify (by simp) k]
    exact member
  obtain ⟨spt', added, linked', weights, elems, preds⟩ :=
    sptVertexAddPred_spec linkedMid (inMid _ there) (inMid _ present)
  refine ⟨spt', ?_, { linked := linked', weights := ?_, elems := ?_, preds := ?_ }⟩
  · simp only [sptUpdateNode, found, if_pos better]
    rw [show sptVertexClearPreds _ _ = .ok mid from cleared]
    simp only [bind, Except.bind, added]
  · intro k
    rw [weights, weightsMid, weightOf, weightOf, view_modify]
    split
    next same => rw [same, found, Option.map_some]
    next => rfl
  · intro k
    rw [elems, elemsMid, if_neg (fun h => h.2 there)]
    exact elemOf_modify (by simp) k
  · intro b a
    rw [preds, predsMid, predsFirst]
    split
    next same => simp [same]
    next other => simp [other]

/-- Case 2.2: the vertex is reached for the same. -/
theorem sptUpdateNode_equal (linked : Linked spt) (present : prev ∈ spt)
    (known : weightOf spt (elemKey net elem) = some weight) :
    ∃ spt', sptUpdateNode net spt elem prev weight = .ok (spt', none) ∧
      Joined net elem prev spt spt' := by
  have there : elemKey net elem ∈ spt := weightOf_isSome.mp ⟨weight, known⟩
  obtain ⟨vertex, found, rfl⟩ := Option.map_eq_some_iff.mp known
  obtain ⟨spt', added, linked', weights, elems, preds⟩ := sptVertexAddPred_spec linked there present
  refine ⟨spt', ?_, { linked := linked', weights := weights, elems := elems, preds := preds }⟩
  simp only [sptUpdateNode, found, if_neg (UInt32.lt_irrefl _), if_true, added]
  rfl

/-- The vertex is reached for more: nothing happens. -/
theorem sptUpdateNode_worse {w : UInt32} (known : weightOf spt (elemKey net elem) = some w)
    (worse : w < weight) : sptUpdateNode net spt elem prev weight = .ok (spt, none) := by
  obtain ⟨vertex, found, rfl⟩ := Option.map_eq_some_iff.mp known
  simp only [sptUpdateNode, found, if_neg (UInt32.lt_asymm worse), if_neg (UInt32.ne_of_lt worse)]

end Cbgp.Verified
