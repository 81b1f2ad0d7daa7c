import Cbgp.Bgp.AttrBlocks
import Cbgp.Verified.AsPaths

/-! # In-place changes of AS-paths and Communities

The functions on blocks do to the values of a block what the functions on lists do.  The removal of
private ASNs is a filter, whatever the pattern of private ASNs (`pathRemovePrivate_eq`); the list of
extended communities is right as long as the byte that counts it does not wrap around
(`ecomms_kept_iff`).
-/

namespace Cbgp.Verified

open Cbgp.Lib Cbgp.Bgp

/-! ## Removal of private ASNs -/

theorem pathSegmentRemovePrivate_value (seg : SegBlock) :
    (InPlace.pathSegmentRemovePrivate seg).map SegBlock.value = pathSegmentRemovePrivate seg.value := by
  obtain ⟨values, resized⟩ := seg.asns.deleteLoop_values (fun asn => asn ≥ 64512) 0 false
  have stays : (fun asn : Asn => !decide (asn ≥ 64512)) = fun asn => decide (asn < 64512) := by
    funext asn
    rw [← decide_not, decide_eq_decide, ge_iff_le, UInt16.not_le]
  rw [List.take_zero, List.nil_append, List.drop_zero, stays] at values
  rw [Bool.false_or, List.drop_zero] at resized
  change _ = seg.value.asns.filter (· < 64512) at values
  change _ = seg.value.asns.any (fun asn => asn ≥ 64512) at resized
  have count : (seg.value.asns.filter (· < 64512)).length = seg.value.asns.length ↔
      seg.value.asns.any (fun asn => asn ≥ 64512) = false := by
    rw [List.length_filter_eq_length_iff]
    simp
  simp only [InPlace.pathSegmentRemovePrivate, pathSegmentRemovePrivate, resized, count]
  by_cases found : seg.value.asns.any (fun asn => asn ≥ 64512) = true
  · simp only [found, if_true, reduceCtorEq, if_false]
    -- what is left is counted by the byte
    have size : (seg.asns.deleteLoop (fun asn => asn ≥ 64512) 0 false).1.num = 0 ↔
        (seg.value.asns.filter (· < 64512)).isEmpty = true := by
      rw [List.isEmpty_iff, ← values, ← List.length_eq_zero_iff, Counted.length_values, ← UInt8.toNat_inj]
      rfl
    by_cases empty : (seg.value.asns.filter (· < 64512)).isEmpty = true
    · rw [if_pos (size.mpr empty), if_pos empty, Option.map_none]
    · rw [if_neg (mt size.mp empty), if_neg empty, Option.map_some]
      refine congrArg some (PathSeg.eq_of rfl ?_)
      exact (Counted.values_resize _ (Nat.le_refl _)).trans
        ((List.take_of_length_le (by rw [Counted.length_values])).trans values)
  · rw [Bool.not_eq_true] at found
    simp only [found, Bool.false_eq_true, if_false, if_true, Option.map_some]
    refine congrArg some (PathSeg.eq_of rfl (values.trans ?_))
    exact List.filter_eq_self.mpr (List.length_filter_eq_length_iff.mp (count.mpr found))

/-- The segments before the index are done with; of the others those stay in which an ASN is left. -/
theorem pathRemovePrivateLoop_value (path : List SegBlock) (index : ℕ) :
    pathValue (InPlace.pathRemovePrivateLoop path index) =
      pathValue (path.take index) ++ pathRemovePrivate (pathValue (path.drop index)) := by
  induction path, index using InPlace.pathRemovePrivateLoop.induct with
  | case1 path index inside gone inductionHypothesis =>
    -- the next segment stands at the index now
    have removed : pathSegmentRemovePrivate path[index].value = none := by
      rw [← pathSegmentRemovePrivate_value, gone, Option.map_none]
    have front : (path.take index).length = index := by
      rw [List.length_take]
      omega
    have before : (path.eraseIdx index).take index = path.take index := by
      rw [List.eraseIdx_eq_take_drop_succ]
      exact List.take_left' front
    have behind : (path.eraseIdx index).drop index = path.drop (index + 1) := by
      rw [List.eraseIdx_eq_take_drop_succ]
      exact List.drop_left' front
    rw [before, behind] at inductionHypothesis
    rw [InPlace.pathRemovePrivateLoop, dif_pos inside, gone, List.drop_eq_getElem_cons inside]
    refine inductionHypothesis.trans ?_
    simp only [pathRemovePrivate, pathValue, List.map_cons, List.filterMap_cons_none removed]
  | case2 path index inside seg kept inductionHypothesis =>
    have changed : pathSegmentRemovePrivate path[index].value = some seg.value := by
      rw [← pathSegmentRemovePrivate_value, kept, Option.map_some]
    have before : (path.set index seg).take (index + 1) = path.take index ++ [seg] := by
      rw [List.take_add_one, List.take_set_of_le (Nat.le_refl _), List.getElem?_set_self inside]
      rfl
    rw [before, List.drop_set_of_lt (Nat.lt_succ_self index)] at inductionHypothesis
    rw [InPlace.pathRemovePrivateLoop, dif_pos inside, kept, List.drop_eq_getElem_cons inside]
    refine inductionHypothesis.trans ?_
    simp only [pathRemovePrivate, pathValue, List.map_cons, List.map_append, List.map_nil,
      List.filterMap_cons_some changed, List.append_assoc, List.singleton_append]
  | case3 path index outside =>
    rw [InPlace.pathRemovePrivateLoop, dif_neg outside, List.take_of_length_le (by omega),
      List.drop_eq_nil_of_le (by omega)]
    exact (List.append_nil _).symm

/-- The loops in memory compute what the function on paths does. -/
theorem pathRemovePrivate_value (path : List SegBlock) :
    pathValue (InPlace.pathRemovePrivate path) = pathRemovePrivate (pathValue path) := by
  rw [InPlace.pathRemovePrivate, pathRemovePrivateLoop_value, List.take_zero, List.drop_zero]
  rfl

/-- A private ASN. -/
def privateAsn (asn : Asn) : Bool := 64512 ≤ asn && asn ≤ 65535

/-- A segment without its private ASNs. -/
def publicPart (seg : PathSeg) : PathSeg where
  type := seg.type
  asns := seg.asns.filter fun asn => !privateAsn asn
  short := Nat.le_trans (List.length_filter_le _ _) seg.short

/-- A segment that the removal empties. -/
def onlyPrivate (seg : PathSeg) : Bool := seg.asns ≠ [] && seg.asns.all privateAsn

theorem privateAsn_eq (asn : Asn) : privateAsn asn = !decide (asn < 64512) := by
  have below : asn ≤ 65535 := UInt16.le_iff_toNat_le.mpr (Nat.le_of_lt_succ asn.toNat_lt)
  rw [privateAsn, decide_eq_true below, Bool.and_true, ← decide_not, decide_eq_decide, UInt16.not_lt]

theorem pathSegmentRemovePrivate_eq (seg : PathSeg) :
    pathSegmentRemovePrivate seg = if onlyPrivate seg then none else some (publicPart seg) := by
  have asns : (publicPart seg).asns = seg.asns.filter (· < 64512) := by
    simp only [publicPart, privateAsn_eq, Bool.not_not]
  have only : onlyPrivate seg = true ↔ seg.asns ≠ [] ∧ seg.asns.filter (· < 64512) = [] := by
    simp [onlyPrivate, privateAsn_eq]
  simp only [pathSegmentRemovePrivate]
  by_cases all : (seg.asns.filter (· < 64512)).length = seg.asns.length
  · have same : seg.asns.filter (· < 64512) = seg.asns :=
      List.filter_eq_self.mpr (List.length_filter_eq_length_iff.mp all)
    rw [if_pos all, if_neg (mt only.mp fun both => both.1 (same.symm.trans both.2))]
    exact congrArg some (PathSeg.eq_of rfl (same.symm.trans asns.symm))
  · have some : seg.asns ≠ [] := fun empty => all (by rw [empty]; rfl)
    rw [if_neg all]
    by_cases empty : seg.asns.filter (· < 64512) = []
    · rw [if_pos (List.isEmpty_iff.mpr empty), if_pos (only.mpr ⟨some, empty⟩)]
    · rw [if_neg (mt List.isEmpty_iff.mp empty), if_neg (mt only.mp fun both => empty both.2)]
      exact congrArg Option.some (PathSeg.eq_of rfl asns.symm)

theorem pathRemovePrivate_eq (path : Path) :
    pathRemovePrivate path = (path.filter fun seg => !onlyPrivate seg).map publicPart := by
  rw [pathRemovePrivate, ← List.filterMap_eq_filter, ← List.filterMap_eq_map, List.filterMap_filterMap]
  refine List.filterMap_congr fun seg _ => ?_
  rw [pathSegmentRemovePrivate_eq]
  cases emptied : onlyPrivate seg <;> simp [Option.guard, emptied]

theorem publicPart_idem (seg : PathSeg) : publicPart (publicPart seg) = publicPart seg := by
  refine PathSeg.eq_of rfl ?_
  simp [publicPart]

/-- No private ASN is left to empty a segment. -/
theorem onlyPrivate_publicPart (seg : PathSeg) : onlyPrivate (publicPart seg) = false := by
  rw [Bool.eq_false_iff]
  intro only
  simp only [onlyPrivate, Bool.and_eq_true, decide_eq_true_eq, List.all_eq_true] at only
  obtain ⟨asn, member⟩ := List.exists_mem_of_ne_nil _ only.1
  have stays := (List.mem_filter.mp member).2
  rw [only.2 asn member] at stays
  cases stays

theorem pathRemovePrivate_idem (path : Path) :
    pathRemovePrivate (pathRemovePrivate path) = pathRemovePrivate path := by
  simp only [pathRemovePrivate_eq, List.filter_map, List.map_map]
  have all : List.filter ((fun seg => !onlyPrivate seg) ∘ publicPart)
      (path.filter fun seg => !onlyPrivate seg) = path.filter fun seg => !onlyPrivate seg :=
    List.filter_eq_self.mpr fun seg _ => by simp [onlyPrivate_publicPart]
  rw [all]
  exact List.map_congr_left fun seg _ => publicPart_idem seg

/-- A segment counts no more without its private ASNs, and nothing when it is dropped. -/
theorem pathLength_pathRemovePrivate (path : Path) :
    pathLength (some (pathRemovePrivate path)) ≤ pathLength (some path) := by
  rw [pathRemovePrivate_eq]
  simp only [pathLength, Option.getD_some]
  induction path with
  | nil => exact Nat.le_refl _
  | cons seg path inductionHypothesis =>
    have shorter : (publicPart seg).asns.length ≤ seg.asns.length := List.length_filter_le _ _
    cases emptied : onlyPrivate seg with
    | true =>
      simp only [List.filter_cons, emptied, List.map_cons, List.sum_cons]
      exact Nat.le_trans inductionHypothesis (Nat.le_add_left _ _)
    | false =>
      simp only [List.filter_cons, emptied, List.map_cons, List.sum_cons]
      refine Nat.add_le_add ?_ inductionHypothesis
      dsimp only [publicPart] at shorter ⊢
      cases seg.type with
      | sequence => exact shorter
      | set => exact Nat.le_refl _

/-- The removal of private ASNs, in memory and for every AS-path: of each segment the ASNs that are not
private stay, in their order; a segment is dropped when it had ASNs and all were private, and no other is.
Once removed they stay removed, and the path does not become longer. -/
theorem removes_private_asns (path : List SegBlock) :
    pathValue (InPlace.pathRemovePrivate path) =
        ((pathValue path).filter fun seg => !onlyPrivate seg).map publicPart ∧
      pathValue (InPlace.pathRemovePrivate (InPlace.pathRemovePrivate path)) =
        pathValue (InPlace.pathRemovePrivate path) ∧
      pathLength (some (pathValue (InPlace.pathRemovePrivate path))) ≤ pathLength (some (pathValue path)) := by
  simp only [pathRemovePrivate_value]
  exact ⟨pathRemovePrivate_eq _, pathRemovePrivate_idem _, pathLength_pathRemovePrivate _⟩

/-! ## Communities -/

theorem commsDup_value (comms : Counted Comm) : (InPlace.commsDup comms).values = comms.values := by
  rw [InPlace.commsDup, Counted.values_resize, List.take_of_length_le (by rw [Counted.length_values])]

theorem commsAdd_value (comms : Counted Comm) (comm : Comm) :
    (InPlace.commsAdd comms comm).map (fun added => (added.1, added.2.values)) =
      match commsAdd comms.values comm with
      | .ok values => .ok (0, values)
      | .error _ => .error .commsFull := by
  by_cases room : comms.num.toNat < 255
  · have short : comms.values.length < 255 := by rwa [Counted.length_values]
    simp only [InPlace.commsAdd, commsAdd, dif_pos room, if_pos short, Except.map, Counted.values_push]
  · have full : ¬comms.values.length < 255 := by rwa [Counted.length_values]
    simp only [InPlace.commsAdd, commsAdd, dif_neg room, if_neg full, Except.map]

/-- Where `comms_add` returns, it returns 0, and the values are those that the attribute set gets. -/
theorem bgpAttrCommAppend_value (comms : Option (Counted Comm)) (comm : Comm) :
    (InPlace.bgpAttrCommAppend comms comm).map (fun added => (added.1, added.2.values)) =
      match commsAdd ((comms.map Counted.values).getD []) comm with
      | .ok values => .ok (0, values)
      | .error _ => .error .commsFull := by
  cases comms with
  | none => exact commsAdd_value _ comm
  | some comms =>
    rw [InPlace.bgpAttrCommAppend, commsAdd_value, commsDup_value]
    rfl

theorem bgpAttrCommRemove_value (comms : Option (Counted Comm)) (comm : Comm) :
    (InPlace.bgpAttrCommRemove comms comm).map Counted.values =
      (comms.map Counted.values).bind fun values => commsRemove values comm := by
  cases comms with
  | none => rfl
  | some comms =>
    rw [InPlace.bgpAttrCommRemove, Option.map_some, Option.bind_some, ← commsDup_value comms]
    exact Counted.gather_values _ _

/-! ## Extended communities -/

theorem ecommsStripNonTransitive_value (comms : Option (Counted Ecomm)) :
    (InPlace.ecommsStripNonTransitive comms).map Counted.values =
      ecommsStripNonTransitive (comms.map Counted.values) := by
  cases comms with
  | none => rfl
  | some comms => exact Counted.gather_values _ comms

/-- The extended communities of an attribute set. -/
def ecommValues (ecomms : Option (Counted Ecomm)) : List Ecomm := (ecomms.map Counted.values).getD []

theorem ecommValues_strip (ecomms : Option (Counted Ecomm)) :
    ecommValues (InPlace.ecommsStripNonTransitive ecomms) = (ecommValues ecomms).filter (·.transitive) := by
  rw [ecommValues, ecommsStripNonTransitive_value, ecommValues]
  cases ecomms.map Counted.values with
  | none => rfl
  | some values =>
    simp only [ecommsStripNonTransitive, Option.getD_some]
    split
    next all => exact (List.filter_eq_self.mpr (List.length_filter_eq_length_iff.mp all)).symm
    next =>
      split
      next empty => exact (List.isEmpty_iff.mp empty).symm
      next => rfl

/-- What is done to the extended communities of an attribute set. -/
inductive EcommChange where
  | add (comm : Ecomm)
  | stripNonTransitive

/-- One change, with its result. -/
def ecommChange (ecomms : Option (Counted Ecomm)) :
    EcommChange → Except WriteFault (ℤ × Option (Counted Ecomm))
  | .add comm => (InPlace.bgpAttrEcommAppend ecomms comm).map fun (result, comms) => (result, some comms)
  | .stripNonTransitive => .ok (0, InPlace.ecommsStripNonTransitive ecomms)

/-- What a change should do: an addition puts the element behind the others or reports an error and
changes nothing, and the removal leaves the transitive elements in their order. -/
def EcommEffect (old new : Option (Counted Ecomm)) (result : ℤ) : EcommChange → Prop
  | .add comm =>
    (result ≠ 0 ∧ ecommValues new = ecommValues old) ∨
      (result = 0 ∧ ecommValues new = ecommValues old ++ [comm] ∧
        ∀ comms, new = some comms → (InPlace.ecommsLength comms).toNat = (ecommValues old).length + 1)
  | .stripNonTransitive => ecommValues new = (ecommValues old).filter (·.transitive)

/-- Each of the changes ends and does what it should. -/
def KeepsEcomms : Option (Counted Ecomm) → List EcommChange → Prop
  | _, [] => True
  | old, change :: changes =>
    ∃ result new, ecommChange old change = .ok (result, new) ∧ EcommEffect old new result change ∧
      KeepsEcomms new changes

/-- An addition finds fewer than 255 elements. -/
def EcommsFit : List Ecomm → List EcommChange → Prop
  | _, [] => True
  | ecomms, .add comm :: changes => ecomms.length < 255 ∧ EcommsFit (ecomms ++ [comm]) changes
  | ecomms, .stripNonTransitive :: changes => EcommsFit (ecomms.filter (·.transitive)) changes

theorem bgpAttrEcommAppend_room {ecomms : Option (Counted Ecomm)} (comm : Ecomm)
    (room : (ecommValues ecomms).length < 255) :
    ∃ comms, InPlace.bgpAttrEcommAppend ecomms comm = .ok (0, comms) ∧
      comms.values = ecommValues ecomms ++ [comm] := by
  have values : (ecomms.getD InPlace.ecommsCreate).values = ecommValues ecomms := by
    cases ecomms <;> rfl
  have counts : ¬(ecomms.getD InPlace.ecommsCreate).num + 1 = 0 := by
    rw [Counted.succ_eq_zero, ← Counted.length_values, values]
    omega
  refine ⟨_, dif_neg counts, ?_⟩
  rw [Counted.values_push, values]

theorem bgpAttrEcommAppend_full {ecomms : Option (Counted Ecomm)} (comm : Ecomm)
    (full : ¬(ecommValues ecomms).length < 255) :
    InPlace.bgpAttrEcommAppend ecomms comm = .error .outside := by
  have values : (ecomms.getD InPlace.ecommsCreate).values = ecommValues ecomms := by
    cases ecomms <;> rfl
  refine dif_pos (Counted.succ_eq_zero.mpr ?_)
  have most := (ecomms.getD InPlace.ecommsCreate).length_values_le
  rw [values] at most
  rw [← Counted.length_values, values]
  omega

theorem keepsEcomms_iff (old : Option (Counted Ecomm)) (changes : List EcommChange) :
    KeepsEcomms old changes ↔ EcommsFit (ecommValues old) changes := by
  induction changes generalizing old with
  | nil => exact Iff.rfl
  | cons change changes inductionHypothesis =>
    cases change with
    | stripNonTransitive =>
      simp only [KeepsEcomms, EcommsFit, ← ecommValues_strip, ← inductionHypothesis]
      constructor
      · rintro ⟨result, new, changed, _, rest⟩
        cases changed
        exact rest
      · exact fun rest => ⟨0, _, rfl, ecommValues_strip old, rest⟩
    | add comm =>
      simp only [KeepsEcomms, EcommsFit]
      -- The count has eight bits: at 255 the addition wraps it, and the write is outside the block.
      by_cases room : (ecommValues old).length < 255
      · obtain ⟨comms, added, values⟩ := bgpAttrEcommAppend_room comm room
        have changed : ecommChange old (.add comm) = .ok (0, some comms) := by
          rw [ecommChange, added]
          rfl
        have held : ecommValues (some comms) = ecommValues old ++ [comm] := values
        rw [← held, ← inductionHypothesis]
        constructor
        · rintro ⟨result, new, changed', _, rest⟩
          rw [changed] at changed'
          cases changed'
          exact ⟨room, rest⟩
        · rintro ⟨_, rest⟩
          refine ⟨0, some comms, changed, .inr ⟨rfl, held, fun block same => ?_⟩, rest⟩
          cases same
          rw [InPlace.ecommsLength, ← Counted.length_values, values, List.length_append]
          rfl
      · constructor
        · rintro ⟨result, new, changed, _⟩
          rw [ecommChange, bgpAttrEcommAppend_full comm room] at changed
          cases changed
        · exact fun fits => absurd fits.1 room

/-- For every sequence of additions to the extended communities of a route, and of removals of the
non-transitive ones, each change does what it should exactly when no addition finds 255 elements. -/
theorem ecomms_kept_iff (changes : List EcommChange) : KeepsEcomms none changes ↔ EcommsFit [] changes :=
  keepsEcomms_iff none changes

theorem ecommsFit_adds (ecomms comms : List Ecomm) (short : ecomms.length ≤ 255) :
    EcommsFit ecomms (comms.map .add) ↔ ecomms.length + comms.length ≤ 255 := by
  induction comms generalizing ecomms with
  | nil => simpa [EcommsFit] using short
  | cons comm comms inductionHypothesis =>
    simp only [List.map_cons, EcommsFit, List.length_cons]
    by_cases room : ecomms.length < 255
    · rw [inductionHypothesis _ (by simp; omega)]
      simp only [room, true_and, List.length_append, List.length_singleton]
      omega
    · simp only [room, false_and, false_iff]
      omega

/-- The element of type 0 with the value 0. -/
def zeroEcomm : Ecomm where
  ianaAuthority := false
  transitive := true
  typeHigh := 0
  typeLow := 0
  value := Vector.replicate 6 0

/-- 256 additions. -/
theorem ecomms_overrun : ¬KeepsEcomms none ((List.replicate 256 zeroEcomm).map .add) := by
  intro kept
  have fits := (keepsEcomms_iff none _).mp kept
  rw [ecommsFit_adds _ _ (Nat.zero_le _), List.length_replicate] at fits
  cases Nat.not_le_of_gt (by decide) fits

end Cbgp.Verified
