import Cbgp.Bgp.Types

/-! # Equality of attributes

`bgp_attr_cmp` and `route_equals` are equivalence relations.  They are right about everything but the
members of AS-sets, of which they compare the number only (`SameButSets`).
-/

namespace Cbgp.Verified

open Cbgp.Net Cbgp.Bgp

/-! ## What is compared -/

/-- Same type and length, and the same ASNs in a SEQUENCE. -/
def Resembles (seg1 seg2 : PathSeg) : Prop :=
  seg1.type = seg2.type ∧ seg1.asns.length = seg2.asns.length ∧
    (seg1.type = .sequence → seg1.asns = seg2.asns)

/-- Same attributes, AS-sets being compared by their length. -/
structure SameButSets (attr1 attr2 : Attr) : Prop where
  nextHop : attr1.nextHop = attr2.nextHop
  origin : attr1.origin = attr2.origin
  localPref : attr1.localPref = attr2.localPref
  med : attr1.med = attr2.med
  path : List.Forall₂ Resembles (attr1.path.getD []) (attr2.path.getD [])
  comms : attr1.comms = attr2.comms
  ecomms : attr1.ecomms = attr2.ecomms
  originator : attr1.originator = attr2.originator
  clusterList : attr1.clusterList = attr2.clusterList

/-- Two AS-sets of one length in the same position have the same members. -/
def SetsAgree (path1 path2 : Option Path) : Prop :=
  ∀ (i : ℕ) (seg1 seg2 : PathSeg), (path1.getD [])[i]? = some seg1 → (path2.getD [])[i]? = some seg2 →
    seg1.type = .set → seg2.type = .set → seg1.asns.length = seg2.asns.length →
    ∀ asn, asn ∈ seg1.asns ↔ asn ∈ seg2.asns

theorem Resembles.refl (seg : PathSeg) : Resembles seg seg := ⟨rfl, rfl, fun _ => rfl⟩

theorem Resembles.symm {seg1 seg2 : PathSeg} (alike : Resembles seg1 seg2) : Resembles seg2 seg1 :=
  ⟨alike.1.symm, alike.2.1.symm, fun kind => (alike.2.2 (alike.1.trans kind)).symm⟩

theorem Resembles.trans {seg1 seg2 seg3 : PathSeg} (alike : Resembles seg1 seg2)
    (alike' : Resembles seg2 seg3) : Resembles seg1 seg3 :=
  ⟨alike.1.trans alike'.1, alike.2.1.trans alike'.2.1,
    fun kind => (alike.2.2 kind).trans (alike'.2.2 (alike.1.symm.trans kind))⟩

theorem pathSegmentEquals_iff (seg1 seg2 : PathSeg) :
    pathSegmentEquals seg1 seg2 = true ↔ Resembles seg1 seg2 := by
  simp only [pathSegmentEquals, Resembles]
  by_cases differs : seg1.type ≠ seg2.type ∨ seg1.asns.length ≠ seg2.asns.length
  · rw [if_pos differs]
    simp only [Bool.false_eq_true, false_iff]
    rintro ⟨types, lengths, _⟩
    cases differs with
    | inl other => exact other types
    | inr other => exact other lengths
  · rw [if_neg differs]
    push Not at differs
    cases kind : seg1.type with
    | sequence => simp [← differs.1, kind, differs.2]
    | set => simp [← differs.1, kind, differs.2]

theorem pathSegmentsEqual_iff {path1 path2 : Path} (lengths : path1.length = path2.length) :
    pathSegmentsEqual path1 path2 = true ↔ List.Forall₂ Resembles path1 path2 := by
  induction path1 generalizing path2 with
  | nil =>
    rw [List.length_nil] at lengths
    rw [List.length_eq_zero_iff.mp lengths.symm]
    simp [pathSegmentsEqual]
  | cons seg1 path1 inductionHypothesis =>
    cases path2 with
    | nil => cases lengths
    | cons seg2 path2 =>
      rw [pathSegmentsEqual, Bool.and_eq_true, pathSegmentEquals_iff, List.forall₂_cons,
        inductionHypothesis (Nat.succ.inj lengths)]

theorem pathEquals_iff (path1 path2 : Option Path) :
    pathEquals path1 path2 = true ↔ List.Forall₂ Resembles (path1.getD []) (path2.getD []) := by
  by_cases lengths : pathNumSegments path1 = pathNumSegments path2
  · rw [pathEquals, if_neg (fun differs => differs lengths), pathSegmentsEqual_iff lengths]
  · rw [pathEquals, if_pos lengths]
    simp only [Bool.false_eq_true, false_iff]
    exact fun alike => lengths alike.length_eq

theorem bgpAttrCmp_iff (attr1 attr2 : Attr) : bgpAttrCmp attr1 attr2 = true ↔ SameButSets attr1 attr2 := by
  simp only [bgpAttrCmp, Bool.and_eq_true, decide_eq_true_eq, pathEquals_iff]
  constructor
  · rintro ⟨⟨⟨⟨⟨⟨⟨⟨nextHop, localPref⟩, path⟩, origin⟩, med⟩, comms⟩, ecomms⟩, originator⟩, clusterList⟩
    exact ⟨nextHop, origin, localPref, med, path, comms, ecomms, originator, clusterList⟩
  · intro same
    exact ⟨⟨⟨⟨⟨⟨⟨⟨same.nextHop, same.localPref⟩, same.path⟩, same.origin⟩, same.med⟩, same.comms⟩,
      same.ecomms⟩, same.originator⟩, same.clusterList⟩

/-! ## Equivalence -/

theorem forall₂_resembles_trans {path1 path2 path3 : Path} (alike : List.Forall₂ Resembles path1 path2)
    (alike' : List.Forall₂ Resembles path2 path3) : List.Forall₂ Resembles path1 path3 := by
  induction alike generalizing path3 with
  | nil => exact alike'
  | cons first _ inductionHypothesis =>
    cases alike' with
    | cons first' rest => exact .cons (first.trans first') (inductionHypothesis rest)

theorem bgpAttrCmp_equivalence : Equivalence fun attr1 attr2 => bgpAttrCmp attr1 attr2 = true where
  refl attr := (bgpAttrCmp_iff attr attr).mpr
    ⟨rfl, rfl, rfl, rfl, List.forall₂_same.mpr fun seg _ => Resembles.refl seg, rfl, rfl, rfl, rfl⟩
  symm {attr1 attr2} equals := by
    have same := (bgpAttrCmp_iff attr1 attr2).mp equals
    exact (bgpAttrCmp_iff attr2 attr1).mpr
      ⟨same.nextHop.symm, same.origin.symm, same.localPref.symm, same.med.symm,
        same.path.flip.imp fun _ _ => Resembles.symm, same.comms.symm, same.ecomms.symm,
        same.originator.symm, same.clusterList.symm⟩
  trans {attr1 attr2 attr3} equals equals' := by
    have same := (bgpAttrCmp_iff attr1 attr2).mp equals
    have same' := (bgpAttrCmp_iff attr2 attr3).mp equals'
    exact (bgpAttrCmp_iff attr1 attr3).mpr
      ⟨same.nextHop.trans same'.nextHop, same.origin.trans same'.origin,
        same.localPref.trans same'.localPref, same.med.trans same'.med,
        forall₂_resembles_trans same.path same'.path, same.comms.trans same'.comms,
        same.ecomms.trans same'.ecomms, same.originator.trans same'.originator,
        same.clusterList.trans same'.clusterList⟩

theorem routeEquals_iff (route1 route2 : Route) :
    routeEquals route1 route2 = true ↔
      ipPrefixMask route1.pfx = ipPrefixMask route2.pfx ∧ bgpAttrCmp route1.attr route2.attr = true := by
  rw [routeEquals, Bool.and_eq_true, ipPrefixEq_iff]

theorem routeEquals_equivalence : Equivalence fun route1 route2 => routeEquals route1 route2 = true where
  refl route := (routeEquals_iff route route).mpr ⟨rfl, bgpAttrCmp_equivalence.refl route.attr⟩
  symm {route1 route2} equals := by
    obtain ⟨pfx, attr⟩ := (routeEquals_iff route1 route2).mp equals
    exact (routeEquals_iff route2 route1).mpr ⟨pfx.symm, bgpAttrCmp_equivalence.symm attr⟩
  trans {route1 route2 route3} equals equals' := by
    obtain ⟨pfx, attr⟩ := (routeEquals_iff route1 route2).mp equals
    obtain ⟨pfx', attr'⟩ := (routeEquals_iff route2 route3).mp equals'
    exact (routeEquals_iff route1 route3).mpr ⟨pfx.trans pfx', bgpAttrCmp_equivalence.trans attr attr'⟩

/-! ## Soundness -/

/-- Segments that resemble each other are the same when it is so of the sets. -/
theorem samePath_iff {path1 path2 : Option Path}
    (alike : List.Forall₂ Resembles (path1.getD []) (path2.getD [])) :
    samePath path1 path2 ↔ SetsAgree path1 path2 := by
  simp only [samePath, SetsAgree]
  generalize path1.getD [] = segs1 at alike ⊢
  generalize path2.getD [] = segs2 at alike ⊢
  induction alike with
  | nil => simp
  | @cons seg1 seg2 segs1 segs2 first _ inductionHypothesis =>
    rw [List.forall₂_cons, inductionHypothesis]
    constructor
    · rintro ⟨same, rest⟩ i seg seg' here here' kind kind' lengths
      cases i with
      | succ i => exact rest i seg seg' here here' kind kind' lengths
      | zero =>
        cases here
        cases here'
        have members := same.2
        rwa [kind] at members
    · intro agree
      refine ⟨⟨first.1, ?_⟩, fun i => agree (i + 1)⟩
      cases kind : seg1.type with
      | sequence => exact first.2.2 kind
      | set => exact agree 0 seg1 seg2 rfl rfl kind (first.1.symm.trans kind) first.2.1

theorem same_iff {attr1 attr2 : Attr} (alike : SameButSets attr1 attr2) :
    attr1.Same attr2 ↔ SetsAgree attr1.path attr2.path := by
  rw [← samePath_iff alike.path]
  exact ⟨fun same => same.path, fun path => ⟨alike.nextHop, alike.origin, alike.localPref, alike.med, path,
    alike.comms, alike.ecomms, alike.originator, alike.clusterList⟩⟩

/-- Equivalence relations, that take attributes for equal only if they are so, exactly when AS-sets that
are compared by their length have the same members. -/
theorem attributes_equal_iff (attr1 attr2 : Attr) (route1 route2 : Route) :
    (Equivalence fun attr1 attr2 => bgpAttrCmp attr1 attr2 = true) ∧
    (Equivalence fun route1 route2 => routeEquals route1 route2 = true) ∧
    ((bgpAttrCmp attr1 attr2 = true → attr1.Same attr2) ↔
      (SameButSets attr1 attr2 → SetsAgree attr1.path attr2.path)) ∧
    ((routeEquals route1 route2 = true →
        ipPrefixMask route1.pfx = ipPrefixMask route2.pfx ∧ route1.attr.Same route2.attr) ↔
      (ipPrefixMask route1.pfx = ipPrefixMask route2.pfx → SameButSets route1.attr route2.attr →
        SetsAgree route1.attr.path route2.attr.path)) := by
  refine ⟨bgpAttrCmp_equivalence, routeEquals_equivalence, ?_, ?_⟩
  · rw [bgpAttrCmp_iff]
    exact forall_congr' fun alike => same_iff alike
  · rw [routeEquals_iff, bgpAttrCmp_iff]
    constructor
    · intro sound pfx alike
      exact (same_iff alike).mp (sound ⟨pfx, alike⟩).2
    · rintro agree ⟨pfx, alike⟩
      exact ⟨pfx, (same_iff alike).mpr (agree pfx alike)⟩

/-- Attributes with an AS-set of two ASNs. -/
def setAttr (asn1 asn2 : Asn) : Attr :=
  { bgpAttrCreate 0 .igp 0 0 with path := some [⟨.set, [asn1, asn2], by simp [maxPathSequenceLength]⟩] }

/-- Another set of the same size. -/
theorem setAttr_confused : ¬ (bgpAttrCmp (setAttr 1 2) (setAttr 3 4) = true → (setAttr 1 2).Same (setAttr 3 4)) := by
  intro sound
  have same := (sound (by decide)).path
  have same : List.Forall₂ PathSeg.Same [_] [_] := same
  cases same with
  | cons first _ =>
    have member := (first.2 1).mp (by decide)
    revert member
    decide

end Cbgp.Verified
