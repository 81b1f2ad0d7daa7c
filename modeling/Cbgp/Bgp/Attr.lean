import Cbgp.Net.Prefix

/-! # Route attributes

The attributes of `bgp/attr.c`, `bgp/attr/` and `bgp/route_reflector.c`: AS-paths, communities,
extended communities, originator and cluster-list, with the operations that route selection and
dissemination use.  A pointer that may be `NULL` is an `Option`.
-/

namespace Cbgp.Bgp

open Cbgp.Net

/-! ## Fatal ends -/

/-- Why the program stopped: each `abort()` and each failed `assert()` of the modelled code. -/
inductive Abort where
  | pathLastAs -- `path_last_as`: last segment is a SET or an empty SEQUENCE
  | commsFull -- `comms_add`: 255 values already
  | ecommsOutside -- `ecomms_add`: 255 values already, the count wraps around and is no index
  | originatorSet -- `route_originator_set`: already set
  | ecommRedAction -- `bgp_router_ecomm_process`: unknown redistribution action
  | filter -- an assertion inside a route filter
  | igpCost -- `_dp_rule_igp_cost`: next-hop not in the routing table
  | dpRuleUnset -- a slot of `DP_RULES` without a rule was called
  | dpNotSingle -- `_bgp_router_decision_process_run`: several routes left
  | rtAddRoute -- `_bgp_router_rt_add_route_error`
  | rtDelRoute -- assertion of `bgp_router_rt_del_route`
  | openFromVirtual
  | openInState
  | closeFromVirtual
  | updateInState
  | withdrawInState
  | ribRemove -- `rib_remove_route` asserted to succeed
  | refresh -- assertions of `bgp_peer_session_refresh`
  | danglingPeer -- a route names a peer the router does not have
  | danglingRoute -- a candidate is no longer in its Adj-RIB-In
  deriving DecidableEq, Repr

/-! ## AS-paths -/

/-- `asn_t`. -/
abbrev Asn := UInt16

inductive SegType where
  | set
  | sequence
  deriving DecidableEq, Repr

/-- `MAX_PATH_SEQUENCE_LENGTH`. -/
def maxPathSequenceLength : Nat := 255

/-- `bgp_path_seg_t`.  The length is a byte. -/
structure PathSeg where
  type : SegType
  asns : List Asn
  short : asns.length ≤ maxPathSequenceLength
  deriving DecidableEq

/-- `bgp_path_t`: the segments, the most recent one last. -/
abbrev Path := List PathSeg

/-- `path_segment_contains`. -/
def pathSegmentContains (seg : PathSeg) (asn : Asn) : Bool :=
  seg.asns.contains asn

/-- `path_segment_equals`.  The SET branch tests `path_segment_contains(..) < -1`, which no result
of that function meets: sets of one length are equal whatever they hold. -/
def pathSegmentEquals (seg1 seg2 : PathSeg) : Bool :=
  if seg1.type ≠ seg2.type ∨ seg1.asns.length ≠ seg2.asns.length then false
  else
    match seg1.type with
    | .sequence => seg1.asns = seg2.asns
    | .set => true

/-- `path_num_segments`. -/
def pathNumSegments (path : Option Path) : Nat :=
  (path.getD []).length

/-- `path_length`: a SEQUENCE counts its hops, a SET counts for one. -/
def pathLength (path : Option Path) : Nat :=
  ((path.getD []).map fun seg =>
    match seg.type with
    | .sequence => seg.asns.length
    | .set => 1).sum

/-- `path_contains`. -/
def pathContains (path : Option Path) (asn : Asn) : Bool :=
  (path.getD []).any fun seg => pathSegmentContains seg asn

/-- The loop of `path_equals` over two paths with the same number of segments. -/
def pathSegmentsEqual : Path → Path → Bool
  | seg1 :: path1, seg2 :: path2 => pathSegmentEquals seg1 seg2 && pathSegmentsEqual path1 path2
  | _, _ => true

/-- `path_equals`. -/
def pathEquals (path1 path2 : Option Path) : Bool :=
  if pathNumSegments path1 ≠ pathNumSegments path2 then false
  else pathSegmentsEqual (path1.getD []) (path2.getD [])

/-- `path_last_as`: the neighbour AS, `-1` for a path without hops. -/
def pathLastAs (path : Option Path) : Except Abort Int :=
  if pathLength path = 0 then .ok (-1)
  else
    match (path.getD []).getLast? with
    | none => .ok (-1)
    | some seg =>
      match seg.type, seg.asns.getLast? with
      | .sequence, some asn => .ok asn.toNat
      | _, _ => .error .pathLastAs

/-- The segment a path starts with, and a SET is followed by: a SEQUENCE of one hop. -/
def sequenceOf (asn : Asn) : PathSeg where
  type := .sequence
  asns := [asn]
  short := by simp [maxPathSequenceLength]

/-- `path_segment_add`; `none` is the `-1` of a full segment. -/
def pathSegmentAdd (seg : PathSeg) (asn : Asn) : Option PathSeg :=
  if h : seg.asns.length < maxPathSequenceLength then
    some {
      type := seg.type
      asns := seg.asns ++ [asn]
      short := by simpa using Nat.succ_le_of_lt h }
  else none

/-- `path_append`: add one hop at the recent end. -/
def pathAppend : Path → Asn → Option Path
  | [], asn => some [sequenceOf asn]
  | [seg], asn =>
    match seg.type with
    | .sequence => (pathSegmentAdd seg asn).map fun grown => [grown]
    | .set => some [seg, sequenceOf asn]
  | seg :: path, asn => (pathAppend path asn).map (seg :: ·)

/-! ## Communities -/

/-- `bgp_comm_t`. -/
abbrev Comm := UInt32

def commNoExport : Comm := 0xffffff01
def commNoAdvertise : Comm := 0xffffff02

/-- `comms_contains`. -/
def commsContains (comms : Option (List Comm)) (comm : Comm) : Bool :=
  (comms.getD []).contains comm

/-- `comms_add`. -/
def commsAdd (comms : List Comm) (comm : Comm) : Except Abort (List Comm) :=
  if comms.length < 255 then .ok (comms ++ [comm]) else .error .commsFull

/-- `bgp_ecomm_t`. -/
structure Ecomm where
  ianaAuthority : Bool
  transitive : Bool
  typeHigh : UInt8
  typeLow : UInt8
  value : Vector UInt8 6
  deriving DecidableEq

/-- `ECOMM_RED`. -/
def ecommRed : UInt8 := 3

/-- `ECOMM_RED_FILTER_AS`. -/
def ecommRedFilterAs : UInt8 := 0

/-- `ecomm_red_match`: only the AS filter is implemented; the ASN lies in bytes 4 and 5, lowest
byte first. -/
def ecommRedMatch (comm : Ecomm) (asn : Asn) : Bool :=
  comm.value[0] = ecommRedFilterAs &&
    comm.value[4].toUInt16 + comm.value[5].toUInt16 * 256 = asn

/-- `ecomms_strip_non_transitive`. -/
def ecommsStripNonTransitive (comms : Option (List Ecomm)) : Option (List Ecomm) :=
  match comms with
  | none => none
  | some comms =>
    let kept := comms.filter (·.transitive)
    if kept.length = comms.length then some comms
    else if kept.isEmpty then none
    else some kept

/-! ## Attribute sets -/

/-- `bgp_origin_t`. -/
inductive Origin where
  | igp
  | egp
  | incomplete
  deriving DecidableEq, Repr

def Origin.code : Origin → Nat
  | .igp => 0
  | .egp => 1
  | .incomplete => 2

/-- `bgp_attr_t`. -/
structure Attr where
  nextHop : NetAddr
  origin : Origin
  localPref : UInt32
  med : UInt32
  path : Option Path
  comms : Option (List Comm)
  ecomms : Option (List Ecomm)
  originator : Option NetAddr
  clusterList : Option (List NetAddr)
  deriving DecidableEq

/-- `bgp_attr_create`. -/
def bgpAttrCreate (nextHop : NetAddr) (origin : Origin) (localPref med : UInt32) : Attr where
  nextHop := nextHop
  origin := origin
  localPref := localPref
  med := med
  path := none
  comms := none
  ecomms := none
  originator := none
  clusterList := none

/-- `bgp_attr_cmp`. -/
def bgpAttrCmp (attr1 attr2 : Attr) : Bool :=
  attr1.nextHop = attr2.nextHop && attr1.localPref = attr2.localPref &&
  pathEquals attr1.path attr2.path && attr1.origin = attr2.origin && attr1.med = attr2.med &&
  attr1.comms = attr2.comms && attr1.ecomms = attr2.ecomms &&
  attr1.originator = attr2.originator && attr1.clusterList = attr2.clusterList

/-- The loop of `bgp_attr_path_prepend`. -/
def pathAppendTimes (asn : Asn) : Nat → Path → Option Path
  | 0, path => some path
  | amount + 1, path => (pathAppend path asn).bind (pathAppendTimes asn amount)

/-- `bgp_attr_path_prepend`.  `intern` gives the path the repository holds for a path; on a full
segment the attributes stay as they were. -/
def bgpAttrPathPrepend (intern : Path → Path) (attr : Attr) (asn : Asn) (amount : Nat) : Attr :=
  match pathAppendTimes asn amount (attr.path.getD []) with
  | none => attr
  | some path => { attr with path := some (intern path) }

/-- `bgp_attr_comm_append`. -/
def bgpAttrCommAppend (attr : Attr) (comm : Comm) : Except Abort Attr := do
  let comms ← commsAdd (attr.comms.getD []) comm
  .ok { attr with comms := some comms }

/-! ## What equal attributes means

`bgp_attr_cmp` is the code's test.  `PathSeg.Same`, `samePath` and `Attr.Same` are what it is for:
equal values, a SET being equal to any SET with the same members. -/

/-- Same segment: the same sequence, or two sets with the same members. -/
def PathSeg.Same (seg1 seg2 : PathSeg) : Prop :=
  seg1.type = seg2.type ∧
    match seg1.type with
    | .sequence => seg1.asns = seg2.asns
    | .set => ∀ asn, asn ∈ seg1.asns ↔ asn ∈ seg2.asns

/-- Same AS-path: segment by segment, no path being the same as an empty one. -/
def samePath (path1 path2 : Option Path) : Prop :=
  List.Forall₂ PathSeg.Same (path1.getD []) (path2.getD [])

/-- Same attributes. -/
structure Attr.Same (attr1 attr2 : Attr) : Prop where
  nextHop : attr1.nextHop = attr2.nextHop
  origin : attr1.origin = attr2.origin
  localPref : attr1.localPref = attr2.localPref
  med : attr1.med = attr2.med
  path : samePath attr1.path attr2.path
  comms : attr1.comms = attr2.comms
  ecomms : attr1.ecomms = attr2.ecomms
  originator : attr1.originator = attr2.originator
  clusterList : attr1.clusterList = attr2.clusterList

theorem PathSeg.same_refl (seg : PathSeg) : seg.Same seg := by
  refine ⟨rfl, ?_⟩
  cases seg.type with
  | sequence => rfl
  | set => exact fun _ => Iff.rfl

theorem PathSeg.same_symm {seg1 seg2 : PathSeg} (same : seg1.Same seg2) : seg2.Same seg1 := by
  obtain ⟨types, members⟩ := same
  refine ⟨types.symm, ?_⟩
  rw [types] at members
  cases kind : seg2.type with
  | sequence =>
    simp only [kind] at members
    exact members.symm
  | set =>
    simp only [kind] at members
    exact fun asn => (members asn).symm

theorem PathSeg.same_trans {seg1 seg2 seg3 : PathSeg} (first : seg1.Same seg2)
    (second : seg2.Same seg3) : seg1.Same seg3 := by
  obtain ⟨types, members⟩ := first
  obtain ⟨types', members'⟩ := second
  refine ⟨types.trans types', ?_⟩
  rw [← types] at members'
  cases kind : seg1.type with
  | sequence =>
    simp only [kind] at members members'
    exact members.trans members'
  | set =>
    simp only [kind] at members members'
    exact fun asn => (members asn).trans (members' asn)

theorem Attr.same_refl (attr : Attr) : attr.Same attr where
  nextHop := rfl
  origin := rfl
  localPref := rfl
  med := rfl
  path := List.forall₂_same.mpr fun seg _ => seg.same_refl
  comms := rfl
  ecomms := rfl
  originator := rfl
  clusterList := rfl

theorem Attr.same_symm {attr1 attr2 : Attr} (same : attr1.Same attr2) : attr2.Same attr1 where
  nextHop := same.nextHop.symm
  origin := same.origin.symm
  localPref := same.localPref.symm
  med := same.med.symm
  path := same.path.flip.imp fun _ _ h => PathSeg.same_symm h
  comms := same.comms.symm
  ecomms := same.ecomms.symm
  originator := same.originator.symm
  clusterList := same.clusterList.symm

theorem samePath_trans {path1 path2 path3 : Option Path} (first : samePath path1 path2)
    (second : samePath path2 path3) : samePath path1 path3 := by
  unfold samePath at *
  revert first second
  generalize path1.getD [] = segs1
  generalize path2.getD [] = segs2
  generalize path3.getD [] = segs3
  intro first second
  induction first generalizing segs3 with
  | nil => exact second
  | cons same _ inductionHypothesis =>
    cases second with
    | cons same' rest => exact .cons (PathSeg.same_trans same same') (inductionHypothesis _ rest)

theorem Attr.same_trans {attr1 attr2 attr3 : Attr} (first : attr1.Same attr2)
    (second : attr2.Same attr3) : attr1.Same attr3 where
  nextHop := first.nextHop.trans second.nextHop
  origin := first.origin.trans second.origin
  localPref := first.localPref.trans second.localPref
  med := first.med.trans second.med
  path := samePath_trans first.path second.path
  comms := first.comms.trans second.comms
  ecomms := first.ecomms.trans second.ecomms
  originator := first.originator.trans second.originator
  clusterList := first.clusterList.trans second.clusterList

end Cbgp.Bgp
