import Cbgp.Lib.Counted
import Cbgp.Bgp.AttrRepository

/-! # AS-paths and Communities as blocks of memory

The functions of `bgp/attr/path.c`, `path_segment.c`, `comm.c` and `ecomm.c` that change a block behind
its count.  What they do to the values of the block is what the functions of the same names do in
`Bgp.Attr` and `Bgp.RouteMap`.  A failing allocation is left out; the library stops the program there.
-/

namespace Cbgp.Bgp

open Cbgp.Lib

/-- Why the program stopped: a write in front of the block, at the index -1. -/
inductive WriteFault where
  | outside
  deriving DecidableEq, Repr

/-! ## AS-paths -/

/-- `bgp_path_seg_t` in memory. -/
structure SegBlock where
  type : SegType
  asns : Counted Asn

/-- The segment in a block. -/
def SegBlock.value (seg : SegBlock) : PathSeg where
  type := seg.type
  asns := seg.asns.values
  short := seg.asns.length_values_le

/-- The AS-path in a list of blocks. -/
def pathValue (path : List SegBlock) : Path := path.map SegBlock.value

namespace InPlace

/-- `path_segment_remove_private`: the block afterwards, `none` when it was freed. -/
def pathSegmentRemovePrivate (seg : SegBlock) : Option SegBlock :=
  let (asns, resize) := seg.asns.deleteLoop (fun asn => asn ≥ 64512) 0 false
  if resize then
    if asns.num = 0 then none else some { seg with asns := asns.resize asns.num (Nat.le_refl _) }
  else some { seg with asns := asns }

/-- The loop of `path_remove_private`.  A segment that was changed where it stands is the one that its
pointer leads to, also when the pointer stays. -/
def pathRemovePrivateLoop (path : List SegBlock) (index : ℕ) : List SegBlock :=
  if inside : index < path.length then
    match pathSegmentRemovePrivate path[index] with
    | none => pathRemovePrivateLoop (path.eraseIdx index) index
    | some seg => pathRemovePrivateLoop (path.set index seg) (index + 1)
  else path
  termination_by path.length - index
  decreasing_by
    · rw [List.length_eraseIdx_of_lt inside]
      omega
    · rw [List.length_set]
      omega

/-- `path_remove_private`. -/
def pathRemovePrivate (path : List SegBlock) : List SegBlock := pathRemovePrivateLoop path 0

/-! ## Communities -/

/-- `comms_create`. -/
def commsCreate : Counted Comm := .empty

/-- `comms_dup`. -/
def commsDup (comms : Counted Comm) : Counted Comm := comms.resize comms.num (Nat.le_refl _)

/-- `comms_add`. -/
def commsAdd (comms : Counted Comm) (comm : Comm) : Except AttrFault (ℤ × Counted Comm) :=
  if room : comms.num.toNat < 255 then .ok (0, comms.push comm room) else .error .commsFull

/-- `comms_remove`. -/
def commsRemove (comms : Counted Comm) (comm : Comm) : Option (Counted Comm) :=
  comms.gather (· ≠ comm)

/-- The block that `bgp_attr_comm_append` interns, with the result of `comms_add`. -/
def bgpAttrCommAppend (comms : Option (Counted Comm)) (comm : Comm) : Except AttrFault (ℤ × Counted Comm) :=
  match comms with
  | none => commsAdd commsCreate comm
  | some comms => commsAdd (commsDup comms) comm

/-- The block that `bgp_attr_comm_remove` interns. -/
def bgpAttrCommRemove (comms : Option (Counted Comm)) (comm : Comm) : Option (Counted Comm) :=
  match comms with
  | none => none
  | some comms => commsRemove (commsDup comms) comm

/-! ## Extended communities -/

/-- `ecomms_create`. -/
def ecommsCreate : Counted Ecomm := .empty

/-- `ecomms_length`. -/
def ecommsLength (comms : Counted Ecomm) : UInt8 := comms.num

/-- `ecomms_add`.  The block is made larger by a cell before the count is increased; the index is the
count less one, which is no index when the count has wrapped around. -/
def ecommsAdd (comms : Counted Ecomm) (comm : Ecomm) : Except WriteFault (ℤ × Counted Ecomm) :=
  if wraps : comms.num + 1 = 0 then .error .outside
  else .ok (0, comms.push comm (Counted.room_of_succ wraps))

/-- `ecomms_strip_non_transitive`. -/
def ecommsStripNonTransitive (comms : Option (Counted Ecomm)) : Option (Counted Ecomm) :=
  comms.bind (·.gather (·.transitive))

/-- `bgp_attr_ecomm_append`, on the block of an attribute set. -/
def bgpAttrEcommAppend (ecomms : Option (Counted Ecomm)) (comm : Ecomm) :
    Except WriteFault (ℤ × Counted Ecomm) :=
  ecommsAdd (ecomms.getD ecommsCreate) comm

end InPlace

end Cbgp.Bgp
