import Cbgp.Lib.Intern
import Cbgp.Bgp.PathText
import Cbgp.Bgp.RouteMap
import Mathlib.Data.UInt

/-! # The repositories of AS-paths and Communities

The shared attributes of `bgp/attr.c` with `bgp/attr/path_hash.c` and `bgp/attr/comm_hash.c`.  The hash
sets come from a library outside the repository: an addition returns the element of the same bucket
that compares equal, or stores the new one, and references are counted.  An attribute set is the two
pointers into the repositories; the attributes that it owns alone are left out.
-/

namespace Cbgp.Bgp

open Cbgp.Lib

/-- Why the program stopped. -/
inductive AttrFault where
  | pathCopy -- the assertion of `_bgp_attr_path_copy`
  | pathSet -- the assertion of `bgp_attr_set_path`
  | commCopy -- the assertion of `_bgp_attr_comm_copy`
  | commSet -- the assertion of `bgp_attr_set_comm`
  | pathHash -- the assertion of `_path_hash_item_compute`
  | pathRemove -- the assertion of `path_hash_remove`
  | commHash -- the assertion of `_comm_hash_item_compute`
  | commHashNull -- `_comm_hash_item_compute_zebra` reads the length of `NULL`
  | commsFull -- the assertion of `comms_add`
  deriving DecidableEq, Repr

/-! ## Comparing -/

/-- The loop over the ASNs of `path_segment_cmp`. -/
def asnsCmp : List Asn → List Asn → ℤ
  | asn1 :: asns1, asn2 :: asns2 => if asn1 < asn2 then -1 else if asn1 > asn2 then 1 else asnsCmp asns1 asns2
  | _, _ => 0

/-- `path_segment_cmp`: the types are not compared. -/
def pathSegmentCmp (seg1 seg2 : PathSeg) : ℤ :=
  if seg1.asns.length < seg2.asns.length then -1
  else if seg1.asns.length > seg2.asns.length then 1
  else asnsCmp seg1.asns seg2.asns

/-- The loop over the segments of `path_cmp`. -/
def pathSegmentsCmp : Path → Path → ℤ
  | seg1 :: path1, seg2 :: path2 =>
    if pathSegmentCmp seg1 seg2 ≠ 0 then pathSegmentCmp seg1 seg2 else pathSegmentsCmp path1 path2
  | _, _ => 0

/-- `path_cmp`.  The test for equal pointers is left out: a path is equal to itself. -/
def pathCmp : Option Path → Option Path → ℤ
  | none, none => 0
  | none, some path2 => if path2.length = 0 then 0 else -1
  | some path1, none => if path1.length = 0 then 0 else 1
  | some path1, some path2 =>
    if path1.length < path2.length then -1
    else if path1.length > path2.length then 1
    else pathSegmentsCmp path1 path2

/-- The loop over the values of `comms_cmp`. -/
def commValuesCmp : List Comm → List Comm → ℤ
  | comm1 :: comms1, comm2 :: comms2 =>
    if comm1 < comm2 then -1 else if comm1 > comm2 then 1 else commValuesCmp comms1 comms2
  | _, _ => 0

/-- `comms_cmp`. -/
def commsCmp : Option (List Comm) → Option (List Comm) → ℤ
  | none, none => 0
  | none, some comms2 => if comms2.length = 0 then 0 else -1
  | some comms1, none => if comms1.length = 0 then 0 else 1
  | some comms1, some comms2 =>
    if comms1.length < comms2.length then -1
    else if comms1.length > comms2.length then 1
    else commValuesCmp comms1 comms2

/-! ## Hashing -/

/-- The type of a segment as a number. -/
def SegType.code : SegType → UInt32
  | .set => 1
  | .sequence => 2

/-- `path_hash_zebra`: the sum is not reduced to the size of the hash. -/
def pathHashZebra (path : Option Path) : UInt32 :=
  (path.getD []).foldl (fun hash seg =>
    seg.asns.foldl (fun hash (asn : Asn) => hash + (asn &&& 255).toUInt32 + (asn >>> 8).toUInt32)
      (hash + seg.type.code)) 0

/-- One byte in `path_hash_OAT`. -/
def oatMix (hash byte : UInt32) : UInt32 :=
  let hash := hash + byte
  let hash := hash + (hash <<< 10)
  hash ^^^ (hash >>> 6)

/-- `path_hash_OAT`. -/
def pathHashOat (path : Option Path) (size : ℕ) : ℕ :=
  let hash := (path.getD []).foldl (fun hash seg =>
    seg.asns.foldl (fun hash (asn : Asn) => oatMix (oatMix hash (asn &&& 255).toUInt32) (asn >>> 8).toUInt32)
      (oatMix hash seg.type.code)) 0
  let hash := hash + (hash <<< 3)
  let hash := hash ^^^ (hash >>> 11)
  let hash := hash + (hash <<< 15)
  hash.toNat % size

/-- The methods of the path repository; `path_hash_set_method` refuses the last one. -/
inductive PathHashMethod where
  | string
  | zebra
  | oat
  deriving DecidableEq, Repr

/-- The methods of the repository of Communities. -/
inductive CommHashMethod where
  | string
  | zebra
  deriving DecidableEq, Repr

/-- The parameters of the two hashes, and `hash_utils_key_compute_string`. -/
structure HashSettings where
  pathMethod : PathHashMethod
  pathSize : ℕ
  commMethod : CommHashMethod
  commSize : ℕ
  keyString : List Char → ℕ → ℕ

/-- The loop of `comm_to_string`. -/
def printComms : Bool → List Comm → Dst → Except PrintStop Dst
  | _, [], dst => .ok dst
  | first, comm :: comms, dst => do
    let digits := Nat.toDigits 10 comm.toNat
    let dst ← printText dst (if first then digits else ' ' :: digits)
    printComms false comms dst

/-- The text that `comm_to_string` writes into a local buffer of a size. -/
def commTextIn (size : ℕ) (comms : Option (List Comm)) : Option (List Char) :=
  match printComms true (comms.getD []) ⟨List.replicate size '\x00', 0, size⟩ with
  | .ok dst => some (cString dst.mem)
  | .error _ => none

/-- A byte of a community value, counted from the lowest. -/
def commByte (comm : Comm) (i : UInt32) : UInt32 := (comm >>> (8 * i)) &&& 255

/-- `_comm_hash_item_compute_zebra`: the sum of the bytes. -/
def commHashZebra (comms : List Comm) (size : ℕ) : ℕ :=
  (comms.map fun comm => commByte comm 0 + commByte comm 1 + commByte comm 2 + commByte comm 3).sum.toNat % size

section Repository

variable (settings : HashSettings)

/-- The hash of a path, by the method in use. -/
def pathHashCompute (path : Option Path) : Except AttrFault ℕ :=
  match settings.pathMethod with
  | .string =>
    match pathHashText path with
    | some text => .ok (settings.keyString text settings.pathSize)
    | none => .error .pathHash
  | .zebra => .ok (pathHashZebra path).toNat
  | .oat => .ok (pathHashOat path settings.pathSize)

/-- The hash of Communities, by the method in use. -/
def commHashCompute (comms : Option (List Comm)) : Except AttrFault ℕ :=
  match settings.commMethod with
  | .string =>
    match commTextIn 1024 comms with
    | some text => .ok (settings.keyString text settings.commSize)
    | none => .error .commHash
  | .zebra =>
    match comms with
    | some comms => .ok (commHashZebra comms settings.commSize)
    | none => .error .commHashNull

/-- Elements of the same bucket that compare equal. -/
def pathsAlike (path1 path2 : Option Path) : Bool :=
  (pathHashCompute settings path1).toOption = (pathHashCompute settings path2).toOption &&
    pathCmp path1 path2 = 0

/-- Elements of the same bucket that compare equal. -/
def commsAlike (comms1 comms2 : Option (List Comm)) : Bool :=
  (commHashCompute settings comms1).toOption = (commHashCompute settings comms2).toOption &&
    commsCmp comms1 comms2 = 0

/-! ## The repositories -/

/-- The pointers of a `bgp_attr_t` into the repositories. -/
structure AttrRefs where
  path : Ref Path
  comms : Ref (List Comm)
  deriving DecidableEq

/-- The repositories, the next address, and the attribute sets in the order of their creation; one that
was destroyed leaves its place. -/
structure Repository where
  paths : List (InternItem Path)
  comms : List (InternItem (List Comm))
  fresh : ℕ
  attrs : List (Option AttrRefs)

/-- Before the first route. -/
def Repository.empty : Repository where
  paths := []
  comms := []
  fresh := 0
  attrs := []

/-- `path_hash_add`. -/
def pathHashAdd (repo : Repository) (path : Ref Path) : Except AttrFault (Ref Path × Repository) := do
  let _ ← pathHashCompute settings path.value
  let (ref, paths) := addRef (pathsAlike settings) path repo.paths
  .ok (ref, { repo with paths := paths })

/-- `path_hash_remove`. -/
def pathHashRemove (repo : Repository) (path : Ref Path) : Except AttrFault Repository := do
  let _ ← pathHashCompute settings path.value
  match removeRef (pathsAlike settings) path repo.paths with
  | some paths => .ok { repo with paths := paths }
  | none => .error .pathRemove

/-- `comm_hash_add`. -/
def commHashAdd (repo : Repository) (comms : Ref (List Comm)) :
    Except AttrFault (Ref (List Comm) × Repository) := do
  let _ ← commHashCompute settings comms.value
  let (ref, items) := addRef (commsAlike settings) comms repo.comms
  .ok (ref, { repo with comms := items })

/-- `comm_hash_remove`, whose result is not looked at. -/
def commHashRemove (repo : Repository) (comms : Ref (List Comm)) : Except AttrFault Repository := do
  let _ ← commHashCompute settings comms.value
  match removeRef (commsAlike settings) comms repo.comms with
  | some items => .ok { repo with comms := items }
  | none => .ok repo

/-! ## The AS-path of an attribute set -/

/-- `_bgp_attr_path_copy`. -/
def attrPathCopy (repo : Repository) (path : Ref Path) : Except AttrFault (Ref Path × Repository) := do
  let (ref, repo) ← pathHashAdd settings repo path
  if ref = path then .ok (ref, repo) else .error .pathCopy

/-- `_bgp_attr_path_destroy`. -/
def attrPathDestroy (repo : Repository) (path : Ref Path) : Except AttrFault Repository :=
  match path with
  | some _ => pathHashRemove settings repo path
  | none => .ok repo

/-- `bgp_attr_set_path`: the pointer in place of `old`, for a path that is a new object or `NULL`. -/
def attrSetPath (repo : Repository) (old : Ref Path) (path : Option Path) :
    Except AttrFault (Ref Path × Repository) := do
  let repo ← attrPathDestroy settings repo old
  match path with
  | none => .ok (none, repo)
  | some path =>
    let (ref, repo) ← pathHashAdd settings { repo with fresh := repo.fresh + 1 } (some ⟨repo.fresh, path⟩)
    if ref = none then .error .pathSet else .ok (ref, repo)

/-- `bgp_attr_path_prepend`, with its result. -/
def attrPathPrepend (repo : Repository) (old : Ref Path) (asn : Asn) (amount : ℕ) :
    Except AttrFault (ℤ × Ref Path × Repository) :=
  match pathAppendTimes asn amount (old.value.getD []) with
  | none => .ok (-1, old, repo)
  | some path => do
    let (ref, repo) ← attrSetPath settings repo old (some path)
    .ok (0, ref, repo)

/-- `bgp_attr_path_rem_private`. -/
def attrPathRemPrivate (repo : Repository) (old : Ref Path) : Except AttrFault (Ref Path × Repository) :=
  attrSetPath settings repo old (some (pathRemovePrivate (old.value.getD [])))

/-! ## The Communities of an attribute set -/

/-- `_bgp_attr_comm_copy`. -/
def attrCommCopy (repo : Repository) (comms : Ref (List Comm)) :
    Except AttrFault (Ref (List Comm) × Repository) := do
  let (ref, repo) ← commHashAdd settings repo comms
  if ref = comms then .ok (ref, repo) else .error .commCopy

/-- `_bgp_attr_comm_destroy`, which is also `bgp_attr_comm_strip`. -/
def attrCommDestroy (repo : Repository) (comms : Ref (List Comm)) : Except AttrFault Repository :=
  match comms with
  | some _ => commHashRemove settings repo comms
  | none => .ok repo

/-- `bgp_attr_set_comm`. -/
def attrSetComm (repo : Repository) (old : Ref (List Comm)) (comms : Option (List Comm)) :
    Except AttrFault (Ref (List Comm) × Repository) := do
  let repo ← attrCommDestroy settings repo old
  match comms with
  | none => .ok (none, repo)
  | some comms =>
    let (ref, repo) ← commHashAdd settings { repo with fresh := repo.fresh + 1 } (some ⟨repo.fresh, comms⟩)
    if ref = none then .error .commSet else .ok (ref, repo)

/-- `bgp_attr_comm_append`. -/
def attrCommAppend (repo : Repository) (old : Ref (List Comm)) (comm : Comm) :
    Except AttrFault (Ref (List Comm) × Repository) :=
  match commsAdd (old.value.getD []) comm with
  | .ok comms => attrSetComm settings repo old (some comms)
  | .error _ => .error .commsFull

/-- `bgp_attr_comm_remove`. -/
def attrCommRemove (repo : Repository) (old : Ref (List Comm)) (comm : Comm) :
    Except AttrFault (Ref (List Comm) × Repository) :=
  match old.value with
  | none => .ok (old, repo)
  | some comms => attrSetComm settings repo old (commsRemove comms comm)

/-! ## Operations on attribute sets -/

/-- An operation; an attribute set is known by its place. -/
inductive AttrOp where
  | create -- `bgp_attr_create`
  | copy (i : ℕ) -- `bgp_attr_copy`
  | setPath (i : ℕ) (path : Option Path)
  | pathPrepend (i : ℕ) (asn : Asn) (amount : UInt8)
  | pathRemPrivate (i : ℕ)
  | commAppend (i : ℕ) (comm : Comm)
  | commRemove (i : ℕ) (comm : Comm)
  | commStrip (i : ℕ)
  | destroy (i : ℕ) -- `bgp_attr_destroy`

namespace Repository

/-- The attribute set in a place. -/
def attrAt (repo : Repository) (i : ℕ) : Option AttrRefs := (repo.attrs[i]?).join

/-- Replace the pointers in a place. -/
def put (repo : Repository) (i : ℕ) (refs : Option AttrRefs) : Repository :=
  { repo with attrs := repo.attrs.set i refs }

end Repository

/-- `bgp_attr_copy`. -/
def attrCopy (repo : Repository) (refs : AttrRefs) : Except AttrFault Repository := do
  let (path, repo) ← attrPathCopy settings repo refs.path
  let (comms, repo) ← attrCommCopy settings repo refs.comms
  .ok { repo with attrs := repo.attrs ++ [some ⟨path, comms⟩] }

/-- `bgp_attr_destroy`. -/
def attrDestroy (repo : Repository) (i : ℕ) (refs : AttrRefs) : Except AttrFault Repository := do
  let repo ← attrPathDestroy settings repo refs.path
  let repo ← attrCommDestroy settings repo refs.comms
  .ok (repo.put i none)

/-- Put a new AS-path pointer in its place. -/
def putPath (repo : Repository) (i : ℕ) (refs : AttrRefs) (path : Ref Path) : Repository :=
  repo.put i (some { refs with path := path })

/-- Put a new Communities pointer in its place. -/
def putComms (repo : Repository) (i : ℕ) (refs : AttrRefs) (comms : Ref (List Comm)) : Repository :=
  repo.put i (some { refs with comms := comms })

/-- An operation on the attribute set in a place. -/
def attrOp (repo : Repository) (i : ℕ) (refs : AttrRefs) : AttrOp → Except AttrFault Repository
  | .create => .ok repo
  | .copy _ => attrCopy settings repo refs
  | .setPath _ path => (attrSetPath settings repo refs.path path).map fun (ref, repo) => putPath repo i refs ref
  | .pathPrepend _ asn amount =>
    (attrPathPrepend settings repo refs.path asn amount.toNat).map fun (_, ref, repo) => putPath repo i refs ref
  | .pathRemPrivate _ =>
    (attrPathRemPrivate settings repo refs.path).map fun (ref, repo) => putPath repo i refs ref
  | .commAppend _ comm =>
    (attrCommAppend settings repo refs.comms comm).map fun (ref, repo) => putComms repo i refs ref
  | .commRemove _ comm =>
    (attrCommRemove settings repo refs.comms comm).map fun (ref, repo) => putComms repo i refs ref
  | .commStrip _ => (attrCommDestroy settings repo refs.comms).map fun repo => putComms repo i refs none
  | .destroy _ => attrDestroy settings repo i refs

/-- The place an operation is about. -/
def AttrOp.place : AttrOp → Option ℕ
  | .create => none
  | .copy i | .setPath i _ | .pathPrepend i _ _ | .pathRemPrivate i | .commAppend i _ | .commRemove i _
  | .commStrip i | .destroy i => some i

/-- One step.  Without an attribute set in the place nothing is done. -/
def attrStep (repo : Repository) (op : AttrOp) : Except AttrFault Repository :=
  match op.place with
  | none => .ok { repo with attrs := repo.attrs ++ [some ⟨none, none⟩] }
  | some i =>
    match repo.attrAt i with
    | none => .ok repo
    | some refs => attrOp settings repo i refs op

end Repository

end Cbgp.Bgp
