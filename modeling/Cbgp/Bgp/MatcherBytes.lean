import Cbgp.Bgp.Filter

/-! # Matchers in memory

The blocks of bytes of `bgp/filter/filter.c`: a packed header of a code and a size, then the parameters.
The operands of a compound lie one after the other in its parameters, each with its header, and the
second is found behind the size of the first.  A pointer is the memory from it on.
-/

namespace Cbgp.Bgp

open Cbgp.Net

/-! ## Words -/

/-- The bytes of a 32-bit word, the lowest first. -/
def wordBytes (word : UInt32) : List UInt8 :=
  [UInt8.ofNat word.toNat, UInt8.ofNat (word.toNat / 256), UInt8.ofNat (word.toNat / 65536),
    UInt8.ofNat (word.toNat / 16777216)]

/-- The word behind a pointer. -/
def wordAt : List UInt8 → Option UInt32
  | byte0 :: byte1 :: byte2 :: byte3 :: _ =>
    some (UInt32.ofNat (byte0.toNat + 256 * byte1.toNat + 65536 * byte2.toNat + 16777216 * byte3.toNat))
  | _ => none

/-! ## Codes and parameters -/

/-- `bgp_ft_matcher_code_t`. -/
inductive FtMatcherCode where
  | any
  | opAnd
  | opOr
  | opNot
  | commContains
  | pathMatches
  | nextHopIs
  | nextHopIn
  | prefixIs
  | prefixIn
  | prefixGe
  | prefixLe
  deriving DecidableEq, Repr

/-- The codes in their order. -/
def ftMatcherCodes : List FtMatcherCode :=
  [.any, .opAnd, .opOr, .opNot, .commContains, .pathMatches, .nextHopIs, .nextHopIn, .prefixIs, .prefixIn,
    .prefixGe, .prefixLe]

/-- The number of a code. -/
def FtMatcherCode.number (code : FtMatcherCode) : UInt32 := (ftMatcherCodes.idxOf code).toUInt32

/-- An `ip_pfx_t` in memory, with the bytes that are added to its end. -/
structure PfxBytes where
  pfx : Pfx
  pad0 : UInt8
  pad1 : UInt8
  pad2 : UInt8
  deriving DecidableEq

/-- An atomic matcher, with its parameters as they lie in memory. -/
inductive AtomicMatcher where
  | commContains (comm : Comm)
  | pathMatches (pos : UInt32)
  | nextHopEquals (nextHop : NetAddr)
  | nextHopIn (pfx : PfxBytes)
  | prefixEquals (pfx : PfxBytes)
  | prefixIn (pfx : PfxBytes)
  | prefixGe (pfx : PfxBytes) (maskLen : UInt8)
  | prefixLe (pfx : PfxBytes) (maskLen : UInt8)
  deriving DecidableEq

namespace AtomicMatcher

/-- The code of the matcher. -/
def code : AtomicMatcher → FtMatcherCode
  | commContains _ => .commContains
  | pathMatches _ => .pathMatches
  | nextHopEquals _ => .nextHopIs
  | nextHopIn _ => .nextHopIn
  | prefixEquals _ => .prefixIs
  | prefixIn _ => .prefixIn
  | prefixGe _ _ => .prefixGe
  | prefixLe _ _ => .prefixLe

/-- The predicate of the registry. -/
def predicate : AtomicMatcher → Predicate
  | commContains comm => .commContains comm
  | pathMatches pos => .pathMatches pos.toNat
  | nextHopEquals nextHop => .nextHopIs nextHop
  | nextHopIn pfx => .nextHopIn pfx.pfx
  | prefixEquals pfx => .prefixIs pfx.pfx
  | prefixIn pfx => .prefixIn pfx.pfx
  | prefixGe pfx maskLen => .prefixGe pfx.pfx maskLen.toNat
  | prefixLe pfx maskLen => .prefixLe pfx.pfx maskLen.toNat

end AtomicMatcher

/-- The bytes of an `ip_pfx_t`. -/
def pfxBytes (pfx : PfxBytes) : List UInt8 :=
  wordBytes pfx.pfx.network ++ [UInt8.ofNat pfx.pfx.mask, pfx.pad0, pfx.pad1, pfx.pad2]

/-- The `ip_pfx_t` behind a pointer. -/
def pfxAt (mem : List UInt8) : Option PfxBytes :=
  match wordAt mem, mem.drop 4 with
  | some network, mask :: pad0 :: pad1 :: pad2 :: _ =>
    if short : mask.toNat ≤ 32 then some ⟨⟨network, mask.toNat, short⟩, pad0, pad1, pad2⟩ else none
  | _, _ => none

/-- The parameters that the functions `filter_match_nexthop_equals` to `filter_match_path` write. -/
def AtomicMatcher.params : AtomicMatcher → List UInt8
  | commContains word | pathMatches word | nextHopEquals word => wordBytes word
  | nextHopIn pfx | prefixEquals pfx | prefixIn pfx => pfxBytes pfx
  | prefixGe pfx maskLen | prefixLe pfx maskLen => pfxBytes pfx ++ [maskLen]

/-- The parameters of an atomic matcher, as `filter_matcher_apply` reads them. -/
def atomicAt (code : FtMatcherCode) (params : List UInt8) : Option AtomicMatcher :=
  match code with
  | .commContains => (wordAt params).map .commContains
  | .pathMatches => (wordAt params).map .pathMatches
  | .nextHopIs => (wordAt params).map .nextHopEquals
  | .nextHopIn => (pfxAt params).map .nextHopIn
  | .prefixIs => (pfxAt params).map .prefixEquals
  | .prefixIn => (pfxAt params).map .prefixIn
  | .prefixGe => (pfxAt params).bind fun pfx => params[8]?.map (.prefixGe pfx)
  | .prefixLe => (pfxAt params).bind fun pfx => params[8]?.map (.prefixLe pfx)
  | .any | .opAnd | .opOr | .opNot => none

/-! ## Blocks -/

/-- Why the program stopped. -/
inductive BlockFault where
  | outside -- an access outside the memory, or a parameter of no type
  | badCode -- the `default` of the switch
  | matcherSize -- the assertion of `_ft_match_compound`
  | nullPointer
  deriving DecidableEq, Repr

/-- The field `code`. -/
def codeAt (mem : List UInt8) : Except BlockFault FtMatcherCode :=
  match wordAt mem with
  | none => .error .outside
  | some number =>
    match ftMatcherCodes[number.toNat]? with
    | some code => .ok code
    | none => .error .badCode

/-- The field `size`. -/
def sizeAt (mem : List UInt8) : Except BlockFault ℕ :=
  match mem[4]? with
  | some size => .ok size.toNat
  | none => .error .outside

/-- The field `params`. -/
def paramsAt (mem : List UInt8) : List UInt8 := mem.drop matcherHeader

/-- `memcpy` of a number of bytes. -/
def copyBytes (mem : List UInt8) (size : ℕ) : Except BlockFault (List UInt8) :=
  if size ≤ mem.length then .ok (mem.take size) else .error .outside

/-- `_ft_matcher_create`, with the parameters that are then copied into it. -/
def ftMatcherCreate (code : FtMatcherCode) (params : List UInt8) : List UInt8 :=
  wordBytes code.number ++ UInt8.ofNat params.length :: params

/-- An atomic matcher. -/
def AtomicMatcher.create (atomic : AtomicMatcher) : List UInt8 := ftMatcherCreate atomic.code atomic.params

/-- `_ft_match_compound`, with an operand that may be `NULL`. -/
def ftMatchCompoundBlock (code : FtMatcherCode) (matcher1 : List UInt8) (matcher2 : Option (List UInt8)) :
    Except BlockFault (List UInt8) := do
  let size1 := (← sizeAt matcher1) + matcherHeader
  let size2 ← match matcher2 with
    | some matcher2 => (sizeAt matcher2).map (· + matcherHeader)
    | none => .ok 0
  if size1 + size2 ≤ matcherSizeMax then
    let bytes1 ← copyBytes matcher1 size1
    let bytes2 ← copyBytes (matcher2.getD []) size2
    .ok (ftMatcherCreate code (bytes1 ++ bytes2))
  else .error .matcherSize

/-- Whether a matcher is `NULL` or matches anything. -/
def isAnyBlock (matcher : Option (List UInt8)) : Except BlockFault Bool :=
  match matcher with
  | none => .ok true
  | some matcher => (codeAt matcher).map fun code => decide (code = .any)

/-- `filter_match_and`. -/
def filterMatchAndBlock (matcher1 matcher2 : Option (List UInt8)) : Except BlockFault (Option (List UInt8)) := do
  if ← isAnyBlock matcher1 then .ok matcher2
  else if ← isAnyBlock matcher2 then .ok matcher1
  else
    match matcher1 with
    | some matcher1 => (ftMatchCompoundBlock .opAnd matcher1 matcher2).map some
    | none => .error .nullPointer

/-- `filter_match_or`. -/
def filterMatchOrBlock (matcher1 matcher2 : Option (List UInt8)) : Except BlockFault (Option (List UInt8)) := do
  if ← isAnyBlock matcher1 then .ok none
  else if ← isAnyBlock matcher2 then .ok none
  else
    match matcher1 with
    | some matcher1 => (ftMatchCompoundBlock .opOr matcher1 matcher2).map some
    | none => .error .nullPointer

/-- `filter_match_not`: of a negation the operand is copied, field by field. -/
def filterMatchNotBlock (matcher : Option (List UInt8)) : Except BlockFault (Option (List UInt8)) :=
  match matcher with
  | none => .error .nullPointer
  | some matcher => do
    if (← codeAt matcher) = .opNot then
      let inner := paramsAt matcher
      let code ← codeAt inner
      let size ← sizeAt inner
      let params ← copyBytes (paramsAt inner) size
      .ok (some (ftMatcherCreate code params))
    else (ftMatchCompoundBlock .opNot matcher none).map some

/-! ## Applying a block -/

/-- `filter_matcher_apply` on a pointer that is not `NULL`.  Each call reads a header, so the memory
behind the pointers gets shorter. -/
def matcherApplyBlock (pathExprs : PathExprs) (route : Route) (mem : List UInt8) : Except BlockFault Bool :=
  if _ : mem.length < matcherHeader then .error .outside
  else
    match codeAt mem with
    | .error fault => .error fault
    | .ok .any => .ok true
    -- The size in the header of the first operand says where the second one starts.
    | .ok .opAnd =>
      match sizeAt (paramsAt mem) with
      | .error fault => .error fault
      | .ok size1 =>
        match matcherApplyBlock pathExprs route (paramsAt mem) with
        | .ok true => matcherApplyBlock pathExprs route ((paramsAt mem).drop (matcherHeader + size1))
        | result => result
    | .ok .opOr =>
      match sizeAt (paramsAt mem) with
      | .error fault => .error fault
      | .ok size1 =>
        match matcherApplyBlock pathExprs route (paramsAt mem) with
        | .ok false => matcherApplyBlock pathExprs route ((paramsAt mem).drop (matcherHeader + size1))
        | result => result
    -- The operand of a negation is all that is behind the header.
    | .ok .opNot => (matcherApplyBlock pathExprs route (paramsAt mem)).map (!·)
    | .ok code =>
      match atomicAt code (paramsAt mem) with
      | some atomic => .ok (atomic.predicate.apply pathExprs route)
      | none => .error .outside
termination_by mem.length
decreasing_by
  all_goals
    simp only [paramsAt, List.length_drop, matcherHeader] at *
    omega

end Cbgp.Bgp
