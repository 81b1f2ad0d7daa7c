import Cbgp.Bgp.MatcherBytes

/-! # What the blocks of matchers mean

A block is read back as the tree of operands that was written, whatever lies behind it
(`treeAt_block`): each operand is found behind the sizes that its constructor wrote.  So the blocks that
the constructors build for a nesting of conjunctions, disjunctions and negations evaluate to its
Boolean function (`matcher_blocks`), and they are the blocks of the matchers of the tree model
(`buildMatcher_eq`).
-/

namespace Cbgp.Verified

open Cbgp.Net Cbgp.Bgp

/-! ## Words and headers -/

theorem wordAt_wordBytes (word : UInt32) (rest : List UInt8) : wordAt (wordBytes word ++ rest) = some word := by
  have small := word.toNat_lt
  simp only [wordBytes, List.cons_append, List.nil_append, wordAt, Option.some.injEq]
  apply UInt32.toNat_inj.mp
  simp only [UInt32.toNat_ofNat', UInt8.toNat_ofNat']
  omega

theorem length_wordBytes (word : UInt32) : (wordBytes word).length = 4 := rfl

theorem codes_number (code : FtMatcherCode) : ftMatcherCodes[code.number.toNat]? = some code := by
  cases code <;> decide

section Create

variable (code : FtMatcherCode) (params rest : List UInt8)

theorem codeAt_create : codeAt (ftMatcherCreate code params ++ rest) = .ok code := by
  rw [ftMatcherCreate, List.append_assoc]
  simp only [codeAt, wordAt_wordBytes, codes_number]

theorem sizeAt_create (short : params.length < 256) :
    sizeAt (ftMatcherCreate code params ++ rest) = .ok params.length := by
  simp only [ftMatcherCreate, sizeAt, wordBytes, List.cons_append, List.nil_append, List.getElem?_cons_succ,
    List.getElem?_cons_zero, UInt8.toNat_ofNat']
  rw [Nat.mod_eq_of_lt (by omega)]

theorem paramsAt_create : paramsAt (ftMatcherCreate code params ++ rest) = params ++ rest := rfl

theorem length_create : (ftMatcherCreate code params).length = params.length + matcherHeader := by
  simp [ftMatcherCreate, length_wordBytes, matcherHeader]
  omega

end Create

/-! ## Atomic matchers -/

theorem pfxAt_pfxBytes (pfx : PfxBytes) (rest : List UInt8) : pfxAt (pfxBytes pfx ++ rest) = some pfx := by
  have short := pfx.pfx.short
  have mask : (UInt8.ofNat pfx.pfx.mask).toNat = pfx.pfx.mask := by
    rw [UInt8.toNat_ofNat']
    omega
  have behind : (wordBytes pfx.pfx.network ++
      ([UInt8.ofNat pfx.pfx.mask, pfx.pad0, pfx.pad1, pfx.pad2] ++ rest)).drop 4 =
      [UInt8.ofNat pfx.pfx.mask, pfx.pad0, pfx.pad1, pfx.pad2] ++ rest := rfl
  rw [pfxBytes, List.append_assoc, pfxAt, wordAt_wordBytes, behind]
  simp only [List.cons_append, mask, dif_pos short]

/-- The parameters are read back. -/
theorem atomicAt_params (atomic : AtomicMatcher) (rest : List UInt8) :
    atomicAt atomic.code (atomic.params ++ rest) = some atomic := by
  cases atomic with
  | commContains word | pathMatches word | nextHopEquals word =>
    simp only [AtomicMatcher.code, AtomicMatcher.params, atomicAt, wordAt_wordBytes, Option.map_some]
  | nextHopIn pfx | prefixEquals pfx | prefixIn pfx =>
    simp only [AtomicMatcher.code, AtomicMatcher.params, atomicAt, pfxAt_pfxBytes, Option.map_some]
  | prefixGe pfx maskLen | prefixLe pfx maskLen =>
    have last : (pfxBytes pfx ++ ([maskLen] ++ rest))[8]? = some maskLen := rfl
    simp only [AtomicMatcher.code, AtomicMatcher.params, atomicAt, List.append_assoc, pfxAt_pfxBytes,
      Option.bind_some, last, Option.map_some]

theorem length_params (atomic : AtomicMatcher) : atomic.params.length = atomic.predicate.size := by
  cases atomic <;> rfl

/-! ## Trees of operands -/

/-- A nesting of conjunctions, disjunctions and negations. -/
inductive MatcherTree where
  | atom (atomic : AtomicMatcher)
  | and (tree1 tree2 : MatcherTree)
  | or (tree1 tree2 : MatcherTree)
  | not (tree : MatcherTree)
  deriving DecidableEq

namespace MatcherTree

/-- The Boolean function. -/
def eval (pathExprs : PathExprs) (route : Route) : MatcherTree → Bool
  | atom atomic => atomic.predicate.apply pathExprs route
  | and tree1 tree2 => tree1.eval pathExprs route && tree2.eval pathExprs route
  | or tree1 tree2 => tree1.eval pathExprs route || tree2.eval pathExprs route
  | not tree => !tree.eval pathExprs route

/-- The matcher without its bytes. -/
def matcher : MatcherTree → Matcher
  | atom atomic => .atom atomic.predicate
  | and tree1 tree2 => .and tree1.matcher tree2.matcher
  | or tree1 tree2 => .or tree1.matcher tree2.matcher
  | not tree => .not tree.matcher

/-- The code of the outermost operation. -/
def code : MatcherTree → FtMatcherCode
  | atom atomic => atomic.code
  | and _ _ => .opAnd
  | or _ _ => .opOr
  | not _ => .opNot

/-- The block that stores a tree. -/
def block : MatcherTree → List UInt8
  | atom atomic => atomic.create
  | and tree1 tree2 => ftMatcherCreate .opAnd (tree1.block ++ tree2.block)
  | or tree1 tree2 => ftMatcherCreate .opOr (tree1.block ++ tree2.block)
  | not tree => ftMatcherCreate .opNot tree.block

/-- The parameters of the block. -/
def params : MatcherTree → List UInt8
  | atom atomic => atomic.params
  | and tree1 tree2 | or tree1 tree2 => tree1.block ++ tree2.block
  | not tree => tree.block

theorem block_eq (tree : MatcherTree) : tree.block = ftMatcherCreate tree.code tree.params := by
  cases tree <;> rfl

theorem length_block (tree : MatcherTree) : tree.block.length = tree.matcher.bytes := by
  induction tree with
  | atom atomic =>
    rw [block, AtomicMatcher.create, length_create, length_params]
    rfl
  | and tree1 tree2 inductionHypothesis1 inductionHypothesis2
  | or tree1 tree2 inductionHypothesis1 inductionHypothesis2 =>
    rw [block, length_create, List.length_append, inductionHypothesis1, inductionHypothesis2]
    rfl
  | not tree inductionHypothesis =>
    rw [block, length_create, inductionHypothesis]
    rfl

theorem length_params (tree : MatcherTree) : tree.params.length = tree.matcher.size := by
  have whole := length_block tree
  rw [block_eq, length_create, Matcher.bytes] at whole
  omega

/-- Every size fits its field. -/
def Sized : MatcherTree → Prop
  | atom _ => True
  | and tree1 tree2 | or tree1 tree2 =>
    tree1.Sized ∧ tree2.Sized ∧ tree1.matcher.bytes + tree2.matcher.bytes ≤ matcherSizeMax
  | not tree => tree.Sized ∧ tree.matcher.bytes ≤ matcherSizeMax

theorem Sized.short {tree : MatcherTree} (sized : tree.Sized) : tree.params.length < 256 := by
  rw [length_params]
  cases tree with
  | atom atomic => cases atomic <;> simp [matcher, Matcher.size, AtomicMatcher.predicate, Predicate.size]
  | and tree1 tree2 | or tree1 tree2 => exact Nat.lt_succ_of_le sized.2.2
  | not tree => exact Nat.lt_succ_of_le sized.2

theorem sizeAt_block {tree : MatcherTree} (sized : tree.Sized) (rest : List UInt8) :
    sizeAt (tree.block ++ rest) = .ok tree.matcher.size := by
  rw [block_eq, sizeAt_create _ _ _ sized.short, length_params]

theorem codeAt_block (tree : MatcherTree) (rest : List UInt8) : codeAt (tree.block ++ rest) = .ok tree.code := by
  rw [block_eq, codeAt_create]

/-- The operands of a compound are where they are looked for. -/
theorem operands {tree1 : MatcherTree} (sized : tree1.Sized) (tree2 : MatcherTree) (code : FtMatcherCode)
    (rest : List UInt8) :
    paramsAt (ftMatcherCreate code (tree1.block ++ tree2.block) ++ rest) = tree1.block ++ (tree2.block ++ rest) ∧
      sizeAt (tree1.block ++ (tree2.block ++ rest)) = .ok tree1.matcher.size ∧
      (tree1.block ++ (tree2.block ++ rest)).drop (matcherHeader + tree1.matcher.size) = tree2.block ++ rest := by
  refine ⟨by rw [paramsAt_create, List.append_assoc], sizeAt_block sized _, ?_⟩
  have length := length_block tree1
  rw [Matcher.bytes, Nat.add_comm] at length
  rw [← length, List.drop_left]

theorem long_create (code : FtMatcherCode) (params rest : List UInt8) :
    ¬ (ftMatcherCreate code params ++ rest).length < matcherHeader := by
  rw [List.length_append, length_create]
  omega

end MatcherTree

open MatcherTree

/-- The tree behind a pointer, with the operands where `filter_matcher_apply` looks for them. -/
def treeAt (mem : List UInt8) : Option MatcherTree :=
  if _ : mem.length < matcherHeader then none
  else
    match codeAt mem with
    | .error _ => none
    | .ok .opAnd =>
      match sizeAt (paramsAt mem) with
      | .error _ => none
      | .ok size1 =>
        match treeAt (paramsAt mem), treeAt ((paramsAt mem).drop (matcherHeader + size1)) with
        | some tree1, some tree2 => some (.and tree1 tree2)
        | _, _ => none
    | .ok .opOr =>
      match sizeAt (paramsAt mem) with
      | .error _ => none
      | .ok size1 =>
        match treeAt (paramsAt mem), treeAt ((paramsAt mem).drop (matcherHeader + size1)) with
        | some tree1, some tree2 => some (.or tree1 tree2)
        | _, _ => none
    | .ok .opNot => (treeAt (paramsAt mem)).map .not
    | .ok code => (atomicAt code (paramsAt mem)).map .atom
termination_by mem.length
decreasing_by
  all_goals
    simp only [paramsAt, List.length_drop, matcherHeader] at *
    omega

/-- Each operand is read back as it was written, at every depth and whatever lies behind. -/
theorem treeAt_block {tree : MatcherTree} (sized : tree.Sized) (rest : List UInt8) :
    treeAt (tree.block ++ rest) = some tree := by
  induction tree generalizing rest with
  | atom atomic =>
    rw [block, AtomicMatcher.create, treeAt, dif_neg (long_create _ _ _), codeAt_create, paramsAt_create]
    have read := atomicAt_params atomic rest
    cases atomic <;>
      (simp only [AtomicMatcher.code] at read ⊢
       rw [read]
       rfl)
  | and tree1 tree2 inductionHypothesis1 inductionHypothesis2 =>
    obtain ⟨sized1, sized2, _⟩ := sized
    obtain ⟨params, size1, second⟩ := operands sized1 tree2 .opAnd rest
    rw [block, treeAt, dif_neg (long_create _ _ _), codeAt_create, params]
    simp only [size1, second, inductionHypothesis1 sized1, inductionHypothesis2 sized2]
  | or tree1 tree2 inductionHypothesis1 inductionHypothesis2 =>
    obtain ⟨sized1, sized2, _⟩ := sized
    obtain ⟨params, size1, second⟩ := operands sized1 tree2 .opOr rest
    rw [block, treeAt, dif_neg (long_create _ _ _), codeAt_create, params]
    simp only [size1, second, inductionHypothesis1 sized1, inductionHypothesis2 sized2]
  | not tree inductionHypothesis =>
    rw [block, treeAt, dif_neg (long_create _ _ _), codeAt_create, paramsAt_create]
    simp only [inductionHypothesis sized.1, Option.map_some]

/-- A block evaluates to the function of its tree. -/
theorem matcherApplyBlock_block (pathExprs : PathExprs) (route : Route) {tree : MatcherTree} (sized : tree.Sized)
    (rest : List UInt8) :
    matcherApplyBlock pathExprs route (tree.block ++ rest) = .ok (tree.eval pathExprs route) := by
  induction tree generalizing rest with
  | atom atomic =>
    rw [block, AtomicMatcher.create, matcherApplyBlock, dif_neg (long_create _ _ _), codeAt_create, paramsAt_create]
    have read := atomicAt_params atomic rest
    cases atomic <;>
      (simp only [AtomicMatcher.code] at read ⊢
       rw [read]
       rfl)
  | and tree1 tree2 inductionHypothesis1 inductionHypothesis2 =>
    obtain ⟨sized1, sized2, _⟩ := sized
    obtain ⟨params, size1, second⟩ := operands sized1 tree2 .opAnd rest
    rw [block, matcherApplyBlock, dif_neg (long_create _ _ _), codeAt_create, params]
    simp only [size1, second, inductionHypothesis1 sized1, inductionHypothesis2 sized2, eval]
    cases tree1.eval pathExprs route <;> rfl
  | or tree1 tree2 inductionHypothesis1 inductionHypothesis2 =>
    obtain ⟨sized1, sized2, _⟩ := sized
    obtain ⟨params, size1, second⟩ := operands sized1 tree2 .opOr rest
    rw [block, matcherApplyBlock, dif_neg (long_create _ _ _), codeAt_create, params]
    simp only [size1, second, inductionHypothesis1 sized1, inductionHypothesis2 sized2, eval]
    cases tree1.eval pathExprs route <;> rfl
  | not tree inductionHypothesis =>
    rw [block, matcherApplyBlock, dif_neg (long_create _ _ _), codeAt_create, paramsAt_create]
    simp only [inductionHypothesis sized.1, eval, Except.map]

/-! ## The constructors -/

section Constructors

variable {tree tree1 tree2 : MatcherTree}

theorem isAnyBlock_block (tree : MatcherTree) : isAnyBlock (some tree.block) = .ok false := by
  have code := codeAt_block tree []
  rw [List.append_nil] at code
  rw [isAnyBlock, code]
  cases tree with
  | atom atomic => cases atomic <;> rfl
  | and tree1 tree2 => rfl
  | or tree1 tree2 => rfl
  | not tree => rfl

theorem sizeAt_block' (sized : tree.Sized) : sizeAt tree.block = .ok tree.matcher.size := by
  have size := sizeAt_block sized []
  rwa [List.append_nil] at size

theorem copyBytes_block (tree : MatcherTree) :
    copyBytes tree.block (tree.matcher.size + matcherHeader) = .ok tree.block := by
  have length := length_block tree
  rw [Matcher.bytes] at length
  rw [copyBytes, ← length, if_pos (Nat.le_refl _), List.take_length]

/-- Two operands are put one behind the other. -/
theorem ftMatchCompoundBlock_two (code : FtMatcherCode) (sized1 : tree1.Sized) (sized2 : tree2.Sized) :
    ftMatchCompoundBlock code tree1.block (some tree2.block) =
      if tree1.matcher.bytes + tree2.matcher.bytes ≤ matcherSizeMax then
        .ok (ftMatcherCreate code (tree1.block ++ tree2.block))
      else .error .matcherSize := by
  simp only [ftMatchCompoundBlock, sizeAt_block' sized1, sizeAt_block' sized2, bind, Except.bind, Except.map,
    Option.getD_some, copyBytes_block, Matcher.bytes]
  rfl

theorem ftMatchCompoundBlock_one (code : FtMatcherCode) (sized : tree.Sized) :
    ftMatchCompoundBlock code tree.block none =
      if tree.matcher.bytes ≤ matcherSizeMax then .ok (ftMatcherCreate code tree.block)
      else .error .matcherSize := by
  have nothing : copyBytes [] 0 = .ok [] := rfl
  simp only [ftMatchCompoundBlock, sizeAt_block' sized, bind, Except.bind, Option.getD_none, copyBytes_block,
    nothing, List.append_nil, Nat.add_zero, Matcher.bytes]
  rfl

theorem filterMatchAndBlock_block (sized1 : tree1.Sized) (sized2 : tree2.Sized) :
    filterMatchAndBlock (some tree1.block) (some tree2.block) =
      if tree1.matcher.bytes + tree2.matcher.bytes ≤ matcherSizeMax then .ok (some (tree1.and tree2).block)
      else .error .matcherSize := by
  simp only [filterMatchAndBlock, isAnyBlock_block, bind, Except.bind, Bool.false_eq_true, if_false,
    ftMatchCompoundBlock_two .opAnd sized1 sized2]
  split <;> rfl

theorem filterMatchOrBlock_block (sized1 : tree1.Sized) (sized2 : tree2.Sized) :
    filterMatchOrBlock (some tree1.block) (some tree2.block) =
      if tree1.matcher.bytes + tree2.matcher.bytes ≤ matcherSizeMax then .ok (some (tree1.or tree2).block)
      else .error .matcherSize := by
  simp only [filterMatchOrBlock, isAnyBlock_block, bind, Except.bind, Bool.false_eq_true, if_false,
    ftMatchCompoundBlock_two .opOr sized1 sized2]
  split <;> rfl

/-- The negation of a tree: the operand of a negation, or the negation. -/
def negated : MatcherTree → MatcherTree
  | .not tree => tree
  | tree => .not tree

/-- The operand of a negation is copied whole. -/
theorem filterMatchNotBlock_not (sized : tree.Sized) :
    filterMatchNotBlock (some (MatcherTree.not tree).block) = .ok (some tree.block) := by
  have code : codeAt (MatcherTree.not tree).block = .ok .opNot := by
    have code := codeAt_block (.not tree) []
    rwa [List.append_nil] at code
  have inner : paramsAt (MatcherTree.not tree).block = tree.block := rfl
  have innerCode : codeAt tree.block = .ok tree.code := by
    have code := codeAt_block tree []
    rwa [List.append_nil] at code
  have content : paramsAt tree.block = tree.params := by
    rw [block_eq]
    rfl
  have copied : copyBytes tree.params tree.matcher.size = .ok tree.params := by
    rw [copyBytes, ← MatcherTree.length_params, if_pos (Nat.le_refl _), List.take_length]
  simp only [filterMatchNotBlock, code, bind, Except.bind, if_true, inner, innerCode, sizeAt_block' sized, content,
    copied]
  rw [← block_eq]

theorem filterMatchNotBlock_block (sized : tree.Sized) (other : ∀ inner, tree ≠ .not inner) :
    filterMatchNotBlock (some tree.block) =
      if tree.matcher.bytes ≤ matcherSizeMax then .ok (some (MatcherTree.not tree).block)
      else .error .matcherSize := by
  have code := codeAt_block tree []
  rw [List.append_nil] at code
  have notNot : tree.code ≠ .opNot := by
    cases tree with
    | atom atomic => cases atomic <;> simp [MatcherTree.code, AtomicMatcher.code]
    | and tree1 tree2 | or tree1 tree2 => simp [MatcherTree.code]
    | not inner => exact absurd rfl (other inner)
  simp only [filterMatchNotBlock, code, bind, Except.bind, if_neg notNot, ftMatchCompoundBlock_one .opNot sized]
  split <;> rfl

end Constructors

/-! ## Nestings of constructors -/

/-- The constructors, applied from the atomic matchers on. -/
def buildBlock : MatcherTree → Except BlockFault (Option (List UInt8))
  | .atom atomic => .ok (some atomic.create)
  | .and tree1 tree2 => do filterMatchAndBlock (← buildBlock tree1) (← buildBlock tree2)
  | .or tree1 tree2 => do filterMatchOrBlock (← buildBlock tree1) (← buildBlock tree2)
  | .not tree => do filterMatchNotBlock (← buildBlock tree)

/-- The constructors on matchers without bytes. -/
def buildMatcher : MatcherTree → Except PredicateFault (Option Matcher)
  | .atom atomic => .ok (some (.atom atomic.predicate))
  | .and tree1 tree2 => do filterMatchAnd (← buildMatcher tree1) (← buildMatcher tree2)
  | .or tree1 tree2 => do filterMatchOr (← buildMatcher tree1) (← buildMatcher tree2)
  | .not tree => do filterMatchNot (← buildMatcher tree)

/-- The tree without double negations. -/
def simplified : MatcherTree → MatcherTree
  | .atom atomic => .atom atomic
  | .and tree1 tree2 => .and (simplified tree1) (simplified tree2)
  | .or tree1 tree2 => .or (simplified tree1) (simplified tree2)
  | .not tree => negated (simplified tree)

/-- At every level the operands fit. -/
def TreeFits : MatcherTree → Prop
  | .atom _ => True
  | .and tree1 tree2 | .or tree1 tree2 =>
    TreeFits tree1 ∧ TreeFits tree2 ∧
      (simplified tree1).matcher.bytes + (simplified tree2).matcher.bytes ≤ matcherSizeMax
  | .not tree =>
    TreeFits tree ∧ ((∃ inner, simplified tree = .not inner) ∨ (simplified tree).matcher.bytes ≤ matcherSizeMax)

theorem negate_cases (tree : MatcherTree) :
    (∃ inner, tree = .not inner ∧ negated tree = inner) ∨
      ((∀ inner, tree ≠ .not inner) ∧ negated tree = .not tree) := by
  cases tree with
  | not inner => exact .inl ⟨inner, rfl, rfl⟩
  | atom atomic => exact .inr ⟨fun _ => by simp, rfl⟩
  | and tree1 tree2 => exact .inr ⟨fun _ => by simp, rfl⟩
  | or tree1 tree2 => exact .inr ⟨fun _ => by simp, rfl⟩

theorem eval_simplified (pathExprs : PathExprs) (route : Route) (tree : MatcherTree) :
    (simplified tree).eval pathExprs route = tree.eval pathExprs route := by
  induction tree with
  | atom atomic => rfl
  | and tree1 tree2 inductionHypothesis1 inductionHypothesis2
  | or tree1 tree2 inductionHypothesis1 inductionHypothesis2 =>
    simp only [simplified, eval, inductionHypothesis1, inductionHypothesis2]
  | not tree inductionHypothesis =>
    rw [simplified, eval, ← inductionHypothesis]
    rcases negate_cases (simplified tree) with ⟨inner, shape, result⟩ | ⟨_, result⟩
    · rw [result, shape, eval, Bool.not_not]
    · rw [result, eval]

/-- The constructors build the block of the tree without double negations. -/
theorem buildBlock_eq {tree : MatcherTree} (fits : TreeFits tree) :
    buildBlock tree = .ok (some (simplified tree).block) ∧ (simplified tree).Sized := by
  induction tree with
  | atom atomic => exact ⟨rfl, trivial⟩
  | and tree1 tree2 inductionHypothesis1 inductionHypothesis2 =>
    obtain ⟨fits1, fits2, room⟩ := fits
    obtain ⟨built1, sized1⟩ := inductionHypothesis1 fits1
    obtain ⟨built2, sized2⟩ := inductionHypothesis2 fits2
    refine ⟨?_, sized1, sized2, room⟩
    simp only [buildBlock, built1, built2, bind, Except.bind, filterMatchAndBlock_block sized1 sized2, if_pos room]
    rfl
  | or tree1 tree2 inductionHypothesis1 inductionHypothesis2 =>
    obtain ⟨fits1, fits2, room⟩ := fits
    obtain ⟨built1, sized1⟩ := inductionHypothesis1 fits1
    obtain ⟨built2, sized2⟩ := inductionHypothesis2 fits2
    refine ⟨?_, sized1, sized2, room⟩
    simp only [buildBlock, built1, built2, bind, Except.bind, filterMatchOrBlock_block sized1 sized2, if_pos room]
    rfl
  | not tree inductionHypothesis =>
    obtain ⟨fits1, room⟩ := fits
    obtain ⟨built, sized⟩ := inductionHypothesis fits1
    rw [simplified]
    rcases negate_cases (simplified tree) with ⟨inner, shape, result⟩ | ⟨other, result⟩
    · rw [shape] at built sized
      rw [result]
      refine ⟨?_, sized.1⟩
      simp only [buildBlock, built, bind, Except.bind, filterMatchNotBlock_not sized.1]
    · have room : (simplified tree).matcher.bytes ≤ matcherSizeMax :=
        room.resolve_left fun ⟨inner, shape⟩ => other inner shape
      rw [result]
      refine ⟨?_, sized, room⟩
      simp only [buildBlock, built, bind, Except.bind, filterMatchNotBlock_block sized other, if_pos room]

theorem matcher_ne_any (tree : MatcherTree) : tree.matcher ≠ .any := by
  cases tree <;> simp [MatcherTree.matcher]

theorem filterMatchAnd_two {matcher1 matcher2 : Matcher} (some1 : matcher1 ≠ .any) (some2 : matcher2 ≠ .any)
    (room : matcher1.bytes + matcher2.bytes ≤ matcherSizeMax) :
    filterMatchAnd (some matcher1) (some matcher2) = .ok (some (.and matcher1 matcher2)) := by
  have compound : ftMatchCompound .and matcher1 matcher2 = .ok (.and matcher1 matcher2) := if_pos room
  cases matcher1 <;> cases matcher2 <;>
    first
    | exact absurd rfl some1
    | exact absurd rfl some2
    | (simp only [filterMatchAnd, compound]; rfl)

theorem filterMatchOr_two {matcher1 matcher2 : Matcher} (some1 : matcher1 ≠ .any) (some2 : matcher2 ≠ .any)
    (room : matcher1.bytes + matcher2.bytes ≤ matcherSizeMax) :
    filterMatchOr (some matcher1) (some matcher2) = .ok (some (.or matcher1 matcher2)) := by
  have compound : ftMatchCompound .or matcher1 matcher2 = .ok (.or matcher1 matcher2) := if_pos room
  cases matcher1 <;> cases matcher2 <;>
    first
    | exact absurd rfl some1
    | exact absurd rfl some2
    | (simp only [filterMatchOr, compound]; rfl)

theorem filterMatchNot_matcher {tree : MatcherTree} (other : ∀ inner, tree ≠ .not inner)
    (room : tree.matcher.bytes ≤ matcherSizeMax) :
    filterMatchNot (some tree.matcher) = .ok (some (MatcherTree.not tree).matcher) := by
  cases tree with
  | not inner => exact absurd rfl (other inner)
  | atom atomic | and tree1 tree2 | or tree1 tree2 => exact if_pos room

/-- The blocks are those of the matchers without bytes. -/
theorem buildMatcher_eq {tree : MatcherTree} (fits : TreeFits tree) :
    buildMatcher tree = .ok (some (simplified tree).matcher) := by
  induction tree with
  | atom atomic => rfl
  | and tree1 tree2 inductionHypothesis1 inductionHypothesis2 =>
    obtain ⟨fits1, fits2, room⟩ := fits
    simp only [buildMatcher, inductionHypothesis1 fits1, inductionHypothesis2 fits2, bind, Except.bind,
      filterMatchAnd_two (matcher_ne_any _) (matcher_ne_any _) room]
    rfl
  | or tree1 tree2 inductionHypothesis1 inductionHypothesis2 =>
    obtain ⟨fits1, fits2, room⟩ := fits
    simp only [buildMatcher, inductionHypothesis1 fits1, inductionHypothesis2 fits2, bind, Except.bind,
      filterMatchOr_two (matcher_ne_any _) (matcher_ne_any _) room]
    rfl
  | not tree inductionHypothesis =>
    obtain ⟨fits1, room⟩ := fits
    have built := inductionHypothesis fits1
    rw [simplified]
    rcases negate_cases (simplified tree) with ⟨inner, shape, result⟩ | ⟨other, result⟩
    · rw [result]
      simp only [buildMatcher, built, bind, Except.bind, shape]
      rfl
    · have room : (simplified tree).matcher.bytes ≤ matcherSizeMax :=
        room.resolve_left fun ⟨inner, shape⟩ => other inner shape
      rw [result]
      simp only [buildMatcher, built, bind, Except.bind, filterMatchNot_matcher other room]

/-- Whatever is nested, as long as the operands fit: the block is that of the tree without double
negations, each operand is read back as it was written, and the block evaluates to the Boolean function
of the nesting, as the matcher without bytes does. -/
theorem matcher_blocks {tree : MatcherTree} (fits : TreeFits tree) :
    buildBlock tree = .ok (some (simplified tree).block) ∧
      (∀ rest, treeAt ((simplified tree).block ++ rest) = some (simplified tree)) ∧
      (∀ pathExprs route rest, matcherApplyBlock pathExprs route ((simplified tree).block ++ rest) =
        .ok (tree.eval pathExprs route)) ∧
      buildMatcher tree = .ok (some (simplified tree).matcher) := by
  obtain ⟨built, sized⟩ := buildBlock_eq fits
  refine ⟨built, treeAt_block sized, fun pathExprs route rest => ?_, buildMatcher_eq fits⟩
  rw [matcherApplyBlock_block pathExprs route sized, eval_simplified]

/-- The operand of a double negation, and a conjunction. -/
def nestedTree : MatcherTree :=
  .and (.not (.not (.or (.atom (.commContains 7)) (.atom (.nextHopEquals 1)))))
    (.not (.atom (.prefixIn ⟨⟨0, 8, short8⟩, 1, 2, 3⟩)))

theorem matcher_blocks_nestedTree :
    treeAt ((simplified nestedTree).block ++ [0, 255]) = some (simplified nestedTree) := by
  have fits : TreeFits nestedTree := by
    refine ⟨⟨⟨⟨trivial, trivial, by decide⟩, .inr (by decide)⟩, .inl ⟨_, rfl⟩⟩, ⟨trivial, .inr (by decide)⟩, by decide⟩
  exact (matcher_blocks fits).2.1 [0, 255]

end Cbgp.Verified
