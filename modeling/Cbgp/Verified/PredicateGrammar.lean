import Cbgp.Bgp.PredicateParser

/-! # The grammar of filter predicates

Expressions `E ::= T | E & T | E | T` and terms `T ::= atom | !atom | (E) | !(E)`, with the tokens
they are written with and the value they have on a route: both operators bind equally and to the left.
The matcher of a phrase (`Phrase.matcher`) is what the constructors of `filter.c` make of it, and
`Phrase.Fits` says when they can: no negation of a phrase that simplifies to `any`, and no operand
that is too large.
-/

namespace Cbgp.Verified

open Cbgp.Bgp

/-! ## Phrases -/

inductive BinaryOp where
  | and
  | or
  deriving DecidableEq

def BinaryOp.token : BinaryOp → Token
  | and => .and
  | or => .or

def BinaryOp.eval : BinaryOp → Bool → Bool → Bool
  | and => Bool.and
  | or => Bool.or

/-- The two nonterminals. -/
inductive Nonterminal where
  | expr
  | term

/-- The phrases of a nonterminal.  An atom without a predicate is `any`. -/
inductive Phrase : Nonterminal → Type where
  | single (t : Phrase .term) : Phrase .expr
  | binary (e : Phrase .expr) (op : BinaryOp) (t : Phrase .term) : Phrase .expr
  | atom (negated : Bool) (predicate : Option Predicate) : Phrase .term
  | group (negated : Bool) (e : Phrase .expr) : Phrase .term

/-- The sign in front of a term. -/
def signTokens (negated : Bool) : List Token :=
  if negated then [.not] else []

namespace Phrase

variable {k : Nonterminal}

def tokens : {k : Nonterminal} → Phrase k → List Token
  | _, single t => t.tokens
  | _, binary e op t => e.tokens ++ op.token :: t.tokens
  | _, atom negated predicate => signTokens negated ++ [.atom predicate]
  | _, group negated e => signTokens negated ++ .parOpen :: (e.tokens ++ [.parClose])

/-- The levels of parentheses. -/
def nesting : {k : Nonterminal} → Phrase k → Nat
  | _, single t => t.nesting
  | _, binary e _ t => max e.nesting t.nesting
  | _, atom _ _ => 0
  | _, group _ e => e.nesting + 1

/-- The boolean value of a phrase on a route. -/
def value (pathExprs : PathExprs) (route : Route) : {k : Nonterminal} → Phrase k → Bool
  | _, single t => t.value pathExprs route
  | _, binary e op t => op.eval (e.value pathExprs route) (t.value pathExprs route)
  | _, atom negated predicate =>
    Bool.xor negated ((predicate.map (Predicate.apply pathExprs route)).getD true)
  | _, group negated e => Bool.xor negated (e.value pathExprs route)

/-- The stack items the parser holds at once while it reads the phrase: one for each sign, each open
parenthesis and each operator whose right operand is being read. -/
def need : {k : Nonterminal} → Phrase k → Nat
  | _, single t => t.need
  | _, binary e _ t => max e.need (t.need + 1)
  | _, atom negated _ => negated.toNat
  | _, group negated e => e.need + negated.toNat + 1

end Phrase

/-! ## Matchers of phrases -/

/-- The conjunction or disjunction, `any` simplified. -/
def BinaryOp.matcher (op : BinaryOp) (matcher1 matcher2 : Option Matcher) : Option Matcher :=
  match op, matcher1, matcher2 with
  | .and, none, _ => matcher2
  | .and, some _, none => matcher1
  | .and, some matcher1, some matcher2 => some (.and matcher1 matcher2)
  | .or, some matcher1, some matcher2 => some (.or matcher1 matcher2)
  | .or, _, _ => none

/-- The negation, a double one taken off. -/
def negate : Matcher → Matcher
  | .not matcher => matcher
  | matcher => .not matcher

/-- What a sign does. -/
def signed (negated : Bool) (matcher : Option Matcher) : Option Matcher :=
  if negated then matcher.map negate else matcher

/-- The sign is allowed: `any` is not negated, and the operand of a negation has room in one. -/
def SignFits (negated : Bool) (matcher : Option Matcher) : Prop :=
  negated = true → ∃ m, matcher = some m ∧ ((∃ inner, m = .not inner) ∨ m.bytes ≤ matcherSizeMax)

/-- Both operands have room in one matcher. -/
def OperandsFit (matcher1 matcher2 : Option Matcher) : Prop :=
  ∀ m1 m2, matcher1 = some m1 → matcher2 = some m2 → m1.bytes + m2.bytes ≤ matcherSizeMax

namespace Phrase

variable {k : Nonterminal}

/-- The matcher a phrase stands for, `none` when it simplifies to `any`. -/
def matcher : {k : Nonterminal} → Phrase k → Option Matcher
  | _, single t => t.matcher
  | _, binary e op t => op.matcher e.matcher t.matcher
  | _, atom negated predicate => signed negated (predicate.map .atom)
  | _, group negated e => signed negated e.matcher

/-- Every negation and every compound of the phrase can be built. -/
def Fits : {k : Nonterminal} → Phrase k → Prop
  | _, single t => t.Fits
  | _, binary e _ t => e.Fits ∧ t.Fits ∧ OperandsFit e.matcher t.matcher
  | _, atom negated predicate => SignFits negated (predicate.map .atom)
  | _, group negated e => e.Fits ∧ SignFits negated e.matcher

end Phrase

/-! ## The constructors -/

/-- There is no `FT_MATCH_ANY` in the matcher. -/
inductive Proper : Matcher → Prop where
  | atom (predicate : Predicate) : Proper (.atom predicate)
  | and {m1 m2 : Matcher} : Proper m1 → Proper m2 → Proper (.and m1 m2)
  | or {m1 m2 : Matcher} : Proper m1 → Proper m2 → Proper (.or m1 m2)
  | not {m : Matcher} : Proper m → Proper (.not m)

theorem Proper.ne_any {m : Matcher} (proper : Proper m) : m ≠ .any := by
  intro same
  subst same
  cases proper

theorem Proper.negate {m : Matcher} (proper : Proper m) : Proper (negate m) := by
  cases proper with
  | not inner => exact inner
  | atom predicate => exact .not (.atom predicate)
  | and first second => exact .not (.and first second)
  | or first second => exact .not (.or first second)

theorem signed_proper {negated : Bool} {matcher : Option Matcher}
    (proper : ∀ m, matcher = some m → Proper m) : ∀ m, signed negated matcher = some m → Proper m := by
  intro m same
  cases negated with
  | false => exact proper m same
  | true =>
    obtain ⟨inner, found, rfl⟩ := Option.map_eq_some_iff.mp same
    exact (proper inner found).negate

/-- A matcher of a phrase has no `any` in it. -/
theorem Phrase.matcher_proper {k : Nonterminal} (phrase : Phrase k) :
    ∀ m, phrase.matcher = some m → Proper m := by
  induction phrase with
  | single t inductionHypothesis => exact inductionHypothesis
  | binary e op t left right =>
    intro m same
    simp only [Phrase.matcher] at same
    cases first : e.matcher with
    | none =>
      cases op <;> simp only [first, BinaryOp.matcher] at same
      · exact right m same
      · cases same
    | some m1 =>
      cases second : t.matcher with
      | none =>
        cases op <;> simp only [first, second, BinaryOp.matcher] at same
        · exact left m (first.trans same)
        · cases same
      | some m2 =>
        cases op <;> simp only [first, second, BinaryOp.matcher, Option.some.injEq] at same
        · exact same ▸ .and (left m1 first) (right m2 second)
        · exact same ▸ .or (left m1 first) (right m2 second)
  | atom negated predicate =>
    refine signed_proper fun m same => ?_
    obtain ⟨p, _, rfl⟩ := Option.map_eq_some_iff.mp same
    exact .atom p
  | group negated e inductionHypothesis => exact signed_proper inductionHypothesis

/-- `filter_match_and` and `filter_match_or`. -/
def filterMatchOp : BinaryOp → Option Matcher → Option Matcher → Except PredicateFault (Option Matcher)
  | .and => filterMatchAnd
  | .or => filterMatchOr

/-- A conjunction or a disjunction is built exactly when its operands fit. -/
theorem filterMatchOp_outcome (op : BinaryOp) {matcher1 matcher2 : Option Matcher}
    (proper1 : ∀ m, matcher1 = some m → Proper m) (proper2 : ∀ m, matcher2 = some m → Proper m) :
    (OperandsFit matcher1 matcher2 ∧
      filterMatchOp op matcher1 matcher2 = .ok (op.matcher matcher1 matcher2)) ∨
    (¬ OperandsFit matcher1 matcher2 ∧ ∃ fault, filterMatchOp op matcher1 matcher2 = .error fault) := by
  cases matcher1 with
  | none =>
    refine .inl ⟨by simp [OperandsFit], ?_⟩
    cases op <;> simp [filterMatchOp, filterMatchAnd, filterMatchOr, BinaryOp.matcher]
  | some m1 =>
    have real1 := (proper1 m1 rfl).ne_any
    cases matcher2 with
    | none =>
      refine .inl ⟨by simp [OperandsFit], ?_⟩
      cases op <;> simp [filterMatchOp, filterMatchAnd, filterMatchOr, BinaryOp.matcher, real1]
    | some m2 =>
      have real2 := (proper2 m2 rfl).ne_any
      have fit : OperandsFit (some m1) (some m2) ↔ m1.bytes + m2.bytes ≤ matcherSizeMax := by
        simp [OperandsFit]
      by_cases room : m1.bytes + m2.bytes ≤ matcherSizeMax
      · refine .inl ⟨fit.mpr room, ?_⟩
        cases op <;> simp [filterMatchOp, filterMatchAnd, filterMatchOr, BinaryOp.matcher,
          ftMatchCompound, room, Except.map]
      · refine .inr ⟨fun fits => room (fit.mp fits), .matcherSize, ?_⟩
        cases op <;> simp [filterMatchOp, filterMatchAnd, filterMatchOr, ftMatchCompound, room,
          Except.map]

/-- A negation is built exactly when its operand allows it. -/
theorem filterMatchNot_outcome (matcher : Option Matcher) :
    (SignFits true matcher ∧ filterMatchNot matcher = .ok (signed true matcher)) ∨
    (¬ SignFits true matcher ∧ ∃ fault, filterMatchNot matcher = .error fault) := by
  cases matcher with
  | none => exact .inr ⟨by simp [SignFits], .nullPointer, rfl⟩
  | some m =>
    by_cases double : ∃ inner, m = .not inner
    · obtain ⟨inner, rfl⟩ := double
      exact .inl ⟨fun _ => ⟨_, rfl, .inl ⟨inner, rfl⟩⟩, rfl⟩
    · have single : filterMatchNot (some m) =
          if m.bytes ≤ matcherSizeMax then .ok (some (.not m)) else .error .matcherSize := by
        cases m <;> first | rfl | exact absurd ⟨_, rfl⟩ double
      have signedOnce : signed true (some m) = some (.not m) := by
        cases m <;> first | rfl | exact absurd ⟨_, rfl⟩ double
      by_cases room : m.bytes ≤ matcherSizeMax
      · exact .inl ⟨fun _ => ⟨m, rfl, .inr room⟩, by rw [single, if_pos room, signedOnce]⟩
      · refine .inr ⟨fun fits => ?_, .matcherSize, by rw [single, if_neg room]⟩
        obtain ⟨m', same, inner | small⟩ := fits rfl
        · cases same
          exact double inner
        · cases same
          exact room small

/-! ## The value of a matcher -/

theorem negate_apply (pathExprs : PathExprs) (route : Route) (m : Matcher) :
    (negate m).apply pathExprs route = !m.apply pathExprs route := by
  cases m <;> simp [negate, Matcher.apply]

theorem signed_apply {negated : Bool} {matcher : Option Matcher} (pathExprs : PathExprs) (route : Route)
    (fits : SignFits negated matcher) :
    filterMatcherApply pathExprs (signed negated matcher) route =
      Bool.xor negated (filterMatcherApply pathExprs matcher route) := by
  cases negated with
  | false => simp [signed]
  | true =>
    obtain ⟨m, rfl, _⟩ := fits rfl
    simp [signed, filterMatcherApply, negate_apply]

theorem BinaryOp.matcher_apply (op : BinaryOp) (matcher1 matcher2 : Option Matcher)
    (pathExprs : PathExprs) (route : Route) :
    filterMatcherApply pathExprs (op.matcher matcher1 matcher2) route =
      op.eval (filterMatcherApply pathExprs matcher1 route)
        (filterMatcherApply pathExprs matcher2 route) := by
  cases op <;> cases matcher1 <;> cases matcher2 <;>
    simp [BinaryOp.matcher, BinaryOp.eval, filterMatcherApply, Matcher.apply]

/-- The matcher of a phrase that can be built has the value of the phrase. -/
theorem Phrase.matcher_apply {k : Nonterminal} (phrase : Phrase k) (fits : phrase.Fits)
    (pathExprs : PathExprs) (route : Route) :
    filterMatcherApply pathExprs phrase.matcher route = phrase.value pathExprs route := by
  induction phrase with
  | single t inductionHypothesis => exact inductionHypothesis fits
  | binary e op t left right =>
    rw [Phrase.matcher, op.matcher_apply, left fits.1, right fits.2.1, Phrase.value]
  | atom negated predicate =>
    rw [Phrase.matcher, signed_apply pathExprs route fits, Phrase.value]
    cases predicate <;> rfl
  | group negated e inductionHypothesis =>
    rw [Phrase.matcher, signed_apply pathExprs route fits.2, inductionHypothesis fits.1, Phrase.value]

end Cbgp.Verified
