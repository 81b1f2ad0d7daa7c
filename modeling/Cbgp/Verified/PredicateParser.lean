import Cbgp.Lib.Run
import Cbgp.Verified.PredicateGrammar

/-! # What the predicate parser accepts

The parser is related to the grammar through the prefixes of sentences: a prefix is a stack of frames,
each an operation whose right operand is still to come, and possibly a complete expression above them.
Every state of a run stands for such a prefix (`feed_ran`), and reading the tokens of a phrase
leads from one prefix to the next unless the stack is full or a matcher cannot be built
(`Phrase.reads`).
-/

namespace Cbgp.Verified

open Cbgp.Lib Cbgp.Bgp

/-! ## Prefixes of sentences -/

/-- An operation whose right operand is still to come. -/
inductive Frame where
  | pending (e : Phrase .expr) (op : BinaryOp)
  | negation
  | group

namespace Frame

def tokens : Frame → List Token
  | pending e op => e.tokens ++ [op.token]
  | negation => [.not]
  | group => [.parOpen]

/-- The stack item of a frame. -/
def item : Frame → StackItem
  | pending e op => ⟨op.token, e.matcher⟩
  | negation => ⟨.not, none⟩
  | group => ⟨.parOpen, none⟩

def Fits : Frame → Prop
  | pending e _ => e.Fits
  | _ => True

end Frame

/-- The frames start a block: there are none, or a parenthesis was just opened. -/
def BlockStart : List Frame → Prop
  | [] | .group :: _ => True
  | _ => False

/-- A sign is allowed after the frames. -/
def Unsigned : List Frame → Prop
  | .negation :: _ => False
  | _ => True

/-- The frames, the last one first, come from the start of a sentence. -/
def Nested : List Frame → Prop
  | [] => True
  | .pending _ _ :: frames => BlockStart frames ∧ Nested frames
  | .negation :: frames => Unsigned frames ∧ Nested frames
  | .group :: frames => Nested frames

/-- What stands in the frames can be built. -/
def FramesFit (frames : List Frame) : Prop :=
  ∀ frame ∈ frames, frame.Fits

theorem BlockStart.unsigned {frames : List Frame} (start : BlockStart frames) : Unsigned frames := by
  cases frames with
  | nil => trivial
  | cons frame frames => cases frame <;> trivial

/-- The state in which a term is to come. -/
def waitState : List Frame → ParserState
  | .negation :: _ => .waitArg
  | _ => .waitUnaryOp

theorem Unsigned.waitState {frames : List Frame} (unsigned : Unsigned frames) :
    waitState frames = .waitUnaryOp := by
  cases frames with
  | nil => rfl
  | cons frame frames => cases frame <;> first | rfl | cases unsigned

theorem waitState_ne (frames : List Frame) : waitState frames ≠ .waitBinaryOp := by
  unfold waitState
  split <;> simp

/-- The parser when a term is to come. -/
def waiting (frames : List Frame) : Parser where
  state := waitState frames
  cmd := .none
  left := none
  right := none
  stack := frames.map Frame.item

/-- The parser when the expression of the current block may go on. -/
def holding (frames : List Frame) (e : Phrase .expr) : Parser where
  state := .waitBinaryOp
  cmd := .none
  left := e.matcher
  right := none
  stack := frames.map Frame.item

/-! ## Closing a term -/

/-- A term completes the expression of its block. -/
def closeTerm (frames : List Frame) (t : Phrase .term) : List Frame × Phrase .expr :=
  match frames with
  | .pending e op :: frames => (frames, .binary e op t)
  | frames => (frames, .single t)

theorem closeTerm_start {frames : List Frame} (start : BlockStart frames) (t : Phrase .term) :
    closeTerm frames t = (frames, .single t) := by
  cases frames with
  | nil => rfl
  | cons frame frames => cases frame <;> first | rfl | cases start

/-- What a sign can stand before. -/
inductive Operand where
  | atom (predicate : Option Predicate)
  | group (e : Phrase .expr)

namespace Operand

def term (negated : Bool) : Operand → Phrase .term
  | atom predicate => .atom negated predicate
  | group e => .group negated e

def matcher : Operand → Option Matcher
  | atom predicate => predicate.map .atom
  | group e => e.matcher

def Fits : Operand → Prop
  | atom _ => True
  | group e => e.Fits

theorem term_matcher (negated : Bool) (o : Operand) :
    (o.term negated).matcher = signed negated o.matcher := by
  cases o <;> rfl

theorem term_fits (negated : Bool) (o : Operand) :
    (o.term negated).Fits ↔ o.Fits ∧ SignFits negated o.matcher := by
  cases o <;> simp [term, Phrase.Fits, Fits, matcher]

theorem signFits_false (matcher : Option Matcher) : SignFits false matcher := by
  intro negated
  cases negated

end Operand

/-- An operand completes a term, with the sign before it. -/
def closeOperand (frames : List Frame) (o : Operand) : List Frame × Phrase .expr :=
  match frames with
  | .negation :: frames => closeTerm frames (o.term true)
  | frames => closeTerm frames (o.term false)

theorem closeOperand_unsigned {frames : List Frame} (unsigned : Unsigned frames) (o : Operand) :
    closeOperand frames o = closeTerm frames (o.term false) := by
  cases frames with
  | nil => rfl
  | cons frame frames => cases frame <;> first | rfl | cases unsigned

/-- The outcome of a fold: the parser holds the expression, or the expression cannot be built. -/
def Folds (state : ParserState) (frames : List Frame) (e : Phrase .expr)
    (result : Except PredicateFault (ParserStatus × Parser)) : Prop :=
  (e.Fits ∧ ∃ parser, result = .ok (.success, parser) ∧
    { parser with state := .waitBinaryOp } = holding frames e ∧
    (state = .waitBinaryOp → parser.state = .waitBinaryOp)) ∨
  (¬ e.Fits ∧ ∃ fault, result = .error fault)

theorem Folds.from_any {state : ParserState} {frames : List Frame} {e : Phrase .expr}
    {result : Except PredicateFault (ParserStatus × Parser)}
    (folds : Folds .waitBinaryOp frames e result) : Folds state frames e result := by
  rcases folds with ⟨fits, parser, folded, holds, kept⟩ | failed
  · exact .inl ⟨fits, parser, folded, holds, fun _ => kept rfl⟩
  · exact .inr failed

theorem applyOp_none {parser : Parser} (cmd : parser.cmd = .none) :
    applyOp parser = .ok (.success, parser) := by
  simp only [applyOp, cmd]

/-- A turn of the loop on the parser that an operation has just left. -/
theorem applyBlockOpsLoop_done {parser parser' : Parser} {frames : List Frame} (fuel : ℕ)
    (op : applyOp parser = .ok (.success, parser')) (stack : parser'.stack = frames.map Frame.item)
    (start : BlockStart frames) :
    applyBlockOpsLoop (fuel + 1) parser =
      .ok (.success, { parser' with cmd := .none, right := none }) := by
  rw [applyBlockOpsLoop, op]
  cases frames with
  | nil => simp [bind, Except.bind, stack]
  | cons frame frames =>
    cases frame with
    | group => simp [bind, Except.bind, stack, Frame.item]
    | pending e op => cases start
    | negation => cases start

/-- A turn of the loop that takes an operation off the stack. -/
theorem applyBlockOpsLoop_pop {parser parser' : Parser} {item : StackItem} {stack : List StackItem}
    (fuel : ℕ) (op : applyOp parser = .ok (.success, parser')) (held : parser'.stack = item :: stack)
    (inner : item.cmd ≠ .parOpen) :
    applyBlockOpsLoop (fuel + 1) parser =
      applyBlockOpsLoop fuel { state := .waitBinaryOp, cmd := item.cmd, left := item.left,
                               right := parser'.left, stack := stack } := by
  rw [applyBlockOpsLoop, op]
  simp [bind, Except.bind, held, inner, predicateParserPopState]

/-- The parser after a binary operation. -/
theorem applyOp_binary (parser : Parser) (op : BinaryOp) (cmd : parser.cmd = op.token) :
    applyOp parser = (filterMatchOp op parser.left parser.right).map fun left =>
      (.success, { parser with left := left }) := by
  cases op <;> simp only [applyOp, cmd, BinaryOp.token, filterMatchOp] <;>
    [cases filterMatchAnd parser.left parser.right; cases filterMatchOr parser.left parser.right] <;>
    rfl

theorem BinaryOp.token_ne_parOpen (op : BinaryOp) : op.token ≠ .parOpen := by
  cases op <;> simp [BinaryOp.token]

/-- The pending operations of a block are applied to a term. -/
theorem applyBlockOps_term {frames : List Frame} (nested : Nested frames) (unsigned : Unsigned frames)
    (framesFit : FramesFit frames) {t : Phrase .term} (fits : t.Fits) {parser parser' : Parser}
    {fuel : ℕ} (enough : frames.length ≤ fuel) (op : applyOp parser = .ok (.success, parser'))
    (left : parser'.left = t.matcher) (stack : parser'.stack = frames.map Frame.item) :
    Folds parser'.state (closeTerm frames t).1 (closeTerm frames t).2
      (applyBlockOpsLoop (fuel + 1) parser) := by
  by_cases start : BlockStart frames
  · -- nothing is pending
    rw [closeTerm_start start, applyBlockOpsLoop_done fuel op stack start]
    refine .inl ⟨fits, _, rfl, ?_, id⟩
    simp only [holding, left, stack, Phrase.matcher]
  · cases frames with
    | nil => exact absurd trivial start
    | cons frame frames =>
      cases frame with
      | group => exact absurd trivial start
      | negation => cases unsigned
      | pending e binary =>
        have eFits : e.Fits := framesFit _ List.mem_cons_self
        rw [applyBlockOpsLoop_pop fuel op stack binary.token_ne_parOpen, left]
        obtain ⟨fuel, rfl⟩ := Nat.exists_eq_add_of_le' (show 1 ≤ fuel by simp at enough; omega)
        rcases filterMatchOp_outcome binary e.matcher_proper t.matcher_proper with
          ⟨room, built⟩ | ⟨full, fault, failed⟩
        · refine .inl ⟨⟨eFits, fits, room⟩, holding frames (.binary e binary t), ?_, rfl, fun _ => rfl⟩
          have applied : applyOp ⟨.waitBinaryOp, binary.token, e.matcher, t.matcher,
              frames.map Frame.item⟩ = .ok (.success, ⟨.waitBinaryOp, binary.token,
                binary.matcher e.matcher t.matcher, t.matcher, frames.map Frame.item⟩) := by
            rw [applyOp_binary _ binary rfl]
            simp only [built, Except.map]
          exact applyBlockOpsLoop_done fuel applied rfl nested.1
        · refine .inr ⟨fun all => full all.2.2, fault, ?_⟩
          rw [applyBlockOpsLoop, applyOp_binary _ binary rfl]
          simp only [Frame.item, failed, Except.map]
          rfl

/-- The pending operations of a block are applied to an operand. -/
theorem applyBlockOps_operand {frames : List Frame} (nested : Nested frames)
    (framesFit : FramesFit frames) {o : Operand} (fits : o.Fits) {parser parser' : Parser}
    {fuel : ℕ} (enough : frames.length ≤ fuel) (op : applyOp parser = .ok (.success, parser'))
    (left : parser'.left = o.matcher) (stack : parser'.stack = frames.map Frame.item) :
    Folds parser'.state (closeOperand frames o).1 (closeOperand frames o).2
      (applyBlockOpsLoop (fuel + 1) parser) := by
  by_cases unsigned : Unsigned frames
  · rw [closeOperand_unsigned unsigned]
    refine applyBlockOps_term nested unsigned framesFit ?_ enough op ?_ stack
    · exact (o.term_fits false).mpr ⟨fits, Operand.signFits_false _⟩
    · rw [left, o.term_matcher]
      rfl
  · cases frames with
    | nil => exact absurd trivial unsigned
    | cons frame frames =>
      cases frame with
      | group => exact absurd trivial unsigned
      | pending e binary => exact absurd trivial unsigned
      | negation =>
        rw [applyBlockOpsLoop_pop fuel op stack (by simp [Frame.item]), left]
        obtain ⟨fuel, rfl⟩ := Nat.exists_eq_add_of_le' (show 1 ≤ fuel by simp at enough; omega)
        -- the expression contains the negation, so it can be built only if the negation can
        have needed : (closeTerm frames (o.term true)).2.Fits → SignFits true o.matcher := by
          intro all
          have termFits : (o.term true).Fits := by
            unfold closeTerm at all
            split at all
            · exact all.2.1
            · exact all
          exact ((o.term_fits true).mp termFits).2
        rcases filterMatchNot_outcome o.matcher with ⟨room, built⟩ | ⟨full, fault, failed⟩
        · have applied : applyOp ⟨.waitBinaryOp, .not, none, o.matcher, frames.map Frame.item⟩ =
              .ok (.success, ⟨.waitBinaryOp, .not, signed true o.matcher, o.matcher,
                frames.map Frame.item⟩) := by
            simp only [applyOp, built, bind, Except.bind]
          have outerFit : FramesFit frames := fun frame member =>
            framesFit frame (List.mem_cons_of_mem _ member)
          have termFits : (o.term true).Fits := (o.term_fits true).mpr ⟨fits, room⟩
          exact (applyBlockOps_term nested.2 nested.1 outerFit termFits
            (show frames.length ≤ fuel by simp at enough; omega) applied
            (o.term_matcher true).symm rfl).from_any
        · refine .inr ⟨fun all => full (needed all), fault, ?_⟩
          simp only [applyBlockOpsLoop, applyOp, Frame.item, failed, bind, Except.bind]

/-! ## One token -/

/-- The outcome of a step that completes an expression. -/
def Completes (frames : List Frame) (e : Phrase .expr)
    (result : Except PredicateFault (ParserStatus × Parser)) : Prop :=
  (e.Fits ∧ result = .ok (.success, holding frames e)) ∨ (¬ e.Fits ∧ ∃ fault, result = .error fault)

theorem takeAtom_completes {frames : List Frame} (nested : Nested frames) (framesFit : FramesFit frames)
    (predicate : Option Predicate) {parser : Parser}
    (left : parser.left = predicate.map .atom) (stack : parser.stack = frames.map Frame.item) :
    Completes (closeOperand frames (.atom predicate)).1 (closeOperand frames (.atom predicate)).2
      (takeAtom parser) := by
  have enough : frames.length ≤ parser.stack.length := by simp [stack]
  have idle : applyOp { parser with cmd := .none } = .ok (.success, { parser with cmd := .none }) :=
    applyOp_none rfl
  have fold := applyBlockOps_operand nested framesFit (show (Operand.atom predicate).Fits from trivial)
    enough idle left stack
  rcases fold with ⟨fits, parser', folded, holds, _⟩ | ⟨full, fault, failed⟩
  · refine .inl ⟨fits, ?_⟩
    simp only [takeAtom, predicateParserApplyBlockOps, folded, bind, Except.bind, holds]
  · refine .inr ⟨full, fault, ?_⟩
    simp only [takeAtom, predicateParserApplyBlockOps, failed, bind, Except.bind]

/-- An atom, where a term is to come. -/
theorem step_atom {frames : List Frame} (nested : Nested frames) (framesFit : FramesFit frames)
    (predicate : Option Predicate) :
    Completes (closeOperand frames (.atom predicate)).1 (closeOperand frames (.atom predicate)).2
      (parserStep (waiting frames) (.atom predicate)) := by
  have left : (storeAtom (waiting frames) (.atom predicate)).left = predicate.map .atom := by
    cases predicate <;> rfl
  have stack : (storeAtom (waiting frames) (.atom predicate)).stack = frames.map Frame.item := by
    cases predicate <;> rfl
  have state : (storeAtom (waiting frames) (.atom predicate)).state = waitState frames := by
    cases predicate <;> rfl
  have taken : parserStep (waiting frames) (.atom predicate) =
      takeAtom (storeAtom (waiting frames) (.atom predicate)) := by
    unfold parserStep
    dsimp only
    split
    · rfl
    next binary => exact absurd (state.symm.trans binary) (waitState_ne frames)
    · rfl
  rw [taken]
  exact takeAtom_completes nested framesFit predicate left stack

/-- A closing parenthesis, after an expression inside parentheses. -/
theorem step_parClose {frames : List Frame} (nested : Nested frames) (framesFit : FramesFit frames)
    {e : Phrase .expr} (fits : e.Fits) :
    Completes (closeOperand frames (.group e)).1 (closeOperand frames (.group e)).2
      (parserStep (holding (.group :: frames) e) .parClose) := by
  have closed : applyOp { holding (.group :: frames) e with cmd := .parClose } =
      .ok (.success, ⟨.waitBinaryOp, .parOpen, e.matcher, e.matcher, frames.map Frame.item⟩) := by
    simp [applyOp, holding, predicateParserPopState, Frame.item, bind, Except.bind]
  have fold : Folds .waitBinaryOp (closeOperand frames (.group e)).1 (closeOperand frames (.group e)).2
      (applyBlockOpsLoop (frames.length + 1 + 1)
        { holding (.group :: frames) e with cmd := .parClose }) :=
    applyBlockOps_operand nested framesFit (show (Operand.group e).Fits from fits) (Nat.le_succ frames.length) closed
      rfl rfl
  have unfolded : parserStep (holding (.group :: frames) e) .parClose =
      applyBlockOpsLoop (frames.length + 1 + 1)
        { holding (.group :: frames) e with cmd := .parClose } := by
    simp [parserStep, storeAtom, holding, predicateParserWaitBinaryOp, predicateParserApplyBlockOps]
  rw [unfolded]
  rcases fold with ⟨built, parser', folded, holds, state⟩ | ⟨full, fault, failed⟩
  · refine .inl ⟨built, ?_⟩
    rw [folded, ← holds, ← state rfl]
  · exact .inr ⟨full, fault, failed⟩

/-- A step that pushes a frame, or finds the stack full. -/
def Pushes (frames : List Frame) (frame : Frame)
    (result : Except PredicateFault (ParserStatus × Parser)) : Prop :=
  (frames.length < parserMaxDepth ∧ result = .ok (.success, waiting (frame :: frames))) ∨
  (¬ frames.length < parserMaxDepth ∧ ∃ error parser, result = .ok (.failed error, parser))

theorem pushOr_pushes {frames : List Frame} {frame : Frame} {parser : Parser} {token : Token}
    {state : ParserState} (error : ParserError) (stack : parser.stack = frames.map Frame.item)
    (item : frame.item = ⟨token, parser.left⟩) (next : state = (waiting (frame :: frames)).state) :
    Pushes frames frame (.ok (pushOr error state parser token)) := by
  by_cases room : frames.length < parserMaxDepth
  · refine .inl ⟨room, ?_⟩
    simp [pushOr, predicateParserPushState, stack, room, waiting, item, next]
  · refine .inr ⟨room, error, parser, ?_⟩
    simp [pushOr, predicateParserPushState, stack, room]

theorem step_not {frames : List Frame} (unsigned : Unsigned frames) :
    Pushes frames .negation (parserStep (waiting frames) .not) := by
  have state : (waiting frames).state = .waitUnaryOp := unsigned.waitState
  simp only [parserStep, storeAtom, state, predicateParserWaitUnaryOp]
  exact pushOr_pushes .stateTooLarge rfl rfl rfl

theorem step_parOpen (frames : List Frame) :
    Pushes frames .group (parserStep (waiting frames) .parOpen) := by
  have pushed : Pushes frames .group
      (.ok (pushOr .stateTooLarge .waitUnaryOp (waiting frames) .parOpen)) :=
    pushOr_pushes .stateTooLarge rfl rfl rfl
  unfold parserStep
  simp only [storeAtom]
  split
  · exact pushed
  next binary => exact absurd binary (waitState_ne frames)
  · exact pushed

theorem step_op (frames : List Frame) (e : Phrase .expr) (op : BinaryOp) :
    Pushes frames (.pending e op) (parserStep (holding frames e) op.token) := by
  have pushed : Pushes frames (.pending e op)
      (.ok (pushOr .unexpected .waitUnaryOp (holding frames e) op.token)) :=
    pushOr_pushes .unexpected rfl rfl rfl
  cases op <;> exact pushed

/-! ## The tokens of a phrase -/

/-- The main loop on a list of tokens. -/
def feed : Parser → List Token → Except PredicateFault (ParserStatus × Parser)
  | parser, [] => .ok (.success, parser)
  | parser, token :: tokens => do
    let (status, parser) ← parserStep parser token
    if status = .success then feed parser tokens else .ok (status, parser)

/-- What reading some tokens can lead to: the parser `target`, a fault where something cannot be built,
or an error where the stack is full. -/
inductive Reading (fits shallow : Prop) (target : Parser) :
    Except PredicateFault (ParserStatus × Parser) → Prop where
  | reached : fits → shallow → Reading fits shallow target (.ok (.success, target))
  | fault (fault : PredicateFault) : ¬ fits → Reading fits shallow target (.error fault)
  | full (error : ParserError) (parser : Parser) : ¬ shallow →
      Reading fits shallow target (.ok (.failed error, parser))

namespace Reading

variable {fits fits' shallow shallow' : Prop} {source middle target : Parser}

theorem append {xs ys : List Token} (first : Reading fits' shallow' middle (feed source xs))
    (second : fits' → shallow' → Reading fits shallow target (feed middle ys))
    (fitsFirst : fits → fits') (shallowFirst : shallow → shallow') :
    Reading fits shallow target (feed source (xs ++ ys)) := by
  induction xs generalizing source with
  | nil =>
    cases first with
    | reached fits shallow => exact second fits shallow
  | cons token xs inductionHypothesis =>
    rw [List.cons_append, feed]
    rw [feed] at first
    cases stepped : parserStep source token with
    | error fault =>
      simp only [stepped, bind, Except.bind] at first ⊢
      cases first with
      | fault _ unfit => exact .fault _ fun fits => unfit (fitsFirst fits)
    | ok result =>
      obtain ⟨status, parser⟩ := result
      simp only [stepped, bind, Except.bind] at first ⊢
      by_cases going : status = .success
      · rw [if_pos going] at first ⊢
        exact inductionHypothesis first
      · rw [if_neg going] at first ⊢
        cases first with
        | reached => exact absurd rfl going
        | full _ _ deep => exact .full _ _ fun shallow => deep (shallowFirst shallow)

theorem congr {result : Except PredicateFault (ParserStatus × Parser)}
    (reading : Reading fits shallow target result) (fitsIff : fits ↔ fits')
    (shallowIff : shallow ↔ shallow') : Reading fits' shallow' target result := by
  rw [← fitsIff, ← shallowIff]
  exact reading

theorem of_completes {token : Token} {frames : List Frame} {e : Phrase .expr}
    (completes : Completes frames e (parserStep source token)) (room : shallow) :
    Reading e.Fits shallow (holding frames e) (feed source [token]) := by
  rcases completes with ⟨fits, stepped⟩ | ⟨unfit, fault, stepped⟩
  · simp only [feed, stepped, bind, Except.bind, if_true]
    exact .reached fits room
  · simp only [feed, stepped, bind, Except.bind]
    exact .fault fault unfit

theorem of_pushes {token : Token} {frames : List Frame} {frame : Frame}
    (pushes : Pushes frames frame (parserStep source token)) (buildable : fits) :
    Reading fits (frames.length < parserMaxDepth) (waiting (frame :: frames)) (feed source [token]) := by
  rcases pushes with ⟨room, stepped⟩ | ⟨full, error, parser, stepped⟩
  · simp only [feed, stepped, bind, Except.bind, if_true]
    exact .reached buildable room
  · simp only [feed, stepped, bind, Except.bind, reduceCtorEq, if_false]
    exact .full error parser full

end Reading

theorem FramesFit.cons {frames : List Frame} {frame : Frame} (first : frame.Fits)
    (rest : FramesFit frames) : FramesFit (frame :: frames) := by
  intro other member
  cases member with
  | head => exact first
  | tail _ later => exact rest other later

/-- Reading a phrase where a phrase of its kind is to come. -/
def Reads : {k : Nonterminal} → Phrase k → Prop
  | .expr, e => ∀ frames, Nested frames → BlockStart frames → FramesFit frames →
      frames.length ≤ parserMaxDepth →
      Reading e.Fits (frames.length + e.need ≤ parserMaxDepth) (holding frames e)
        (feed (waiting frames) e.tokens)
  | .term, t => ∀ frames, Nested frames → Unsigned frames → FramesFit frames →
      frames.length ≤ parserMaxDepth →
      Reading (closeTerm frames t).2.Fits (frames.length + t.need ≤ parserMaxDepth)
        (holding (closeTerm frames t).1 (closeTerm frames t).2) (feed (waiting frames) t.tokens)

theorem closeTerm_fits {frames : List Frame} {t : Phrase .term} (fits : (closeTerm frames t).2.Fits) :
    t.Fits := by
  unfold closeTerm at fits
  split at fits
  · exact fits.2.1
  · exact fits

theorem closeOperand_fits {frames : List Frame} {e : Phrase .expr}
    (fits : (closeOperand frames (.group e)).2.Fits) : e.Fits := by
  unfold closeOperand at fits
  split at fits
  · exact (closeTerm_fits fits).1
  · exact (closeTerm_fits fits).1

/-- An operand, with the sign that the frames end with, if any. -/
theorem operand_reads {o : Operand} {tokens : List Token} {need : ℕ} {frames : List Frame}
    (negated : Bool) (nested : Nested frames) (unsigned : Unsigned frames) (framesFit : FramesFit frames)
    (room : frames.length ≤ parserMaxDepth)
    (reads : ∀ inner, Nested inner → FramesFit inner → inner.length ≤ parserMaxDepth →
      Reading (closeOperand inner o).2.Fits (inner.length + need ≤ parserMaxDepth)
        (holding (closeOperand inner o).1 (closeOperand inner o).2) (feed (waiting inner) tokens)) :
    Reading (closeTerm frames (o.term negated)).2.Fits
      (frames.length + (need + negated.toNat) ≤ parserMaxDepth)
      (holding (closeTerm frames (o.term negated)).1 (closeTerm frames (o.term negated)).2)
      (feed (waiting frames) (signTokens negated ++ tokens)) := by
  cases negated with
  | false =>
    have read := reads frames nested framesFit room
    rw [closeOperand_unsigned unsigned] at read
    simpa [signTokens] using read
  | true =>
    have pushed : Reading True (frames.length < parserMaxDepth) (waiting (.negation :: frames))
        (feed (waiting frames) [.not]) := .of_pushes (step_not unsigned) trivial
    refine pushed.append (fun _ deeper => ?_) (fun _ => trivial) (fun shallow => ?_)
    · have read := reads (.negation :: frames) ⟨unsigned, nested⟩ (framesFit.cons trivial) deeper
      have longer : (Frame.negation :: frames).length + need = frames.length + (need + true.toNat) := by
        simp only [List.length_cons, Bool.toNat_true]
        omega
      rw [← longer]
      exact read
    · simp only [Bool.toNat_true] at shallow
      omega

theorem Phrase.reads {k : Nonterminal} (phrase : Phrase k) : Reads phrase := by
  induction phrase with
  | single t inductionHypothesis =>
    intro frames nested start framesFit room
    have read := inductionHypothesis frames nested start.unsigned framesFit room
    rw [closeTerm_start start] at read
    exact read
  | binary e op t left right =>
    intro frames nested start framesFit room
    refine (left frames nested start framesFit room).append (fun eFits eShallow => ?_) (fun fits => fits.1)
      (fun shallow => ?_)
    · -- the operator is pushed, and the right operand closes it
      have pushed : Reading True (frames.length < parserMaxDepth) (waiting (.pending e op :: frames))
          (feed (holding frames e) [op.token]) := .of_pushes (step_op frames e op) trivial
      refine pushed.append (fun _ deeper => ?_) (fun _ => trivial) (fun shallow => ?_)
      · have read := right (.pending e op :: frames) ⟨start, nested⟩ trivial (framesFit.cons eFits)
          deeper
        refine read.congr Iff.rfl ?_
        simp only [List.length_cons, Phrase.need]
        omega
      · simp only [Phrase.need] at shallow
        omega
    · simp only [Phrase.need] at shallow
      omega
  | atom negated predicate =>
    intro frames nested unsigned framesFit room
    have bare : ∀ inner, Nested inner → FramesFit inner → inner.length ≤ parserMaxDepth →
        Reading (closeOperand inner (.atom predicate)).2.Fits (inner.length + 0 ≤ parserMaxDepth)
          (holding (closeOperand inner (.atom predicate)).1 (closeOperand inner (.atom predicate)).2)
          (feed (waiting inner) [.atom predicate]) := by
      intro inner nested framesFit room
      exact .of_completes (step_atom nested framesFit predicate) room
    refine (operand_reads negated nested unsigned framesFit room bare).congr Iff.rfl ?_
    simp [Phrase.need]
  | group negated e inductionHypothesis =>
    intro frames nested unsigned framesFit room
    have bare : ∀ inner, Nested inner → FramesFit inner → inner.length ≤ parserMaxDepth →
        Reading (closeOperand inner (.group e)).2.Fits (inner.length + (e.need + 1) ≤ parserMaxDepth)
          (holding (closeOperand inner (.group e)).1 (closeOperand inner (.group e)).2)
          (feed (waiting inner) (.parOpen :: (e.tokens ++ [.parClose]))) := by
      intro inner nested framesFit room
      have pushed : Reading True (inner.length < parserMaxDepth) (waiting (.group :: inner))
          (feed (waiting inner) [.parOpen]) := .of_pushes (step_parOpen inner) trivial
      refine pushed.append (fun _ deeper => ?_) (fun _ => trivial) (fun shallow => by omega)
      have body := inductionHypothesis (.group :: inner) nested trivial (framesFit.cons trivial) deeper
      refine body.append (fun fits shallow => ?_) closeOperand_fits (fun shallow => ?_)
      · refine .of_completes (step_parClose nested framesFit fits) ?_
        simp only [List.length_cons] at shallow
        omega
      · simp only [List.length_cons]
        omega
    refine (operand_reads negated nested unsigned framesFit room bare).congr Iff.rfl ?_
    simp only [Phrase.need]
    omega

/-! ## Beginnings of sentences -/

/-- The tokens of frames, the last frame first. -/
def framesTokens : List Frame → List Token
  | [] => []
  | frame :: frames => framesTokens frames ++ frame.tokens

/-- The stack items held at once while frames are read. -/
def framesNeed : List Frame → ℕ
  | [] => 0
  | .pending e _ :: frames => max (framesNeed frames) (frames.length + max e.need 1)
  | _ :: frames => max (framesNeed frames) (frames.length + 1)

/-- The beginning of a sentence: the open operations, and the expression of the current block if it
is complete so far. -/
structure Beginning where
  frames : List Frame
  done : Option (Phrase .expr)

namespace Beginning

def tokens (b : Beginning) : List Token :=
  framesTokens b.frames ++ (b.done.map Phrase.tokens).getD []

def need (b : Beginning) : ℕ :=
  max (framesNeed b.frames) ((b.done.map fun e => b.frames.length + e.need).getD 0)

def Valid (b : Beginning) : Prop :=
  Nested b.frames ∧ (b.done ≠ none → BlockStart b.frames)

def Fits (b : Beginning) : Prop :=
  FramesFit b.frames ∧ ∀ e, b.done = some e → e.Fits

/-- The parser that has read the beginning. -/
def parser (b : Beginning) : Parser :=
  match b.done with
  | none => waiting b.frames
  | some e => holding b.frames e

end Beginning

theorem length_le_framesNeed (frames : List Frame) : frames.length ≤ framesNeed frames := by
  cases frames with
  | nil => exact Nat.le_refl 0
  | cons frame frames => cases frame <;> simp only [framesNeed, List.length_cons] <;> omega

theorem FramesFit.tail {frames : List Frame} {frame : Frame} (fit : FramesFit (frame :: frames)) :
    FramesFit frames :=
  fun other member => fit other (List.mem_cons_of_mem _ member)

theorem frames_read {frames : List Frame} (nested : Nested frames) :
    Reading (FramesFit frames) (framesNeed frames ≤ parserMaxDepth) (waiting frames)
      (feed predicateParserInit (framesTokens frames)) := by
  induction frames with
  | nil => exact .reached (by simp [FramesFit]) (by simp [framesNeed])
  | cons frame frames inductionHypothesis =>
    have length := length_le_framesNeed frames
    cases frame with
    | pending e op =>
      refine (inductionHypothesis nested.2).append (fun fit shallow => ?_) FramesFit.tail
        (fun shallow => le_trans (le_max_left _ _) shallow)
      refine (e.reads frames nested.2 nested.1 fit (by omega)).append (fun eFits room => ?_)
        (fun fit => fit _ List.mem_cons_self) (fun shallow => ?_)
      · refine (Reading.of_pushes (step_op frames e op)
          (show FramesFit (.pending e op :: frames) from fit.cons eFits)).congr Iff.rfl ?_
        simp only [framesNeed]
        omega
      · simp only [framesNeed] at shallow
        omega
    | negation =>
      refine (inductionHypothesis nested.2).append (fun fit shallow => ?_) FramesFit.tail
        (fun shallow => le_trans (le_max_left _ _) shallow)
      refine (Reading.of_pushes (step_not nested.1)
        (show FramesFit (.negation :: frames) from fit.cons trivial)).congr Iff.rfl ?_
      simp only [framesNeed]
      omega
    | group =>
      refine (inductionHypothesis nested).append (fun fit shallow => ?_) FramesFit.tail
        (fun shallow => le_trans (le_max_left _ _) shallow)
      refine (Reading.of_pushes (step_parOpen frames)
        (show FramesFit (.group :: frames) from fit.cons trivial)).congr Iff.rfl ?_
      simp only [framesNeed]
      omega

/-- Reading a beginning leads to its parser, unless it cannot be built or is too deep. -/
theorem Beginning.reads (b : Beginning) (valid : b.Valid) :
    Reading b.Fits (b.need ≤ parserMaxDepth) b.parser (feed predicateParserInit b.tokens) := by
  obtain ⟨frames, done⟩ := b
  cases done with
  | none =>
    have read := frames_read valid.1
    simpa [Beginning.Fits, Beginning.need, Beginning.parser, Beginning.tokens] using read
  | some e =>
    refine (frames_read (show Nested frames from valid.1)).append (fun fit shallow => ?_) And.left
      (fun shallow => le_trans (le_max_left _ _) shallow)
    have length := length_le_framesNeed frames
    refine (e.reads frames valid.1 (valid.2 (by simp)) fit (by omega)).congr ?_ ?_
    · simp [Beginning.Fits, fit]
    · simp only [Beginning.need, Option.map_some, Option.getD_some]
      omega

/-! ## The end of a term -/

/-- Closing keeps the beginning of the sentence. -/
structure Closed (frames : List Frame) (tokens : List Token) (need : ℕ)
    (closed : List Frame × Phrase .expr) : Prop where
  nested : Nested closed.1
  start : BlockStart closed.1
  framesFit : FramesFit closed.1
  tokens : framesTokens closed.1 ++ closed.2.tokens = framesTokens frames ++ tokens
  need : max (framesNeed closed.1) (closed.1.length + closed.2.need) ≤
    max (framesNeed frames) (frames.length + need)

theorem closeTerm_closed {frames : List Frame} (nested : Nested frames) (unsigned : Unsigned frames)
    (framesFit : FramesFit frames) (t : Phrase .term) :
    Closed frames t.tokens t.need (closeTerm frames t) := by
  cases frames with
  | nil => exact ⟨trivial, trivial, framesFit, rfl, Nat.le_refl _⟩
  | cons frame frames =>
    cases frame with
    | group => exact ⟨nested, trivial, framesFit, rfl, Nat.le_refl _⟩
    | negation => cases unsigned
    | pending e op =>
      refine ⟨nested.2, nested.1, framesFit.tail, ?_, ?_⟩
      · simp [closeTerm, framesTokens, Frame.tokens, Phrase.tokens]
      · simp only [closeTerm, framesNeed, Phrase.need, List.length_cons]
        omega

namespace Operand

def tokens : Operand → List Token
  | atom predicate => [.atom predicate]
  | group e => .parOpen :: (e.tokens ++ [.parClose])

def need : Operand → ℕ
  | atom _ => 0
  | group e => e.need + 1

end Operand

theorem closeOperand_closed {frames : List Frame} (nested : Nested frames)
    (framesFit : FramesFit frames) (o : Operand) :
    Closed frames o.tokens o.need (closeOperand frames o) := by
  have termTokens : ∀ negated, (o.term negated).tokens = signTokens negated ++ o.tokens := by
    intro negated
    cases o <;> rfl
  have termNeed : ∀ negated, (o.term negated).need = o.need + negated.toNat := by
    intro negated
    cases o with
    | atom predicate => simp [Operand.term, Operand.need, Phrase.need]
    | group e =>
      simp only [Operand.term, Operand.need, Phrase.need]
      omega
  by_cases unsigned : Unsigned frames
  · rw [closeOperand_unsigned unsigned]
    have closed := closeTerm_closed nested unsigned framesFit (o.term false)
    rw [termTokens, termNeed] at closed
    exact closed
  · cases frames with
    | nil => exact absurd trivial unsigned
    | cons frame frames =>
      cases frame with
      | group => exact absurd trivial unsigned
      | pending e op => exact absurd trivial unsigned
      | negation =>
        have closed := closeTerm_closed nested.2 nested.1 framesFit.tail (o.term true)
        rw [termTokens, termNeed] at closed
        refine ⟨closed.nested, closed.start, closed.framesFit, ?_, le_trans closed.need ?_⟩
        · simpa [closeOperand, framesTokens, Frame.tokens, signTokens] using closed.tokens
        · simp only [framesNeed, List.length_cons, Bool.toNat_true]
          omega

end Cbgp.Verified
