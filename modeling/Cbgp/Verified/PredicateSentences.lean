import Cbgp.Verified.PredicateParser

/-! # Sentences of the predicate parser

What `predicate_parser` does with every text.  The parser stops the program exactly when some
beginning of a sentence trips it (`Trips`): something complete in it cannot be built, or a sign is
followed by a closing parenthesis.  A sentence gives its matcher when it can be built and the stack is
deep enough, and any other text an error.
-/

namespace Cbgp.Verified

open Cbgp.Lib Cbgp.Bgp

/-! ## Where the parser stops the program -/

/-- The tokens start with the beginning of a sentence, read without filling the stack, that holds a
phrase that cannot be built or ends with a sign that a closing parenthesis follows. -/
def Trips (tokens : List Token) : Prop :=
  ∃ b : Beginning, b.Valid ∧ b.need ≤ parserMaxDepth ∧
    ((b.tokens <+: tokens ∧ ¬ b.Fits) ∨
      (b.tokens ++ [.parClose] <+: tokens ∧ b.done = none ∧ ∃ frames, b.frames = .negation :: frames))

theorem Trips.append {xs : List Token} (trips : Trips xs) (ys : List Token) : Trips (xs ++ ys) := by
  obtain ⟨b, valid, shallow, ⟨within, unfit⟩ | ⟨within, sign⟩⟩ := trips
  · exact ⟨b, valid, shallow, .inl ⟨within.trans (List.prefix_append xs ys), unfit⟩⟩
  · exact ⟨b, valid, shallow, .inr ⟨within.trans (List.prefix_append xs ys), sign⟩⟩

/-- What a step from the parser of a beginning can do. -/
inductive Stepped (b : Beginning) (token : Token) :
    Except PredicateFault (ParserStatus × Parser) → Prop where
  | next (b' : Beginning) : b'.Valid → b'.Fits → b'.need ≤ parserMaxDepth →
      b'.tokens = b.tokens ++ [token] → Stepped b token (.ok (.success, b'.parser))
  | failed (error : ParserError) (parser : Parser) : Stepped b token (.ok (.failed error, parser))
  | fault (fault : PredicateFault) : Trips (b.tokens ++ [token]) → Stepped b token (.error fault)

/-- A step that completes an expression. -/
theorem Stepped.of_completes {b : Beginning} {token : Token} (frames : List Frame) (o : Operand)
    {result : Except PredicateFault (ParserStatus × Parser)} (nested : Nested frames)
    (framesFit : FramesFit frames)
    (tokens : b.tokens ++ [token] = framesTokens frames ++ o.tokens)
    (shallow : max (framesNeed frames) (frames.length + o.need) ≤ parserMaxDepth)
    (completes : Completes (closeOperand frames o).1 (closeOperand frames o).2 result) :
    Stepped b token result := by
  have closed := closeOperand_closed nested framesFit o
  -- the beginning that the completed expression ends
  let b' : Beginning := ⟨(closeOperand frames o).1, some (closeOperand frames o).2⟩
  have valid : b'.Valid := ⟨closed.nested, fun _ => closed.start⟩
  have need : b'.need ≤ parserMaxDepth := le_trans closed.need shallow
  have same : b'.tokens = b.tokens ++ [token] := closed.tokens.trans tokens.symm
  rcases completes with ⟨fits, stepped⟩ | ⟨unfit, fault, stepped⟩
  · rw [stepped]
    refine .next b' valid ⟨closed.framesFit, ?_⟩ need same
    intro e done
    cases done
    exact fits
  · rw [stepped]
    refine .fault fault ⟨b', valid, need, .inl ⟨?_, fun fits => unfit (fits.2 _ rfl)⟩⟩
    exact same ▸ List.prefix_rfl

/-- A step that pushes a frame. -/
theorem Stepped.of_pushes {b : Beginning} {token : Token} (frame : Frame)
    {result : Except PredicateFault (ParserStatus × Parser)} (nested : Nested (frame :: b.frames))
    (framesFit : FramesFit (frame :: b.frames))
    (tokens : b.tokens ++ [token] = framesTokens (frame :: b.frames))
    (shallow : b.frames.length < parserMaxDepth → framesNeed (frame :: b.frames) ≤ parserMaxDepth)
    (pushes : Pushes b.frames frame result) : Stepped b token result := by
  rcases pushes with ⟨room, stepped⟩ | ⟨_, error, parser, stepped⟩
  · rw [stepped]
    refine .next ⟨frame :: b.frames, none⟩ ⟨nested, by simp⟩ ⟨framesFit, by simp⟩ ?_ ?_
    · simpa [Beginning.need] using shallow room
    · simpa [Beginning.tokens] using tokens.symm
  · rw [stepped]
    exact .failed error parser

/-- Every step from the parser of a beginning. -/
theorem step_stepped {b : Beginning} {token : Token} (valid : b.Valid) (fits : b.Fits)
    (shallow : b.need ≤ parserMaxDepth) (read : token ≠ .eof ∧ token ≠ .none) :
    Stepped b token (parserStep b.parser token) := by
  obtain ⟨frames, done⟩ := b
  cases done with
  | none =>
    have nested : Nested frames := valid.1
    have fit : FramesFit frames := fits.1
    have need : framesNeed frames ≤ parserMaxDepth := by simpa [Beginning.need] using shallow
    have length := length_le_framesNeed frames
    -- The parser waits for an operand: an atom completes one, a sign or a parenthesis opens a frame.
    change Stepped _ token (parserStep (waiting frames) token)
    cases token with
    | none => exact absurd rfl read.2
    | eof => exact absurd rfl read.1
    | atom predicate =>
      refine .of_completes frames (.atom predicate) nested fit
        (by simp [Beginning.tokens, Operand.tokens]) ?_ (step_atom nested fit predicate)
      simp only [Operand.need]
      omega
    | not =>
      by_cases unsigned : Unsigned frames
      · refine .of_pushes .negation ⟨unsigned, nested⟩ (fit.cons trivial)
          (by simp [Beginning.tokens, framesTokens, Frame.tokens]) (fun room => ?_) (step_not unsigned)
        simp only [framesNeed] at room ⊢
        omega
      · cases frames with
        | nil => exact absurd trivial unsigned
        | cons frame frames =>
          cases frame with
          | negation => exact .failed .unaryOp _
          | group => exact absurd trivial unsigned
          | pending e op => exact absurd trivial unsigned
    | parOpen =>
      refine .of_pushes .group nested (fit.cons trivial)
        (by simp [Beginning.tokens, framesTokens, Frame.tokens]) (fun room => ?_) (step_parOpen frames)
      simp only [framesNeed] at room ⊢
      omega
    -- A parenthesis that closes right after a sign trips the assertion; elsewhere it is an error.
    | parClose =>
      cases frames with
      | nil => exact .failed .unexpected _
      | cons frame frames =>
        cases frame with
        | group => exact .failed .unexpected _
        | pending e op => exact .failed .unexpected _
        | negation =>
          exact .fault .abort ⟨⟨.negation :: frames, none⟩, valid, shallow,
            .inr ⟨List.prefix_rfl, rfl, frames, rfl⟩⟩
    | and =>
      cases frames with
      | nil => exact .failed .leftExpr _
      | cons frame frames => cases frame <;> exact .failed _ _
    | or =>
      cases frames with
      | nil => exact .failed .leftExpr _
      | cons frame frames => cases frame <;> exact .failed _ _
  | some e =>
    have nested : Nested frames := valid.1
    have start : BlockStart frames := valid.2 (by simp)
    have fit : FramesFit frames := fits.1
    have eFits : e.Fits := fits.2 e rfl
    have need : framesNeed frames ≤ parserMaxDepth ∧ frames.length + e.need ≤ parserMaxDepth := by
      exact Nat.max_le.mp shallow
    -- The parser holds an operand: only an operator or a closing parenthesis can follow.
    change Stepped _ token (parserStep (holding frames e) token)
    have operator : ∀ op : BinaryOp, Stepped ⟨frames, some e⟩ op.token
        (parserStep (holding frames e) op.token) := by
      intro op
      refine .of_pushes (.pending e op) ⟨start, nested⟩ (fit.cons eFits)
        (by simp [Beginning.tokens, framesTokens, Frame.tokens]) (fun room => ?_) (step_op frames e op)
      simp only [framesNeed] at room ⊢
      omega
    cases token with
    | none => exact absurd rfl read.2
    | eof => exact absurd rfl read.1
    | atom predicate => cases predicate <;> exact .failed .unexpected _
    | not => exact .failed .unaryOp _
    | parOpen => exact .failed .unexpected _
    | and => exact operator .and
    | or => exact operator .or
    | parClose =>
      cases frames with
      | nil => exact .failed .parMismatch _
      | cons frame frames =>
        cases frame with
        | pending e op => cases start
        | negation => cases start
        | group =>
          have inner : Nested frames := nested
          refine .of_completes frames (.group e) inner fit.tail ?_ ?_
            (step_parClose inner fit.tail eFits)
          · simp [Beginning.tokens, framesTokens, Frame.tokens, Operand.tokens]
          · simp only [framesNeed, List.length_cons, Operand.need] at need ⊢
            omega

theorem feed_cons_ok {parser parser' : Parser} {token : Token} (tokens : List Token)
    (stepped : parserStep parser token = .ok (.success, parser')) :
    feed parser (token :: tokens) = feed parser' tokens := by
  simp only [feed, stepped, bind, Except.bind, if_true]

/-- What a run over tokens can do from the parser of a beginning. -/
inductive Ran (b : Beginning) (tokens : List Token) :
    Except PredicateFault (ParserStatus × Parser) → Prop where
  | next (b' : Beginning) : b'.Valid → b'.tokens = b.tokens ++ tokens →
      Ran b tokens (.ok (.success, b'.parser))
  | failed (error : ParserError) (parser : Parser) : Ran b tokens (.ok (.failed error, parser))
  | fault (fault : PredicateFault) : Trips (b.tokens ++ tokens) → Ran b tokens (.error fault)

theorem feed_ran {tokens : List Token} (read : ∀ token ∈ tokens, token ≠ .eof ∧ token ≠ .none)
    {b : Beginning} (valid : b.Valid) (fits : b.Fits) (shallow : b.need ≤ parserMaxDepth) :
    Ran b tokens (feed b.parser tokens) := by
  induction tokens generalizing b with
  | nil => exact .next b valid (List.append_nil _).symm
  | cons token tokens inductionHypothesis =>
    -- The induction is on the tokens left; b is what those read so far have begun.
    have step := step_stepped valid fits shallow (read token List.mem_cons_self)
    have rest : ∀ token ∈ tokens, token ≠ .eof ∧ token ≠ .none := fun token member =>
      read token (List.mem_cons_of_mem _ member)
    have split : ∀ b' : Beginning, b'.tokens = b.tokens ++ [token] →
        b'.tokens ++ tokens = b.tokens ++ token :: tokens := by
      intro b' same
      rw [same, List.append_assoc, List.singleton_append]
    cases result : parserStep b.parser token with
    | error fault =>
      rw [result] at step
      simp only [feed, result, bind, Except.bind]
      cases step with
      | fault _ trips =>
        refine .fault fault ?_
        have extended := trips.append tokens
        rwa [List.append_assoc, List.singleton_append] at extended
    | ok outcome =>
      obtain ⟨status, parser⟩ := outcome
      rw [result] at step
      cases step with
      | failed error =>
        simp only [feed, result, bind, Except.bind, reduceCtorEq, if_false]
        exact .failed error parser
      | next b' valid' fits' shallow' same =>
        rw [feed_cons_ok tokens result]
        have ran := inductionHypothesis rest valid' fits' shallow'
        cases ended : feed b'.parser tokens with
        | error fault =>
          rw [ended] at ran
          cases ran with
          | fault _ trips => exact .fault fault (split b' same ▸ trips)
        | ok outcome =>
          rw [ended] at ran
          cases ran with
          | next b'' valid'' same' => exact .next b'' valid'' (same'.trans (split b' same))
          | failed error parser => exact .failed error parser

theorem feed_append_error {parser : Parser} {xs : List Token} {fault : PredicateFault}
    (failed : feed parser xs = .error fault) (ys : List Token) :
    feed parser (xs ++ ys) = .error fault := by
  induction xs generalizing parser with
  | nil => cases failed
  | cons token xs inductionHypothesis =>
    rw [List.cons_append, feed]
    rw [feed] at failed
    cases stepped : parserStep parser token with
    | error other =>
      rw [stepped] at failed
      exact failed
    | ok outcome =>
      rw [stepped] at failed
      simp only [bind, Except.bind] at failed ⊢
      split at failed
      next going => rw [if_pos going, inductionHypothesis failed]
      next => cases failed

theorem feed_append_ok {parser parser' : Parser} {xs : List Token}
    (reached : feed parser xs = .ok (.success, parser')) (ys : List Token) :
    feed parser (xs ++ ys) = feed parser' ys := by
  induction xs generalizing parser with
  | nil =>
    cases reached
    rfl
  | cons token xs inductionHypothesis =>
    rw [feed, except_bind_eq_ok] at reached
    obtain ⟨⟨status, middle⟩, stepped, rest⟩ := reached
    dsimp only at rest
    split at rest
    next going =>
      subst going
      rw [List.cons_append, feed_cons_ok _ stepped]
      exact inductionHypothesis rest
    next going =>
      cases rest
      exact absurd rfl going

/-- Tokens that trip the parser stop the program. -/
theorem Trips.fault {tokens : List Token} (trips : Trips tokens) :
    ∃ fault, feed predicateParserInit tokens = .error fault := by
  obtain ⟨b, valid, shallow, tripped⟩ := trips
  have read := b.reads valid
  -- unless the beginning is reached, reading it has already stopped the program
  have reached : (∃ fault, feed predicateParserInit b.tokens = .error fault) ∨
      b.Fits ∧ feed predicateParserInit b.tokens = .ok (.success, b.parser) := by
    cases ended : feed predicateParserInit b.tokens with
    | error fault => exact .inl ⟨fault, rfl⟩
    | ok outcome =>
      rw [ended] at read
      cases read with
      | reached fits _ => exact .inr ⟨fits, rfl⟩
      | full _ _ deep => exact absurd shallow deep
  have early : ∀ {fault}, feed predicateParserInit b.tokens = .error fault → b.tokens <+: tokens →
      ∃ fault, feed predicateParserInit tokens = .error fault := by
    rintro fault failed ⟨rest, rfl⟩
    exact ⟨fault, feed_append_error failed rest⟩
  rcases tripped with ⟨within, unfit⟩ | ⟨within, done, frames, sign⟩
  · rcases reached with ⟨fault, failed⟩ | ⟨fits, _⟩
    · exact early failed within
    · exact absurd fits unfit
  · rcases reached with ⟨fault, failed⟩ | ⟨_, reached⟩
    · exact early failed ((List.prefix_append _ _).trans within)
    · obtain ⟨rest, rfl⟩ := within
      refine ⟨.abort, ?_⟩
      rw [List.append_assoc, feed_append_ok reached, List.singleton_append, Beginning.parser, done, sign]
      rfl

/-- The run over the tokens of a text stops the program exactly when the tokens trip the parser. -/
theorem feed_fault_iff {tokens : List Token} (read : ∀ token ∈ tokens, token ≠ .eof ∧ token ≠ .none) :
    (∃ fault, feed predicateParserInit tokens = .error fault) ↔ Trips tokens := by
  refine ⟨fun ⟨fault, failed⟩ => ?_, Trips.fault⟩
  have ran : Ran ⟨[], none⟩ tokens (feed predicateParserInit tokens) := by
    refine feed_ran read ⟨trivial, by simp⟩ ⟨by simp [FramesFit], by simp⟩ ?_
    simp [Beginning.need, framesNeed]
  rw [failed] at ran
  cases ran with
  | fault _ trips => exact trips

/-! ## Texts -/

/-- The tokens of a text, and the error at which reading them ends. -/
def lexemes (registry : Registry) : ℕ → List Char → List Token × Option ParserError
  | 0, _ => ([], none)
  | fuel + 1, expr =>
    match predicateParserGet registry expr with
    | .error error => ([], some error)
    | .ok (.eof, _) => ([], none)
    | .ok (token, rest) => (token :: (lexemes registry fuel rest).1, (lexemes registry fuel rest).2)

/-- Every token but the last takes a character off the text. -/
def tokensOf (registry : Registry) (expr : List Char) : List Token × Option ParserError :=
  lexemes registry (expr.length + 1) expr

theorem scanAtom_length {quoted : Bool} {expr text rest : List Char}
    (scanned : scanAtom quoted expr = some (text, rest)) :
    rest.length + text.length = expr.length := by
  induction expr generalizing quoted text with
  | nil =>
    cases quoted with
    | true => simp [scanAtom] at scanned
    | false =>
      simp only [scanAtom, Option.some.injEq, Prod.mk.injEq] at scanned
      simp [← scanned.1, ← scanned.2]
  | cons c expr inductionHypothesis =>
    have longer : ∀ {inner}, (scanAtom inner expr).map (fun scanned => (c :: scanned.1, scanned.2)) =
        some (text, rest) → rest.length + text.length = (c :: expr).length := by
      intro inner mapped
      obtain ⟨⟨text', rest'⟩, found, same⟩ := Option.map_eq_some_iff.mp mapped
      cases same
      have shorter : rest'.length + text'.length = expr.length := inductionHypothesis found
      simp only [List.length_cons]
      omega
    cases quoted with
    | true => exact longer scanned
    | false =>
      simp only [scanAtom] at scanned
      split at scanned
      · cases scanned
        rfl
      · exact longer scanned

theorem predicateParserGet_spec {registry : Registry} {expr rest : List Char} {token : Token}
    (got : predicateParserGet registry expr = .ok (token, rest)) :
    token ≠ .none ∧ (token ≠ .eof → rest.length < expr.length) := by
  induction expr with
  | nil =>
    cases got
    exact ⟨by simp, fun more => absurd rfl more⟩
  | cons c expr inductionHypothesis =>
    unfold predicateParserGet at got
    -- the tokens of one character
    have single : ∀ {t : Token}, t ≠ .none → (.ok (t, expr) : Except ParserError (Token × List Char)) =
        .ok (token, rest) → token ≠ .none ∧ (token ≠ .eof → rest.length < (c :: expr).length) := by
      intro t real same
      cases same
      exact ⟨real, fun _ => Nat.lt_succ_self _⟩
    split at got
    · exact single (by simp) got
    split at got
    · exact single (by simp) got
    split at got
    · exact single (by simp) got
    split at got
    · exact single (by simp) got
    split at got
    · exact single (by simp) got
    next =>
      split at got
      · obtain ⟨real, shorter⟩ := inductionHypothesis got
        exact ⟨real, fun more => Nat.lt_succ_of_lt (shorter more)⟩
      · unfold predicateParserGetAtom at got
        cases scanned : scanAtom false (c :: expr) with
        | none =>
          rw [scanned] at got
          cases got
        | some found =>
          obtain ⟨text, remaining⟩ := found
          simp only [scanned] at got
          split at got
          · cases got
          · cases got
            refine ⟨by simp, fun _ => ?_⟩
            have length := scanAtom_length scanned
            -- the first character belongs to the atom
            have first : text ≠ [] := by
              rintro rfl
              simp [scanAtom, atomEnd, *] at scanned
            have positive := List.length_pos_of_ne_nil first
            omega

theorem lexemes_token {registry : Registry} {expr rest : List Char} {token : Token}
    (got : predicateParserGet registry expr = .ok (token, rest)) (more : token ≠ .eof) (fuel : ℕ) :
    lexemes registry (fuel + 1) expr =
      (token :: (lexemes registry fuel rest).1, (lexemes registry fuel rest).2) := by
  rw [lexemes, got]
  cases token <;> first | rfl | exact absurd rfl more

theorem lexemes_read {registry : Registry} (fuel : ℕ) (expr : List Char) :
    ∀ token ∈ (lexemes registry fuel expr).1, token ≠ .eof ∧ token ≠ .none := by
  induction fuel generalizing expr with
  | zero => simp [lexemes]
  | succ fuel inductionHypothesis =>
    unfold lexemes
    split
    · simp
    · simp
    next more got =>
      intro token member
      cases member with
      | head => exact ⟨more, (predicateParserGet_spec got).1⟩
      | tail _ later => exact inductionHypothesis _ token later

/-- Nothing goes on after the end of the text. -/
theorem step_eof (parser : Parser) : ∃ status, status ≠ .success ∧
    parserStep parser .eof = .ok (status, parser) := by
  cases state : parser.state with
  | waitUnaryOp =>
    exact ⟨.failed .unexpectedEof, by simp, by simp [parserStep, storeAtom, state, predicateParserWaitUnaryOp]⟩
  | waitBinaryOp =>
    exact ⟨.ended, by simp, by simp [parserStep, storeAtom, state, predicateParserWaitBinaryOp]⟩
  | waitArg =>
    exact ⟨.failed .unexpectedEof, by simp, by simp [parserStep, storeAtom, state, predicateParserWaitArg]⟩

/-- What ends the loop once the tokens are read. -/
def finish (error : Option ParserError) (parser : Parser) :
    Except PredicateFault (ParserStatus × Parser) :=
  match error with
  | some error => .ok (.failed error, parser)
  | none => parserStep parser .eof

/-- The main loop on the tokens of a text. -/
def parseTokens (tokens : List Token × Option ParserError) (parser : Parser) :
    Except PredicateFault (ParserStatus × Parser) :=
  match feed parser tokens.1 with
  | .error fault => .error fault
  | .ok (.success, parser) => finish tokens.2 parser
  | .ok (status, parser) => .ok (status, parser)

theorem parseTokens_step {token : Token} {tokens : List Token} {error : Option ParserError}
    {parser parser' : Parser} {status : ParserStatus}
    (stepped : parserStep parser token = .ok (status, parser')) :
    parseTokens (token :: tokens, error) parser =
      if status = .success then parseTokens (tokens, error) parser' else .ok (status, parser') := by
  simp only [parseTokens, feed, stepped, bind, Except.bind]
  by_cases going : status = .success
  · rw [if_pos going, if_pos going]
  · rw [if_neg going, if_neg going]
    cases status with
    | success => exact absurd rfl going
    | ended => rfl
    | failed error => rfl

theorem parserLoop_eq {registry : Registry} {fuel : ℕ} {expr : List Char} (enough : expr.length < fuel)
    (parser : Parser) :
    parserLoop registry fuel parser expr = parseTokens (lexemes registry fuel expr) parser := by
  induction fuel generalizing expr parser with
  | zero => omega
  | succ fuel inductionHypothesis =>
    cases got : predicateParserGet registry expr with
    | error error => simp only [parserLoop, lexemes, got, parseTokens, feed, finish]
    | ok result =>
      obtain ⟨token, rest⟩ := result
      by_cases last : token = .eof
      · subst last
        obtain ⟨status, ended, stepped⟩ := step_eof parser
        simp only [parserLoop, lexemes, got, stepped, parseTokens, feed, finish, bind, Except.bind,
          if_neg ended]
      · have shorter := (predicateParserGet_spec got).2 last
        rw [lexemes_token got last, parserLoop, got]
        cases stepped : parserStep parser token with
        | error fault => simp [parseTokens, feed, stepped, bind, Except.bind]
        | ok outcome =>
          obtain ⟨status, parser'⟩ := outcome
          rw [parseTokens_step stepped]
          simp only [stepped, bind, Except.bind]
          split
          · exact inductionHypothesis (by omega) parser'
          · rfl

/-- The parser on a text, through its tokens. -/
theorem predicateParser_eq (registry : Registry) (expr : List Char) :
    predicateParser registry expr =
      (parseTokens (tokensOf registry expr) predicateParserInit).map fun (status, parser) =>
        parserResult status parser := by
  rw [predicateParser, parserLoop_eq (Nat.lt_succ_self _)]
  change parseTokens (tokensOf registry expr) predicateParserInit >>= _ = _
  cases parseTokens (tokensOf registry expr) predicateParserInit <;> rfl

/-- The program is stopped exactly by the texts whose tokens trip the parser. -/
theorem predicateParser_fault_iff (registry : Registry) (expr : List Char) :
    (∃ fault, predicateParser registry expr = .error fault) ↔ Trips (tokensOf registry expr).1 := by
  have read : ∀ token ∈ (tokensOf registry expr).1, token ≠ .eof ∧ token ≠ .none := lexemes_read _ _
  rw [← feed_fault_iff read, predicateParser_eq, parseTokens]
  cases feed predicateParserInit (tokensOf registry expr).1 with
  | error fault => simp [Except.map]
  | ok outcome =>
    obtain ⟨status, parser⟩ := outcome
    have ended : ∃ result, finish (tokensOf registry expr).2 parser = .ok result := by
      unfold finish
      split
      · exact ⟨_, rfl⟩
      · obtain ⟨status, _, stepped⟩ := step_eof parser
        exact ⟨_, stepped⟩
    obtain ⟨result, finished⟩ := ended
    cases status <;> simp [finished, Except.map]

/-! ## Sentences and other texts -/

/-- The matcher of a sentence, when it can be built and read. -/
theorem predicateParser_sentence {registry : Registry} {expr : List Char} {e : Phrase .expr}
    (tokens : tokensOf registry expr = (e.tokens, none)) (fits : e.Fits)
    (shallow : e.need ≤ parserMaxDepth) : predicateParser registry expr = .ok (.ok e.matcher) := by
  have read := e.reads [] trivial trivial (by simp [FramesFit]) (Nat.zero_le _)
  rw [predicateParser_eq, tokens, parseTokens]
  change Reading _ _ _ (feed predicateParserInit e.tokens) at read
  cases ended : feed predicateParserInit e.tokens with
  | error fault =>
    rw [ended] at read
    cases read with
    | fault _ unfit => exact absurd fits unfit
  | ok outcome =>
    rw [ended] at read
    cases read with
    | reached => rfl
    | full _ _ deep => exact absurd (by simpa using shallow) deep

/-- A sentence that cannot be built or read gives no matcher. -/
theorem predicateParser_sentence_inv {registry : Registry} {expr : List Char} {e : Phrase .expr}
    {matcher : Option Matcher} (tokens : tokensOf registry expr = (e.tokens, none))
    (parsed : predicateParser registry expr = .ok (.ok matcher)) :
    e.Fits ∧ e.need ≤ parserMaxDepth := by
  have read := e.reads [] trivial trivial (by simp [FramesFit]) (Nat.zero_le _)
  rw [predicateParser_eq, tokens, parseTokens] at parsed
  change Reading _ _ _ (feed predicateParserInit e.tokens) at read
  cases ended : feed predicateParserInit e.tokens with
  | error fault =>
    rw [ended] at parsed
    cases parsed
  | ok outcome =>
    rw [ended] at read parsed
    cases read with
    | reached fits shallow => exact ⟨fits, by simpa using shallow⟩
    | full error parser deep => cases parsed

/-- A text that is not a sentence gives an error, or stops the program. -/
theorem predicateParser_other {registry : Registry} {expr : List Char}
    (other : ∀ e : Phrase .expr, tokensOf registry expr ≠ (e.tokens, none)) (matcher : Option Matcher) :
    predicateParser registry expr ≠ .ok (.ok matcher) := by
  intro parsed
  have read : ∀ token ∈ (tokensOf registry expr).1, token ≠ .eof ∧ token ≠ .none := lexemes_read _ _
  have ran : Ran ⟨[], none⟩ (tokensOf registry expr).1
      (feed predicateParserInit (tokensOf registry expr).1) := by
    refine feed_ran read ⟨trivial, by simp⟩ ⟨by simp [FramesFit], by simp⟩ ?_
    simp [Beginning.need, framesNeed]
  rw [predicateParser_eq, parseTokens] at parsed
  cases ended : feed predicateParserInit (tokensOf registry expr).1 with
  | error fault =>
    rw [ended] at parsed
    cases parsed
  | ok outcome =>
    rw [ended] at ran parsed
    cases ran with
    | failed error parser => cases parsed
    | next b valid same =>
      cases error : (tokensOf registry expr).2 with
      | some error =>
        simp only [error, finish, Except.map, parserResult] at parsed
        cases parsed
      | none =>
        -- the end of the text is accepted only after a complete sentence
        obtain ⟨frames, done⟩ := b
        cases done with
        | none =>
          simp only [error, finish] at parsed
          cases frames with
          | nil => cases parsed
          | cons frame frames => cases frame <;> cases parsed
        | some e =>
          cases frames with
          | nil =>
            refine other e (Prod.ext ?_ error)
            simpa [Beginning.tokens, framesTokens] using same.symm
          | cons frame frames =>
            simp only [error, finish] at parsed
            cases parsed

theorem ParserError.code_neg (error : ParserError) : error.code < 0 := by
  cases error <;> decide

/-- The parser returns, with a matcher or a negative error code, exactly on the texts that do not trip
it. -/
theorem predicateParser_returns_iff (registry : Registry) (expr : List Char) :
    (∃ result, predicateParser registry expr = .ok result ∧
      ∀ error, result = .error error → error.code < 0) ↔ ¬ Trips (tokensOf registry expr).1 := by
  rw [← predicateParser_fault_iff]
  constructor
  · rintro ⟨result, returned, _⟩ ⟨fault, stopped⟩
    rw [returned] at stopped
    cases stopped
  · intro returns
    cases outcome : predicateParser registry expr with
    | error fault => exact absurd ⟨fault, outcome⟩ returns
    | ok result => exact ⟨result, rfl, fun error _ => ParserError.code_neg error⟩

/-- A sign before a closing parenthesis stops the program. -/
theorem sign_before_parClose_stops :
    ¬ ∃ result, predicateParser (fun _ => none) ['!', ')'] = .ok result := by
  rintro ⟨result, returned⟩
  have stopped : predicateParser (fun _ => none) ['!', ')'] = .error .abort := by rfl
  rw [stopped] at returned
  cases returned

/-- What is expected of the parser on a text: a sentence with fewer than 100 levels of parentheses gives
a matcher that has the value of the sentence on every route, and a text that is not a sentence a
negative error. -/
def ParsesText (registry : Registry) (expr : List Char) : Prop :=
  (∀ e : Phrase .expr, tokensOf registry expr = (e.tokens, none) → e.nesting < 100 →
    ∃ matcher, predicateParser registry expr = .ok (.ok matcher) ∧
      ∀ pathExprs route, filterMatcherApply pathExprs matcher route = e.value pathExprs route) ∧
  ((∀ e : Phrase .expr, tokensOf registry expr ≠ (e.tokens, none)) →
    ∃ error, predicateParser registry expr = .ok (.error error) ∧ error.code < 0)

/-- A registry of one predicate, besides `any`. -/
def communityOne : Registry := fun text =>
  if text = ['a', 'n', 'y'] then some none
  else if text = ['c'] then some (some (.commContains 1))
  else none

/-- Operators bind to the left: `c|any&c` is not `c|(any&c)`. -/
example : predicateParser communityOne ['c', '|', 'a', 'n', 'y', '&', 'c'] =
    .ok (.ok (some (.atom (.commContains 1)))) := by
  rfl

end Cbgp.Verified
