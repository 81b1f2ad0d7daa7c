import Cbgp.Bgp.Filter

/-! # The predicate parser

`bgp/filter/predicate_parser.c`: a state machine with a stack of the operations whose right operand is
still to come.  The registry's command line interpreter comes from a library outside the repository
and is a parameter: it maps the text of an atom to the predicate it creates, if it accepts the text.
-/

namespace Cbgp.Bgp

/-! ## Tokens -/

/-- `parser_token_t`.  An atom carries what the registry wrote through the reference it was given:
nothing for `any`. -/
inductive Token where
  | none
  | eof
  | atom (predicate : Option Predicate)
  | not
  | and
  | or
  | parOpen
  | parClose
  deriving DecidableEq

/-- The error codes of `predicate_parser.h`. -/
inductive ParserError where
  | unexpected
  | unfinishedString
  | atom
  | unexpectedEof
  | leftExpr
  | parMismatch
  | stateTooLarge
  | unaryOp
  deriving DecidableEq, Repr

def ParserError.code : ParserError → Int
  | unexpected => -1
  | unfinishedString => -2
  | atom => -3
  | unexpectedEof => -4
  | leftExpr => -5
  | parMismatch => -6
  | stateTooLarge => -7
  | unaryOp => -8

/-- `ft_registry_predicate_parser`: `none` when the text is not accepted. -/
abbrev Registry := List Char → Option (Option Predicate)

/-- The characters that end an atom. -/
def atomEnd : List Char := [')', '&', '|', '!']

/-- The loop of `_predicate_parser_get_atom`: the text of the atom and what follows it.  The flag is
set inside a string, which must be closed. -/
def scanAtom : Bool → List Char → Option (List Char × List Char)
  | false, [] => some ([], [])
  | true, [] => none
  | true, c :: expr => (scanAtom (c != '"') expr).map fun (text, rest) => (c :: text, rest)
  | false, c :: expr =>
    if c ∈ atomEnd then some ([], c :: expr)
    else (scanAtom (c == '"') expr).map fun (text, rest) => (c :: text, rest)

/-- `_predicate_parser_get_atom`. -/
def predicateParserGetAtom (registry : Registry) (expr : List Char) :
    Except ParserError (Token × List Char) :=
  match scanAtom false expr with
  | none => .error .unfinishedString
  | some (text, rest) =>
    match registry text with
    | none => .error .atom
    | some predicate => .ok (.atom predicate, rest)

/-- `_predicate_parser_get`. -/
def predicateParserGet (registry : Registry) : List Char → Except ParserError (Token × List Char)
  | [] => .ok (.eof, [])
  | c :: expr =>
    if c = '!' then .ok (.not, expr)
    else if c = '&' then .ok (.and, expr)
    else if c = '|' then .ok (.or, expr)
    else if c = '(' then .ok (.parOpen, expr)
    else if c = ')' then .ok (.parClose, expr)
    else if c = ' ' ∨ c = '\t' then predicateParserGet registry expr
    else predicateParserGetAtom registry (c :: expr)

/-! ## States -/

/-- `parser_state_t`. -/
inductive ParserState where
  | waitUnaryOp
  | waitBinaryOp
  | waitArg
  deriving DecidableEq, Repr

/-- `_parser_stack_item_t`. -/
structure StackItem where
  cmd : Token
  left : Option Matcher
  deriving DecidableEq

/-- `_parser`. -/
structure Parser where
  state : ParserState
  cmd : Token
  left : Option Matcher
  right : Option Matcher
  stack : List StackItem
  deriving DecidableEq

/-- `MAX_DEPTH`. -/
def parserMaxDepth : Nat := 100

/-- What a state function returns: `PREDICATE_PARSER_SUCCESS`, `PREDICATE_PARSER_END` or an error. -/
inductive ParserStatus where
  | success
  | ended
  | failed (error : ParserError)
  deriving DecidableEq, Repr

/-- `_predicate_parser_init`. -/
def predicateParserInit : Parser where
  state := .waitUnaryOp
  cmd := .none
  left := none
  right := none
  stack := []

/-- `_predicate_parser_push_state`; `none` when the stack is full. -/
def predicateParserPushState (parser : Parser) (cmd : Token) : Option Parser :=
  if parser.stack.length < parserMaxDepth then
    some { state := .waitUnaryOp, cmd := .none, left := none, right := none,
           stack := ⟨cmd, parser.left⟩ :: parser.stack }
  else none

/-- `_predicate_parser_pop_state`. -/
def predicateParserPopState (parser : Parser) : Except PredicateFault Parser :=
  match parser.stack with
  | [] => .error .stackEmpty
  | item :: stack =>
    .ok { state := .waitBinaryOp, cmd := item.cmd, left := item.left, right := parser.left,
          stack := stack }

/-! ## Operations -/

/-- `_predicate_parser_apply_block_ops`: the operation of a turn of the loop. -/
def applyOp (parser : Parser) : Except PredicateFault (ParserStatus × Parser) :=
  match parser.cmd with
  | .none => .ok (.success, parser)
  | .and => do
    let left ← filterMatchAnd parser.left parser.right
    .ok (.success, { parser with left := left })
  | .not => do
    let left ← filterMatchNot parser.right
    .ok (.success, { parser with left := left })
  | .or => do
    let left ← filterMatchOr parser.left parser.right
    .ok (.success, { parser with left := left })
  -- What the parentheses hold becomes the left operand of what comes after them.
  | .parClose =>
    if parser.stack = [] then .ok (.failed .parMismatch, parser)
    else do
      let parser ← predicateParserPopState parser
      if parser.cmd = .parOpen then .ok (.success, { parser with left := parser.right })
      else .ok (.failed .parMismatch, parser)
  | _ => .error .abort

/-- The loop of `_predicate_parser_apply_block_ops`. -/
def applyBlockOpsLoop : Nat → Parser → Except PredicateFault (ParserStatus × Parser)
  | 0, _ => .error .outOfFuel
  | fuel + 1, parser => do
    let (status, parser) ← applyOp parser
    if status = .success then
      let parser := { parser with cmd := .none, right := none }
      match parser.stack with
      | [] => .ok (.success, parser)
      | item :: _ =>
        if item.cmd = .parOpen then .ok (.success, parser)
        else do
          let parser ← predicateParserPopState parser
          applyBlockOpsLoop fuel parser
    else .ok (status, parser)

/-- `_predicate_parser_apply_block_ops`: every turn but the last takes an item off the stack. -/
def predicateParserApplyBlockOps (parser : Parser) : Except PredicateFault (ParserStatus × Parser) :=
  applyBlockOpsLoop (parser.stack.length + 1) parser

/-! ## Transitions -/

/-- Push a state, then wait in `state`; `error` when the stack is full. -/
def pushOr (error : ParserError) (state : ParserState) (parser : Parser) (token : Token) :
    ParserStatus × Parser :=
  match predicateParserPushState parser token with
  | none => (.failed error, parser)
  | some parser => (.success, { parser with state := state })

/-- The transition of an atom, in both states that allow one: what the pending operations return is
not looked at. -/
def takeAtom (parser : Parser) : Except PredicateFault (ParserStatus × Parser) := do
  let (_, parser) ← predicateParserApplyBlockOps { parser with cmd := .none }
  .ok (.success, { parser with state := .waitBinaryOp })

/-- `_predicate_parser_wait_unary_op`. -/
def predicateParserWaitUnaryOp (parser : Parser) (token : Token) :
    Except PredicateFault (ParserStatus × Parser) :=
  match token with
  | .atom _ => takeAtom parser
  | .eof => .ok (.failed .unexpectedEof, parser)
  | .not => .ok (pushOr .stateTooLarge .waitArg parser token)
  | .parClose => .ok (.failed .unexpected, parser)
  | .parOpen => .ok (pushOr .stateTooLarge .waitUnaryOp parser token)
  | .and | .or => .ok (.failed .leftExpr, parser)
  | .none => .error .abort

/-- `_predicate_parser_wait_binary_op`. -/
def predicateParserWaitBinaryOp (parser : Parser) (token : Token) :
    Except PredicateFault (ParserStatus × Parser) :=
  match token with
  | .and | .or => .ok (pushOr .unexpected .waitUnaryOp parser token)
  | .atom _ => .ok (.failed .unexpected, parser)
  | .eof => .ok (.ended, parser)
  | .not => .ok (.failed .unaryOp, parser)
  | .parClose => predicateParserApplyBlockOps { parser with cmd := .parClose }
  | .parOpen => .ok (.failed .unexpected, parser)
  | .none => .error .abort

/-- `_predicate_parser_wait_arg`: a closing parenthesis is not among the cases. -/
def predicateParserWaitArg (parser : Parser) (token : Token) :
    Except PredicateFault (ParserStatus × Parser) :=
  match token with
  | .atom _ => takeAtom parser
  | .and | .or => .ok (.failed .unexpected, parser)
  | .not => .ok (.failed .unaryOp, parser)
  | .eof => .ok (.failed .unexpectedEof, parser)
  | .parOpen => .ok (pushOr .stateTooLarge .waitUnaryOp parser token)
  | _ => .error .abort

/-- The registry writes the predicate of an atom into the left operand. -/
def storeAtom (parser : Parser) (token : Token) : Parser :=
  match token with
  | .atom (some predicate) => { parser with left := some (.atom predicate) }
  | _ => parser

/-- `predicate_parser`: what is done with one token. -/
def parserStep (parser : Parser) (token : Token) : Except PredicateFault (ParserStatus × Parser) :=
  let parser := storeAtom parser token
  match parser.state with
  | .waitUnaryOp => predicateParserWaitUnaryOp parser token
  | .waitBinaryOp => predicateParserWaitBinaryOp parser token
  | .waitArg => predicateParserWaitArg parser token

/-- `predicate_parser`: the main loop. -/
def parserLoop (registry : Registry) : Nat → Parser → List Char →
    Except PredicateFault (ParserStatus × Parser)
  | 0, _, _ => .error .outOfFuel
  | fuel + 1, parser, expr =>
    match predicateParserGet registry expr with
    | .error error => .ok (.failed error, parser)
    | .ok (token, rest) => do
      let (status, parser) ← parserStep parser token
      if status = .success then parserLoop registry fuel parser rest else .ok (status, parser)

/-- `predicate_parser`, after the loop. -/
def parserResult (status : ParserStatus) (parser : Parser) : Except ParserError (Option Matcher) :=
  match status with
  | .failed error => .error error
  | _ => if parser.stack = [] then .ok parser.left else .error .parMismatch

/-- `predicate_parser`: the matcher, `NULL` standing for `any`, or an error and no matcher.  Every
token but the last takes a character off the text. -/
def predicateParser (registry : Registry) (expr : List Char) :
    Except PredicateFault (Except ParserError (Option Matcher)) := do
  let (status, parser) ← parserLoop registry (expr.length + 1) predicateParserInit expr
  .ok (parserResult status parser)

end Cbgp.Bgp
