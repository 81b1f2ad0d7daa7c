import Cbgp.Lib.Strtoul
import Cbgp.Bgp.AttrRepository

/-! # Communities as text

The printers and the parser of `bgp/attr/comm.c`.  The tokenizer and `str_as_ulong` come from a library
outside the repository and are parameters.
-/

namespace Cbgp.Bgp

open Cbgp.Lib

/-! ## Printing -/

/-- `COMM_DUMP_RAW` and `COMM_DUMP_TEXT`. -/
inductive CommDump where
  | raw
  | text
  deriving DecidableEq, Repr

/-- `"%u:%u"`. -/
def commPairText (comm : Comm) : List Char :=
  Nat.toDigits 10 (comm >>> 16).toNat ++ ':' :: Nat.toDigits 10 (comm &&& 65535).toNat

/-- `comm_value_dump`. -/
def commValueDump (comm : Comm) : CommDump → List Char
  | .text =>
    if comm = commNoExport then "no-export".toList
    else if comm = commNoAdvertise then "no-advertise".toList
    else commPairText comm
  | .raw => commPairText comm

/-- `comm_dump`. -/
def commDump (comms : List Comm) (mode : CommDump) : List Char := spaced (comms.map (commValueDump · mode))

/-- `comm_to_string`: the buffer afterwards and the length of the text. -/
def commToString (comms : Option (List Comm)) (mem : List Char) : Except PrintStop (List Char × ℕ) :=
  if comms.getD [] = [] then
    match mem with
    | [] => .error .tooSmall
    | _ :: mem => .ok ('\x00' :: mem, 0)
  else do
    let dst ← printComms true (comms.getD []) ⟨mem, 0, mem.length⟩
    .ok (dst.mem, sizeSub mem.length dst.room)

/-! ## Parsing -/

/-- What the parser uses of the library. -/
structure CommReader where
  asUlong : List Char → Option ℕ -- `str_as_ulong`
  tokens : List Char → Option (List (List Char)) -- `tokenizer_run`

variable (reader : CommReader)

/-- The two parts of `comm_value_from_string`, with a colon between them. -/
def commPairFromString (commStr : List Char) : Option Comm :=
  let high := strtoul 0 commStr
  if high.2.head? ≠ some ':' then none
  else if high.1 > 65535 then none
  else
    let low := strtoul 0 high.2.tail
    if low.2 ≠ [] then none
    else if low.1 > 65535 then none
    else some ((high.1 <<< 16).toUInt32 + low.1.toUInt32)

/-- `comm_value_from_string`. -/
def commValueFromString (commStr : List Char) : Option Comm :=
  if commStr = "no-export".toList then some commNoExport
  else if commStr = "no-advertise".toList then some commNoAdvertise
  else if ':' ∉ commStr then
    match reader.asUlong commStr with
    | none => none
    | some comm => if comm > 0xffffffff then none else some comm.toUInt32
  else commPairFromString commStr

/-- The loop of `comm_from_string`. -/
def commsFromTokens : List (List Char) → List Comm → Except Abort (Option (List Comm))
  | [], comms => .ok (some comms)
  | token :: tokens, comms =>
    match commValueFromString reader token with
    | none => .ok none
    | some comm =>
      match commsAdd comms comm with
      | .error abort => .error abort
      | .ok comms => commsFromTokens tokens comms

/-- `comm_from_string`. -/
def commFromString (commsStr : List Char) : Except Abort (Option (List Comm)) :=
  match reader.tokens commsStr with
  | none => .ok none
  | some tokens => commsFromTokens reader tokens []

end Cbgp.Bgp
