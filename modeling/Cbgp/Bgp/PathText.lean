import Cbgp.Bgp.AsLevelFile

/-! # AS-paths as text

The printers and the parser of `bgp/attr/path.c` and `bgp/attr/path_segment.c`.  The tokenizer and the
conversions of numbers come from a library outside the repository and are parameters.
-/

namespace Cbgp.Bgp

/-! ## Printing into a buffer -/

/-- Why printing stopped. -/
inductive PrintStop where
  | tooSmall -- the result `-1`
  | outside -- an access outside the segment or the buffer
  | emptySegment -- the assertion of `path_segment_to_string`
  deriving DecidableEq, Repr

/-- The destination: the whole buffer, the offset of `dst`, and `dst_size`. -/
structure Dst where
  mem : List Char
  pos : ℕ
  room : ℕ
  deriving DecidableEq

/-- The subtraction of a `size_t`. -/
def sizeSub (size written : ℕ) : ℕ :=
  if written ≤ size then size - written else 2 ^ 64 + size - written

/-- `snprintf`: the buffer afterwards.  No more than `dst_size` bytes are written, the last of them a
null character. -/
def snprintf (dst : Dst) (text : List Char) : Except PrintStop (List Char) :=
  if dst.room = 0 then .ok dst.mem
  else
    let kept := text.take (dst.room - 1)
    if dst.pos + kept.length < dst.mem.length then
      .ok (dst.mem.take dst.pos ++ kept ++ '\x00' :: dst.mem.drop (dst.pos + kept.length + 1))
    else .error .outside

/-- The destination behind a text. -/
def Dst.advance (dst : Dst) (mem : List Char) (written : ℕ) : Dst where
  mem := mem
  pos := dst.pos + written
  room := sizeSub dst.room written

/-- Print a text and check that it was not truncated. -/
def printText (dst : Dst) (text : List Char) : Except PrintStop Dst := do
  let mem ← snprintf dst text
  if text.length ≥ dst.room then .error .tooSmall else .ok (dst.advance mem text.length)

/-- The opening bracket, of a SET: the character is the closing one, and the check is an equality. -/
def printOpening (seg : PathSeg) (dst : Dst) : Except PrintStop Dst :=
  match seg.type with
  | .sequence => .ok dst
  | .set => do
    let mem ← snprintf dst ['}']
    if 1 = dst.room then .error .tooSmall else .ok (dst.advance mem 1)

/-- The closing bracket, of a SET. -/
def printClosing (seg : PathSeg) (dst : Dst) : Except PrintStop Dst :=
  match seg.type with
  | .sequence => .ok dst
  | .set => printText dst ['}']

/-- `%u` of an ASN. -/
def asnDigits (asn : Asn) : List Char := Nat.toDigits 10 asn.toNat

/-- The loop over the ASNs of a segment, with a space before all but the first. -/
def printAsns : Bool → List Asn → Dst → Except PrintStop Dst
  | _, [], dst => .ok dst
  | first, asn :: asns, dst => do
    let dst ← printText dst (if first then asnDigits asn else ' ' :: asnDigits asn)
    printAsns false asns dst

/-- The ASNs between the brackets.  In the order of the segment each turn of the loop reads the ASN at
`index-1`; the index is unsigned, so the first turn reads far outside the segment. -/
def printContent (seg : PathSeg) (reverse : Bool) (dst : Dst) : Except PrintStop Dst :=
  if reverse then printAsns true seg.asns.reverse dst else .error .outside

/-- `path_segment_to_string`. -/
def pathSegmentToString (seg : PathSeg) (reverse : Bool) (dst : Dst) : Except PrintStop Dst :=
  if seg.asns = [] then .error .emptySegment
  else do
    let dst ← printOpening seg dst
    let dst ← printContent seg reverse dst
    printClosing seg dst

/-- The space before a segment other than the first. -/
def printSpace (first : Bool) (dst : Dst) : Except PrintStop Dst :=
  if first then .ok dst else printText dst [' ']

/-- The loop of `path_to_string`, over the segments in the order they are printed. -/
def printSegments (reverse : Bool) : Bool → List PathSeg → Dst → Except PrintStop Dst
  | _, [], dst => .ok dst
  | first, seg :: path, dst => do
    let dst ← printSpace first dst
    let next ← pathSegmentToString seg reverse dst
    if next.pos - dst.pos ≥ dst.room then .error .tooSmall
    else printSegments reverse false path next

/-- The segments in the order they are printed. -/
def printOrder (path : Option Path) (reverse : Bool) : List PathSeg :=
  if reverse then (path.getD []).reverse else path.getD []

/-- `path_to_string`: the buffer afterwards and the length of the text. -/
def pathToString (path : Option Path) (reverse : Bool) (mem : List Char) :
    Except PrintStop (List Char × ℕ) :=
  if pathNumSegments path = 0 then
    match mem with
    | [] => .error .tooSmall
    | _ :: mem => .ok ('\x00' :: mem, 0)
  else do
    let dst ← printSegments reverse true (printOrder path reverse) ⟨mem, 0, mem.length⟩
    .ok (dst.mem, sizeSub mem.length dst.room)

/-- The string in a buffer. -/
def cString (mem : List Char) : List Char :=
  mem.takeWhile fun c => c ≠ '\x00'

/-! ## Printing to a stream -/

/-- Words with a space between any two. -/
def spaced (words : List (List Char)) : List Char :=
  List.intercalate [' '] words

/-- The ASNs of a segment in the order they are printed. -/
def asnOrder (seg : PathSeg) (reverse : Bool) : List Asn :=
  if reverse then seg.asns.reverse else seg.asns

/-- `path_segment_dump`. -/
def pathSegmentDump (seg : PathSeg) (reverse : Bool) : List Char :=
  match seg.type with
  | .sequence => spaced ((asnOrder seg reverse).map asnDigits)
  | .set => '{' :: (spaced ((asnOrder seg reverse).map asnDigits) ++ ['}'])

/-- `path_dump`. -/
def pathDump (path : Option Path) (reverse : Bool) : List Char :=
  spaced ((printOrder path reverse).map fun seg => pathSegmentDump seg reverse)

/-! ## The uses of the printers -/

/-- The text that `path_to_string` writes into a local buffer of a size, whose contents do not matter. -/
def textIn (size : ℕ) (path : Option Path) : Option (List Char) :=
  match pathToString path true (List.replicate size '\x00') with
  | .ok (mem, _) => some (cString mem)
  | .error _ => none

/-- The text that `path_match` gives to the regular expression; on `none` it stops the program. -/
def pathMatchText (path : Option Path) : Option (List Char) := textIn 1000 path

/-- `path_match`, of an expression that is not `NULL`. -/
def pathMatch (regexSearch : List Char → Bool) (path : Option Path) : Option Bool :=
  (pathMatchText path).map fun text =>
    if text = ['n', 'u', 'l', 'l'] then false else regexSearch text

/-- The text that `_path_hash_item_compute` hashes; on `none` its assertion fails. -/
def pathHashText (path : Option Path) : Option (List Char) := textIn 1024 path

/-! ## Parsing -/

/-- What the parser uses of the library. -/
structure PathReader where
  numerals : Numerals -- `str_as_uint`
  ulongAt : List Char → Option ℕ -- `tokens_get_ulong_at`
  pathTokens : List Char → Option (List (List Char)) -- `tokenizer_run` of `path_tokenizer`
  segmentTokens : List Char → Option (List (List Char)) -- `tokenizer_run` of `segment_tokenizer`

variable (reader : PathReader)

/-- The loop of `path_segment_from_string`, over the tokens from the last to the first.  The result of
`path_segment_add` is not looked at. -/
def segmentFromTokens : List (List Char) → PathSeg → Option PathSeg
  | [], seg => some seg
  | asnStr :: tokens, seg =>
    match str2asn reader.numerals asnStr with
    | none => none
    | some asn => segmentFromTokens tokens ((pathSegmentAdd seg asn).getD seg)

/-- `path_segment_create` of a SET without ASNs. -/
def emptySet : PathSeg where
  type := .set
  asns := []
  short := by simp

/-- `path_segment_from_string`. -/
def pathSegmentFromString (segStr : List Char) : Option PathSeg :=
  match reader.segmentTokens segStr with
  | none => none
  | some tokens => segmentFromTokens reader tokens.reverse emptySet

/-- The loop of `path_from_string`, over the tokens from the last to the first.  The ASN is narrowed
when `path_append` is called, and its result is not looked at. -/
def pathFromTokens : List (List Char) → Path → Option Path
  | [], path => some path
  | segStr :: tokens, path =>
    match reader.ulongAt segStr with
    | some asn =>
      if asn > maxAs then none
      else pathFromTokens tokens ((pathAppend path asn.toUInt16).getD path)
    | none =>
      match pathSegmentFromString reader segStr with
      | none => none
      | some seg => pathFromTokens tokens (path ++ [seg])

/-- `path_from_string`. -/
def pathFromString (pathStr : List Char) : Option Path :=
  match reader.pathTokens pathStr with
  | none => none
  | some tokens => pathFromTokens reader tokens.reverse []

end Cbgp.Bgp
