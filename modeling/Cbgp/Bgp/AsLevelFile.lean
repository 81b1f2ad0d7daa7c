import Cbgp.Bgp.AsLevel

/-! # Loading AS-level topologies

The parsers of `bgp/aslevel/rexford.c`, `caida.c` and `meulle.c`, and `aslevel_topo_load`.  The tokenizer
and the conversions of numbers come from a library outside the repository: the tokenizer splits a line
at blanks and line ends, and the conversions are a parameter that is right on decimal numerals.
-/

namespace Cbgp.Bgp

open Cbgp.Lib

/-! ## Lines and tokens -/

/-- `str_as_uint` and `tokens_get_int_at`. -/
structure Numerals where
  asUint : List Char → Option ℕ
  asInt : List Char → Option ℤ
  asUint_decimal : ∀ n < 2 ^ 32, asUint (Nat.toDigits 10 n) = some n
  asInt_decimal : ∀ n < 2 ^ 31, asInt (Nat.toDigits 10 n) = some (n : ℤ)
  asInt_negative : ∀ n < 2 ^ 31, asInt ('-' :: Nat.toDigits 10 n) = some (-(n : ℤ))

/-- `fgets`: at most `size` characters, up to and with the end of the line. -/
def fgets : ℕ → List Char → List Char × List Char
  | 0, file => ([], file)
  | _, [] => ([], [])
  | size + 1, c :: file =>
    if c = '\n' then ([c], file)
    else (c :: (fgets size file).1, (fgets size file).2)

/-- The lines the parsers read, into a buffer of 80 bytes.  Every line takes a character. -/
def fileLines : ℕ → List Char → List (List Char)
  | 0, _ => []
  | fuel + 1, file =>
    if file = [] then [] else (fgets 79 file).1 :: fileLines fuel (fgets 79 file).2

/-- The delimiters of the parsers, with the line end. -/
def isBlank (c : Char) : Bool := c = ' ' || c = '\t' || c = '\n'

/-- `tokenizer_run` with the delimiters of the parsers. -/
def tokenize : List Char → List (List Char)
  | [] => []
  | c :: line =>
    if isBlank c then tokenize line
    else if line.head?.any fun next => !isBlank next then
      -- the next character belongs to the same token
      match tokenize line with
      | [] => [[c]]
      | token :: tokens => (c :: token) :: tokens
    else [c] :: tokenize line

/-- `MAX_AS`. -/
def maxAs : ℕ := 65536

/-- `str2asn`. -/
def str2asn (numerals : Numerals) (str : List Char) : Option Asn :=
  match numerals.asUint str with
  | none => none
  | some asn => if asn > maxAs then none else some asn.toUInt16

/-! ## Domains by number -/

/-- `_aslevel_topo_cache_update_as`. -/
def aslevelTopoCacheUpdateAs (topo : AsTopo) (asn : Asn) : AsTopo :=
  { topo with cachedDomains := (topo.cachedDomains.2, some asn) }

/-- `_aslevel_topo_cache_lookup_as`: from the latest entry, up to the first empty one. -/
def aslevelTopoCacheLookupAs (topo : AsTopo) (asn : Asn) : Bool :=
  match topo.cachedDomains with
  | (_, none) => false
  | (older, some latest) => latest = asn || older = some asn

/-- `aslevel_topo_get_as`: whether there is such a domain. -/
def aslevelTopoGetAs (topo : AsTopo) (asn : Asn) : Bool × AsTopo :=
  if aslevelTopoCacheLookupAs topo asn then (true, topo)
  else
    match topo.domain asn with
    | none => (false, topo)
    | some _ => (true, aslevelTopoCacheUpdateAs topo asn)

/-- `aslevel_topo_add_as`. -/
def aslevelTopoAddAs (topo : AsTopo) (asn : Asn) : Option AsTopo :=
  match topo.domains.add (aslevelAsCreate asn) with
  | none => none
  | some domains => some (aslevelTopoCacheUpdateAs { topo with domains := domains } asn)

/-- How a row of a file ends: with an error code and the topology so far. -/
abbrev RowResult := Except AsLevelFault (AsLevelError × AsTopo)

/-- `aslevel_as_add_link` on the domain that a pointer leads to, unless something has failed. -/
def addLink (state : AsLevelError × AsTopo) (asn1 asn2 : Asn) (peerType : PeerType) : RowResult :=
  if state.1 ≠ .success then .ok state
  else
    match state.2.domain asn1 with
    | none => .error .dangling
    | some domain =>
      match aslevelAsAddLink domain asn2 peerType with
      | .error error => .ok (error, state.2)
      | .ok domain => .ok (.success, state.2.setDomain domain)

/-- Get or add a domain. -/
def getOrAddAs (topo : AsTopo) (asn : Asn) : AsLevelError × AsTopo :=
  match aslevelTopoGetAs topo asn with
  | (true, topo) => (.success, topo)
  | (false, topo) =>
    match aslevelTopoAddAs topo asn with
    | none => (.unexpected, topo)
    | some topo => (.success, topo)

/-- Get or add both domains of a row. -/
def rowDomains (topo : AsTopo) (asn1 asn2 : Asn) : AsLevelError × AsTopo :=
  match getOrAddAs topo asn1 with
  | (.success, topo) => getOrAddAs topo asn2
  | failed => failed

/-! ## The parsers -/

/-- `_rexford_relation_to_peer_type`. -/
def rexfordRelationToPeerType : ℕ → Option PeerType
  | 1 => some .customer
  | 0 => some .peer
  | _ => none

/-- `_caida_relation_to_peer_type`. -/
def caidaRelationToPeerType : ℤ → Option PeerType
  | -1 => some .provider
  | 1 => some .customer
  | 0 => some .peer
  | 2 => some .sibling
  | _ => none

/-- The relations of `meulle_parser`. -/
def meulleRelation (relation : List Char) : Option PeerType :=
  if relation = ['P', 'E', 'E', 'R'] then some .peer
  else if relation = ['P', '2', 'C'] then some .customer
  else if relation = ['C', '2', 'P'] then some .provider
  else none

/-- `rexford_parser`: one row.  A fourth token is a delay that is read and not used. -/
def rexfordRow (numerals : Numerals) (topo : AsTopo) (tokens : List (List Char)) : RowResult :=
  match tokens with
  | token1 :: token2 :: token3 :: rest =>
    match str2asn numerals token1, str2asn numerals token2 with
    | some asn1, some asn2 =>
      match (numerals.asUint token3).bind rexfordRelationToPeerType with
      | none => .ok (.invalidRelation, topo)
      | some peerType =>
        if rest.head?.any fun delay => (numerals.asUint delay).isNone then .ok (.invalidDelay, topo)
        else if rest.length > 1 then .ok (.numParams, topo)
        else do
          let state ← addLink (rowDomains topo asn1 asn2) asn1 asn2 peerType
          addLink state asn2 asn1 (aslevelReverseRelation peerType)
    | _, _ => .ok (.invalidAsnum, topo)
  | _ => .ok (.numParams, topo)

/-- `caida_parser`: one row. -/
def caidaRow (numerals : Numerals) (topo : AsTopo) (tokens : List (List Char)) : RowResult :=
  match tokens with
  | [token1, token2, token3] =>
    match str2asn numerals token1, str2asn numerals token2 with
    | some asn1, some asn2 =>
      match (numerals.asInt token3).bind caidaRelationToPeerType with
      | none => .ok (.invalidRelation, topo)
      | some peerType => addLink (rowDomains topo asn1 asn2) asn1 asn2 peerType
    | _, _ => .ok (.invalidAsnum, topo)
  | _ => .ok (.numParams, topo)

/-- `AS<number>`. -/
def meulleAsn (numerals : Numerals) : List Char → Option Asn
  | 'A' :: 'S' :: str => str2asn numerals str
  | _ => none

/-- `meulle_parser`: one row. -/
def meulleRow (numerals : Numerals) (topo : AsTopo) (tokens : List (List Char)) : RowResult :=
  match tokens with
  | [token1, token2, token3] =>
    match meulleAsn numerals token1, meulleAsn numerals token2 with
    | some asn1, some asn2 =>
      match meulleRelation token3 with
      | none => .ok (.invalidRelation, topo)
      | some peerType => addLink (rowDomains topo asn1 asn2) asn1 asn2 peerType
    | _, _ => .ok (.invalidAsnum, topo)
  | _ => .ok (.numParams, topo)

/-- The loop of the parsers: the error, the number of the last line read, and the topology. -/
def parseLines (row : AsTopo → List (List Char) → RowResult) :
    List (List Char) → ℕ → AsTopo → Except AsLevelFault (AsLevelError × ℕ × AsTopo)
  | [], lineNumber, topo => .ok (.success, lineNumber, topo)
  | line :: lines, lineNumber, topo =>
    -- comments start with a '#'
    if line.head? = some '#' then parseLines row lines (lineNumber + 1) topo
    else do
      let (error, topo) ← row topo (tokenize line)
      if error = .success then parseLines row lines (lineNumber + 1) topo
      else .ok (error, lineNumber + 1, topo)

/-- `ASLEVEL_FORMAT_*`. -/
inductive AsFormat where
  | rexford
  | caida
  | meulle
  deriving DecidableEq, Repr

/-- The parser of a format, for one row. -/
def AsFormat.row (numerals : Numerals) : AsFormat → AsTopo → List (List Char) → RowResult
  | rexford => rexfordRow numerals
  | caida => caidaRow numerals
  | meulle => meulleRow numerals

/-- `aslevel_topo_load`, on the content of a file, when no topology is loaded: the result, and the
topology that is loaded afterwards.  A topology that fails the consistency check stays loaded. -/
def aslevelTopoLoad (numerals : Numerals) (format : AsFormat) (file : List Char) :
    Except AsLevelFault (AsLevelError × Option AsTopo) := do
  let (error, _, topo) ← parseLines (format.row numerals) (fileLines file.length file) 0 aslevelTopoCreate
  if error ≠ .success then .ok (error, none)
  else do
    let result ← aslevelTopoCheckConsistency topo
    .ok (result, some topo)

/-- `aslevel_topo_load`, with `_the_topo` before and afterwards.  There is no content when the file cannot
be opened, and no format when its code is unknown. -/
def aslevelTopoLoadFile (numerals : Numerals) (theTopo : Option AsTopo) (format : Option AsFormat)
    (file : Option (List Char)) : Except AsLevelFault (AsLevelError × Option AsTopo) :=
  match theTopo, file, format with
  | some topo, _, _ => .ok (.topologyLoaded, some topo)
  | none, none, _ => .ok (.openFile, none)
  | none, some _, none => .ok (.unknownFormat, none)
  | none, some file, some format => aslevelTopoLoad numerals format file

end Cbgp.Bgp
