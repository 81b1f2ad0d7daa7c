import Cbgp.Net.PrefixText
import Cbgp.Bgp.CommText

/-! # MRT records as text

The reader of `bgp/mrtd.c` for one line, and `route_dump_mrt` of `bgp/route.c`.  A field that is read
behind the last one, and an assertion that fails on the way, are told apart from the errors that are
returned.
-/

namespace Cbgp.Bgp

open Cbgp.Lib Cbgp.Net

/-! ## Records -/

/-- `mrtd_input_t`. -/
inductive MrtType where
  | rib -- `B`
  | update -- `A`
  | withdraw -- `W`
  deriving DecidableEq, Repr

/-- `mrtd_error_code_t`. -/
inductive MrtError where
  | errorSyntax
  | invalidPeerAddr
  | invalidPeerAsn
  | invalidOrigin
  | invalidAspath
  | invalidLocalpref
  | invalidMed
  | invalidCommunities
  | invalidRecordType
  | invalidPrefix
  | invalidNexthop
  | missingFields
  | invalidProtocol
  deriving DecidableEq, Repr

/-- How the reading of a line stops. -/
inductive MrtStop where
  | failed (code : MrtError) (userError : List Char) -- the result, and the text of `_set_user_error`
  | outside -- a token that the line does not have was read
  | commsFull -- the assertion of `comms_add`
  | attr (fault : AttrFault) -- an assertion of the repositories
  deriving DecidableEq, Repr

/-- What the reader uses of the library. -/
structure MrtReader where
  fields : List Char → Except (List Char) (List (List Char)) -- `tokenizer_run` of `line_tokenizer`
  paths : PathReader
  comms : CommReader -- with `str_as_ulong`

/-- `MRT_UPDATE_MIN_FIELDS`. -/
def mrtUpdateMinFields : ℕ := 11

/-- `MRT_WITHDRAW_MIN_FIELDS`. -/
def mrtWithdrawMinFields : ℕ := 5

/-- `ROUTE_MED_MISSING`. -/
def routeMedMissing : UInt32 := 0xffffffff

/-! ## Names of origins -/

/-- `bgp_origin_to_str`. -/
def bgpOriginToStr : Origin → List Char
  | .igp => "IGP".toList
  | .egp => "EGP".toList
  | .incomplete => "INCOMPLETE".toList

/-- `bgp_origin_from_str`. -/
def bgpOriginFromStr (str : List Char) : Option Origin :=
  [Origin.igp, .egp, .incomplete].find? fun origin => str = bgpOriginToStr origin

/-! ## Reading the fields -/

/-- `tokens_get_string_at`. -/
def tokensGetStringAt (tokens : List (List Char)) (i : ℕ) : Except MrtStop (List Char) :=
  match tokens[i]? with
  | some token => .ok token
  | none => .error .outside

/-- An error text that ends in a quoted token. -/
def quoting (text : String) (token : List Char) : List Char :=
  text.toList ++ " \"".toList ++ token ++ ['"']

/-- One field: the value of the token, or the error of the field with its text. -/
def readField {α : Type} (tokens : List (List Char)) (i : ℕ) (code : MrtError)
    (text : List Char → List Char) (read : List Char → Option α) : Except MrtStop α := do
  let token ← tokensGetStringAt tokens i
  match read token with
  | some value => .ok value
  | none => .error (.failed code (text token))

/-- The type of a record: one character of `ABW`. -/
def mrtTypeOf (token : List Char) : Option MrtType :=
  if token = ['A'] then some .update
  else if token = ['B'] then some .rib
  else if token = ['W'] then some .withdraw
  else none

/-- `_mrtd_check_type`. -/
def mrtdCheckType (field : List Char) (type : MrtType) : Bool :=
  match type with
  | .rib => field = "TABLE_DUMP".toList
  | _ => field = "BGP".toList || field = "BGP4".toList

/-- The number of fields that `_mrtd_check_header` requires. -/
def mrtRequiredFields : MrtType → ℕ
  | .withdraw => mrtWithdrawMinFields
  | _ => mrtUpdateMinFields

/-- The error of a line that is too short. -/
def missingFields (tokens : List (List Char)) (required : ℕ) : MrtStop :=
  .failed .missingFields ("not enough fields in MRT input (".toList ++ Nat.toDigits 10 tokens.length ++
    '/' :: Nat.toDigits 10 required ++ [')'])

/-- `_mrtd_check_header`. -/
def mrtdCheckHeader (tokens : List (List Char)) : Except MrtStop MrtType :=
  if tokens.length < mrtWithdrawMinFields then .error (missingFields tokens mrtWithdrawMinFields)
  else do
    let type ← readField tokens 2 .invalidRecordType (quoting "invalid MRT record type field") mrtTypeOf
    let _ ← readField tokens 0 .invalidProtocol (quoting "incorrect MRT record protocol") fun token =>
      if mrtdCheckType token type then some () else none
    if tokens.length < mrtRequiredFields type then .error (missingFields tokens (mrtRequiredFields type))
    else .ok type

/-- The number of a field that may be empty. -/
def optionalNumber (asUlong : List Char → Option ℕ) (missing : ℕ) (token : List Char) : Option ℕ :=
  if token = [] then some missing else asUlong token

/-- The Communities, in the first field behind those that are required. -/
def readComms (reader : MrtReader) (tokens : List (List Char)) : Except MrtStop (Option (List Comm)) :=
  if tokens.length > mrtUpdateMinFields then do
    let token ← tokensGetStringAt tokens 11
    match commFromString reader.comms token with
    | .error _ => .error .commsFull
    | .ok none => .error (.failed .invalidCommunities (quoting "invalid communities" token))
    | .ok (some comms) => .ok (some comms)
  else .ok none

/-- The fields of a route that is built.  The two numbers are `unsigned long`. -/
structure MrtRouteFields where
  path : Path
  origin : Origin
  nextHop : NetAddr
  pref : ℕ
  med : ℕ
  comms : Option (List Comm)
  deriving DecidableEq

/-- The part of `_mrtd_create_route` that withdraws do not have. -/
def readRouteFields (reader : MrtReader) (tokens : List (List Char)) : Except MrtStop MrtRouteFields := do
  let path ← readField tokens 6 .invalidAspath (quoting "invalid AS-Path") (pathFromString reader.paths)
  let origin ← readField tokens 7 .invalidOrigin (quoting "invalid origin") bgpOriginFromStr
  let nextHop ← readField tokens 8 .invalidNexthop (quoting "invalid next-hop") str2address
  let pref ← readField tokens 9 .invalidLocalpref (quoting "invalid local-preference")
    (optionalNumber reader.comms.asUlong 0)
  let med ← readField tokens 10 .invalidMed
    (fun token => quoting "invalid multi-exit-discriminator" token ++ ['\n'])
    (optionalNumber reader.comms.asUlong routeMedMissing.toNat)
  let comms ← readComms reader tokens
  .ok ⟨path, origin, nextHop, pref, med, comms⟩

/-! ## Building the route -/

/-- What the functions of the repositories return, in the reader. -/
def orAttrStop {α : Type} (x : Except AttrFault α) : Except MrtStop α := x.mapError .attr

section Build

variable (settings : HashSettings)

/-- The route of `_mrtd_create_route`, with a new attribute set.  The numbers are narrowed when they are
stored. -/
def buildRoute (repo : Repository) (pfx : Pfx) (fields : MrtRouteFields) :
    Except MrtStop (Route × Repository) := do
  let route := routeCreate pfx none fields.nextHop fields.origin
  let (path, repo) ← orAttrStop (attrSetPath settings repo none (some fields.path))
  let (comms, repo) ← orAttrStop (attrSetComm settings repo none fields.comms)
  let attr := { route.attr with
    localPref := fields.pref.toUInt32, med := fields.med.toUInt32, path := path.value, comms := comms.value }
  let flags := { route.flags with best := true, eligible := true, feasible := true }
  .ok ({ route with attr := attr, flags := flags }, { repo with attrs := repo.attrs ++ [some ⟨path, comms⟩] })

/-- `route_destroy`, of the route built last. -/
def routeDestroyLast (repo : Repository) : Except MrtStop Repository :=
  match repo.attrAt (repo.attrs.length - 1) with
  | none => .ok repo
  | some refs => orAttrStop (attrDestroy settings repo (repo.attrs.length - 1) refs)

/-- What `_mrtd_create_route` returns: the type, the prefix, and, unless the record is a withdraw, the
peer and the route. -/
structure MrtRecord where
  type : MrtType
  pfx : Pfx
  route : Option (NetAddr × Asn × Route)
  deriving DecidableEq

variable (reader : MrtReader)

/-- The tokens of a line. -/
def mrtTokens (line : List Char) : Except MrtStop (List (List Char)) :=
  match reader.fields line with
  | .ok tokens => .ok tokens
  | .error text => .error (.failed .errorSyntax ("unable to parse line (".toList ++ text ++ [')']))

/-- `_mrtd_create_route`. -/
def mrtdCreateRoute (repo : Repository) (line : List Char) : Except MrtStop (MrtRecord × Repository) := do
  let tokens ← mrtTokens reader line
  let type ← mrtdCheckHeader tokens
  let peerAddr ← readField tokens 3 .invalidPeerAddr (quoting "invalid peer IP address") str2address
  let peerAsn ← readField tokens 4 .invalidPeerAsn (quoting "invalid peer ASN") (str2asn reader.paths.numerals)
  let pfx ← readField tokens 5 .invalidPrefix (quoting "invalid prefix") str2prefix
  if type = .withdraw then .ok (⟨type, pfx, none⟩, repo)
  else do
    let fields ← readRouteFields reader tokens
    let (route, repo) ← buildRoute settings repo pfx fields
    .ok (⟨type, pfx, some (peerAddr, peerAsn, route)⟩, repo)

/-! ## The two readers -/

/-- What `mrtd_route_from_line` returns: the type of the record, the peer, and the route of a table
dump. -/
structure MrtRoute where
  type : MrtType
  peer : Option (NetAddr × Asn)
  route : Option Route
  deriving DecidableEq

/-- `mrtd_route_from_line`. -/
def mrtdRouteFromLine (repo : Repository) (line : List Char) : Except MrtStop (MrtRoute × Repository) := do
  let (record, repo) ← mrtdCreateRoute settings reader repo line
  match record.type, record.route with
  | .rib, some (peerAddr, peerAsn, route) => .ok (⟨.rib, some (peerAddr, peerAsn), some route⟩, repo)
  | type, some (peerAddr, peerAsn, _) => do
    let repo ← routeDestroyLast settings repo
    .ok (⟨type, some (peerAddr, peerAsn), none⟩, repo)
  | type, none => .ok (⟨type, none, none⟩, repo)

/-- `mrtd_msg_from_line`: the message, which a table dump has none of. -/
def mrtdMsgFromLine (repo : Repository) (line : List Char) :
    Except MrtStop (Option MsgBody × Repository) := do
  let (record, repo) ← mrtdCreateRoute settings reader repo line
  match record.type, record.route with
  | .update, some (_, _, route) => .ok (some (.update route), repo)
  | .withdraw, _ => .ok (some (.withdraw record.pfx), repo)
  | _, some _ => do
    let repo ← routeDestroyLast settings repo
    .ok (none, repo)
  | _, none => .ok (none, repo)

end Build

/-! ## Printing -/

/-- `ecomm_val_dump`, as a number: the two halves of the value. -/
def ecommValText (comm : Ecomm) : List Char :=
  let value : UInt32 :=
    ((((comm.ianaAuthority.toUInt32 <<< 1) + comm.transitive.toUInt32) <<< 1) + comm.typeHigh.toUInt32) <<< 6
  let high := ((((value + comm.typeLow.toUInt32) <<< 8) + (comm.value.get 0).toUInt32) <<< 8) +
    (comm.value.get 1).toUInt32
  let low := ((((((comm.value.get 2).toUInt32 <<< 8) + (comm.value.get 3).toUInt32) <<< 8) +
    (comm.value.get 4).toUInt32) <<< 8) + (comm.value.get 5).toUInt32
  Nat.toDigits 10 high.toNat ++ ':' :: Nat.toDigits 10 low.toNat

/-- `ecomm_dump`, with `ECOMM_DUMP_RAW`. -/
def ecommDump (comms : List Ecomm) : List Char := spaced (comms.map ecommValText)

/-- `cluster_list_dump`. -/
def clusterListDump (clusterList : List NetAddr) : List Char := spaced (clusterList.map ipAddressDump)

/-- The fields that `route_dump_mrt` writes.  The peer is known by its address; a local route has none. -/
def mrtColumns (peerAsn : NetAddr → Asn) (route : Route) : List (List Char) :=
  [if route.flags.best then ['B'] else ['_'],
    (route.peer.map ipAddressDump).getD "LOCAL".toList,
    (route.peer.map fun addr => asnDigits (peerAsn addr)).getD "LOCAL".toList,
    ipPrefixDump route.pfx,
    pathDump route.attr.path true,
    bgpOriginToStr route.attr.origin,
    ipAddressDump route.attr.nextHop,
    Nat.toDigits 10 route.attr.localPref.toNat,
    if route.attr.med ≠ routeMedMissing then Nat.toDigits 10 route.attr.med.toNat else [],
    (route.attr.comms.map fun comms => commDump comms .raw).getD [],
    (route.attr.ecomms.map ecommDump).getD [],
    (route.attr.originator.map ipAddressDump).getD [],
    (route.attr.clusterList.map clusterListDump).getD []]

/-- `route_dump_mrt`. -/
def routeDumpMrt (peerAsn : NetAddr → Asn) : Option Route → List Char
  | none => "null".toList
  | some route => (mrtColumns peerAsn route).flatMap (· ++ ['|'])

end Cbgp.Bgp
