import Cbgp.Verified.AsLevelFormats
import Cbgp.Verified.MrtRecords

/-! # MRT records that are dumped and read

`route_dump_mrt` writes a line that `mrtd_route_from_line` takes for a record of a table dump: every field
is read (`mrtColumns_read`), and all but the AS-path as what was written.  A SET of one ASN comes back as a
hop, and the repositories may keep another path, or the null pointer for empty Communities
(`mrtRoundTrip_iff`).
-/

namespace Cbgp.Verified

open Cbgp.Lib Cbgp.Net Cbgp.Bgp

/-! ## Lines -/

/-- The tokenizer of lines finds the fields that end in a bar, and perhaps more behind the last bar. -/
def SplitsFields (fields : List Char → Except (List Char) (List (List Char))) : Prop :=
  ∀ columns : List (List Char), (∀ column ∈ columns, '|' ∉ column) →
    ∃ more, fields (columns.flatMap (· ++ ['|'])) = .ok (columns ++ more)

theorem plainMrtReader_splits : SplitsFields plainMrtReader.fields := by
  intro columns noBar
  refine ⟨[[]], congrArg Except.ok ?_⟩
  induction columns with
  | nil => rfl
  | cons column columns inductionHypothesis =>
    have rest := inductionHypothesis fun other member => noBar other (List.mem_cons_of_mem _ member)
    rw [List.flatMap_cons, List.append_assoc, List.singleton_append,
      List.splitOn_append_cons_self_of_not_mem (noBar column List.mem_cons_self), rest]
    rfl

theorem noBar_digits (n : ℕ) : '|' ∉ Nat.toDigits 10 n := by
  intro member
  have digit := Nat.isDigit_of_mem_toDigits (by decide) (by decide) member
  cases digit

theorem noBar_spaced {words : List (List Char)} (noBar : ∀ word ∈ words, '|' ∉ word) : '|' ∉ spaced words := by
  intro member
  rcases mem_spaced member with space | ⟨word, inside, here⟩
  · cases space
  · exact noBar word inside here

theorem noBar_address (addr : NetAddr) : '|' ∉ ipAddressDump addr := by
  simp [ipAddressDump, octets, List.intercalate_cons_cons, noBar_digits]

theorem noBar_path (path : Option Path) : '|' ∉ pathDump path true := by
  refine noBar_spaced fun word member => ?_
  obtain ⟨seg, _, rfl⟩ := List.mem_map.mp member
  have asns : '|' ∉ spaced ((asnOrder seg true).map asnDigits) := noBar_spaced fun word member => by
    obtain ⟨asn, _, rfl⟩ := List.mem_map.mp member
    exact noBar_digits _
  unfold pathSegmentDump
  split
  · exact asns
  · simp [asns]

/-- No column of the line has a bar. -/
theorem noBar_columns (peerAsn : NetAddr → Asn) (route : Route) :
    ∀ column ∈ mrtColumns peerAsn route, '|' ∉ column := by
  have comms : ∀ comms : List Comm, '|' ∉ commDump comms .raw := fun comms => noBar_spaced fun word member => by
    obtain ⟨comm, _, rfl⟩ := List.mem_map.mp member
    simp [commValueDump, commPairText, noBar_digits]
  have ecomms : ∀ ecomms : List Ecomm, '|' ∉ ecommDump ecomms := fun ecomms => noBar_spaced fun word member => by
    obtain ⟨ecomm, _, rfl⟩ := List.mem_map.mp member
    simp [ecommValText, noBar_digits]
  have clusters : ∀ clusterList : List NetAddr, '|' ∉ clusterListDump clusterList := fun clusterList =>
    noBar_spaced fun word member => by
      obtain ⟨addr, _, rfl⟩ := List.mem_map.mp member
      exact noBar_address addr
  have optional : ∀ {α : Type} (text : α → List Char) (value : Option α) (default : List Char),
      (∀ a, '|' ∉ text a) → '|' ∉ default → '|' ∉ (value.map text).getD default := by
    intro α text value default noBar noBar'
    cases value with
    | none => exact noBar'
    | some a => exact noBar a
  simp only [mrtColumns, List.forall_mem_cons]
  refine ⟨?_, optional _ _ _ noBar_address (by decide), optional _ _ _ (fun _ => noBar_digits _) (by decide), ?_,
    noBar_path _, ?_, noBar_address _, noBar_digits _, ?_, optional _ _ _ comms (by decide),
    optional _ _ _ ecomms (by decide), optional _ _ _ noBar_address (by decide),
    optional _ _ _ clusters (by decide), List.forall_mem_nil _⟩
  · split <;> decide
  · simp [ipPrefixDump, prefixText, octets, List.intercalate_cons_cons, noBar_digits]
  · cases route.attr.origin <;> decide
  · split
    · exact noBar_digits _
    · decide

/-! ## The AS-path -/

/-- No SET has a single ASN. -/
def NoLoneSet (path : Path) : Prop := ∀ seg ∈ path, seg.type = .set → seg.asns.length ≠ 1

/-- A hop that is added, or lost behind a full SEQUENCE. -/
def addHop (path : Path) (asn : Asn) : Path := (pathAppend path asn).getD path

/-- A segment that is read from its text: a SET of one ASN is a hop. -/
def readBackSegment (path : Path) (seg : PathSeg) : Path :=
  if seg.type = .set ∧ seg.asns.length ≠ 1 then path ++ [seg] else seg.asns.foldl addHop path

/-- The path that is read from the text of another. -/
def readBack (path : Path) : Path := path.foldl readBackSegment []

section Path

variable {reader : PathReader} (tokenizes : Tokenizes reader)
include tokenizes

theorem pathFromTokens_addHops (asns : List Asn) (tokens : List (List Char)) (path : Path) :
    pathFromTokens reader (asns.map asnDigits ++ tokens) path =
      pathFromTokens reader tokens (asns.foldl addHop path) := by
  induction asns generalizing path with
  | nil => rfl
  | cons asn asns inductionHypothesis =>
    rw [List.map_cons, List.cons_append, pathFromTokens_hop tokenizes, inductionHypothesis]
    rfl

theorem pathFromTokens_readBackSegment {seg : PathSeg} (nonempty : seg.asns ≠ []) (tokens : List (List Char))
    (path : Path) :
    pathFromTokens reader (segmentTokens seg ++ tokens) path =
      pathFromTokens reader tokens (readBackSegment path seg) := by
  cases kind : seg.type with
  | sequence =>
    have words : segmentTokens seg = seg.asns.map asnDigits := by
      simp [segmentTokens, segmentItems, kind, TextItem.token, List.map_reverse, Function.comp_def]
    rw [words, pathFromTokens_addHops tokenizes, readBackSegment, kind, if_neg (by simp)]
  | set =>
    have words : segmentTokens seg = [spaced (seg.asns.reverse.map asnDigits)] := by
      simp [segmentTokens, segmentItems, kind, TextItem.token]
    by_cases lone : seg.asns.length = 1
    · obtain ⟨asn, content⟩ := List.length_eq_one_iff.mp lone
      have hop : segmentTokens seg = [asn].map asnDigits := by
        rw [words, content]
        exact congrArg (fun word => [word]) List.intercalate_singleton
      rw [hop, pathFromTokens_addHops tokenizes, readBackSegment, if_neg (fun both => both.2 lone), content]
    · have several : 1 < seg.asns.length := by
        have := List.length_pos_iff.mpr nonempty
        omega
      rw [words, List.singleton_append, pathFromTokens_group tokenizes kind several, readBackSegment,
        if_pos ⟨kind, lone⟩]

/-- The text of a path is read as its segments one by one. -/
theorem pathFromString_readBack {path : Path} (nonempty : ∀ seg ∈ path, seg.asns ≠ []) :
    pathFromString reader (pathDump (some path) true) = some (readBack path) := by
  rw [pathFromString_dump tokenizes nonempty, readBack]
  generalize ([] : Path) = done
  induction path generalizing done with
  | nil => rfl
  | cons seg path inductionHypothesis =>
    rw [List.flatMap_cons, pathFromTokens_readBackSegment tokenizes (nonempty seg List.mem_cons_self),
      inductionHypothesis fun other member => nonempty other (List.mem_cons_of_mem _ member)]
    rfl

/-- A path without SETs of one ASN is read as it is. -/
theorem readBack_eq {path : Path} (canonical : CanonicalPath path) (several : NoLoneSet path) :
    readBack path = path := by
  have read := pathFromString_readBack tokenizes canonical.nonempty
  rw [pathFromString_dump tokenizes canonical.nonempty,
    pathFromTokens_path tokenizes canonical.nonempty canonical.apart
      (by
        intro seg _ _ last absurd
        cases absurd) several] at read
  exact (Option.some.inj read).symm

end Path

/-! ## The other fields -/

theorem addressMeans_dump (addr : NetAddr) : AddressMeans (ipAddressDump addr) addr := by
  have nothing : StopsAt 10 [] := fun c member => nomatch member
  have text := octetsSyntax_text nothing (octets_le addr)
  rw [List.append_nil] at text
  exact ⟨octets addr, text, rfl, (networkOf_octets addr).symm⟩

section Number

variable {reader : CommReader} (reads : ReadsComms reader)
include reads

theorem asUlong_digits {n : ℕ} (small : n < 2 ^ 32) : reader.asUlong (Nat.toDigits 10 n) = some n := by
  refine (reads.numeral _ n small).mpr ⟨⟨Nat.toDigits_ne_nil, fun c member => ?_⟩, numeralValue_toDigits n⟩
  rw [isDigitOf_ten]
  exact Nat.isDigit_of_mem_toDigits (by decide) (by decide) member

theorem optionalNumber_digits (missing : ℕ) (value : UInt32) :
    optionalNumber reader.asUlong missing (Nat.toDigits 10 value.toNat) = some value.toNat := by
  rw [optionalNumber, if_neg Nat.toDigits_ne_nil, asUlong_digits reads value.toNat_lt]

/-- The missing number has an empty field. -/
theorem optionalNumber_dump (med : UInt32) :
    optionalNumber reader.asUlong routeMedMissing.toNat
      (if med ≠ routeMedMissing then Nat.toDigits 10 med.toNat else []) = some med.toNat := by
  split
  next => exact optionalNumber_digits reads _ med
  next missing => rw [not_not.mp missing, optionalNumber, if_pos rfl]

theorem commFromString_dump {comms : Option (List Comm)} (short : (comms.getD []).length ≤ 255) :
    commFromString reader ((comms.map fun comms => commDump comms .raw).getD []) = .ok (some (comms.getD [])) := by
  have dump : (comms.map fun comms => commDump comms .raw).getD [] = commDump (comms.getD []) .raw := by
    cases comms <;> rfl
  rw [dump]
  exact commFromString_read reads (fun comm => commValueDump_form comm .raw)
    (fun comm => commValueDump_plain comm .raw) short

end Number

/-! ## The line -/

/-- The record of a table dump. -/
def mrtLine (peerAsn : NetAddr → Asn) (route : Route) : List Char :=
  "TABLE_DUMP|0|".toList ++ routeDumpMrt peerAsn (some route)

/-- A learned route in a table: flagged best, with segments that are told apart, no more Communities than a
list takes, and texts that the repositories can hash. -/
structure Dumpable (settings : HashSettings) (route : Route) (addr : NetAddr) : Prop where
  best : route.flags.best = true
  peer : route.peer = some addr
  path : CanonicalPath (route.attr.path.getD [])
  comms : (route.attr.comms.getD []).length ≤ 255
  pathHashed : ∃ key, pathHashCompute settings (some (route.attr.path.getD [])) = .ok key
  commsHashed : ∃ key, commHashCompute settings (some (route.attr.comms.getD [])) = .ok key

/-- What is read of the line. -/
def mrtFields (route : Route) : MrtRouteFields where
  path := readBack (route.attr.path.getD [])
  origin := route.attr.origin
  nextHop := route.attr.nextHop
  pref := route.attr.localPref.toNat
  med := route.attr.med.toNat
  comms := some (route.attr.comms.getD [])

section Line

variable {reader : MrtReader} {settings : HashSettings} {route : Route} {addr : NetAddr}

theorem mrtLine_tokens (splits : SplitsFields reader.fields) (peerAsn : NetAddr → Asn) (route : Route) :
    ∃ more, reader.fields (mrtLine peerAsn route) =
      .ok ("TABLE_DUMP".toList :: "0".toList :: mrtColumns peerAsn route ++ more) := by
  have line : mrtLine peerAsn route =
      ("TABLE_DUMP".toList :: "0".toList :: mrtColumns peerAsn route).flatMap (· ++ ['|']) := rfl
  rw [line]
  refine splits _ fun column member => ?_
  rcases List.mem_cons.mp member with rfl | member
  · decide
  · rcases List.mem_cons.mp member with rfl | member
    · decide
    · exact noBar_columns peerAsn route column member

/-- Every column is read, and but for the AS-path as what was written. -/
theorem mrtColumns_read (tokenizes : Tokenizes reader.paths) (reads : ReadsComms reader.comms)
    (dumpable : Dumpable settings route addr) (peerAsn : NetAddr → Asn) (more : List (List Char)) :
    HeaderReadable ("TABLE_DUMP".toList :: "0".toList :: mrtColumns peerAsn route ++ more) .rib ∧
      HeaderRead reader ("TABLE_DUMP".toList :: "0".toList :: mrtColumns peerAsn route ++ more) addr (peerAsn addr)
        route.pfx ∧
      RouteRead reader ("TABLE_DUMP".toList :: "0".toList :: mrtColumns peerAsn route ++ more) (mrtFields route) := by
  have peer := dumpable.peer
  have best := dumpable.best
  have path : pathFromString reader.paths (pathDump route.attr.path true) =
      some (readBack (route.attr.path.getD [])) := by
    have same : pathDump route.attr.path true = pathDump (some (route.attr.path.getD [])) true := rfl
    rw [same]
    exact pathFromString_readBack tokenizes dumpable.path.nonempty
  refine ⟨⟨?_, ?_, ?_, ?_⟩, ⟨?_, ?_, ?_⟩, ⟨?_, ?_, ?_, ?_, ?_, ?_⟩⟩
  · simp [mrtColumns, mrtWithdrawMinFields]
  · exact ⟨_, rfl, by simp [best, mrtTypeOf]⟩
  · exact ⟨_, rfl, by decide⟩
  · simp [mrtColumns, mrtRequiredFields, mrtUpdateMinFields]
  · exact ⟨_, rfl, by simpa [peer] using (addressMeans_dump addr).read⟩
  · exact ⟨_, rfl, by simpa [peer, asnDigits] using str2asn_digits reader.paths.numerals (peerAsn addr)⟩
  · exact ⟨_, rfl, PrefixMeans.read (prefixText_form route.pfx)⟩
  · exact ⟨_, rfl, path⟩
  · exact ⟨_, rfl, bgpOriginFromStr_iff.mpr rfl⟩
  · exact ⟨_, rfl, (addressMeans_dump _).read⟩
  · exact ⟨_, rfl, optionalNumber_digits reads 0 _⟩
  · exact ⟨_, rfl, optionalNumber_dump reads _⟩
  · rw [if_pos (by simp [mrtColumns, mrtUpdateMinFields])]
    exact ⟨_, rfl, _, rfl, commFromString_dump reads dumpable.comms⟩

theorem FieldIs.unique {α : Type} {tokens : List (List Char)} {i : ℕ} {read : List Char → α} {a b : α}
    (field : FieldIs tokens i (read · = a)) (field' : FieldIs tokens i (read · = b)) : a = b := by
  obtain ⟨_, _, same, same'⟩ := field.both field'
  exact same.symm.trans same'

/-- What is read is determined by the line. -/
theorem RouteRead.unique {tokens : List (List Char)} {fields fields' : MrtRouteFields}
    (read : RouteRead reader tokens fields) (read' : RouteRead reader tokens fields') : fields = fields' := by
  obtain ⟨path, origin, nextHop, pref, med, comms⟩ := fields
  obtain ⟨path', origin', nextHop', pref', med', comms'⟩ := fields'
  cases read.path.unique read'.path
  cases read.origin.unique read'.origin
  cases read.nextHop.unique read'.nextHop
  cases read.localPref.unique read'.localPref
  cases read.med.unique read'.med
  have field := read.comms
  have field' := read'.comms
  simp only at field field'
  split at field
  next more =>
    rw [if_pos more] at field'
    obtain ⟨values, rfl, field⟩ := field
    obtain ⟨values', rfl, field'⟩ := field'
    cases field.unique field'
    rfl
  next few =>
    rw [if_neg few] at field'
    rw [field, field']

theorem HeaderRead.unique {tokens : List (List Char)} {addr' : NetAddr} {asn asn' : Asn} {pfx pfx' : Pfx}
    (read : HeaderRead reader tokens addr asn pfx) (read' : HeaderRead reader tokens addr' asn' pfx') :
    addr = addr' ∧ asn = asn' ∧ pfx = pfx' :=
  ⟨Option.some.inj (read.addr.unique read'.addr), Option.some.inj (read.asn.unique read'.asn),
    Option.some.inj (read.pfx.unique read'.pfx)⟩

/-- A line of which every field is read is given to the builder of routes. -/
theorem mrtdCreateRoute_of_read (settings : HashSettings) (repo : Repository) {tokens : List (List Char)}
    {line : List Char} {type : MrtType} {asn : Asn} {pfx : Pfx} {fields : MrtRouteFields}
    (split : reader.fields line = .ok tokens)
    (kind : type ≠ .withdraw) (header : HeaderReadable tokens type) (read : HeaderRead reader tokens addr asn pfx)
    (route : RouteRead reader tokens fields) :
    mrtdCreateRoute settings reader repo line =
      (buildRoute settings repo pfx fields).map fun (route, repo) => (⟨type, pfx, some (addr, asn, route)⟩, repo) := by
  rcases mrtdCreateRoute_cases settings reader repo line with ⟨_, unreadable⟩ |
    ⟨tokens', type', split', readable, outcome⟩
  · exact absurd ⟨header, read.addr.some, read.asn.some, read.prefixes, fun _ => route.readable⟩
      (unreadable tokens type split)
  · cases split.symm.trans split'
    cases header.kind.unique readable.header.kind
    generalize created : mrtdCreateRoute settings reader repo line = result at outcome
    cases outcome with
    | outside kind' _ => exact absurd kind' kind
    | withdraw kind' _ => exact absurd kind' kind
    | full _ more full =>
      have field := route.comms
      rw [if_pos more] at field
      obtain ⟨_, _, field⟩ := field
      obtain ⟨_, _, read, abort, stopped⟩ := field.both full
      rw [stopped] at read
      cases read
    | built _ read' route' =>
      obtain ⟨rfl, rfl, rfl⟩ := read.unique read'
      cases route.unique route'
      rfl

end Line

/-! ## The round trip -/

/-- The attributes that a record has are the same.  A path without segments is taken for no path, and so
are Communities. -/
structure SameRecord (route route' : Route) : Prop where
  pfx : route'.pfx = route.pfx
  path : route'.attr.path.getD [] = route.attr.path.getD []
  origin : route'.attr.origin = route.attr.origin
  nextHop : route'.attr.nextHop = route.attr.nextHop
  localPref : route'.attr.localPref = route.attr.localPref
  med : route'.attr.med = route.attr.med
  comms : route'.attr.comms.getD [] = route.attr.comms.getD []

/-- The record of a route is read as a table dump of the same peer with the same attributes. -/
def RoundTrips (settings : HashSettings) (reader : MrtReader) (repo : Repository) (peerAsn : NetAddr → Asn)
    (route : Route) (addr : NetAddr) : Prop :=
  ∃ route' repo', mrtdRouteFromLine settings reader repo (mrtLine peerAsn route) =
    .ok (⟨.rib, some (addr, peerAsn addr), some route'⟩, repo') ∧ SameRecord route route'

/-- No SET has a single ASN and the repository keeps the path as it is, or the SETs that come back as hops
are found again in the repository. -/
def PathGivenBack (settings : HashSettings) (repo : Repository) (path : Path) : Prop :=
  NoLoneSet path ∧ keptFor (pathsAlike settings) repo.paths path = some path ∨
    ¬ NoLoneSet path ∧ PathKept settings repo (readBack path) path

/-- The repository does not find the null pointer for the Communities. -/
def CommsGivenBack (settings : HashSettings) (repo : Repository) (comms : List Comm) : Prop :=
  keptFor (commsAlike settings) repo.comms comms ≠ none

section RoundTrip

variable {reader : MrtReader} {settings : HashSettings} {route : Route} {addr : NetAddr} {repo : Repository}

theorem pathGivenBack_iff (tokenizes : Tokenizes reader.paths) (dumpable : Dumpable settings route addr) :
    PathGivenBack settings repo (route.attr.path.getD []) ↔
      PathKept settings repo (readBack (route.attr.path.getD [])) (route.attr.path.getD []) := by
  by_cases several : NoLoneSet (route.attr.path.getD [])
  · rw [PathGivenBack, readBack_eq tokenizes dumpable.path several]
    constructor
    · rintro (⟨_, found⟩ | ⟨lone, _⟩)
      · exact ⟨dumpable.pathHashed, found⟩
      · exact absurd several lone
    · exact fun keeps => .inl ⟨several, keeps.found⟩
  · constructor
    · rintro (⟨several', _⟩ | ⟨_, keeps⟩)
      · exact absurd several' several
      · exact keeps
    · exact fun keeps => .inr ⟨several, keeps⟩

theorem commsGivenBack_iff (dumpable : Dumpable settings route addr) :
    CommsGivenBack settings repo (route.attr.comms.getD []) ↔
      CommsKept settings repo (route.attr.comms.getD []) (route.attr.comms.getD []) := by
  constructor
  · intro given
    obtain ⟨kept, found⟩ := Option.ne_none_iff_exists'.mp given
    have keeps : CommsKept settings repo (route.attr.comms.getD []) kept := ⟨dumpable.commsHashed, found⟩
    exact keeps.same ▸ keeps
  · intro keeps
    rw [CommsGivenBack, keeps.found]
    simp

/-- A route that is dumped is read back exactly when the repositories give back what was written. -/
theorem mrtRoundTrip_iff (tokenizes : Tokenizes reader.paths) (reads : ReadsComms reader.comms)
    (splits : SplitsFields reader.fields) (dumpable : Dumpable settings route addr) (repo : Repository)
    (peerAsn : NetAddr → Asn) :
    RoundTrips settings reader repo peerAsn route addr ↔
      PathGivenBack settings repo (route.attr.path.getD []) ∧
        CommsGivenBack settings repo (route.attr.comms.getD []) := by
  rw [pathGivenBack_iff tokenizes dumpable, commsGivenBack_iff dumpable]
  obtain ⟨more, split⟩ := mrtLine_tokens splits peerAsn route
  obtain ⟨header, read, columns⟩ := mrtColumns_read tokenizes reads dumpable peerAsn more
  have created := mrtdCreateRoute_of_read settings repo split (by simp) header read columns
  constructor
  · rintro ⟨route', repo', returned, same⟩
    -- The line is always read; what decides is whether the repository takes path and communities.
    by_cases keeps : (∃ kept, PathKept settings repo (mrtFields route).path kept) ∧
        CommsKept settings repo (route.attr.comms.getD []) (route.attr.comms.getD [])
    · obtain ⟨⟨kept, keeps⟩, keeps'⟩ := keeps
      have keepsFields : ∀ comms, (mrtFields route).comms = some comms → CommsKept settings repo comms comms := by
        rintro _ ⟨⟩
        exact keeps'
      obtain ⟨repo'', built, _⟩ := buildRoute_kept keeps keepsFields route.pfx
      rw [built] at created
      rw [mrtdRouteFromLine, created] at returned
      cases returned
      have path : kept = route.attr.path.getD [] := same.path
      subst path
      exact ⟨keeps, keeps'⟩
    · have lost : (∀ path, ¬ PathKept settings repo (mrtFields route).path path) ∨
          ∃ comms, (mrtFields route).comms = some comms ∧ ¬ CommsKept settings repo comms comms := by
        rw [not_and_or, not_exists] at keeps
        exact keeps.imp_right fun lost => ⟨_, rfl, lost⟩
      obtain ⟨fault, built⟩ := buildRoute_lost lost route.pfx
      rw [built] at created
      rw [mrtdRouteFromLine_error created] at returned
      cases returned
  · rintro ⟨keeps, keeps'⟩
    have keepsFields : ∀ comms, (mrtFields route).comms = some comms → CommsKept settings repo comms comms := by
      rintro _ ⟨⟩
      exact keeps'
    have keepsPath : PathKept settings repo (mrtFields route).path (route.attr.path.getD []) := keeps
    obtain ⟨repo', built, _⟩ := buildRoute_kept keepsPath keepsFields route.pfx
    rw [built] at created
    refine ⟨mrtRoute route.pfx (mrtFields route) (route.attr.path.getD []), repo', ?_, rfl, rfl, rfl, rfl, ?_, ?_, rfl⟩
    · rw [mrtdRouteFromLine, created]
      rfl
    · exact UInt32.ofNat_toNat
    · exact UInt32.ofNat_toNat

end RoundTrip

/-- A best route with an AS-path, learned from a peer. -/
def dumpedRoute (path : Path) : Route :=
  let route := routeCreate ⟨10, 8, short8⟩ (some 1) 2 .igp
  { route with
    attr := { route.attr with path := some path }
    flags := { route.flags with best := true } }

theorem dumpedRoute_dumpable {path : Path} (canonical : CanonicalPath path)
    (printed : (pathHashText (some path)).isSome = true) : Dumpable defaultHashes (dumpedRoute path) 1 where
  best := rfl
  peer := rfl
  path := canonical
  comms := Nat.zero_le _
  pathHashed := by
    obtain ⟨text, found⟩ := Option.isSome_iff_exists.mp printed
    exact ⟨defaultHashes.keyString text 25000, by simp only [dumpedRoute, pathHashCompute, defaultHashes,
      Option.getD_some, found]⟩
  commsHashed := by
    have text : commTextIn 1024 (some []) = some [] := by decide +kernel
    exact ⟨defaultHashes.keyString [] 25000, by simp only [commHashCompute, defaultHashes, dumpedRoute, routeCreate,
      bgpAttrCreate, Option.getD_none, text]⟩

theorem mrtRoundTrip_iff_setPath :
    RoundTrips defaultHashes plainMrtReader .empty (fun _ => 3) (dumpedRoute setPath) 1 ↔
      PathGivenBack defaultHashes .empty ((dumpedRoute setPath).attr.path.getD []) ∧
        CommsGivenBack defaultHashes .empty ((dumpedRoute setPath).attr.comms.getD []) :=
  mrtRoundTrip_iff plainReader_tokenizes plainCommReader_reads plainMrtReader_splits
    (dumpedRoute_dumpable ⟨by decide, .singleton _⟩ (by decide +kernel)) .empty _

/-- The SET is read as a hop. -/
theorem mrtRoundTrip_loneSet :
    Dumpable defaultHashes (dumpedRoute loneSet) 1 ∧
      ¬ RoundTrips defaultHashes plainMrtReader .empty (fun _ => 3) (dumpedRoute loneSet) 1 := by
  refine ⟨dumpedRoute_dumpable ⟨by decide, .singleton _⟩ (by decide +kernel), ?_⟩
  have read : (mrtdRouteFromLine defaultHashes plainMrtReader .empty (mrtLine (fun _ => 3) (dumpedRoute loneSet))).map
      (fun (result, _) => result.route.map (·.attr.path)) = .ok (some (some [sequenceOf 5])) := by decide +kernel
  rintro ⟨route', repo', returned, same⟩
  rw [returned] at read
  have path : route'.attr.path = some [sequenceOf 5] := Option.some.inj (Except.ok.inj read)
  have lost := same.path
  rw [path] at lost
  revert lost
  decide

end Cbgp.Verified
