import Cbgp.Verified.MrtFields
import Cbgp.Verified.PathPrepend

/-! # Reading MRT records

A line is taken for a record when every field that is looked at can be read (`Readable`).  The record is
the one that is written when, besides, the numbers have a place for every digit and the repositories keep
the AS-path and the Communities as they are (`LineProper`).
-/

namespace Cbgp.Verified

open Cbgp.Lib Cbgp.Net Cbgp.Bgp

/-! ## Attributes that are kept -/

/-- A new value can be hashed, and the value that is kept for it. -/
structure KeptAs {α : Type} (compute : Option α → Except AttrFault ℕ) (alike : Option α → Option α → Bool)
    (items : List (InternItem α)) (value kept : α) : Prop where
  hashed : ∃ key, compute (some value) = .ok key
  found : keptFor alike items value = some kept

section Build

variable {settings : HashSettings} {repo : Repository}

/-- The AS-path that the repository keeps. -/
def PathKept (settings : HashSettings) (repo : Repository) : Path → Path → Prop :=
  KeptAs (pathHashCompute settings) (pathsAlike settings) repo.paths

/-- The Communities that the repository keeps. -/
def CommsKept (settings : HashSettings) (repo : Repository) : List Comm → List Comm → Prop :=
  KeptAs (commHashCompute settings) (commsAlike settings) repo.comms

/-- What is kept hashes like the value it is kept for. -/
theorem toOption_eq_some_ok {α ε : Type} {x y : Except ε α} {a : α} (same : x.toOption = y.toOption)
    (ok : y = .ok a) : x = .ok a := by
  subst ok
  cases x with
  | ok b => exact congrArg Except.ok (Option.some.inj same)
  | error e => cases same

theorem attrSetPath_kept {path kept : Path} (keeps : PathKept settings repo path kept) :
    ∃ ref repo', attrSetPath settings repo none (some path) = .ok (ref, repo') ∧ ref.value = some kept ∧
      ref ∈ stored repo'.paths ∧ (∃ key, pathHashCompute settings ref.value = .ok key) ∧
      repo'.comms = repo.comms ∧ repo'.attrs = repo.attrs := by
  obtain ⟨⟨key, hashed⟩, found⟩ := keeps
  have value := addRef_value (pathsAlike settings) ⟨repo.fresh, path⟩ repo.paths
  have alike := addRef_alike (some ⟨repo.fresh, path⟩) (pathsAlike_self settings (some path)) repo.paths
  rw [found] at value
  have null : (addRef (pathsAlike settings) (some ⟨repo.fresh, path⟩) repo.paths).1 ≠ none := by
    intro null
    rw [null] at value
    cases value
  have set : attrSetPath settings repo none (some path) =
      .ok ((addRef (pathsAlike settings) (some ⟨repo.fresh, path⟩) repo.paths).1,
        { repo with
          paths := (addRef (pathsAlike settings) (some ⟨repo.fresh, path⟩) repo.paths).2
          fresh := repo.fresh + 1 }) := by
    simp only [attrSetPath, attrPathDestroy, pathHashAdd, Ref.value_some, hashed, bind, Except.bind, if_neg null]
  exact ⟨_, _, set, value, addRef_mem (pathsAlike settings) (some ⟨repo.fresh, path⟩) repo.paths,
    ⟨key, toOption_eq_some_ok ((pathsAlike_iff settings _ _).mp alike).1 hashed⟩, rfl, rfl⟩

theorem attrSetPath_lost {path : Path} (lost : ∀ kept, ¬ PathKept settings repo path kept) :
    ∃ fault, attrSetPath settings repo none (some path) = .error fault := by
  simp only [attrSetPath, attrPathDestroy, pathHashAdd, Ref.value_some, bind, Except.bind]
  cases hashed : pathHashCompute settings (some path) with
  | error fault => exact ⟨fault, rfl⟩
  | ok key =>
    have value := addRef_value (pathsAlike settings) ⟨repo.fresh, path⟩ repo.paths
    cases found : (addRef (pathsAlike settings) (some ⟨repo.fresh, path⟩) repo.paths).1 with
    | none => exact ⟨.pathSet, rfl⟩
    | some obj =>
      rw [found] at value
      exact absurd ⟨⟨key, hashed⟩, value.symm⟩ (lost obj.value)

/-- Communities are kept as they are, or lost. -/
theorem CommsKept.same {comms kept : List Comm} (keeps : CommsKept settings repo comms kept) : kept = comms := by
  have alike := addRef_alike (some ⟨repo.fresh, comms⟩) (commsAlike_self settings (some comms)) repo.comms
  rw [addRef_value, keeps.found] at alike
  exact ((commsAlike_iff settings _ _).mp alike).2

theorem attrSetComm_kept {comms : List Comm} (keeps : CommsKept settings repo comms comms) :
    ∃ ref repo', attrSetComm settings repo none (some comms) = .ok (ref, repo') ∧ ref.value = some comms ∧
      (∃ key, commHashCompute settings ref.value = .ok key) ∧
      repo'.paths = repo.paths ∧ repo'.attrs = repo.attrs := by
  obtain ⟨⟨key, hashed⟩, found⟩ := keeps
  have value := addRef_value (commsAlike settings) ⟨repo.fresh, comms⟩ repo.comms
  rw [found] at value
  have null : (addRef (commsAlike settings) (some ⟨repo.fresh, comms⟩) repo.comms).1 ≠ none := by
    intro null
    rw [null] at value
    cases value
  have set : attrSetComm settings repo none (some comms) =
      .ok ((addRef (commsAlike settings) (some ⟨repo.fresh, comms⟩) repo.comms).1,
        { repo with
          comms := (addRef (commsAlike settings) (some ⟨repo.fresh, comms⟩) repo.comms).2
          fresh := repo.fresh + 1 }) := by
    simp only [attrSetComm, attrCommDestroy, commHashAdd, Ref.value_some, hashed, bind, Except.bind, if_neg null]
  exact ⟨_, _, set, value, ⟨key, value ▸ hashed⟩, rfl, rfl⟩

theorem attrSetComm_lost {comms : List Comm} (lost : ¬ CommsKept settings repo comms comms) :
    ∃ fault, attrSetComm settings repo none (some comms) = .error fault := by
  simp only [attrSetComm, attrCommDestroy, commHashAdd, Ref.value_some, bind, Except.bind]
  cases hashed : commHashCompute settings (some comms) with
  | error fault => exact ⟨fault, rfl⟩
  | ok key =>
    have value := addRef_value (commsAlike settings) ⟨repo.fresh, comms⟩ repo.comms
    cases found : (addRef (commsAlike settings) (some ⟨repo.fresh, comms⟩) repo.comms).1 with
    | none => exact ⟨.commSet, rfl⟩
    | some obj =>
      rw [found] at value
      have keeps : CommsKept settings repo comms obj.value := ⟨⟨key, hashed⟩, value.symm⟩
      exact absurd (keeps.same ▸ keeps) lost

/-! ## The route -/

/-- The route of the fields, with the AS-path that is kept. -/
def mrtRoute (pfx : Pfx) (fields : MrtRouteFields) (path : Path) : Route where
  pfx := pfx
  peer := none
  attr := { bgpAttrCreate fields.nextHop fields.origin fields.pref.toUInt32 fields.med.toUInt32 with
    path := some path, comms := fields.comms }
  flags := { RouteFlags.zero with best := true, eligible := true, feasible := true }

theorem attrDestroy_ok (repo : Repository) (i : ℕ) {refs : AttrRefs} (member : refs.path ∈ stored repo.paths)
    (hashed : ∃ key, pathHashCompute settings refs.path.value = .ok key)
    (hashed' : refs.comms = none ∨ ∃ key, commHashCompute settings refs.comms.value = .ok key) :
    ∃ repo', attrDestroy settings repo i refs = .ok repo' := by
  obtain ⟨paths, removed⟩ := removeRef_of_mem (pathsAlike_self settings refs.path.value) member
  have path : ∃ repo', attrPathDestroy settings repo refs.path = .ok repo' := by
    unfold attrPathDestroy
    split
    next =>
      obtain ⟨key, hashed⟩ := hashed
      exact ⟨{ repo with paths := paths }, by simp only [pathHashRemove, hashed, removed, bind, Except.bind]⟩
    next => exact ⟨repo, rfl⟩
  obtain ⟨repo1, path⟩ := path
  have comms : ∃ repo', attrCommDestroy settings repo1 refs.comms = .ok repo' := by
    rcases hashed' with null | ⟨key, hashed⟩
    · exact ⟨repo1, by rw [null, attrCommDestroy]⟩
    · unfold attrCommDestroy
      split
      next =>
        simp only [commHashRemove, hashed, bind, Except.bind]
        split
        · exact ⟨_, rfl⟩
        · exact ⟨_, rfl⟩
      next => exact ⟨repo1, rfl⟩
  obtain ⟨repo2, comms⟩ := comms
  exact ⟨repo2.put i none, by simp only [attrDestroy, path, comms, bind, Except.bind]⟩

theorem attrSetComm_fields {comms : Option (List Comm)}
    (keeps : ∀ values, comms = some values → CommsKept settings repo values values) :
    ∃ ref repo', attrSetComm settings repo none comms = .ok (ref, repo') ∧ ref.value = comms ∧
      (ref = none ∨ ∃ key, commHashCompute settings ref.value = .ok key) ∧
      repo'.paths = repo.paths ∧ repo'.attrs = repo.attrs := by
  cases comms with
  | none => exact ⟨none, repo, rfl, rfl, .inl rfl, rfl, rfl⟩
  | some values =>
    obtain ⟨ref, repo', set, value, hashed, paths, attrs⟩ := attrSetComm_kept (keeps values rfl)
    exact ⟨ref, repo', set, value, .inr hashed, paths, attrs⟩

/-- The route that is built, and that it can be destroyed. -/
theorem buildRoute_kept {fields : MrtRouteFields} {path : Path} (keeps : PathKept settings repo fields.path path)
    (keeps' : ∀ comms, fields.comms = some comms → CommsKept settings repo comms comms) (pfx : Pfx) :
    ∃ repo', buildRoute settings repo pfx fields = .ok (mrtRoute pfx fields path, repo') ∧
      ∃ repo'', routeDestroyLast settings repo' = .ok repo'' := by
  obtain ⟨ref, repo1, set, value, member, hashed, comms1, _⟩ := attrSetPath_kept keeps
  have keeps1 : ∀ comms, fields.comms = some comms → CommsKept settings repo1 comms comms := by
    intro comms some
    rw [CommsKept, comms1]
    exact keeps' comms some
  obtain ⟨ref', repo2, set', value', hashed', paths2, attrs2⟩ := attrSetComm_fields keeps1
  have built : buildRoute settings repo pfx fields =
      .ok (mrtRoute pfx fields path, { repo2 with attrs := repo2.attrs ++ [some ⟨ref, ref'⟩] }) := by
    simp only [buildRoute, orAttrStop, set, set', Except.mapError, bind, Except.bind, value, value']
    rfl
  refine ⟨_, built, ?_⟩
  have here : Repository.attrAt { repo2 with attrs := repo2.attrs ++ [some ⟨ref, ref'⟩] }
      ((repo2.attrs ++ [some (⟨ref, ref'⟩ : AttrRefs)]).length - 1) = some ⟨ref, ref'⟩ := by
    simp [Repository.attrAt]
  have held : (⟨ref, ref'⟩ : AttrRefs).path ∈ stored repo2.paths := paths2 ▸ member
  obtain ⟨repo', destroyed⟩ := attrDestroy_ok { repo2 with attrs := repo2.attrs ++ [some ⟨ref, ref'⟩] }
    ((repo2.attrs ++ [some (⟨ref, ref'⟩ : AttrRefs)]).length - 1) held hashed hashed'
  exact ⟨repo', by simp only [routeDestroyLast, here, orAttrStop, destroyed, Except.mapError]⟩

/-- Without it the program stops. -/
theorem buildRoute_lost {fields : MrtRouteFields} (lost : (∀ path, ¬ PathKept settings repo fields.path path) ∨
      ∃ comms, fields.comms = some comms ∧ ¬ CommsKept settings repo comms comms) (pfx : Pfx) :
    ∃ fault, buildRoute settings repo pfx fields = .error (.attr fault) := by
  by_cases keeps : ∃ path, PathKept settings repo fields.path path
  · obtain ⟨path, keeps⟩ := keeps
    obtain ⟨ref, repo1, set, _, _, _, comms1, _⟩ := attrSetPath_kept keeps
    rcases lost with lost | ⟨comms, some, lost⟩
    · exact absurd keeps (lost path)
    · have lost1 : ¬ CommsKept settings repo1 comms comms := by
        rw [CommsKept, comms1]
        exact lost
      obtain ⟨fault, set'⟩ := attrSetComm_lost lost1
      exact ⟨fault, by simp only [buildRoute, orAttrStop, set, some, set', Except.mapError, bind, Except.bind]⟩
  · obtain ⟨fault, set⟩ := attrSetPath_lost (not_exists.mp keeps)
    exact ⟨fault, by simp only [buildRoute, orAttrStop, set, Except.mapError, bind, Except.bind]⟩

end Build

/-! ## Lines that can be read -/

section Lines

variable (reader : MrtReader) (tokens : List (List Char))

/-- The type is known, the protocol is one of the type, and there are fields enough. -/
structure HeaderReadable (type : MrtType) : Prop where
  long : mrtWithdrawMinFields ≤ tokens.length
  kind : FieldIs tokens 2 (mrtTypeOf · = some type)
  protocol : FieldIs tokens 0 (mrtdCheckType · type = true)
  fields : mrtRequiredFields type ≤ tokens.length

/-- The fields of a route can be read. -/
structure RouteReadable : Prop where
  path : FieldIs tokens 6 (pathFromString reader.paths · ≠ none)
  origin : FieldIs tokens 7 (bgpOriginFromStr · ≠ none)
  nextHop : FieldIs tokens 8 (str2address · ≠ none)
  localPref : FieldIs tokens 9 (optionalNumber reader.comms.asUlong 0 · ≠ none)
  med : FieldIs tokens 10 (optionalNumber reader.comms.asUlong routeMedMissing.toNat · ≠ none)
  comms : mrtUpdateMinFields < tokens.length → FieldIs tokens 11 (commFromString reader.comms · ≠ .ok none)

/-- Every field that the line has can be read. -/
structure Readable (type : MrtType) : Prop where
  header : HeaderReadable tokens type
  addr : FieldIs tokens 3 (str2address · ≠ none)
  asn : FieldIs tokens 4 (str2asn reader.paths.numerals · ≠ none)
  pfx : ∀ token, tokens[5]? = some token → str2prefix token ≠ none
  route : type ≠ .withdraw → RouteReadable reader tokens

/-- What is read of the peer and the prefix. -/
structure HeaderRead (addr : NetAddr) (asn : Asn) (pfx : Pfx) : Prop where
  addr : FieldIs tokens 3 (str2address · = some addr)
  asn : FieldIs tokens 4 (str2asn reader.paths.numerals · = some asn)
  pfx : FieldIs tokens 5 (fun text => str2prefix text = some pfx)

/-- What is read of the route. -/
structure RouteRead (fields : MrtRouteFields) : Prop where
  path : FieldIs tokens 6 (pathFromString reader.paths · = some fields.path)
  origin : FieldIs tokens 7 (bgpOriginFromStr · = some fields.origin)
  nextHop : FieldIs tokens 8 (str2address · = some fields.nextHop)
  localPref : FieldIs tokens 9 (optionalNumber reader.comms.asUlong 0 · = some fields.pref)
  med : FieldIs tokens 10 (optionalNumber reader.comms.asUlong routeMedMissing.toNat · = some fields.med)
  comms : if mrtUpdateMinFields < tokens.length then
      ∃ comms, fields.comms = some comms ∧ FieldIs tokens 11 (commFromString reader.comms · = .ok (some comms))
    else fields.comms = none

/-- The reading returns an error. -/
def LineRefuses {α : Type} (x : Except MrtStop α) : Prop := ∃ code userError, x = .error (.failed code userError)

variable {reader tokens}

theorem FieldIs.apart {i : ℕ} {α : Type} {read : List Char → α} {a : α} (field : FieldIs tokens i (read · = a))
    (field' : FieldIs tokens i (read · ≠ a)) : False := by
  obtain ⟨_, _, same, differ⟩ := field.both field'
  exact differ same

theorem readField_cases {α : Type} (tokens : List (List Char)) (i : ℕ) (code : MrtError)
    (text : List Char → List Char) (read : List Char → Option α) :
    (∃ value, readField tokens i code text read = .ok value ∧ FieldIs tokens i (read · = some value)) ∨
      LineRefuses (readField tokens i code text read) ∧ FieldIs tokens i (read · = none) ∨
      readField tokens i code text read = .error .outside ∧ tokens[i]? = none := by
  cases result : readField tokens i code text read with
  | ok value => exact .inl ⟨value, rfl, readField_ok.mp result⟩
  | error stop =>
    rcases readField_error result with ⟨absent, rfl⟩ | ⟨unread, userError, rfl⟩
    · exact .inr (.inr ⟨rfl, absent⟩)
    · exact .inr (.inl ⟨⟨code, userError, rfl⟩, unread⟩)

/-- A field that the line has is read or refused. -/
theorem readField_inside {α : Type} {i : ℕ} (inside : i < tokens.length) (code : MrtError)
    (text : List Char → List Char) (read : List Char → Option α) :
    (∃ value, readField tokens i code text read = .ok value ∧ FieldIs tokens i (read · = some value)) ∨
      LineRefuses (readField tokens i code text read) ∧ FieldIs tokens i (read · = none) := by
  rcases readField_cases tokens i code text read with ok | unread | ⟨_, absent⟩
  · exact .inl ok
  · exact .inr unread
  · exact absurd (List.getElem?_eq_none_iff.mp absent) (Nat.not_le.mpr inside)

theorem FieldIs.some {α : Type} {i : ℕ} {read : List Char → Option α} {a : α}
    (field : FieldIs tokens i (read · = some a)) : FieldIs tokens i (read · ≠ none) :=
  field.imp fun _ same => by simp [same]

theorem mrtdCheckHeader_cases (tokens : List (List Char)) :
    (∃ type, mrtdCheckHeader tokens = .ok type ∧ HeaderReadable tokens type) ∨
      LineRefuses (mrtdCheckHeader tokens) ∧ ∀ type, ¬ HeaderReadable tokens type := by
  unfold mrtdCheckHeader
  split
  next short => exact .inr ⟨⟨_, _, rfl⟩, fun type readable => absurd readable.long (Nat.not_le.mpr short)⟩
  next long =>
    have five : 5 ≤ tokens.length := Nat.not_lt.mp long
    have zeroth : 0 < tokens.length := by omega
    have second : 2 < tokens.length := by omega
    -- The type is read first, since the protocol and the number of fields are checked against it.
    rcases readField_inside second .invalidRecordType (quoting "invalid MRT record type field")
      mrtTypeOf with ⟨type, read, kind⟩ | ⟨⟨code, text, refused⟩, unread⟩
    · rw [read]
      simp only [bind, Except.bind]
      rcases readField_inside zeroth .invalidProtocol (quoting "incorrect MRT record protocol")
        (fun token => if mrtdCheckType token type then some () else none) with
        ⟨_, read', protocol⟩ | ⟨⟨code, text, refused⟩, unread⟩
      · rw [read']
        have protocol : FieldIs tokens 0 (mrtdCheckType · type = true) :=
          protocol.imp fun token passed => by simpa using passed
        simp only
        split
        next few =>
          refine .inr ⟨⟨_, _, rfl⟩, fun type' readable => ?_⟩
          obtain ⟨_, _, same, same'⟩ := kind.both readable.kind
          cases same.symm.trans same'
          exact absurd readable.fields (Nat.not_le.mpr few)
        next enough => exact .inl ⟨type, rfl, five, kind, protocol, Nat.not_lt.mp enough⟩
      · rw [refused]
        refine .inr ⟨⟨code, text, rfl⟩, fun type' readable => ?_⟩
        obtain ⟨_, _, same, same'⟩ := kind.both readable.kind
        cases same.symm.trans same'
        obtain ⟨_, _, passed, failed⟩ := readable.protocol.both unread
        simp [passed] at failed
    · rw [refused]
      exact .inr ⟨⟨code, text, rfl⟩, fun type' readable => unread.apart readable.kind.some⟩

theorem readComms_cases (tokens : List (List Char)) :
    (∃ comms, readComms reader tokens = .ok comms ∧
        if mrtUpdateMinFields < tokens.length then
          ∃ values, comms = some values ∧ FieldIs tokens 11 (commFromString reader.comms · = .ok (some values))
        else comms = none) ∨
      LineRefuses (readComms reader tokens) ∧ mrtUpdateMinFields < tokens.length ∧
        FieldIs tokens 11 (commFromString reader.comms · = .ok none) ∨
      readComms reader tokens = .error .commsFull ∧ mrtUpdateMinFields < tokens.length ∧
        FieldIs tokens 11 (∃ abort, commFromString reader.comms · = .error abort) := by
  unfold readComms
  by_cases more : mrtUpdateMinFields < tokens.length
  · obtain ⟨token, here⟩ : ∃ token, tokens[11]? = some token := ⟨_, List.getElem?_eq_getElem more⟩
    simp only [gt_iff_lt, if_pos more, tokensGetStringAt, here, bind, Except.bind]
    split
    next abort full => exact .inr (.inr ⟨rfl, more, token, here, abort, full⟩)
    next invalid => exact .inr (.inl ⟨⟨_, _, rfl⟩, more, token, here, invalid⟩)
    next values read => exact .inl ⟨_, rfl, values, rfl, token, here, read⟩
  · simp only [gt_iff_lt, if_neg more]
    exact .inl ⟨none, rfl, rfl⟩

/-- The fields of a route that is long enough are read, or one is refused, or there are too many
Communities. -/
theorem readRouteFields_cases (long : mrtUpdateMinFields ≤ tokens.length) :
    (∃ fields, readRouteFields reader tokens = .ok fields ∧ RouteRead reader tokens fields) ∨
      LineRefuses (readRouteFields reader tokens) ∧ ¬ RouteReadable reader tokens ∨
      readRouteFields reader tokens = .error .commsFull ∧ RouteReadable reader tokens ∧
        mrtUpdateMinFields < tokens.length ∧
        FieldIs tokens 11 (∃ abort, commFromString reader.comms · = .error abort) := by
  have eleven : 11 ≤ tokens.length := long
  have inside : ∀ i < 11, i < tokens.length := fun i small => Nat.lt_of_lt_of_le small eleven
  unfold readRouteFields
  -- The fields are read from the left; the first that is refused ends the reading with its error.
  rcases readField_inside (inside 6 (by decide)) .invalidAspath (quoting "invalid AS-Path")
    (pathFromString reader.paths) with ⟨path, read6, field6⟩ | ⟨⟨code, text, refused⟩, unread⟩
  case inr =>
    rw [refused]
    exact .inr (.inl ⟨⟨code, text, rfl⟩, fun readable => unread.apart readable.path⟩)
  rcases readField_inside (inside 7 (by decide)) .invalidOrigin (quoting "invalid origin") bgpOriginFromStr with
    ⟨origin, read7, field7⟩ | ⟨⟨code, text, refused⟩, unread⟩
  case inr =>
    rw [read6, refused]
    exact .inr (.inl ⟨⟨code, text, rfl⟩, fun readable => unread.apart readable.origin⟩)
  rcases readField_inside (inside 8 (by decide)) .invalidNexthop (quoting "invalid next-hop") str2address with
    ⟨nextHop, read8, field8⟩ | ⟨⟨code, text, refused⟩, unread⟩
  case inr =>
    rw [read6, read7, refused]
    exact .inr (.inl ⟨⟨code, text, rfl⟩, fun readable => unread.apart readable.nextHop⟩)
  rcases readField_inside (inside 9 (by decide)) .invalidLocalpref (quoting "invalid local-preference")
    (optionalNumber reader.comms.asUlong 0) with ⟨pref, read9, field9⟩ | ⟨⟨code, text, refused⟩, unread⟩
  case inr =>
    rw [read6, read7, read8, refused]
    exact .inr (.inl ⟨⟨code, text, rfl⟩, fun readable => unread.apart readable.localPref⟩)
  rcases readField_inside (inside 10 (by decide)) .invalidMed
    (fun token => quoting "invalid multi-exit-discriminator" token ++ ['\n'])
    (optionalNumber reader.comms.asUlong routeMedMissing.toNat) with
    ⟨med, read10, field10⟩ | ⟨⟨code, text, refused⟩, unread⟩
  case inr =>
    rw [read6, read7, read8, read9, refused]
    exact .inr (.inl ⟨⟨code, text, rfl⟩, fun readable => unread.apart readable.med⟩)
  rw [read6, read7, read8, read9, read10]
  simp only [bind, Except.bind]
  -- The communities are read last, and only if the line has a twelfth field.
  rcases readComms_cases tokens with ⟨comms, read, fields⟩ | ⟨⟨code, text, refused⟩, more, unread⟩ |
    ⟨full, more, unread⟩
  · rw [read]
    exact .inl ⟨⟨path, origin, nextHop, pref, med, comms⟩, rfl, field6, field7, field8, field9, field10, fields⟩
  · rw [refused]
    exact .inr (.inl ⟨⟨code, text, rfl⟩, fun readable => unread.apart (readable.comms more)⟩)
  · rw [full]
    have comms : FieldIs tokens 11 (commFromString reader.comms · ≠ .ok none) :=
      unread.imp fun _ ⟨abort, stopped⟩ => by simp [stopped]
    exact .inr (.inr ⟨rfl, ⟨field6.some, field7.some, field8.some, field9.some, field10.some, fun _ => comms⟩,
      more, unread⟩)

theorem RouteRead.readable {fields : MrtRouteFields} (read : RouteRead reader tokens fields) :
    RouteReadable reader tokens where
  path := read.path.some
  origin := read.origin.some
  nextHop := read.nextHop.some
  localPref := read.localPref.some
  med := read.med.some
  comms more := by
    have comms := read.comms
    rw [if_pos more] at comms
    obtain ⟨values, _, field⟩ := comms
    exact field.imp fun _ same => by simp [same]

theorem HeaderRead.prefixes {addr : NetAddr} {asn : Asn} {pfx : Pfx} (read : HeaderRead reader tokens addr asn pfx) :
    ∀ token, tokens[5]? = some token → str2prefix token ≠ none := by
  intro token here
  obtain ⟨_, here', same⟩ := read.pfx
  cases here.symm.trans here'
  simp [same]

/-- How a line ends whose fields can be read. -/
inductive LineOutcome (settings : HashSettings) (reader : MrtReader) (repo : Repository) (tokens : List (List Char))
    (type : MrtType) : Except MrtStop (MrtRecord × Repository) → Prop where
  | outside : type = .withdraw → tokens[5]? = none → LineOutcome settings reader repo tokens type (.error .outside)
  | withdraw {addr : NetAddr} {asn : Asn} {pfx : Pfx} : type = .withdraw → HeaderRead reader tokens addr asn pfx →
      LineOutcome settings reader repo tokens type (.ok (⟨type, pfx, none⟩, repo))
  | full : type ≠ .withdraw → mrtUpdateMinFields < tokens.length →
      FieldIs tokens 11 (∃ abort, commFromString reader.comms · = .error abort) →
      LineOutcome settings reader repo tokens type (.error .commsFull)
  | built {addr : NetAddr} {asn : Asn} {pfx : Pfx} {fields : MrtRouteFields} : type ≠ .withdraw →
      HeaderRead reader tokens addr asn pfx → RouteRead reader tokens fields →
      LineOutcome settings reader repo tokens type
        ((buildRoute settings repo pfx fields).map fun (route, repo) =>
          (⟨type, pfx, some (addr, asn, route)⟩, repo))

theorem mrtRequiredFields_route {type : MrtType} (route : type ≠ .withdraw) :
    mrtRequiredFields type = mrtUpdateMinFields := by
  cases type with
  | rib => rfl
  | update => rfl
  | withdraw => exact absurd rfl route

/-- A line that is not refused ends in one of these ways. -/
theorem mrtdCreateRoute_cases (settings : HashSettings) (reader : MrtReader) (repo : Repository) (line : List Char) :
    (LineRefuses (mrtdCreateRoute settings reader repo line) ∧
        ∀ tokens type, reader.fields line = .ok tokens → ¬ Readable reader tokens type) ∨
      ∃ tokens type, reader.fields line = .ok tokens ∧ Readable reader tokens type ∧
        LineOutcome settings reader repo tokens type (mrtdCreateRoute settings reader repo line) := by
  unfold mrtdCreateRoute mrtTokens
  cases split : reader.fields line with
  | error text => exact .inl ⟨⟨_, _, rfl⟩, fun tokens type found => by cases found⟩
  | ok tokens =>
    -- the fields in the order in which they are read
    have refused : ∀ {x : Except MrtStop (MrtRecord × Repository)}, LineRefuses x →
        (∀ type, ¬ Readable reader tokens type) →
        LineRefuses x ∧ ∀ tokens' type, (.ok tokens : Except (List Char) _) = .ok tokens' →
          ¬ Readable reader tokens' type := by
      intro x refuses unreadable
      exact ⟨refuses, fun tokens' type same => Except.ok.inj same ▸ unreadable type⟩
    simp only [bind, Except.bind]
    rcases mrtdCheckHeader_cases tokens with ⟨type, checked, header⟩ | ⟨⟨code, text, refusal⟩, unread⟩
    case inr =>
      rw [refusal]
      exact .inl (refused ⟨code, text, rfl⟩ fun type readable => unread type readable.header)
    have five : 5 ≤ tokens.length := header.long
    have third : 3 < tokens.length := by omega
    have fourth : 4 < tokens.length := by omega
    rw [checked]
    rcases readField_inside third .invalidPeerAddr (quoting "invalid peer IP address") str2address with
      ⟨addr, read3, field3⟩ | ⟨⟨code, text, refusal⟩, unread⟩
    case inr =>
      rw [refusal]
      exact .inl (refused ⟨code, text, rfl⟩ fun type readable => unread.apart readable.addr)
    rcases readField_inside fourth .invalidPeerAsn (quoting "invalid peer ASN") (str2asn reader.paths.numerals) with
      ⟨asn, read4, field4⟩ | ⟨⟨code, text, refusal⟩, unread⟩
    case inr =>
      rw [read3, refusal]
      exact .inl (refused ⟨code, text, rfl⟩ fun type readable => unread.apart readable.asn)
    rw [read3, read4]
    rcases readField_cases tokens 5 .invalidPrefix (quoting "invalid prefix") str2prefix with
      ⟨pfx, read5, field5⟩ | ⟨⟨code, text, refusal⟩, token, here, unread⟩ | ⟨outside, absent⟩
    · have read : HeaderRead reader tokens addr asn pfx := ⟨field3, field4, field5⟩
      have prefixes := read.prefixes
      rw [read5]
      by_cases kind : type = .withdraw
      · simp only [kind, if_true]
        exact .inr ⟨tokens, .withdraw, rfl, ⟨kind ▸ header, field3.some, field4.some, prefixes, fun route =>
          absurd rfl route⟩, .withdraw rfl read⟩
      · simp only [if_neg kind]
        have long := header.fields
        rw [mrtRequiredFields_route kind] at long
        rcases readRouteFields_cases long with ⟨fields, readFields, route⟩ |
          ⟨⟨code, text, refusal⟩, unread⟩ | ⟨full, readable, more, unread⟩
        · rw [readFields]
          refine .inr ⟨tokens, type, rfl, ⟨header, field3.some, field4.some, prefixes, fun _ => route.readable⟩, ?_⟩
          have outcome : LineOutcome settings reader repo tokens type _ := .built kind read route
          cases built : buildRoute settings repo pfx fields with
          | error stop => simpa only [built, Except.map] using outcome
          | ok result => simpa only [built, Except.map] using outcome
        · rw [refusal]
          exact .inl (refused ⟨code, text, rfl⟩ fun type' readable => by
            obtain ⟨_, _, same, same'⟩ := header.kind.both readable.header.kind
            cases same.symm.trans same'
            exact unread (readable.route kind))
        · rw [full]
          exact .inr ⟨tokens, type, rfl, ⟨header, field3.some, field4.some, prefixes, fun _ => readable⟩,
            .full kind more unread⟩
    · rw [refusal]
      exact .inl (refused ⟨code, text, rfl⟩ fun type readable => readable.pfx token here unread)
    · rw [outside]
      have short : tokens.length ≤ 5 := List.getElem?_eq_none_iff.mp absent
      have kind : type = .withdraw := by
        by_contra route
        have long := header.fields
        rw [mrtRequiredFields_route route, mrtUpdateMinFields] at long
        omega
      refine .inr ⟨tokens, type, rfl, ⟨header, field3.some, field4.some, fun token here => ?_, fun route =>
        absurd kind route⟩, .outside kind absent⟩
      rw [absent] at here
      cases here

end Lines

/-! ## What a line means -/

/-- The letter of a type. -/
def mrtLetter : MrtType → Char
  | .rib => 'B'
  | .update => 'A'
  | .withdraw => 'W'

/-- The protocols of a type. -/
def mrtProtocols : MrtType → List (List Char)
  | .rib => ["TABLE_DUMP".toList]
  | _ => ["BGP".toList, "BGP4".toList]

theorem mrtTypeOf_iff {token : List Char} {type : MrtType} :
    mrtTypeOf token = some type ↔ token = [mrtLetter type] := by
  unfold mrtTypeOf
  constructor
  · intro read
    split at read
    next same => exact Option.some.inj read ▸ same
    next =>
      split at read
      next same => exact Option.some.inj read ▸ same
      next =>
        split at read
        next same => exact Option.some.inj read ▸ same
        next => cases read
  · rintro rfl
    cases type <;> rfl

theorem mrtdCheckType_iff {token : List Char} {type : MrtType} :
    mrtdCheckType token type = true ↔ token ∈ mrtProtocols type := by
  cases type <;>
    simp only [mrtdCheckType, mrtProtocols, List.mem_cons, List.not_mem_nil, or_false, Bool.or_eq_true,
      decide_eq_true_eq]

section Meaning

variable (reader : MrtReader) (tokens : List (List Char))

/-- The fields of every record. -/
structure HeaderMeans (type : MrtType) (addr : NetAddr) (asn : Asn) (pfx : Pfx) : Prop where
  kind : FieldIs tokens 2 (· = [mrtLetter type])
  protocol : FieldIs tokens 0 (· ∈ mrtProtocols type)
  addr : FieldIs tokens 3 (AddressMeans · addr)
  asn : FieldIs tokens 4 (AsnMeans reader.paths · asn)
  pfx : FieldIs tokens 5 (PrefixMeans · pfx)

/-- The fields of a route: it is best, and it has the attributes that are listed and no others. -/
structure RouteMeans (pfx : Pfx) (route : Route) : Prop where
  path : ∃ path, route.attr.path = some path ∧ FieldIs tokens 6 (PathMeans reader.paths · path)
  origin : FieldIs tokens 7 (· = bgpOriginToStr route.attr.origin)
  nextHop : FieldIs tokens 8 (AddressMeans · route.attr.nextHop)
  localPref : FieldIs tokens 9 (NumberMeans reader.comms.asUlong 0 · route.attr.localPref)
  med : FieldIs tokens 10 (NumberMeans reader.comms.asUlong routeMedMissing · route.attr.med)
  comms : if mrtUpdateMinFields < tokens.length then
      ∃ comms, route.attr.comms = some comms ∧ FieldIs tokens 11 (CommsMeans reader.comms · comms)
    else route.attr.comms = none
  others : route.attr.ecomms = none ∧ route.attr.originator = none ∧ route.attr.clusterList = none
  pfx : route.pfx = pfx
  peer : route.peer = none
  flags : route.flags = { RouteFlags.zero with best := true, eligible := true, feasible := true }

/-- A withdraw has no more than a header. -/
inductive RecordMeans : MrtRecord → Prop where
  | withdraw {addr : NetAddr} {asn : Asn} {pfx : Pfx} : HeaderMeans reader tokens .withdraw addr asn pfx →
      RecordMeans ⟨.withdraw, pfx, none⟩
  | announce {type : MrtType} {addr : NetAddr} {asn : Asn} {pfx : Pfx} {route : Route} : type ≠ .withdraw →
      HeaderMeans reader tokens type addr asn pfx → RouteMeans reader tokens pfx route →
      RecordMeans ⟨type, pfx, some (addr, asn, route)⟩

/-! ## Fields that are kept as they are -/

/-- The number has no more than 32 bits. -/
def NumberFits (asUlong : List Char → Option ℕ) (missing : ℕ) (text : List Char) : Prop :=
  ∀ n, optionalNumber asUlong missing text = some n → n < 2 ^ 32

variable (settings : HashSettings) (repo : Repository)

/-- An AS-path that is not altered, or another one in the repository with the same ASNs that has the shape
of the text. -/
def PathStored (text : List Char) : Prop :=
  ∃ path kept, pathFromString reader.paths text = some path ∧ PathKept settings repo path kept ∧
    if kept = path then PathFits reader.paths text else PathShaped reader.paths text kept

/-- Communities that are not altered, and for which the repository does not find the null pointer. -/
def CommsStored (text : List Char) : Prop :=
  CommsFitText reader.comms text ∧
    ∃ comms, commFromString reader.comms text = .ok (some comms) ∧ CommsKept settings repo comms comms

/-- A route whose fields are kept as they are. -/
structure RouteProper : Prop where
  path : FieldIs tokens 6 (PathStored reader settings repo)
  nextHop : FieldIs tokens 8 (DigitsPlaced · [])
  localPref : FieldIs tokens 9 (NumberFits reader.comms.asUlong 0)
  med : FieldIs tokens 10 (NumberFits reader.comms.asUlong routeMedMissing.toNat)
  comms : mrtUpdateMinFields < tokens.length → FieldIs tokens 11 (CommsStored reader settings repo)

/-- A record whose fields are kept as they are. -/
structure LineProper (type : MrtType) : Prop where
  addr : FieldIs tokens 3 (DigitsPlaced · [])
  asn : FieldIs tokens 4 (reader.paths.numerals.asUint · ≠ some maxAs)
  pfx : FieldIs tokens 5 (DigitsPlaced · [])
  route : type ≠ .withdraw → RouteProper reader tokens settings repo

variable {reader tokens settings repo}

theorem FieldIs.iff {i : ℕ} {holds read property : List Char → Prop} (field : FieldIs tokens i read)
    (same : ∀ text, read text → (holds text ↔ property text)) : FieldIs tokens i holds ↔ FieldIs tokens i property := by
  constructor
  · intro held
    exact (field.both held).imp fun text ⟨read, holds⟩ => (same text read).mp holds
  · intro held
    exact (field.both held).imp fun text ⟨read, holds⟩ => (same text read).mpr holds

/-- The header that is read is the one that is written exactly when its fields are kept. -/
theorem HeaderRead.means_iff {type : MrtType} (header : HeaderReadable tokens type) {addr : NetAddr} {asn : Asn}
    {pfx : Pfx} (read : HeaderRead reader tokens addr asn pfx) :
    HeaderMeans reader tokens type addr asn pfx ↔
      FieldIs tokens 3 (DigitsPlaced · []) ∧
        FieldIs tokens 4 (reader.paths.numerals.asUint · ≠ some maxAs) ∧ FieldIs tokens 5 (DigitsPlaced · []) := by
  have field3 : FieldIs tokens 3 (AddressMeans · addr) ↔ FieldIs tokens 3 (DigitsPlaced · []) :=
    read.addr.iff fun _ => addressMeans_iff
  have field4 : FieldIs tokens 4 (AsnMeans reader.paths · asn) ↔
      FieldIs tokens 4 (reader.paths.numerals.asUint · ≠ some maxAs) := read.asn.iff fun _ => asnMeans_iff
  have field5 : FieldIs tokens 5 (PrefixMeans · pfx) ↔ FieldIs tokens 5 (DigitsPlaced · []) :=
    read.pfx.iff fun _ => prefixMeans_iff
  constructor
  · intro means
    exact ⟨field3.mp means.addr, field4.mp means.asn, field5.mp means.pfx⟩
  · rintro ⟨placed3, fits, placed5⟩
    exact ⟨header.kind.imp fun _ => mrtTypeOf_iff.mp, header.protocol.imp fun _ => mrtdCheckType_iff.mp,
      field3.mpr placed3, field4.mpr fits, field5.mpr placed5⟩

/-- What is meant is what is read. -/
theorem HeaderMeans.same {type : MrtType} {addr addr' : NetAddr} {asn asn' : Asn} {pfx pfx' : Pfx}
    (read : HeaderRead reader tokens addr asn pfx) (means : HeaderMeans reader tokens type addr' asn' pfx') :
    addr' = addr ∧ asn' = asn ∧ pfx' = pfx := by
  obtain ⟨_, _, read3, means3⟩ := read.addr.both means.addr
  obtain ⟨_, _, read4, means4⟩ := read.asn.both means.asn
  obtain ⟨_, _, read5, means5⟩ := read.pfx.both means.pfx
  exact ⟨Option.some.inj (means3.read.symm.trans read3), Option.some.inj (means4.read.symm.trans read4),
    Option.some.inj (means5.read.symm.trans read5)⟩

theorem NumberFits.iff {asUlong : List Char → Option ℕ} {missing n : ℕ} {text : List Char}
    (read : optionalNumber asUlong missing text = some n) : NumberFits asUlong missing text ↔ n < 2 ^ 32 := by
  constructor
  · exact fun fits => fits n read
  · intro small m read'
    cases read.symm.trans read'
    exact small

theorem PathKept.unique {path kept kept' : Path} (keeps : PathKept settings repo path kept)
    (keeps' : PathKept settings repo path kept') : kept' = kept :=
  Option.some.inj (keeps'.found.symm.trans keeps.found)

/-- What is kept has the ASNs of the path that it is kept for. -/
theorem PathKept.asns {path kept : Path} (keeps : PathKept settings repo path kept) :
    kept.map (·.asns) = path.map (·.asns) := by
  have alike := addRef_alike (some ⟨repo.fresh, path⟩) (pathsAlike_self settings (some path)) repo.paths
  rw [addRef_value, keeps.found] at alike
  exact ((pathsAlike_iff settings _ _).mp alike).2

/-- The AS-path that is kept is the one that is written exactly when it was stored without a change, or has
the shape of the text. -/
theorem pathStored_iff (reads : ReadsPaths reader.paths) {text : List Char} {path kept : Path}
    (read : pathFromString reader.paths text = some path) (keeps : PathKept settings repo path kept) :
    PathMeans reader.paths text kept ↔ PathStored reader settings repo text := by
  constructor
  · intro means
    refine ⟨path, kept, read, keeps, ?_⟩
    split
    next same => exact (pathMeans_iff reads read).mp (same ▸ means)
    next => exact (pathMeans_iff_shaped reads read keeps.asns).mp means
  · rintro ⟨path', kept', read', keeps', fits⟩
    cases read.symm.trans read'
    cases keeps.unique keeps'
    split at fits
    next same => exact same ▸ (pathMeans_iff reads read).mpr fits
    next => exact (pathMeans_iff_shaped reads read keeps.asns).mpr fits

theorem commsStored_iff {text : List Char} {comms : List Comm}
    (read : commFromString reader.comms text = .ok (some comms)) (keeps : CommsKept settings repo comms comms) :
    CommsMeans reader.comms text comms ↔ CommsStored reader settings repo text := by
  rw [commsMeans_iff read]
  exact ⟨fun fits => ⟨fits, comms, read, keeps⟩, And.left⟩

/-- The route that is built is the one that is written exactly when its fields are kept. -/
theorem RouteRead.means_iff (reads : ReadsPaths reader.paths) {fields : MrtRouteFields}
    (read : RouteRead reader tokens fields) {kept : Path} (keeps : PathKept settings repo fields.path kept)
    (keeps' : ∀ comms, fields.comms = some comms → CommsKept settings repo comms comms) (pfx : Pfx) :
    RouteMeans reader tokens pfx (mrtRoute pfx fields kept) ↔ RouteProper reader tokens settings repo := by
  -- One equivalence for each column; the origin has none, since its texts are read one to one.
  have field6 : FieldIs tokens 6 (PathMeans reader.paths · kept) ↔ FieldIs tokens 6 (PathStored reader settings repo) :=
    read.path.iff fun _ read => pathStored_iff reads read keeps
  have field8 : FieldIs tokens 8 (AddressMeans · fields.nextHop) ↔ FieldIs tokens 8 (DigitsPlaced · []) :=
    read.nextHop.iff fun _ => addressMeans_iff
  have field9 : FieldIs tokens 9 (NumberMeans reader.comms.asUlong 0 · fields.pref.toUInt32) ↔
      FieldIs tokens 9 (NumberFits reader.comms.asUlong 0) :=
    read.localPref.iff fun _ read => (numberMeans_iff read).trans (NumberFits.iff read).symm
  have field10 : FieldIs tokens 10 (NumberMeans reader.comms.asUlong routeMedMissing · fields.med.toUInt32) ↔
      FieldIs tokens 10 (NumberFits reader.comms.asUlong routeMedMissing.toNat) :=
    read.med.iff fun _ read => (numberMeans_iff read).trans (NumberFits.iff read).symm
  have field11 := read.comms
  constructor
  · intro means
    refine ⟨?_, field8.mp means.nextHop, field9.mp means.localPref, field10.mp means.med, fun more => ?_⟩
    · obtain ⟨path, same, held⟩ := means.path
      cases same
      exact field6.mp held
    · have comms := means.comms
      rw [if_pos more] at field11 comms
      obtain ⟨values, some, read⟩ := field11
      obtain ⟨values', some', held⟩ := comms
      cases some.symm.trans some'
      exact (read.iff fun _ read => commsStored_iff read (keeps' values some)).mp held
  · intro proper
    refine ⟨⟨kept, rfl, field6.mpr proper.path⟩, read.origin.imp fun _ => bgpOriginFromStr_iff.mp,
      field8.mpr proper.nextHop, field9.mpr proper.localPref, field10.mpr proper.med, ?_, ⟨rfl, rfl, rfl⟩, rfl, rfl,
      rfl⟩
    split
    next more =>
      rw [if_pos more] at field11
      obtain ⟨values, some, read⟩ := field11
      exact ⟨values, some, (read.iff fun _ read => commsStored_iff read (keeps' values some)).mpr (proper.comms more)⟩
    next few =>
      rw [if_neg few] at field11
      exact field11

theorem RouteMeans.readable (reads : ReadsPaths reader.paths) {pfx : Pfx} {route : Route}
    (means : RouteMeans reader tokens pfx route) : RouteReadable reader tokens where
  path := by
    obtain ⟨path, _, held⟩ := means.path
    refine held.imp fun _ path => ?_
    obtain ⟨path', read⟩ := path.read reads
    simp [read]
  origin := (means.origin.imp fun _ => bgpOriginFromStr_iff.mpr).some
  nextHop := (means.nextHop.imp fun _ => AddressMeans.read).some
  localPref := FieldIs.some (means.localPref.imp fun _ (number : NumberMeans _ 0 _ _) => number.read)
  med := (means.med.imp fun _ => NumberMeans.read).some
  comms more := by
    have comms := means.comms
    rw [if_pos more] at comms
    obtain ⟨_, _, held⟩ := comms
    exact held.imp fun _ => CommsMeans.readable

theorem FieldIs.inside {i : ℕ} {holds : List Char → Prop} (field : FieldIs tokens i holds) : i < tokens.length := by
  obtain ⟨_, here, _⟩ := field
  exact (List.getElem?_eq_some_iff.mp here).1

theorem HeaderMeans.header {type : MrtType} {addr : NetAddr} {asn : Asn} {pfx : Pfx}
    (means : HeaderMeans reader tokens type addr asn pfx) (long : mrtRequiredFields type ≤ tokens.length) :
    HeaderReadable tokens type where
  long := Nat.le_of_lt means.pfx.inside
  kind := means.kind.imp fun _ => mrtTypeOf_iff.mpr
  protocol := means.protocol.imp fun _ => mrtdCheckType_iff.mpr
  fields := long

theorem HeaderMeans.read {type : MrtType} {addr : NetAddr} {asn : Asn} {pfx : Pfx}
    (means : HeaderMeans reader tokens type addr asn pfx) : HeaderRead reader tokens addr asn pfx where
  addr := means.addr.imp fun _ => AddressMeans.read
  asn := means.asn.imp fun _ => AsnMeans.read
  pfx := means.pfx.imp fun _ => PrefixMeans.read

/-- A line that means a record can be read. -/
theorem RecordMeans.readable (reads : ReadsPaths reader.paths) {record : MrtRecord}
    (means : RecordMeans reader tokens record) : Readable reader tokens record.type := by
  cases means with
  | withdraw header =>
    have read := header.read
    exact ⟨header.header (Nat.le_of_lt header.pfx.inside), read.addr.some, read.asn.some, read.prefixes,
      fun route => absurd rfl route⟩
  | @announce type _ _ _ _ kind header route =>
    have read := header.read
    have long : mrtRequiredFields type ≤ tokens.length := by
      rw [mrtRequiredFields_route kind]
      exact route.med.inside
    exact ⟨header.header long, read.addr.some, read.asn.some, read.prefixes, fun _ => route.readable reads⟩

end Meaning

/-! ## The two readers -/

/-- What a reader returns is what the line means, and an error only where it means nothing; it does not
stop. -/
def Exact {α : Type} (result : Except MrtStop (α × Repository)) (means : α → Prop) : Prop :=
  match result with
  | .ok (value, _) => means value
  | .error (.failed _ _) => ∀ value, ¬ means value
  | .error _ => False

/-- What is returned of a record with the routes: the route of a table dump, the peer of an update and the
type of a withdraw. -/
def routePart : MrtRecord → MrtRoute
  | ⟨.rib, _, some (addr, asn, route)⟩ => ⟨.rib, some (addr, asn), some route⟩
  | ⟨type, _, some (addr, asn, _)⟩ => ⟨type, some (addr, asn), none⟩
  | ⟨type, _, none⟩ => ⟨type, none, none⟩

/-- What is returned of a record with the messages: there is none for a table dump. -/
def msgPart : MrtRecord → Option MsgBody
  | ⟨.update, _, some (_, _, route)⟩ => some (.update route)
  | ⟨.withdraw, pfx, _⟩ => some (.withdraw pfx)
  | _ => none

/-- The line means a record with that part. -/
def LineMeans {α : Type} (reader : MrtReader) (line : List Char) (part : MrtRecord → α) (value : α) : Prop :=
  ∃ tokens record, reader.fields line = .ok tokens ∧ RecordMeans reader tokens record ∧ part record = value

section Readers

variable {settings : HashSettings} {reader : MrtReader} {repo repo' : Repository} {line : List Char}

theorem mrtdRouteFromLine_error {stop : MrtStop} (created : mrtdCreateRoute settings reader repo line = .error stop) :
    mrtdRouteFromLine settings reader repo line = .error stop := by
  rw [mrtdRouteFromLine, created]
  rfl

theorem mrtdMsgFromLine_error {stop : MrtStop} (created : mrtdCreateRoute settings reader repo line = .error stop) :
    mrtdMsgFromLine settings reader repo line = .error stop := by
  rw [mrtdMsgFromLine, created]
  rfl

/-- Neither reader fails where the record was created, as a route that is not returned can be destroyed. -/
theorem mrtdFromLine_ok {record : MrtRecord} (created : mrtdCreateRoute settings reader repo line = .ok (record, repo'))
    (destroyed : record.route ≠ none → ∃ repo'', routeDestroyLast settings repo' = .ok repo'') :
    (∃ repo'', mrtdRouteFromLine settings reader repo line = .ok (routePart record, repo'')) ∧
      ∃ repo'', mrtdMsgFromLine settings reader repo line = .ok (msgPart record, repo'') := by
  rw [mrtdRouteFromLine, mrtdMsgFromLine, created]
  obtain ⟨type, pfx, route⟩ := record
  cases route with
  | none => cases type <;> exact ⟨⟨_, rfl⟩, _, rfl⟩
  | some content =>
    obtain ⟨repo'', destroys⟩ := destroyed (by simp)
    cases type with
    | rib => exact ⟨⟨_, rfl⟩, repo'', by simp only [bind, Except.bind, destroys]; rfl⟩
    | update => exact ⟨⟨repo'', by simp only [bind, Except.bind, destroys]; rfl⟩, _, rfl⟩
    | withdraw => exact ⟨⟨repo'', by simp only [bind, Except.bind, destroys]; rfl⟩, _, rfl⟩

variable {tokens : List (List Char)}

theorem lineMeans_iff {α : Type} (split : reader.fields line = .ok tokens) {part : MrtRecord → α} {value : α} :
    LineMeans reader line part value ↔ ∃ record, RecordMeans reader tokens record ∧ part record = value := by
  constructor
  · rintro ⟨tokens', record, split', means⟩
    cases split.symm.trans split'
    exact ⟨record, means⟩
  · rintro ⟨record, means⟩
    exact ⟨tokens, record, split, means⟩

/-- The route that is returned by one of the readers is that of a record. -/
theorem RecordMeans.of_parts {record record' : MrtRecord} (means : RecordMeans reader tokens record)
    (means' : RecordMeans reader tokens record') {type : MrtType} {addr : NetAddr} {asn : Asn} {pfx : Pfx}
    {route : Route} (kind : type ≠ .withdraw) (same : routePart record = routePart ⟨type, pfx, some (addr, asn, route)⟩)
    (same' : msgPart record' = msgPart ⟨type, pfx, some (addr, asn, route)⟩) :
    ∃ addr asn pfx, HeaderMeans reader tokens type addr asn pfx ∧ RouteMeans reader tokens pfx route := by
  cases type with
  | withdraw => exact absurd rfl kind
  | rib =>
    cases means with
    | withdraw => cases same
    | @announce type _ _ _ _ _ header content =>
      cases type with
      | rib =>
        cases same
        exact ⟨_, _, _, header, content⟩
      | update => cases same
      | withdraw => cases same
  | update =>
    cases means' with
    | withdraw => cases same'
    | @announce type _ _ _ _ _ header content =>
      cases type with
      | rib => cases same'
      | update =>
        cases same'
        exact ⟨_, _, _, header, content⟩
      | withdraw => cases same'

/-- Both readers return what the line means, or an error where it means nothing. -/
def ReadExactly (settings : HashSettings) (reader : MrtReader) (repo : Repository) (line : List Char) : Prop :=
  Exact (mrtdRouteFromLine settings reader repo line) (LineMeans reader line routePart) ∧
    Exact (mrtdMsgFromLine settings reader repo line) (LineMeans reader line msgPart)

theorem readExactly_of_refused (reads : ReadsPaths reader.paths)
    (refused : LineRefuses (mrtdCreateRoute settings reader repo line))
    (unreadable : ∀ tokens type, reader.fields line = .ok tokens → ¬ Readable reader tokens type) :
    ReadExactly settings reader repo line := by
  obtain ⟨code, text, created⟩ := refused
  rw [ReadExactly, mrtdRouteFromLine_error created, mrtdMsgFromLine_error created]
  constructor
  · rintro value ⟨tokens, record, split, means, _⟩
    exact unreadable tokens _ split (means.readable reads)
  · rintro value ⟨tokens, record, split, means, _⟩
    exact unreadable tokens _ split (means.readable reads)

theorem not_readExactly_of_stop {stop : MrtStop} (created : mrtdCreateRoute settings reader repo line = .error stop)
    (stops : ∀ code userError, stop ≠ .failed code userError) : ¬ ReadExactly settings reader repo line := by
  rintro ⟨exact, _⟩
  rw [mrtdRouteFromLine_error created] at exact
  cases stop with
  | failed code userError => exact stops code userError rfl
  | outside => exact exact
  | commsFull => exact exact
  | attr fault => exact exact

theorem readExactly_of_created (split : reader.fields line = .ok tokens) {record : MrtRecord}
    (created : mrtdCreateRoute settings reader repo line = .ok (record, repo'))
    (destroyed : record.route ≠ none → ∃ repo'', routeDestroyLast settings repo' = .ok repo'') :
    ReadExactly settings reader repo line ↔
      (∃ record', RecordMeans reader tokens record' ∧ routePart record' = routePart record) ∧
        ∃ record', RecordMeans reader tokens record' ∧ msgPart record' = msgPart record := by
  obtain ⟨⟨_, route⟩, _, msg⟩ := mrtdFromLine_ok created destroyed
  rw [ReadExactly, route, msg]
  exact and_congr (lineMeans_iff split) (lineMeans_iff split)

/-- The line of a record is read as it is written exactly when its fields are kept as they are. -/
theorem LineOutcome.exact_iff (reads : ReadsPaths reader.paths) (split : reader.fields line = .ok tokens)
    {type : MrtType} (readable : Readable reader tokens type)
    (outcome : LineOutcome settings reader repo tokens type (mrtdCreateRoute settings reader repo line)) :
    ReadExactly settings reader repo line ↔ LineProper reader tokens settings repo type := by
  generalize created : mrtdCreateRoute settings reader repo line = result at outcome
  cases outcome with
  -- The line stops before a record is built: it is not read, and some field is not proper.
  | outside _ absent =>
    refine iff_of_false (not_readExactly_of_stop created (by simp)) fun proper => ?_
    obtain ⟨_, here, _⟩ := proper.pfx
    rw [absent] at here
    cases here
  | full kind more full =>
    refine iff_of_false (not_readExactly_of_stop created (by simp)) fun proper => ?_
    obtain ⟨_, _, ⟨abort, stopped⟩, _, _, read, _⟩ := full.both ((proper.route kind).comms more)
    rw [stopped] at read
    cases read
  -- A withdrawal has only the header fields.
  | @withdraw addr asn pfx kind read =>
    subst kind
    rw [readExactly_of_created split created (by simp)]
    constructor
    · rintro ⟨_, record, means, same⟩
      cases means with
      | @withdraw addr' asn' pfx' header =>
        obtain ⟨rfl, rfl, rfl⟩ := header.same read
        obtain ⟨placed, fits, placed'⟩ := (read.means_iff readable.header).mp header
        exact ⟨placed, fits, placed', fun route => absurd rfl route⟩
      | @announce type _ _ _ _ kind _ _ =>
        cases type with
        | rib => cases same
        | update => cases same
        | withdraw => exact absurd rfl kind
    · intro proper
      have header := (read.means_iff readable.header).mpr ⟨proper.addr, proper.asn, proper.pfx⟩
      exact ⟨⟨_, .withdraw header, rfl⟩, _, .withdraw header, rfl⟩
  | @built addr asn pfx fields kind read route =>
    -- The route is built; it is read back when the repository keeps its path and communities.
    by_cases keeps : (∃ kept, PathKept settings repo fields.path kept) ∧
        ∀ comms, fields.comms = some comms → CommsKept settings repo comms comms
    · obtain ⟨⟨kept, keeps⟩, keeps'⟩ := keeps
      obtain ⟨repo', built, destroyed⟩ := buildRoute_kept keeps keeps' pfx
      rw [built] at created
      rw [readExactly_of_created split created fun _ => destroyed]
      constructor
      · rintro ⟨⟨record, means, same⟩, record', means', same'⟩
        obtain ⟨addr', asn', pfx', header, content⟩ := means.of_parts means' kind same same'
        obtain ⟨rfl, rfl, rfl⟩ := header.same read
        obtain ⟨placed, fits, placed'⟩ := (read.means_iff readable.header).mp header
        exact ⟨placed, fits, placed', fun _ => (route.means_iff reads keeps keeps' _).mp content⟩
      · intro proper
        have header := (read.means_iff readable.header).mpr ⟨proper.addr, proper.asn, proper.pfx⟩
        have content := (route.means_iff reads keeps keeps' pfx).mpr (proper.route kind)
        exact ⟨⟨_, .announce kind header content, rfl⟩, _, .announce kind header content, rfl⟩
    · have lost : (∀ path, ¬ PathKept settings repo fields.path path) ∨
          ∃ comms, fields.comms = some comms ∧ ¬ CommsKept settings repo comms comms := by
        rw [not_and_or, not_exists] at keeps
        exact keeps.imp_right fun lost => by simpa using lost
      obtain ⟨fault, built⟩ := buildRoute_lost lost pfx
      rw [built] at created
      refine iff_of_false (not_readExactly_of_stop created (by simp)) fun proper => keeps ⟨?_, fun comms some => ?_⟩
      · obtain ⟨_, _, read, path, kept, read', keeps, _⟩ := route.path.both (proper.route kind).path
        cases read.symm.trans read'
        exact ⟨kept, keeps⟩
      · have field := route.comms
        split at field
        next more =>
          obtain ⟨values, some', field⟩ := field
          cases some.symm.trans some'
          obtain ⟨_, _, read, _, values', read', keeps⟩ := field.both ((proper.route kind).comms more)
          cases read.symm.trans read'
          exact keeps
        next =>
          rw [field] at some
          cases some

/-- Every line is read exactly as it is written, or refused where it means nothing, if and only if the
fields are kept as they are where all of them can be read. -/
theorem mrtdFromLine_exact_iff (reads : ReadsPaths reader.paths) (settings : HashSettings) (repo : Repository)
    (line : List Char) :
    ReadExactly settings reader repo line ↔
      ∀ tokens type, reader.fields line = .ok tokens → Readable reader tokens type →
        LineProper reader tokens settings repo type := by
  rcases mrtdCreateRoute_cases settings reader repo line with ⟨refused, unreadable⟩ |
    ⟨tokens, type, split, readable, outcome⟩
  · exact iff_of_true (readExactly_of_refused reads refused unreadable) fun tokens type split readable =>
      absurd readable (unreadable tokens type split)
  · rw [outcome.exact_iff reads split readable]
    constructor
    · intro proper tokens' type' split' readable'
      cases split.symm.trans split'
      obtain ⟨_, _, same, same'⟩ := readable.header.kind.both readable'.header.kind
      cases same.symm.trans same'
      exact proper
    · exact fun proper => proper tokens type split readable

end Readers

/-- The library as the reader expects it, with one token for each field of a line. -/
def plainMrtReader : MrtReader where
  fields line := .ok (line.splitOn '|')
  paths := plainReader
  comms := plainCommReader

theorem mrtdFromLine_withdraw_iff :
    ReadExactly defaultHashes plainMrtReader .empty "BGP|0|W|1.2.3.4|1|10/8".toList ↔
      ∀ tokens type, plainMrtReader.fields "BGP|0|W|1.2.3.4|1|10/8".toList = .ok tokens →
        Readable plainMrtReader tokens type → LineProper plainMrtReader tokens defaultHashes .empty type :=
  mrtdFromLine_exact_iff plainReader_reads defaultHashes .empty _

/-- A withdraw of five fields, of which the sixth is read. -/
theorem mrtdFromLine_outside : ¬ ReadExactly defaultHashes plainMrtReader .empty "BGP|0|W|1.2.3.4|1".toList := by
  have outside : (mrtdCreateRoute defaultHashes plainMrtReader .empty "BGP|0|W|1.2.3.4|1".toList).map (·.1) =
      .error .outside := by decide +kernel
  exact not_readExactly_of_stop (except_map_eq_error.mp outside) (by simp)

end Cbgp.Verified
