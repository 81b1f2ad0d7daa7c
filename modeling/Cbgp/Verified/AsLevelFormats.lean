import Cbgp.Bgp.AsLevelFile
import Cbgp.Verified.AsLevelLinks

/-! # The file formats of AS-level topologies

A graph is a list of relationships; a file writes it in a format when its lines are rows of these, in any
order and with any blanks.  The Rexford parser adds both links of a relationship for one row; the CAIDA and the
Meulle parser add one link for each row, and their files have a row for each direction.  What the parsers build is
described by the domains and the links added so far (`Loaded`).
-/

namespace Cbgp.Verified

open Cbgp.Lib Cbgp.Bgp

/-! ## Graphs and their files -/

/-- A link in one direction: what `asn2` is for `asn1`. -/
structure Row where
  asn1 : Asn
  asn2 : Asn
  peerType : PeerType
  deriving DecidableEq

namespace Row

def reverse (row : Row) : Row := ⟨row.asn2, row.asn1, aslevelReverseRelation row.peerType⟩

@[simp] theorem reverse_reverse (row : Row) : row.reverse.reverse = row := by
  simp [reverse]

end Row

/-- A relationship of two domains. -/
inductive Relationship where
  | providerCustomer (provider customer : Asn)
  | peers (a b : Asn)
  deriving DecidableEq

namespace Relationship

/-- The link of the first domain. -/
def row : Relationship → Row
  | providerCustomer provider customer => ⟨provider, customer, .customer⟩
  | peers a b => ⟨a, b, .peer⟩

/-- The links in both directions. -/
def rows (relationship : Relationship) : List Row := [relationship.row, relationship.row.reverse]

theorem reverse_mem_rows {relationship : Relationship} {row : Row} (member : row ∈ relationship.rows) :
    row.reverse ∈ relationship.rows := by
  simp only [rows, List.mem_cons, List.not_mem_nil, or_false] at member ⊢
  rcases member with rfl | rfl
  · exact .inr rfl
  · exact .inl (Row.reverse_reverse _)

end Relationship

/-- A graph without self-links and with at most one relationship for each pair. -/
structure AsGraph where
  relationships : List Relationship
  noSelf : ∀ relationship ∈ relationships, relationship.row.asn1 ≠ relationship.row.asn2
  onePerPair : relationships.Pairwise fun r r' =>
    ∀ row ∈ r.rows, ∀ row' ∈ r'.rows, ¬ (row.asn1 = row'.asn1 ∧ row.asn2 = row'.asn2)

/-- The links of the graph, in both directions. -/
def AsGraph.rows (graph : AsGraph) : List Row := graph.relationships.flatMap Relationship.rows

/-- How a format writes an ASN. -/
def asnText : AsFormat → Asn → List Char
  | .rexford, asn => Nat.toDigits 10 asn.toNat
  | .caida, asn => Nat.toDigits 10 asn.toNat
  | .meulle, asn => 'A' :: 'S' :: Nat.toDigits 10 asn.toNat

/-- How a format writes a relation; the Rexford format has no row from a customer to a provider. -/
def relationText : AsFormat → PeerType → Option (List Char)
  | .rexford, .customer => some ['1']
  | .rexford, .peer => some ['0']
  | .caida, .provider => some ['-', '1']
  | .caida, .peer => some ['0']
  | .caida, .customer => some ['1']
  | .caida, .sibling => some ['2']
  | .meulle, .peer => some ['P', 'E', 'E', 'R']
  | .meulle, .customer => some ['P', '2', 'C']
  | .meulle, .provider => some ['C', '2', 'P']
  | _, _ => none

/-- The tokens of a row. -/
def rowText (format : AsFormat) (row : Row) : Option (List (List Char)) :=
  (relationText format row.peerType).map fun relation =>
    [asnText format row.asn1, asnText format row.asn2, relation]

/-- Whether a file describes a relationship in one direction or in both. -/
inductive Directions where
  | one
  | both
  deriving DecidableEq

/-- The directions that the parser of a format needs. -/
def formatDirections : AsFormat → Directions
  | .rexford => .one
  | .caida | .meulle => .both

/-- The rows of a relationship. -/
def Describes : Directions → Relationship → List Row → Prop
  | .one, relationship, rows => ∃ row ∈ relationship.rows, rows = [row]
  | .both, relationship, rows => rows = relationship.rows

/-- A line of a file, without its end, for a row. -/
structure WritesRow (format : AsFormat) (line : List Char) (row : Row) : Prop where
  tokens : rowText format row = some (tokenize (line ++ ['\n']))
  oneLine : '\n' ∉ line
  fits : line.length ≤ 78
  noComment : line.head? ≠ some '#'

/-- The file writes the graph. -/
structure Writes (format : AsFormat) (directions : Directions) (graph : AsGraph) (file : List Char) : Prop where
  intro ::
  written : ∃ (lines : List (List Char)) (rows : List Row) (groups : List (List Row)),
    file = lines.flatMap (fun line => line ++ ['\n']) ∧ List.Forall₂ (WritesRow format) lines rows ∧
      rows.Perm groups.flatten ∧ List.Forall₂ (Describes directions) graph.relationships groups

/-- The topologies have the same domains and the same links. -/
def SameTopo (topo topo' : AsTopo) : Prop :=
  (∀ a, (topo.domain a).isSome = (topo'.domain a).isSome) ∧
    ∀ a b, linkType topo a b = linkType topo' a b

/-! ## Reading lines -/

theorem fgets_line {size : ℕ} {line rest : List Char} (oneLine : '\n' ∉ line) (fits : line.length < size) :
    fgets size (line ++ '\n' :: rest) = (line ++ ['\n'], rest) := by
  induction line generalizing size with
  | nil =>
    obtain ⟨size, rfl⟩ := Nat.exists_eq_succ_of_ne_zero (Nat.ne_of_gt fits)
    simp [fgets]
  | cons c line inductionHypothesis =>
    obtain ⟨size, rfl⟩ := Nat.exists_eq_succ_of_ne_zero (Nat.ne_of_gt (Nat.zero_lt_of_lt fits))
    simp only [List.mem_cons, not_or] at oneLine
    have shorter : line.length < size := by
      simpa using fits
    simp [fgets, Ne.symm oneLine.1, inductionHypothesis oneLine.2 shorter]

theorem fileLines_lines {lines : List (List Char)} {fuel : ℕ}
    (enough : (lines.flatMap fun line => line ++ ['\n']).length ≤ fuel)
    (short : ∀ line ∈ lines, '\n' ∉ line ∧ line.length ≤ 78) :
    fileLines fuel (lines.flatMap fun line => line ++ ['\n']) =
      lines.map fun line => line ++ ['\n'] := by
  induction lines generalizing fuel with
  | nil => cases fuel <;> rfl
  | cons line lines inductionHypothesis =>
    obtain ⟨oneLine, fits⟩ := short line List.mem_cons_self
    simp only [List.flatMap_cons, List.append_assoc, List.cons_append, List.nil_append,
      List.length_append, List.length_cons, List.map_cons] at enough ⊢
    cases fuel with
    | zero => omega
    | succ fuel =>
      have read : fgets 79 (line ++ '\n' :: lines.flatMap fun line => line ++ ['\n']) =
          (line ++ ['\n'], lines.flatMap fun line => line ++ ['\n']) :=
        fgets_line oneLine (Nat.lt_succ_of_le fits)
      rw [fileLines, if_neg (by simp), read]
      rw [inductionHypothesis (by omega) fun line member => short line (List.mem_cons_of_mem _ member)]

/-! ## Domains and links -/

/-- The topology has these domains and these links, and its cache leads to domains it has. -/
structure Loaded (topo : AsTopo) (asns : List Asn) (rows : List Row) : Prop where
  cache : ∀ a, topo.cachedDomains.1 = some a ∨ topo.cachedDomains.2 = some a → (topo.domain a).isSome
  domains : ∀ a, (topo.domain a).isSome ↔ a ∈ asns
  links : ∀ a b type, linkType topo a b = some type ↔ ⟨a, b, type⟩ ∈ rows

theorem loaded_create : Loaded aslevelTopoCreate [] [] where
  cache a cached := by
    rcases cached with cached | cached <;> cases cached
  domains a := by
    simp [AsTopo.domain, aslevelTopoCreate]
  links a b type := by
    simp [linkType, AsTopo.domain, aslevelTopoCreate]

theorem Loaded.cacheUpdate {topo : AsTopo} {asns : List Asn} {rows : List Row}
    (loaded : Loaded topo asns rows) {asn : Asn} (known : (topo.domain asn).isSome) :
    Loaded (aslevelTopoCacheUpdateAs topo asn) asns rows where
  cache a cached := by
    rcases cached with cached | cached
    · exact loaded.cache a (.inr cached)
    · cases cached
      exact known
  domains := loaded.domains
  links := loaded.links

theorem Loaded.cacheLookup {topo : AsTopo} {asns : List Asn} {rows : List Row}
    (loaded : Loaded topo asns rows) {asn : Asn} (hit : aslevelTopoCacheLookupAs topo asn) :
    (topo.domain asn).isSome := by
  unfold aslevelTopoCacheLookupAs at hit
  split at hit
  · cases hit
  next older latest cached =>
    simp only [Bool.or_eq_true, decide_eq_true_eq] at hit
    rcases hit with rfl | rfl
    · exact loaded.cache _ (.inr (by rw [cached]))
    · exact loaded.cache _ (.inl (by rw [cached]))

/-- A known ASN can be listed once more. -/
theorem Loaded.again {topo : AsTopo} {asns : List Asn} {rows : List Row}
    (loaded : Loaded topo asns rows) {asn : Asn} (known : (topo.domain asn).isSome) :
    Loaded topo (asn :: asns) rows where
  cache := loaded.cache
  domains a := by
    rw [loaded.domains, List.mem_cons]
    constructor
    · exact .inr
    · rintro (rfl | member)
      · exact (loaded.domains _).mp known
      · exact member
  links := loaded.links

theorem domain_addAs {topo topo' : AsTopo} {asn : Asn} (added : aslevelTopoAddAs topo asn = some topo')
    (a : Asn) :
    topo'.domain a = if a = asn then some (aslevelAsCreate asn) else topo.domain a := by
  unfold aslevelTopoAddAs at added
  split at added
  · cases added
  next domains inserted =>
    cases added
    have found := SortedArray.find_add inserted a.toNat
    simp only [AsDomain.key, aslevelAsCreate, UInt16.toNat_inj] at found
    exact found

theorem getOrAddAs_loaded {topo : AsTopo} {asns : List Asn} {rows : List Row}
    (loaded : Loaded topo asns rows) (asn : Asn) :
    ∃ topo', getOrAddAs topo asn = (.success, topo') ∧ Loaded topo' (asn :: asns) rows := by
  unfold getOrAddAs aslevelTopoGetAs
  by_cases hit : aslevelTopoCacheLookupAs topo asn
  · exact ⟨topo, by simp [hit], loaded.again (loaded.cacheLookup hit)⟩
  · cases found : topo.domain asn with
    | some d =>
      have known : (topo.domain asn).isSome := by simp [found]
      exact ⟨_, by simp [hit], (loaded.cacheUpdate known).again known⟩
    | none =>
      -- a new domain, without links
      obtain ⟨domains, inserted⟩ := (SortedArray.add_isSome (a := aslevelAsCreate asn)).mpr found
      have added : aslevelTopoAddAs topo asn =
          some (aslevelTopoCacheUpdateAs { topo with domains := domains } asn) := by
        simp only [aslevelTopoAddAs, inserted]
      have lookup := domain_addAs added
      refine ⟨aslevelTopoCacheUpdateAs { topo with domains := domains } asn, by simp [hit, added], ?_, ?_, ?_⟩
      · intro a cached
        rw [lookup]
        split
        · rfl
        next differ =>
          rcases cached with cached | cached
          · exact loaded.cache a (.inr cached)
          · exact absurd (Option.some.inj cached).symm differ
      · intro a
        rw [lookup, List.mem_cons, ← loaded.domains]
        split
        next same => simp [same]
        next differ => simp [differ]
      · intro a b type
        rw [← loaded.links, linkType, lookup]
        split
        next same =>
          subst same
          simp [linkType, found, aslevelAsCreate, aslevelAsGetLink]
        next => rfl

theorem rowDomains_loaded {topo : AsTopo} {asns : List Asn} {rows : List Row}
    (loaded : Loaded topo asns rows) (asn1 asn2 : Asn) :
    ∃ topo', rowDomains topo asn1 asn2 = (.success, topo') ∧
      Loaded topo' (asn2 :: asn1 :: asns) rows := by
  obtain ⟨topo1, first, loaded1⟩ := getOrAddAs_loaded loaded asn1
  obtain ⟨topo2, second, loaded2⟩ := getOrAddAs_loaded loaded1 asn2
  exact ⟨topo2, by simp only [rowDomains, first, second], loaded2⟩

/-- Adding a link to a domain that lacks it. -/
theorem aslevelAsAddLink_ok {d : AsDomain} {b : Asn} (type : PeerType) (noLoop : d.asn ≠ b)
    (fresh : aslevelAsGetLink d b = none) :
    ∃ d', aslevelAsAddLink d b type = .ok d' ∧ d'.asn = d.asn ∧
      ∀ c, aslevelAsGetLink d' c = if c = b then some ⟨b, type⟩ else aslevelAsGetLink d c := by
  obtain ⟨neighbors, added⟩ := (SortedArray.add_isSome (a := (⟨b, type⟩ : AsLink))).mpr fresh
  unfold aslevelAsAddLink
  rw [dif_neg noLoop]
  split
  next failed =>
    rw [added] at failed
    cases failed
  next neighbors' added' =>
    refine ⟨_, rfl, rfl, fun c => ?_⟩
    have found := SortedArray.find_add added' c.toNat
    simp only [AsLink.key, UInt16.toNat_inj] at found
    exact found

theorem addLink_loaded {topo : AsTopo} {asns : List Asn} {rows : List Row}
    (loaded : Loaded topo asns rows) (row : Row) (known : row.asn1 ∈ asns)
    (noLoop : row.asn1 ≠ row.asn2)
    (fresh : ∀ other ∈ rows, ¬ (other.asn1 = row.asn1 ∧ other.asn2 = row.asn2)) :
    ∃ topo', addLink (.success, topo) row.asn1 row.asn2 row.peerType = .ok (.success, topo') ∧
      Loaded topo' asns (row :: rows) := by
  obtain ⟨d, found⟩ := Option.isSome_iff_exists.mp ((loaded.domains _).mpr known)
  have dAsn := (domain_eq_some.mp found).2
  have lacks : aslevelAsGetLink d row.asn2 = none := by
    cases link : aslevelAsGetLink d row.asn2 with
    | none => rfl
    | some old =>
      have typed : linkType topo row.asn1 row.asn2 = some old.peerType := by
        simp [linkType, found, link]
      exact absurd ⟨rfl, rfl⟩ (fresh _ ((loaded.links _ _ _).mp typed))
  obtain ⟨d', added, dAsn', lookup⟩ := aslevelAsAddLink_ok row.peerType (dAsn ▸ noLoop) lacks
  have domains : ∀ a, (topo.setDomain d').domain a = if a = row.asn1 then some d' else topo.domain a := by
    intro a
    rw [domain_setDomain, dAsn', dAsn]
    split
    next same => rw [same, found, Option.map_some]
    next => rfl
  have sameDomains : ∀ a, ((topo.setDomain d').domain a).isSome = (topo.domain a).isSome := by
    intro a
    rw [domains]
    split
    next same => rw [same, found]; rfl
    next => rfl
  refine ⟨topo.setDomain d', by simp [addLink, found, added], ?_, ?_, ?_⟩
  · intro a cached
    rw [sameDomains]
    exact loaded.cache a cached
  · intro a
    rw [sameDomains]
    exact loaded.domains a
  · intro a b type
    rw [List.mem_cons, ← loaded.links, linkType, domains]
    by_cases same : a = row.asn1
    · subst same
      rw [if_pos rfl, Option.bind_some, lookup]
      by_cases target : b = row.asn2
      · -- the new link, in the place of none
        subst target
        have old : linkType topo row.asn1 row.asn2 = none := by
          simp [linkType, found, lacks]
        simp only [if_true, old, Option.map_some, Option.some.injEq, reduceCtorEq, or_false]
        constructor
        · rintro rfl
          rfl
        · intro equal
          exact (congrArg Row.peerType equal).symm
      · rw [if_neg target, linkType, found]
        constructor
        · exact .inr
        · rintro (equal | typed)
          · exact absurd (congrArg Row.asn2 equal) target
          · exact typed
    · rw [if_neg same]
      constructor
      · exact .inr
      · rintro (equal | typed)
        · exact absurd (congrArg Row.asn1 equal) same
        · exact typed

/-! ## Rows -/

/-- The links a parser adds for a row. -/
def rowLinks : AsFormat → Row → List Row
  | .rexford, row => [row, row.reverse]
  | .caida, row => [row]
  | .meulle, row => [row]

/-- The domains of a row. -/
def Row.ends (row : Row) : List Asn := [row.asn1, row.asn2]

/-- The rows are about different pairs, taken in order. -/
def Row.Apart (row row' : Row) : Prop := ¬ (row.asn1 = row'.asn1 ∧ row.asn2 = row'.asn2)

theorem Row.Apart.symm {row row' : Row} (apart : row.Apart row') : row'.Apart row :=
  fun same => apart ⟨same.1.symm, same.2.symm⟩

theorem str2asn_digits (numerals : Numerals) (asn : Asn) :
    str2asn numerals (Nat.toDigits 10 asn.toNat) = some asn := by
  have small : asn.toNat < 65536 := asn.toNat_lt
  have notAbove : ¬ asn.toNat > maxAs := Nat.not_lt.mpr small.le
  simp only [str2asn, numerals.asUint_decimal asn.toNat (by omega), if_neg notAbove]
  simp

/-- Getting the domains of a row and adding its link. -/
theorem rowLink_loaded {topo : AsTopo} {asns : List Asn} {rows : List Row}
    (loaded : Loaded topo asns rows) {row : Row} (noLoop : row.asn1 ≠ row.asn2)
    (fresh : ∀ other ∈ rows, other.Apart row) :
    ∃ topo', addLink (rowDomains topo row.asn1 row.asn2) row.asn1 row.asn2 row.peerType =
        .ok (.success, topo') ∧
      Loaded topo' (row.asn2 :: row.asn1 :: asns) (row :: rows) := by
  obtain ⟨topo1, known, loaded1⟩ := rowDomains_loaded loaded row.asn1 row.asn2
  rw [known]
  exact addLink_loaded loaded1 row (by simp) noLoop fresh

theorem rexfordRow_loaded (numerals : Numerals) {topo : AsTopo} {asns : List Asn} {rows : List Row}
    (loaded : Loaded topo asns rows) {row : Row} {tokens : List (List Char)}
    (text : rowText .rexford row = some tokens) (noLoop : row.asn1 ≠ row.asn2)
    (fresh : ∀ new ∈ rowLinks .rexford row, ∀ other ∈ rows, other.Apart new) :
    ∃ topo', rexfordRow numerals topo tokens = .ok (.success, topo') ∧
      Loaded topo' (row.asn2 :: row.asn1 :: asns) (row.reverse :: row :: rows) := by
  obtain ⟨topo2, added, loaded2⟩ := rowLink_loaded loaded noLoop (fresh row (by simp [rowLinks]))
  have freshReverse : ∀ other ∈ row :: rows, other.Apart row.reverse := by
    intro other member
    rcases List.mem_cons.mp member with rfl | old
    · exact fun same => noLoop same.1
    · exact fresh _ (by simp [rowLinks]) other old
  obtain ⟨topo3, added', loaded3⟩ := addLink_loaded loaded2 row.reverse (by simp [Row.reverse])
    (fun same => noLoop same.symm) freshReverse
  refine ⟨topo3, ?_, loaded3⟩
  obtain ⟨asn1, asn2, type⟩ := row
  have one : numerals.asUint ['1'] = some 1 := numerals.asUint_decimal 1 (by decide)
  have zero : numerals.asUint ['0'] = some 0 := numerals.asUint_decimal 0 (by decide)
  have linked : (do
      let state ← addLink (rowDomains topo asn1 asn2) asn1 asn2 type
      addLink state asn2 asn1 (aslevelReverseRelation type)) =
        (.ok (.success, topo3) : RowResult) :=
    (congrArg (· >>= fun state => addLink state asn2 asn1 (aslevelReverseRelation type)) added).trans added'
  -- only rows to customers and to peers can be written
  cases type with
  | customer =>
    cases text
    simp only [rexfordRow, asnText, str2asn_digits, one]
    exact linked
  | peer =>
    cases text
    simp only [rexfordRow, asnText, str2asn_digits, zero]
    exact linked
  | provider => cases text
  | sibling => cases text

theorem caidaRow_text (numerals : Numerals) (topo : AsTopo) {row : Row} {tokens : List (List Char)}
    (text : rowText .caida row = some tokens) :
    caidaRow numerals topo tokens =
      addLink (rowDomains topo row.asn1 row.asn2) row.asn1 row.asn2 row.peerType := by
  obtain ⟨asn1, asn2, type⟩ := row
  have two : numerals.asInt ['2'] = some 2 := numerals.asInt_decimal 2 (by decide)
  have one : numerals.asInt ['1'] = some 1 := numerals.asInt_decimal 1 (by decide)
  have zero : numerals.asInt ['0'] = some 0 := numerals.asInt_decimal 0 (by decide)
  have minusOne : numerals.asInt ['-', '1'] = some (-1) := numerals.asInt_negative 1 (by decide)
  cases type <;> cases text <;>
    simp only [caidaRow, asnText, str2asn_digits, one, zero, minusOne, two, Option.bind_some,
      caidaRelationToPeerType]

theorem meulleRow_text (numerals : Numerals) (topo : AsTopo) {row : Row} {tokens : List (List Char)}
    (text : rowText .meulle row = some tokens) :
    meulleRow numerals topo tokens =
      addLink (rowDomains topo row.asn1 row.asn2) row.asn1 row.asn2 row.peerType := by
  obtain ⟨asn1, asn2, type⟩ := row
  cases type <;> cases text <;>
    simp [meulleRow, asnText, meulleAsn, str2asn_digits, meulleRelation]

/-- What a row of a file adds to the topology. -/
theorem row_loaded (numerals : Numerals) (format : AsFormat) {topo : AsTopo} {asns : List Asn}
    {rows : List Row} (loaded : Loaded topo asns rows) {row : Row} {tokens : List (List Char)}
    (text : rowText format row = some tokens) (noLoop : row.asn1 ≠ row.asn2)
    (fresh : ∀ new ∈ rowLinks format row, ∀ other ∈ rows, other.Apart new) :
    ∃ topo', format.row numerals topo tokens = .ok (.success, topo') ∧
      Loaded topo' (row.ends.reverse ++ asns) ((rowLinks format row).reverse ++ rows) := by
  cases format with
  | rexford => exact rexfordRow_loaded numerals loaded text noLoop fresh
  | caida =>
    obtain ⟨topo', added, loaded'⟩ := rowLink_loaded loaded noLoop (fresh row (by simp [rowLinks]))
    exact ⟨topo', (caidaRow_text numerals topo text).trans added, loaded'⟩
  | meulle =>
    obtain ⟨topo', added, loaded'⟩ := rowLink_loaded loaded noLoop (fresh row (by simp [rowLinks]))
    exact ⟨topo', (meulleRow_text numerals topo text).trans added, loaded'⟩

/-- The loop over the lines of a file. -/
theorem parseLines_loaded (numerals : Numerals) (format : AsFormat) {lines : List (List Char)}
    {rows : List Row} (written : List.Forall₂ (WritesRow format) lines rows) {topo : AsTopo}
    {asns : List Asn} {old : List Row} (loaded : Loaded topo asns old) (lineNumber : ℕ)
    (noLoop : ∀ row ∈ rows, row.asn1 ≠ row.asn2)
    (fresh : ∀ new ∈ rows.flatMap (rowLinks format), ∀ other ∈ old, other.Apart new)
    (apart : (rows.flatMap (rowLinks format)).Pairwise Row.Apart) :
    ∃ last topo', parseLines (format.row numerals) (lines.map fun line => line ++ ['\n']) lineNumber topo =
        .ok (.success, last, topo') ∧
      Loaded topo' ((rows.flatMap Row.ends).reverse ++ asns)
        ((rows.flatMap (rowLinks format)).reverse ++ old) := by
  -- by induction on the lines, for any links and domains already there
  induction written generalizing topo asns old lineNumber with
  | nil => exact ⟨lineNumber, topo, rfl, loaded⟩
  | @cons line row lines rows first _ inductionHypothesis =>
    rw [List.flatMap_cons, List.pairwise_append] at apart
    obtain ⟨_, apartRest, apartFirst⟩ := apart
    obtain ⟨topo1, parsed, loaded1⟩ := row_loaded numerals format loaded first.tokens
      (noLoop row List.mem_cons_self) fun new member other old =>
        fresh new (by rw [List.flatMap_cons]; exact List.mem_append_left _ member) other old
    have freshRest : ∀ new ∈ rows.flatMap (rowLinks format),
        ∀ other ∈ (rowLinks format row).reverse ++ old, other.Apart new := by
      intro new member other memberOther
      rcases List.mem_append.mp memberOther with recent | before
      · exact apartFirst other (List.mem_reverse.mp recent) new member
      · exact fresh new (by rw [List.flatMap_cons]; exact List.mem_append_right _ member) other before
    obtain ⟨last, topo', looped, loaded'⟩ := inductionHypothesis loaded1 (lineNumber + 1)
      (fun row member => noLoop row (List.mem_cons_of_mem _ member)) freshRest apartRest
    refine ⟨last, topo', ?_, ?_⟩
    · have noComment : (line ++ ['\n']).head? ≠ some '#' := by
        have start := first.noComment
        cases line with
        | nil => decide
        | cons c line => exact start
      simp only [List.map_cons, parseLines, if_neg noComment, parsed]
      exact looped
    · simpa [List.append_assoc] using loaded'

/-! ## Graphs -/

theorem AsGraph.rows_apart (graph : AsGraph) : graph.rows.Pairwise Row.Apart := by
  rw [AsGraph.rows, List.pairwise_flatMap]
  refine ⟨fun relationship member => ?_, graph.onePerPair.imp fun apart row inside row' inside' =>
    apart row inside row' inside'⟩
  rw [Relationship.rows, List.pairwise_pair]
  exact fun same => graph.noSelf relationship member same.1

theorem AsGraph.rows_noSelf (graph : AsGraph) {row : Row} (member : row ∈ graph.rows) :
    row.asn1 ≠ row.asn2 := by
  obtain ⟨relationship, inside, described⟩ := List.mem_flatMap.mp member
  have noSelf := graph.noSelf relationship inside
  simp only [Relationship.rows, List.mem_cons, List.not_mem_nil, or_false] at described
  rcases described with rfl | rfl
  · exact noSelf
  · exact noSelf.symm

/-- The links added for the rows of a relationship are its links. -/
theorem Describes.perm {format : AsFormat} {relationship : Relationship} {rows : List Row}
    (described : Describes (formatDirections format) relationship rows) :
    (rows.flatMap (rowLinks format)).Perm relationship.rows := by
  cases format with
  | rexford =>
    obtain ⟨row, member, rfl⟩ := described
    simp only [Relationship.rows, List.mem_cons, List.not_mem_nil, or_false] at member
    rcases member with rfl | rfl
    · exact List.Perm.refl _
    · simp only [List.flatMap_cons, rowLinks, List.flatMap_nil, List.append_nil, Row.reverse_reverse]
      exact List.Perm.swap _ _ _
  | caida =>
    cases described
    exact List.Perm.refl _
  | meulle =>
    cases described
    exact List.Perm.refl _

theorem described_perm {format : AsFormat} {relationships : List Relationship} {groups : List (List Row)}
    (described : List.Forall₂ (Describes (formatDirections format)) relationships groups) :
    (groups.flatten.flatMap (rowLinks format)).Perm (relationships.flatMap Relationship.rows) := by
  induction described with
  | nil => exact List.Perm.refl _
  | cons first _ inductionHypothesis =>
    rw [List.flatten_cons, List.flatMap_append, List.flatMap_cons]
    exact first.perm.append inductionHypothesis

section Described

variable {format : AsFormat} {directions : Directions} {relationship : Relationship} {rows : List Row}
  {relationships : List Relationship} {groups : List (List Row)}

/-- The links added for the rows of a relationship are among its links. -/
theorem Describes.subperm (fits : format = .rexford → directions = .one)
    (described : Describes directions relationship rows) :
    (rows.flatMap (rowLinks format)).Subperm relationship.rows := by
  by_cases complete : directions = formatDirections format
  · subst complete
    exact described.perm.subperm
  · -- one of the two rows, and one link for it
    have single : directions = .one ∧ format ≠ .rexford := by
      cases format <;> cases directions <;> simp_all [formatDirections]
    obtain ⟨rfl, other⟩ := single
    obtain ⟨row, member, rfl⟩ := described
    cases format with
    | rexford => exact absurd rfl other
    | caida | meulle => exact List.singleton_subperm_iff.mpr member

theorem described_subperm (fits : format = .rexford → directions = .one)
    (described : List.Forall₂ (Describes directions) relationships groups) :
    (groups.flatten.flatMap (rowLinks format)).Subperm (relationships.flatMap Relationship.rows) := by
  induction described with
  | nil => exact List.Subperm.refl _
  | cons first _ inductionHypothesis =>
    rw [List.flatten_cons, List.flatMap_append, List.flatMap_cons]
    exact ((List.subperm_append_right _).mpr (first.subperm fits)).trans
      ((List.subperm_append_left _).mpr inductionHypothesis)

/-- The rows of a group are links of the relationship it describes. -/
theorem Describes.subset (described : Describes directions relationship rows) : rows ⊆ relationship.rows := by
  cases directions with
  | one =>
    obtain ⟨row, member, rfl⟩ := described
    simpa using member
  | both =>
    cases described
    exact List.Subset.refl _

theorem described_subset (described : List.Forall₂ (Describes directions) relationships groups) :
    groups.flatten ⊆ relationships.flatMap Relationship.rows := by
  induction described with
  | nil => exact List.Subset.refl _
  | cons first _ inductionHypothesis =>
    rw [List.flatten_cons, List.flatMap_cons]
    exact List.append_subset.mpr
      ⟨List.subset_append_of_subset_left _ first.subset,
        List.subset_append_of_subset_right _ inductionHypothesis⟩

end Described

/-- A file that writes a graph is parsed; the topology has the links of its rows, and the load ends
with the consistency check. -/
theorem aslevelTopoLoad_writes (numerals : Numerals) {format : AsFormat} {directions : Directions}
    (fits : format = .rexford → directions = .one) {graph : AsGraph} {file : List Char}
    (writes : Writes format directions graph file) :
    ∃ (topo : AsTopo) (groups : List (List Row)),
      List.Forall₂ (Describes directions) graph.relationships groups ∧
      (∀ a, (topo.domain a).isSome ↔ a ∈ groups.flatten.flatMap Row.ends) ∧
      (∀ a b type, linkType topo a b = some type ↔
        ⟨a, b, type⟩ ∈ groups.flatten.flatMap (rowLinks format)) ∧
      aslevelTopoLoad numerals format file =
        (aslevelTopoCheckConsistency topo).map fun result => (result, some topo) := by
  obtain ⟨lines, rows, groups, rfl, written, order, described⟩ := writes.written
  have links : (rows.flatMap (rowLinks format)).Perm (groups.flatten.flatMap (rowLinks format)) :=
    order.flatMap_right _
  have ends : (rows.flatMap Row.ends).Perm (groups.flatten.flatMap Row.ends) := order.flatMap_right _
  have apart : (rows.flatMap (rowLinks format)).Pairwise Row.Apart := by
    obtain ⟨part, same, sub⟩ := described_subperm fits described
    have partApart : part.Pairwise Row.Apart := graph.rows_apart.sublist sub
    exact ((same.trans links.symm).pairwise_iff Row.Apart.symm).mp partApart
  have noLoop : ∀ row ∈ rows, row.asn1 ≠ row.asn2 := fun row member =>
    graph.rows_noSelf (described_subset described (order.subset member))
  obtain ⟨last, topo, parsed, loaded⟩ := parseLines_loaded numerals format written loaded_create 0 noLoop
    (fun _ _ _ none' => nomatch none') apart
  refine ⟨topo, groups, described, fun a => ?_, fun a b type => ?_, ?_⟩
  · rw [loaded.domains, List.append_nil, List.mem_reverse, ends.mem_iff]
  · rw [loaded.links, List.append_nil, List.mem_reverse, links.mem_iff]
  · have short : ∀ line ∈ lines, '\n' ∉ line ∧ line.length ≤ 78 := by
      have each : List.Forall₂ (fun line row => ('\n' ∉ line ∧ line.length ≤ 78) ∧
          WritesRow format line row) lines rows :=
        written.imp fun line row writesRow => ⟨⟨writesRow.oneLine, writesRow.fits⟩, writesRow⟩
      exact ((List.forall₂_and_left _ _).mp each).1
    unfold aslevelTopoLoad
    rw [fileLines_lines (Nat.le_refl _) short, parsed]
    simp only [bind, Except.bind, ne_eq, not_true_eq_false, if_false]
    cases aslevelTopoCheckConsistency topo <;> rfl

/-- The links of a row are between its ends. -/
theorem mem_ends_rowLinks {format : AsFormat} {rows : List Row} {a : Asn} :
    a ∈ (rows.flatMap (rowLinks format)).flatMap Row.ends ↔ a ∈ rows.flatMap Row.ends := by
  have each : ∀ row : Row, a ∈ (rowLinks format row).flatMap Row.ends ↔ a ∈ row.ends := by
    intro row
    cases format <;> simp [rowLinks, Row.ends, Row.reverse]
    tauto
  simp only [List.flatMap_assoc, List.mem_flatMap] at each ⊢
  simp only [each]

/-- The topology has the domains and the links of the graph. -/
structure Represents (topo : AsTopo) (graph : AsGraph) : Prop where
  domains : ∀ a, (topo.domain a).isSome ↔ a ∈ graph.rows.flatMap Row.ends
  links : ∀ a b type, linkType topo a b = some type ↔ ⟨a, b, type⟩ ∈ graph.rows

theorem Represents.sameTopo {topo topo' : AsTopo} {graph : AsGraph} (represents : Represents topo graph)
    (represents' : Represents topo' graph) : SameTopo topo topo' := by
  constructor
  · intro a
    rw [Bool.eq_iff_iff, represents.domains, represents'.domains]
  · intro a b
    apply Option.ext
    intro type
    rw [represents.links, represents'.links]

theorem Represents.mutualLinks {topo : AsTopo} {graph : AsGraph} (represents : Represents topo graph) :
    MutualLinks topo := by
  intro a b type typed
  obtain ⟨relationship, inside, member⟩ := List.mem_flatMap.mp ((represents.links a b type).mp typed)
  exact (represents.links b a _).mpr
    (List.mem_flatMap.mpr ⟨relationship, inside, Relationship.reverse_mem_rows member⟩)

/-- A graph written with the directions of the format is loaded as it is. -/
theorem aslevelTopoLoad_represents (numerals : Numerals) {format : AsFormat} {graph : AsGraph} {file : List Char}
    (writes : Writes format (formatDirections format) graph file) :
    ∃ topo, aslevelTopoLoad numerals format file = .ok (.success, some topo) ∧
      Represents topo graph := by
  have fits : format = .rexford → formatDirections format = .one := by
    rintro rfl
    rfl
  obtain ⟨topo, groups, described, domains, links, loaded⟩ := aslevelTopoLoad_writes numerals fits writes
  have same := described_perm described
  have represents : Represents topo graph := by
    constructor
    · intro a
      rw [domains, ← mem_ends_rowLinks, (same.flatMap_right Row.ends).mem_iff]
      rfl
    · intro a b type
      rw [links, same.mem_iff]
      rfl
  refine ⟨topo, ?_, represents⟩
  rw [loaded, aslevelTopoCheckConsistency_iff.mpr represents.mutualLinks]
  rfl

/-- The rows of two relationships, or a row and its reverse, do not meet in a file with one direction only. -/
theorem one_direction {relationships : List Relationship} {groups : List (List Row)}
    (described : List.Forall₂ (Describes .one) relationships groups)
    (onePerPair : relationships.Pairwise fun r r' =>
      ∀ row ∈ r.rows, ∀ row' ∈ r'.rows, ¬ (row.asn1 = row'.asn1 ∧ row.asn2 = row'.asn2)) :
    groups.flatten.Pairwise fun row row' => row.reverse.Apart row' := by
  induction described with
  | nil => exact List.Pairwise.nil
  | cons first rest inductionHypothesis =>
    obtain ⟨row, member, rfl⟩ := first
    rw [List.pairwise_cons] at onePerPair
    rw [List.flatten_cons, List.singleton_append, List.pairwise_cons]
    refine ⟨fun row' member' => ?_, inductionHypothesis onePerPair.2⟩
    obtain ⟨relationship', inside, described'⟩ := List.mem_flatMap.mp (described_subset rest member')
    exact onePerPair.1 relationship' inside _ (Relationship.reverse_mem_rows member) row' described'

/-- A graph with a link that is written in the Meulle format in one direction only does not pass the consistency
check. -/
theorem aslevelTopoLoad_meulle_one (numerals : Numerals) {graph : AsGraph} {file : List Char}
    (writes : Writes .meulle .one graph file) (linked : graph.relationships ≠ []) (topo' : AsTopo) :
    aslevelTopoLoad numerals .meulle file ≠ .ok (.success, some topo') := by
  obtain ⟨topo, groups, described, _, links, loaded⟩ := aslevelTopoLoad_writes numerals (by simp) writes
  have oneWay := one_direction described graph.onePerPair
  have noSelf : ∀ row ∈ groups.flatten, row.asn1 ≠ row.asn2 := fun row member =>
    graph.rows_noSelf (described_subset described member)
  have single : groups.flatten.flatMap (rowLinks .meulle) = groups.flatten := List.flatMap_singleton' _
  rw [single] at links
  intro success
  rw [loaded] at success
  have mutualLinks : MutualLinks topo := by
    rw [← aslevelTopoCheckConsistency_iff]
    cases checked : aslevelTopoCheckConsistency topo with
    | error fault =>
      rw [checked] at success
      cases success
    | ok result =>
      rw [checked] at success
      cases success
      rfl
  -- the first row and its reverse are both links
  revert linked described
  generalize graph.relationships = relationships
  intro linked described
  cases described with
  | nil => exact linked rfl
  | @cons relationship group relationships groups first rest =>
    obtain ⟨row, member, rfl⟩ := first
    have present : row ∈ ([row] :: groups).flatten := by simp
    have back := (links _ _ _).mp (mutualLinks _ _ _ ((links _ _ _).mpr present))
    have apart : row.reverse ≠ row := fun same =>
      noSelf row present (congrArg Row.asn2 same)
    have rest' : row.reverse ∈ groups.flatten := by
      have either : row.reverse ∈ row :: groups.flatten := back
      exact (List.mem_cons.mp either).resolve_left apart
    rw [List.flatten_cons, List.singleton_append, List.pairwise_cons] at oneWay
    exact oneWay.1 row.reverse rest' ⟨rfl, rfl⟩

/-! ## The formats compared -/

/-- The three files are loaded, with the same domains and links. -/
def FormatsAgree (numerals : Numerals) (rexford caida meulle : List Char) : Prop :=
  ∃ topo topo' topo'', aslevelTopoLoad numerals .rexford rexford = .ok (.success, some topo) ∧
    aslevelTopoLoad numerals .caida caida = .ok (.success, some topo') ∧
    aslevelTopoLoad numerals .meulle meulle = .ok (.success, some topo'') ∧
    SameTopo topo topo' ∧ SameTopo topo topo''

/-- The formats are equivalent: a graph written with one row for each pair in the Rexford format, and with one row for
each direction in the CAIDA and in the Meulle format. -/
theorem formats_agree (numerals : Numerals) {graph : AsGraph} {rexford caida meulle : List Char}
    (writesRexford : Writes .rexford .one graph rexford) (writesCaida : Writes .caida .both graph caida)
    (writesMeulle : Writes .meulle .both graph meulle) : FormatsAgree numerals rexford caida meulle := by
  obtain ⟨topo, loaded, represents⟩ := aslevelTopoLoad_represents numerals writesRexford
  obtain ⟨topo', loaded', represents'⟩ := aslevelTopoLoad_represents numerals writesCaida
  obtain ⟨topo'', loaded'', represents''⟩ := aslevelTopoLoad_represents numerals writesMeulle
  exact ⟨topo, topo', topo'', loaded, loaded', loaded'', represents.sameTopo represents',
    represents.sameTopo represents''⟩

/-- Decimal numbers, with a sign or without. -/
def decimalNumerals : Numerals where
  asUint str :=
    if str.all Char.isDigit ∧ Nat.ofDigitChars 10 str 0 < 2 ^ 32 then some (Nat.ofDigitChars 10 str 0)
    else none
  asInt str :=
    match str with
    | '-' :: digits => if digits.all Char.isDigit then some (-(Nat.ofDigitChars 10 digits 0 : ℤ)) else none
    | digits => if digits.all Char.isDigit then some (Nat.ofDigitChars 10 digits 0 : ℤ) else none
  asUint_decimal n small := by
    have digits : (Nat.toDigits 10 n).all Char.isDigit := by
      rw [List.all_eq_true]
      exact fun c member => Nat.isDigit_of_mem_toDigits (by decide) (by decide) member
    rw [Nat.ofDigitChars_ten_toDigits, if_pos ⟨digits, small⟩]
  asInt_decimal n _ := by
    have digits : (Nat.toDigits 10 n).all Char.isDigit := by
      rw [List.all_eq_true]
      exact fun c member => Nat.isDigit_of_mem_toDigits (by decide) (by decide) member
    split
    next rest text =>
      rw [text] at digits
      cases digits
    next => rw [Nat.ofDigitChars_ten_toDigits, if_pos digits]
  asInt_negative n _ := by
    have digits : (Nat.toDigits 10 n).all Char.isDigit := by
      rw [List.all_eq_true]
      exact fun c member => Nat.isDigit_of_mem_toDigits (by decide) (by decide) member
    simp only [digits, if_true, Nat.ofDigitChars_ten_toDigits]

/-- AS1 is the provider of AS2, and AS2 and AS3 are peers. -/
def smallGraph : AsGraph where
  relationships := [.providerCustomer 1 2, .peers 2 3]
  noSelf := by decide
  onePerPair := by decide

/-- The lines of the files, without their ends. -/
def rexfordLines : List (List Char) := ["3 2 0".toList, "1 2 1".toList]

def caidaLines : List (List Char) := ["1 2 1".toList, "2 3 0".toList, "2 1 -1".toList, "3 2 0".toList]

def meulleLines : List (List Char) :=
  ["AS1\tAS2\tP2C".toList, "AS2\tAS3\tPEER".toList, "AS2\tAS1\tC2P".toList, "AS3\tAS2\tPEER".toList]

def asFile (lines : List (List Char)) : List Char := lines.flatMap fun line => line ++ ['\n']

theorem smallGraph_rexford : Writes .rexford .one smallGraph (asFile rexfordLines) where
  written := ⟨rexfordLines, [⟨3, 2, .peer⟩, ⟨1, 2, .customer⟩], [[⟨1, 2, .customer⟩], [⟨3, 2, .peer⟩]], rfl,
    .cons ⟨by decide, by decide, by decide, by decide⟩
      (.cons ⟨by decide, by decide, by decide, by decide⟩ .nil),
    by decide, .cons ⟨_, by decide, rfl⟩ (.cons ⟨_, by decide, rfl⟩ .nil)⟩

theorem smallGraph_caida : Writes .caida .both smallGraph (asFile caidaLines) where
  written := ⟨caidaLines, [⟨1, 2, .customer⟩, ⟨2, 3, .peer⟩, ⟨2, 1, .provider⟩, ⟨3, 2, .peer⟩],
    [[⟨1, 2, .customer⟩, ⟨2, 1, .provider⟩], [⟨2, 3, .peer⟩, ⟨3, 2, .peer⟩]], rfl,
    .cons ⟨by decide, by decide, by decide, by decide⟩
      (.cons ⟨by decide, by decide, by decide, by decide⟩
        (.cons ⟨by decide, by decide, by decide, by decide⟩
          (.cons ⟨by decide, by decide, by decide, by decide⟩ .nil))),
    by decide, .cons rfl (.cons rfl .nil)⟩

theorem smallGraph_meulle : Writes .meulle .both smallGraph (asFile meulleLines) where
  written := ⟨meulleLines, [⟨1, 2, .customer⟩, ⟨2, 3, .peer⟩, ⟨2, 1, .provider⟩, ⟨3, 2, .peer⟩],
    [[⟨1, 2, .customer⟩, ⟨2, 1, .provider⟩], [⟨2, 3, .peer⟩, ⟨3, 2, .peer⟩]], rfl,
    .cons ⟨by decide, by decide, by decide, by decide⟩
      (.cons ⟨by decide, by decide, by decide, by decide⟩
        (.cons ⟨by decide, by decide, by decide, by decide⟩
          (.cons ⟨by decide, by decide, by decide, by decide⟩ .nil))),
    by decide, .cons rfl (.cons rfl .nil)⟩

theorem formats_agree_smallGraph :
    FormatsAgree decimalNumerals (asFile rexfordLines) (asFile caidaLines) (asFile meulleLines) :=
  formats_agree decimalNumerals smallGraph_rexford smallGraph_caida smallGraph_meulle

/-- AS1 is the provider of AS2. -/
def oneLink : AsGraph where
  relationships := [.providerCustomer 1 2]
  noSelf := by decide
  onePerPair := List.pairwise_singleton _ _

theorem oneLink_rexford : Writes .rexford .one oneLink (asFile ["1 2 1".toList]) where
  written := ⟨_, [⟨1, 2, .customer⟩], [[⟨1, 2, .customer⟩]], rfl,
    .cons ⟨by decide, by decide, by decide, by decide⟩ .nil, .refl _, .cons ⟨_, by decide, rfl⟩ .nil⟩

theorem oneLink_caida : Writes .caida .both oneLink (asFile ["1 2 1".toList, "2 1 -1".toList]) where
  written := ⟨_, [⟨1, 2, .customer⟩, ⟨2, 1, .provider⟩], [[⟨1, 2, .customer⟩, ⟨2, 1, .provider⟩]], rfl,
    .cons ⟨by decide, by decide, by decide, by decide⟩
      (.cons ⟨by decide, by decide, by decide, by decide⟩ .nil), .refl _, .cons rfl .nil⟩

theorem oneLink_meulle_one : Writes .meulle .one oneLink (asFile ["AS1\tAS2\tP2C".toList]) where
  written := ⟨_, [⟨1, 2, .customer⟩], [[⟨1, 2, .customer⟩]], rfl,
    .cons ⟨by decide, by decide, by decide, by decide⟩ .nil, .refl _, .cons ⟨_, by decide, rfl⟩ .nil⟩

/-- With one row for each pair in the Meulle format too, the formats are not equivalent: the parser adds the link from
the provider to its customer only, and the file is not loaded as a consistent topology. -/
theorem oneLink_formats_differ : ¬ ∀ (numerals : Numerals) (graph : AsGraph) (rexford caida meulle : List Char),
    Writes .rexford .one graph rexford → Writes .caida .both graph caida → Writes .meulle .one graph meulle →
      FormatsAgree numerals rexford caida meulle := by
  intro always
  obtain ⟨_, _, topo, _, _, loaded, _⟩ :=
    always decimalNumerals oneLink _ _ _ oneLink_rexford oneLink_caida oneLink_meulle_one
  exact aslevelTopoLoad_meulle_one decimalNumerals oneLink_meulle_one (by decide) topo loaded

end Cbgp.Verified
