import Cbgp.Verified.AsLevelFormats

/-! # Loads that fail

`aslevel_topo_load` destroys the topology when a parser reports an error, and leaves it loaded when the
consistency check does.  So a load leaves nothing behind exactly when the file is not one that is parsed
and has a link without a matching reverse one (`aslevelTopoLoadFile_leaves_nothing_iff`).
-/

namespace Cbgp.Verified

open Cbgp.Lib Cbgp.Bgp

variable {topo : AsTopo} {asns : List Asn}

/-! ## The parsers do not stop the program -/

/-- The topology has these domains, and its links and its cache lead to them. -/
def ClosedTopo (topo : AsTopo) (asns : List Asn) : Prop :=
  ∃ rows, Loaded topo asns rows ∧ ∀ row ∈ rows, row.asn2 ∈ asns

theorem closed_create : ClosedTopo aslevelTopoCreate [] :=
  ⟨[], loaded_create, fun _ member => nomatch member⟩

theorem rowDomains_closed (closed : ClosedTopo topo asns) (a b : Asn) :
    ∃ topo', rowDomains topo a b = (.success, topo') ∧ ClosedTopo topo' (b :: a :: asns) := by
  obtain ⟨rows, loaded, ends⟩ := closed
  obtain ⟨topo', known, loaded'⟩ := rowDomains_loaded loaded a b
  exact ⟨topo', known, rows, loaded', fun row member => by simp [ends row member]⟩

/-- A link that is added is new, and not one of the domain to itself. -/
theorem aslevelAsAddLink_inv {d d' : AsDomain} {b : Asn} {type : PeerType}
    (added : aslevelAsAddLink d b type = .ok d') : d.asn ≠ b ∧ aslevelAsGetLink d b = none := by
  unfold aslevelAsAddLink at added
  split at added
  · cases added
  next noLoop =>
    split at added
    · cases added
    next neighbors inserted => exact ⟨noLoop, SortedArray.add_isSome.mp ⟨neighbors, inserted⟩⟩

/-- A link is added between known domains, or an error is reported and the topology stays as it was. -/
theorem addLink_closed (closed : ClosedTopo topo asns) {a b : Asn} (hasA : a ∈ asns) (hasB : b ∈ asns)
    (before : AsLevelError) (type : PeerType) :
    ∃ error topo', addLink (before, topo) a b type = .ok (error, topo') ∧ ClosedTopo topo' asns := by
  by_cases failed : before = .success
  · subst failed
    obtain ⟨rows, loaded, ends⟩ := closed
    obtain ⟨d, found⟩ := Option.isSome_iff_exists.mp ((loaded.domains a).mpr hasA)
    cases added : aslevelAsAddLink d b type with
    | error error =>
      exact ⟨error, topo, by simp [addLink, found, added], rows, loaded, ends⟩
    | ok d' =>
      obtain ⟨noLoop, fresh⟩ := aslevelAsAddLink_inv added
      have new : ∀ other ∈ rows, ¬ (other.asn1 = a ∧ other.asn2 = b) := by
        rintro ⟨a', b', type'⟩ member ⟨rfl, rfl⟩
        have typed := (loaded.links _ _ _).mpr member
        simp [linkType, found, fresh] at typed
      obtain ⟨topo', linked, loaded'⟩ := addLink_loaded loaded ⟨a, b, type⟩ hasA
        ((domain_eq_some.mp found).2 ▸ noLoop) new
      refine ⟨.success, topo', linked, _, loaded', fun row member => ?_⟩
      rcases List.mem_cons.mp member with rfl | old
      · exact hasB
      · exact ends row old
  · exact ⟨before, topo, by rw [addLink, if_pos failed], closed⟩

theorem rowLink_closed (closed : ClosedTopo topo asns) (a b : Asn) (type : PeerType) :
    ∃ error topo', addLink (rowDomains topo a b) a b type = .ok (error, topo') ∧
      ClosedTopo topo' (b :: a :: asns) := by
  obtain ⟨topo', known, closed'⟩ := rowDomains_closed closed a b
  rw [known]
  exact addLink_closed closed' (by simp) (by simp) _ type

/-- A row of any tokens. -/
theorem row_closed (numerals : Numerals) (format : AsFormat) (closed : ClosedTopo topo asns)
    (tokens : List (List Char)) :
    ∃ error topo' asns', format.row numerals topo tokens = .ok (error, topo') ∧ ClosedTopo topo' asns' := by
  have kept : ∀ error, ∃ error' topo' asns',
      (.ok (error, topo) : RowResult) = .ok (error', topo') ∧ ClosedTopo topo' asns' :=
    fun error => ⟨error, topo, asns, rfl, closed⟩
  cases format with
  -- The one format whose line adds both directions of the link.
  | rexford =>
    simp only [AsFormat.row, rexfordRow]
    split
    · split
      next asn1 asn2 _ _ =>
        split
        · exact kept _
        next type _ =>
          split
          · exact kept _
          · split
            · exact kept _
            · obtain ⟨error, topo', added, closed'⟩ := rowLink_closed closed asn1 asn2 type
              obtain ⟨error', topo'', added', closed''⟩ := addLink_closed (a := asn2) (b := asn1) closed'
                (by simp) (by simp) error (aslevelReverseRelation type)
              exact ⟨error', topo'', _, by rw [added]; exact added', closed''⟩
      · exact kept _
    · exact kept _
  | caida =>
    simp only [AsFormat.row, caidaRow]
    split
    · split
      · split
        · exact kept _
        · obtain ⟨error, topo', added, closed'⟩ := rowLink_closed closed _ _ _
          exact ⟨error, topo', _, added, closed'⟩
      · exact kept _
    · exact kept _
  | meulle =>
    simp only [AsFormat.row, meulleRow]
    split
    · split
      · split
        · exact kept _
        · obtain ⟨error, topo', added, closed'⟩ := rowLink_closed closed _ _ _
          exact ⟨error, topo', _, added, closed'⟩
      · exact kept _
    · exact kept _

theorem parseLines_closed (numerals : Numerals) (format : AsFormat) (lines : List (List Char))
    (lineNumber : ℕ) (closed : ClosedTopo topo asns) :
    ∃ error last topo' asns', parseLines (format.row numerals) lines lineNumber topo =
      .ok (error, last, topo') ∧ ClosedTopo topo' asns' := by
  induction lines generalizing topo asns lineNumber with
  | nil => exact ⟨_, _, _, _, rfl, closed⟩
  | cons line lines inductionHypothesis =>
    by_cases comment : line.head? = some '#'
    · simp only [parseLines, if_pos comment]
      exact inductionHypothesis _ closed
    · obtain ⟨error, topo', asns', parsed, closed'⟩ := row_closed numerals format closed (tokenize line)
      simp only [parseLines, if_neg comment, parsed, bind, Except.bind]
      split
      · exact inductionHypothesis _ closed'
      · exact ⟨_, _, _, _, rfl, closed'⟩

/-! ## The consistency check does not stop the program -/

theorem checkEach_ok {β : Type} {check : β → Except AsLevelFault AsLevelError} {l : List β}
    (each : ∀ b ∈ l, ∃ error, check b = .ok error) : ∃ error, checkEach check l = .ok error := by
  induction l with
  | nil => exact ⟨_, rfl⟩
  | cons b l inductionHypothesis =>
    unfold checkEach
    split
    · exact inductionHypothesis fun c member => each c (List.mem_cons_of_mem _ member)
    · exact each b List.mem_cons_self

theorem ClosedTopo.checkConsistency (closed : ClosedTopo topo asns) :
    ∃ error, aslevelTopoCheckConsistency topo = .ok error := by
  obtain ⟨rows, loaded, ends⟩ := closed
  refine checkEach_ok fun d inside => checkEach_ok fun link member => ?_
  have typed := linkType_of_mem (domain_eq_some.mpr ⟨inside, rfl⟩) member
  have hasNeighbor := (loaded.domains _).mpr (ends _ ((loaded.links _ _ _).mp typed))
  obtain ⟨n, found⟩ := Option.isSome_iff_exists.mp hasNeighbor
  unfold checkLink
  rw [found]
  dsimp only
  split
  · exact ⟨_, rfl⟩
  · split <;> exact ⟨_, rfl⟩

/-! ## What a load leaves behind -/

/-- The file is parsed, as this topology. -/
def Parsed (numerals : Numerals) (format : Option AsFormat) (file : Option (List Char)) (topo : AsTopo) :
    Prop :=
  ∃ f text last, format = some f ∧ file = some text ∧
    parseLines (f.row numerals) (fileLines text.length text) 0 aslevelTopoCreate =
      .ok (.success, last, topo)

/-- A load that reports an error leaves no topology, so that later loads do what they do without it. -/
def LeavesNothing (numerals : Numerals) (format : Option AsFormat) (file : Option (List Char)) : Prop :=
  ∃ error left, aslevelTopoLoadFile numerals none format file = .ok (error, left) ∧
    (error ≠ .success → left = none ∧ ∀ format' file',
      aslevelTopoLoadFile numerals left format' file' = aslevelTopoLoadFile numerals none format' file')

/-- A load leaves nothing behind exactly when the file is not parsed with a link that has no reverse link
of the reversed type. -/
theorem aslevelTopoLoadFile_leaves_nothing_iff (numerals : Numerals) (format : Option AsFormat)
    (file : Option (List Char)) :
    LeavesNothing numerals format file ↔ ∀ topo, Parsed numerals format file topo → MutualLinks topo := by
  cases file with
  | none =>
    constructor
    · rintro _ topo ⟨_, _, _, _, noFile, _⟩
      cases noFile
    · intro _
      exact ⟨.openFile, none, rfl, fun _ => ⟨rfl, fun _ _ => rfl⟩⟩
  | some text =>
    cases format with
    | none =>
      constructor
      · rintro _ topo ⟨_, _, _, noFormat, _⟩
        cases noFormat
      · intro _
        exact ⟨.unknownFormat, none, rfl, fun _ => ⟨rfl, fun _ _ => rfl⟩⟩
    | some format =>
      obtain ⟨error, last, topo, asns, parsed, closed⟩ :=
        parseLines_closed numerals format (fileLines text.length text) 0 closed_create
      -- Only a file parsed to the end reaches the consistency check, which frees nothing.
      by_cases success : error = .success
      · subst success
        have only : ∀ topo', Parsed numerals (some format) (some text) topo' ↔ topo' = topo := by
          intro topo'
          constructor
          · rintro ⟨f, t, last', sameFormat, sameFile, parsed'⟩
            cases sameFormat
            cases sameFile
            rw [parsed] at parsed'
            cases parsed'
            rfl
          · rintro rfl
            exact ⟨format, text, last, rfl, rfl, parsed⟩
        obtain ⟨result, checked⟩ := closed.checkConsistency
        have loads : aslevelTopoLoadFile numerals none (some format) (some text) =
            .ok (result, some topo) := by
          simp [aslevelTopoLoadFile, aslevelTopoLoad, parsed, checked, bind, Except.bind]
        simp only [only, forall_eq, ← aslevelTopoCheckConsistency_iff, checked, Except.ok.injEq]
        constructor
        · rintro ⟨error, left, loads', nothing⟩
          rw [loads] at loads'
          cases loads'
          by_contra failed
          cases (nothing failed).1
        · rintro rfl
          exact ⟨_, _, loads, fun failed => absurd rfl failed⟩
      · constructor
        · rintro _ topo' ⟨f, t, last', sameFormat, sameFile, parsed'⟩
          cases sameFormat
          cases sameFile
          rw [parsed] at parsed'
          cases parsed'
          exact absurd rfl success
        · intro _
          refine ⟨error, none, ?_, fun _ => ⟨rfl, fun _ _ => rfl⟩⟩
          simp [aslevelTopoLoadFile, aslevelTopoLoad, parsed, success, bind, Except.bind]

/-- One direction of a link, in the CAIDA format: the load fails, and the file with both directions is
not loaded after it. -/
theorem oneWay_stays_loaded :
    ∃ topo, aslevelTopoLoadFile decimalNumerals none (some .caida)
        (some ['1', ' ', '2', ' ', '1', '\n']) = .ok (.inconsistent, some topo) ∧
      aslevelTopoLoadFile decimalNumerals (some topo) (some .caida)
        (some ['1', ' ', '2', ' ', '1', '\n', '2', ' ', '1', ' ', '-', '1', '\n']) =
          .ok (.topologyLoaded, some topo) ∧
      (∃ topo', aslevelTopoLoadFile decimalNumerals none (some .caida)
        (some ['1', ' ', '2', ' ', '1', '\n', '2', ' ', '1', ' ', '-', '1', '\n']) =
          .ok (.success, some topo')) ∧
      ¬ LeavesNothing decimalNumerals (some .caida) (some ['1', ' ', '2', ' ', '1', '\n']) := by
  refine ⟨_, rfl, rfl, ⟨_, rfl⟩, ?_⟩
  rintro ⟨error, left, loaded, nothing⟩
  cases loaded
  cases (nothing (by decide)).1

end Cbgp.Verified
