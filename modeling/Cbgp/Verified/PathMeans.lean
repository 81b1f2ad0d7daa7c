import Mathlib.Data.List.Chain
import Cbgp.Verified.PathPrepend
import Cbgp.Verified.PathRoundTrip

/-! # What the text of an AS-path means

The words of a text are the hops of a path and its groups are the SETs (`PathMeans`).  Where
`path_from_string` reads the text at all, it reads the path that the text means exactly when no ASN is
65536, no run of words and no group is longer than a segment, and no group is empty or has a single
number, which is read as a hop (`pathMeans_iff`).  Another path with the same ASNs is meant exactly when
its hops and SETs stand where the text has words and groups (`pathMeans_iff_shaped`).
-/

namespace Cbgp.Verified

open Cbgp.Lib Cbgp.Bgp

/-! ## Words and groups -/

/-- An opening bracket. -/
def isOpening (c : Char) : Bool := ['{', '[', '('].contains c

/-- A closing bracket. -/
def isClosing (c : Char) : Bool := ['}', ']', ')'].contains c

/-- The words and groups of a text, with spaces between them, inside a group or outside.  The characters
of the item that is being read come last first.  A bracket without its counterpart, a bracket next to a
word and an empty group have no place. -/
def pathItems : Bool → List Char → List Char → Option (List TextItem)
  | false, [], item => some (if item = [] then [] else [.word item.reverse])
  | true, [], _ => none
  | false, c :: text, item =>
    if c = ' ' then
      (pathItems false text []).map fun items => if item = [] then items else .word item.reverse :: items
    else if isOpening c then if item = [] then pathItems true text [] else none
    else if isClosing c then none
    else pathItems false text (c :: item)
  | true, c :: text, item =>
    if isClosing c then
      if item = [] ∨ text.head?.any (· ≠ ' ') then none
      else (pathItems false text []).map (.group item.reverse :: ·)
    else if isOpening c then none
    else pathItems true text (c :: item)

/-- The words of a group. -/
def groupWords (text : List Char) : List (List Char) := scanTokens [] [] false text []

theorem groupChar_iff (c : Char) : groupChar c ↔ isOpening c = false ∧ isClosing c = false := by
  simp only [groupChar, isOpening, isClosing, Bool.not_eq_true', List.contains_cons, Bool.or_eq_false_iff,
    List.contains_nil, and_true]
  tauto

theorem plainChar_iff (c : Char) : plainChar c ↔ c ≠ ' ' ∧ groupChar c := by
  simp only [plainChar, groupChar, Bool.and_eq_true, decide_eq_true_eq]

/-- What is read of an item inside a group or outside. -/
def ItemChars (inGroup : Bool) (item : List Char) : Prop :=
  ∀ c ∈ item, if inGroup then groupChar c else plainChar c

theorem itemChars_cons {inGroup : Bool} {c : Char} {item : List Char}
    (char : if inGroup then groupChar c else plainChar c) (chars : ItemChars inGroup item) :
    ItemChars inGroup (c :: item) := by
  intro d member
  cases List.mem_cons.mp member with
  | inl same => exact same ▸ char
  | inr later => exact chars d later

theorem itemChars_nil (inGroup : Bool) : ItemChars inGroup [] := fun _ member => nomatch member

theorem proper_word {item : List Char} (some : item ≠ []) (chars : ItemChars false item) :
    (TextItem.word item.reverse).Proper :=
  ⟨by simpa using some, fun c member => by simpa using chars c (List.mem_reverse.mp member)⟩

theorem proper_group {item : List Char} (some : item ≠ []) (chars : ItemChars true item) :
    (TextItem.group item.reverse).Proper :=
  ⟨by simpa using some, fun c member => by simpa using chars c (List.mem_reverse.mp member)⟩

/-- The items of a text are proper, and a tokenizer of words and groups finds them. -/
theorem pathItems_scan {text item : List Char} {inGroup : Bool} {items : List TextItem}
    (chars : ItemChars inGroup item) (read : pathItems inGroup text item = some items) :
    (∀ part ∈ items, part.Proper) ∧
      scanTokens ['{', '[', '('] ['}', ']', ')'] inGroup text item = items.map TextItem.token := by
  induction text generalizing item inGroup items with
  | nil =>
    cases inGroup with
    | true => cases read
    | false =>
      simp only [pathItems, Option.some.injEq] at read
      subst read
      by_cases none : item = []
      · simp [none, scanTokens]
      · simp only [none, if_false, scanTokens, List.mem_singleton, forall_eq, List.map_cons, List.map_nil,
          TextItem.token, and_true]
        exact proper_word none chars
  | cons c text inductionHypothesis =>
    cases inGroup with
    | false =>
      simp only [pathItems] at read
      split at read
      -- A blank ends the word in hand; one blank after another ends none.
      next space =>
        subst space
        obtain ⟨rest, parsed, rfl⟩ := Option.map_eq_some_iff.mp read
        obtain ⟨proper, scanned⟩ := inductionHypothesis (itemChars_nil false) parsed
        by_cases none : item = []
        · simp only [scanTokens, none, if_true]
          exact ⟨proper, scanned⟩
        · simp only [scanTokens, none, if_true, if_false, scanned, List.map_cons, TextItem.token,
            List.mem_cons, forall_eq_or_imp, and_true]
          exact ⟨proper_word none chars, proper⟩
      next space =>
        split at read
        next opens =>
          split at read
          next none =>
            have contained : ['{', '[', '('].contains c = true := opens
            simp only [scanTokens, if_neg space, contained, if_true]
            exact inductionHypothesis (itemChars_nil true) read
          next => cases read
        next notOpening =>
          split at read
          next => cases read
          next notClosing =>
            have contained : ¬ ['{', '[', '('].contains c = true := notOpening
            simp only [scanTokens, if_neg space, if_neg contained]
            have plain : plainChar c := (plainChar_iff c).mpr ⟨space, (groupChar_iff c).mpr
              ⟨Bool.eq_false_iff.mpr notOpening, Bool.eq_false_iff.mpr notClosing⟩⟩
            exact inductionHypothesis (itemChars_cons plain chars) read
    | true =>
      simp only [pathItems] at read
      split at read
      -- The group ends with any of the three brackets: the tokenizer does not match them in pairs.
      next closes =>
        split at read
        next => cases read
        next ends =>
          obtain ⟨some, _⟩ := not_or.mp ends
          obtain ⟨rest, parsed, rfl⟩ := Option.map_eq_some_iff.mp read
          obtain ⟨proper, scanned⟩ := inductionHypothesis (itemChars_nil false) parsed
          have contained : ['}', ']', ')'].contains c = true := closes
          simp only [scanTokens, contained, if_true, scanned, List.map_cons, TextItem.token, List.mem_cons,
            forall_eq_or_imp, and_true]
          exact ⟨proper_group some chars, proper⟩
      next notClosing =>
        split at read
        next => cases read
        next notOpening =>
          have contained : ¬ ['}', ']', ')'].contains c = true := notClosing
          simp only [scanTokens, if_neg contained]
          have inside : groupChar c := (groupChar_iff c).mpr
            ⟨Bool.eq_false_iff.mpr notOpening, Bool.eq_false_iff.mpr notClosing⟩
          exact inductionHypothesis (itemChars_cons inside chars) read

theorem pathItems_proper {text : List Char} {items : List TextItem} (read : pathItems false text [] = some items) :
    ∀ item ∈ items, item.Proper :=
  (pathItems_scan (itemChars_nil false) read).1

/-! ## Hops and SETs -/

/-- A hop of a SEQUENCE, or a SET. -/
inductive PathPart where
  | hop (asn : Asn)
  | set (asns : List Asn)
  deriving DecidableEq

/-- The hops of a SEQUENCE, or the SET. -/
def segmentParts (seg : PathSeg) : List PathPart :=
  match seg.type with
  | .sequence => seg.asns.map .hop
  | .set => [.set seg.asns]

/-- The hops and SETs of a path, the most recent one last. -/
def pathParts (path : Path) : List PathPart := path.flatMap segmentParts

theorem pathParts_append (path path' : Path) : pathParts (path ++ path') = pathParts path ++ pathParts path' :=
  List.flatMap_append

theorem pathParts_singleton (seg : PathSeg) : pathParts [seg] = segmentParts seg :=
  List.append_nil _

/-- No segment is empty, and no two SEQUENCEs stand next to each other. -/
structure CanonicalPath (path : Path) : Prop where
  nonempty : ∀ seg ∈ path, seg.asns ≠ []
  apart : path.IsChain fun seg next => ¬ (seg.type = .sequence ∧ next.type = .sequence)

theorem CanonicalPath.nil : CanonicalPath [] where
  nonempty _ member := nomatch member
  apart := List.IsChain.nil

theorem CanonicalPath.append {path : Path} {seg : PathSeg} (canonical : CanonicalPath path) (some : seg.asns ≠ [])
    (apart : seg.type = .sequence → ∀ last ∈ path.getLast?, last.type = .set) : CanonicalPath (path ++ [seg]) where
  nonempty other member := by
    cases List.mem_append.mp member with
    | inl old => exact canonical.nonempty other old
    | inr new => exact List.mem_singleton.mp new ▸ some
  apart := by
    refine List.isChain_append.mpr ⟨canonical.apart, .singleton _, fun last ends next starts => ?_⟩
    rw [List.head?_cons, Option.mem_some_iff] at starts
    subst starts
    rintro ⟨sequence, sequence'⟩
    rw [apart sequence' last ends] at sequence
    cases sequence

/-- The last SEQUENCE may have more hops. -/
theorem CanonicalPath.grow {path : Path} {seg grown : PathSeg} (canonical : CanonicalPath (path ++ [seg]))
    (kind : grown.type = seg.type) (some : grown.asns ≠ []) : CanonicalPath (path ++ [grown]) where
  nonempty other member := by
    cases List.mem_append.mp member with
    | inl old => exact canonical.nonempty other (List.mem_append_left _ old)
    | inr new => exact List.mem_singleton.mp new ▸ some
  apart := by
    obtain ⟨front, _, between⟩ := List.isChain_append.mp canonical.apart
    refine List.isChain_append.mpr ⟨front, .singleton _, fun last ends next starts => ?_⟩
    rw [List.head?_cons, Option.mem_some_iff] at starts
    subst starts
    rw [kind]
    exact between last ends seg rfl

/-- A hop that finds room. -/
theorem pathAppend_room {path : Path} (canonical : CanonicalPath path) (room : lastRun path < maxPathSequenceLength)
    (asn : Asn) :
    ∃ grown, pathAppend path asn = some grown ∧ CanonicalPath grown ∧
      pathParts grown = pathParts path ++ [.hop asn] ∧ lastRun grown = lastRun path + 1 := by
  rcases lastRun_cases path with ⟨set, run⟩ | ⟨front, last, rfl, kind, run⟩
  · refine ⟨path ++ [sequenceOf asn], pathAppend_set set asn,
      canonical.append (by simp [sequenceOf]) fun _ => set, ?_, ?_⟩
    · rw [pathParts_append, pathParts_singleton]
      rfl
    · rw [run]
      simp [lastRun, sequenceOf]
  · rw [run] at room
    let grown : PathSeg := { last with asns := last.asns ++ [asn], short := by simpa using Nat.succ_le_of_lt room }
    refine ⟨front ++ [grown], ?_, canonical.grow rfl (by simp [grown]), ?_, ?_⟩
    · rw [pathAppend_sequence kind]
      simp [pathSegmentAdd, room, grown]
    · rw [pathParts_append, pathParts_append, pathParts_singleton, pathParts_singleton]
      simp [segmentParts, kind, grown]
    · rw [run]
      simp [lastRun, kind, grown]

/-! ## What is meant -/

section Reader

variable (reader : PathReader)

/-- What the parser relies on in the library: the tokenizers find the words and groups, both conversions
of numbers read the same ASNs, and where a text of numerals is itself a number, it has one word, which is
that number. -/
structure ReadsPaths : Prop where
  items : ∀ text items, pathItems false text [] = some items →
    reader.pathTokens text = some (items.map TextItem.token)
  words : ∀ text : List Char, (∀ c ∈ text, groupChar c) → reader.segmentTokens text = some (groupWords text)
  numerals : ∀ s, ∀ n ≤ maxAs, reader.numerals.asUint s = some n ↔ reader.ulongAt s = some n
  single : ∀ text ≠ [], (∀ word ∈ groupWords text, (reader.ulongAt word).isSome) →
    ∀ n, reader.ulongAt text = some n → ∃ word, groupWords text = [word] ∧ reader.ulongAt word = some n

/-- An ASN in words. -/
def AsnMeans (word : List Char) (asn : Asn) : Prop := reader.numerals.asUint word = some asn.toNat

/-- What an item means: a word is a hop, a group a SET, whose ASNs are stored from the last one on. -/
inductive ItemMeans : TextItem → PathPart → Prop where
  | word {word : List Char} {asn : Asn} : AsnMeans reader word asn → ItemMeans (.word word) (.hop asn)
  | group {text : List Char} {asns : List Asn} :
      List.Forall₂ (AsnMeans reader) (groupWords text).reverse asns → ItemMeans (.group text) (.set asns)

/-- The text means a path: its items, from the last one on, are the hops and SETs of the path. -/
structure PathMeans (text : List Char) (path : Path) : Prop where
  canonical : CanonicalPath path
  items : ∃ items, pathItems false text [] = some items ∧
    List.Forall₂ (ItemMeans reader) items.reverse (pathParts path)

/-- The item is a word. -/
def isWord : TextItem → Bool
  | .word _ => true
  | .group _ => false

/-- The words of an item. -/
def itemWords : TextItem → List (List Char)
  | .word word => [word]
  | .group text => groupWords text

/-- The ASNs of a part. -/
def partAsns : PathPart → List Asn
  | .hop asn => [asn]
  | .set asns => asns

/-- The number of words of a group. -/
def itemSize : TextItem → Option ℕ
  | .word _ => none
  | .group text => some (groupWords text).length

/-- The number of ASNs of a SET. -/
def partSize : PathPart → Option ℕ
  | .hop _ => none
  | .set asns => some asns.length

/-- The path has the shape of the text, whose words are ASNs: a hop for each word, and for each group a SET
with as many ASNs. -/
structure PathShaped (text : List Char) (path : Path) : Prop where
  canonical : CanonicalPath path
  items : ∃ items, pathItems false text [] = some items ∧
    (∀ item ∈ items, ∀ word ∈ itemWords item, ∃ asn, AsnMeans reader word asn) ∧
    (pathParts path).map partSize = items.reverse.map itemSize

/-- An item that is not altered: no ASN is 65536; a group is neither empty nor a single number, and it fits
a segment. -/
def ItemFits : TextItem → Prop
  | .word word => reader.ulongAt word ≠ some maxAs
  | .group text => reader.ulongAt text = none ∧ groupWords text ≠ [] ∧
      (groupWords text).length ≤ maxPathSequenceLength ∧
      ∀ word ∈ groupWords text, reader.numerals.asUint word ≠ some maxAs

/-- A text of items that are not altered, and no more words in a row than a segment holds. -/
def PathFits (text : List Char) : Prop :=
  ∃ items, pathItems false text [] = some items ∧ (∀ item ∈ items, ItemFits reader item) ∧
    RunsWithin isWord maxPathSequenceLength 0 items.reverse

variable {reader}

/-! ## Reading what is meant -/

theorem groupWords_word {word : List Char} (some : word ≠ []) (plain : ∀ c ∈ word, plainChar c) :
    groupWords word = [word] := by
  have words : ∀ other ∈ [word], other ≠ [] ∧ ∀ c ∈ other, c ≠ ' ' ∧ ([] : List Char).contains c = false := by
    intro other member
    rw [List.mem_singleton.mp member]
    exact ⟨some, fun c inside => ⟨((plainChar_iff c).mp (plain c inside)).1, rfl⟩⟩
  have scanned := scanTokens_words [] [] words
  rwa [spaced, List.intercalate_singleton] at scanned

theorem toUInt16_toNat {n : ℕ} (small : n < 65536) : n.toUInt16.toNat = n := by
  simp only [Nat.toUInt16, UInt16.toNat_ofNat']
  omega

/-- The ASNs of a group that are read, none of them being 65536. -/
theorem segmentFromTokens_means {words : List (List Char)}
    (notMax : ∀ word ∈ words, reader.numerals.asUint word ≠ some maxAs)
    {seg seg' : PathSeg} (short : seg.asns.length + words.length ≤ maxPathSequenceLength)
    (read : segmentFromTokens reader words seg = some seg') :
    seg'.type = seg.type ∧ ∃ asns, seg'.asns = seg.asns ++ asns ∧ List.Forall₂ (AsnMeans reader) words asns := by
  induction words generalizing seg with
  | nil =>
    cases read
    exact ⟨rfl, [], (List.append_nil _).symm, .nil⟩
  | cons word words inductionHypothesis =>
    rw [List.length_cons] at short
    cases number : reader.numerals.asUint word with
    | none => simp [segmentFromTokens, str2asn, number] at read
    | some n =>
      by_cases above : n > maxAs
      · simp [segmentFromTokens, str2asn, number, above] at read
      · have small : n < 65536 := by
          have differ : n ≠ maxAs := fun same => notMax word List.mem_cons_self (same ▸ number)
          simp only [maxAs] at above differ
          omega
        have room : seg.asns.length < maxPathSequenceLength := by omega
        simp only [segmentFromTokens, str2asn, number, if_neg above, pathSegmentAdd, dif_pos room,
          Option.getD_some] at read
        obtain ⟨kind, asns, content, means⟩ := inductionHypothesis
          (fun other member => notMax other (List.mem_cons_of_mem _ member))
          (by rw [List.length_append, List.length_singleton]; omega) read
        refine ⟨kind, n.toUInt16 :: asns, by simpa using content, .cons ?_ means⟩
        rw [AsnMeans, toUInt16_toNat small]
        exact number

variable (reads : ReadsPaths reader)
include reads

/-- A group that is read as a SET. -/
theorem pathSegmentFromString_means {text : List Char} (inside : ∀ c ∈ text, groupChar c)
    (fits : ItemFits reader (.group text)) {seg : PathSeg} (read : pathSegmentFromString reader text = some seg) :
    seg.type = .set ∧ seg.asns ≠ [] ∧ ItemMeans reader (.group text) (.set seg.asns) := by
  obtain ⟨_, some, short, notMax⟩ := fits
  simp only [pathSegmentFromString, reads.words text inside] at read
  obtain ⟨kind, asns, content, means⟩ := segmentFromTokens_means
    (fun word member => notMax word (List.mem_reverse.mp member)) (by simpa [emptySet] using short) read
  have whole : seg.asns = asns := by simpa [emptySet] using content
  refine ⟨kind, ?_, .group (whole ▸ means)⟩
  rw [whole]
  rintro rfl
  have length := means.length_eq
  rw [List.length_reverse, List.length_nil, List.length_eq_zero_iff] at length
  exact some length

/-- A word that is read is read as its hop. -/
theorem word_number {word : List Char} (proper : (TextItem.word word).Proper) {path path' : Path}
    {tokens : List (List Char)} (read : pathFromTokens reader (word :: tokens) path = some path') :
    ∃ n ≤ maxAs, reader.ulongAt word = some n ∧
      pathFromTokens reader tokens ((pathAppend path n.toUInt16).getD path) = some path' := by
  cases number : reader.ulongAt word with
  | some n =>
    simp only [pathFromTokens, number] at read
    split at read
    next => cases read
    next notAbove => exact ⟨n, Nat.le_of_not_lt notAbove, rfl, read⟩
  | none =>
    -- a word that is not a number is not a group of numbers either
    exfalso
    have inside : ∀ c ∈ word, groupChar c := fun c member => groupChar_of_plainChar (proper.2 c member)
    have bad : str2asn reader.numerals word = none := by
      rw [str2asn_eq_none]
      intro n value
      by_contra small
      rw [(reads.numerals word n (Nat.le_of_not_lt small)).mp value] at number
      cases number
    simp only [pathFromTokens, number, pathSegmentFromString, reads.words word inside,
      groupWords_word proper.1 proper.2, List.reverse_singleton,
      segmentFromTokens_bad emptySet ⟨word, List.mem_singleton_self word, bad⟩] at read
    cases read

/-- Items that are not altered are read as what they say. -/
theorem pathFromTokens_means {items : List TextItem} (proper : ∀ item ∈ items, item.Proper)
    (fit : ∀ item ∈ items, ItemFits reader item) {acc path : Path} (canonical : CanonicalPath acc)
    (runs : RunsWithin isWord maxPathSequenceLength (lastRun acc) items)
    (read : pathFromTokens reader (items.map TextItem.token) acc = some path) :
    CanonicalPath path ∧
      ∃ parts, pathParts path = pathParts acc ++ parts ∧ List.Forall₂ (ItemMeans reader) items parts := by
  induction items generalizing acc with
  | nil =>
    cases read
    exact ⟨canonical, [], (List.append_nil _).symm, .nil⟩
  | cons item items inductionHypothesis =>
    have proper' := fun other member => proper other (List.mem_cons_of_mem item member)
    have fit' := fun other member => fit other (List.mem_cons_of_mem item member)
    have here := fit item List.mem_cons_self
    cases item with
    | word word =>
      obtain ⟨n, le, number, rest⟩ := word_number reads (proper _ List.mem_cons_self) read
      -- The limit itself passes the test of the parser but not the type of a number.
      have differ : n ≠ maxAs := fun same => here (same ▸ number)
      have small : n < 65536 := by
        simp only [maxAs] at le differ
        omega
      simp only [RunsWithin, isWord, if_true] at runs
      obtain ⟨grown, appended, canonical', parts, run⟩ := pathAppend_room canonical runs.1 n.toUInt16
      rw [appended, Option.getD_some] at rest
      obtain ⟨final, later, whole, means⟩ := inductionHypothesis proper' fit' canonical' (run ▸ runs.2) rest
      refine ⟨final, .hop n.toUInt16 :: later, by simp [whole, parts], .cons (.word ?_) means⟩
      rw [AsnMeans, toUInt16_toNat small]
      exact (reads.numerals word n le).mpr number
    | group text =>
      have inside : ∀ c ∈ text, groupChar c := (proper _ List.mem_cons_self).2
      simp only [RunsWithin, isWord, Bool.false_eq_true, if_false] at runs
      simp only [List.map_cons, TextItem.token, pathFromTokens, here.1] at read
      split at read
      next => cases read
      next seg parsed =>
        obtain ⟨kind, some, means⟩ := pathSegmentFromString_means reads inside here parsed
        have canonical' : CanonicalPath (acc ++ [seg]) := canonical.append some fun sequence => by
          rw [kind] at sequence
          cases sequence
        have run : lastRun (acc ++ [seg]) = 0 := lastRun_of_set kind acc
        obtain ⟨final, later, whole, others⟩ := inductionHypothesis proper' fit' canonical' (run ▸ runs) read
        refine ⟨final, .set seg.asns :: later, ?_, .cons means others⟩
        rw [whole, pathParts_append, pathParts_singleton]
        simp [segmentParts, kind]

/-! ## What is read -/

/-- A part that is a SET. -/
def isSet : PathPart → Bool
  | .hop _ => false
  | .set _ => true

omit reads in
theorem segmentFromTokens_type {words : List (List Char)} {seg seg' : PathSeg}
    (read : segmentFromTokens reader words seg = some seg') : seg'.type = seg.type := by
  induction words generalizing seg with
  | nil =>
    cases read
    rfl
  | cons word words inductionHypothesis =>
    simp only [segmentFromTokens] at read
    split at read
    next => cases read
    next asn _ => exact (inductionHypothesis read).trans (pathSegmentAdd_getD seg asn).1

omit reads in
/-- Every token that is not a number becomes a SET. -/
theorem pathFromTokens_count {tokens : List (List Char)} {acc path : Path}
    (read : pathFromTokens reader tokens acc = some path) :
    path.countP (fun seg => seg.type = .set) =
      acc.countP (fun seg => seg.type = .set) + tokens.countP fun token => !isNumber reader token := by
  induction tokens generalizing acc with
  | nil =>
    cases read
    rfl
  | cons token tokens inductionHypothesis =>
    rw [List.countP_cons]
    cases number : reader.ulongAt token with
    | some n =>
      simp only [pathFromTokens, number] at read
      split at read
      next => cases read
      next =>
        rw [inductionHypothesis read, pathAppend_sets]
        simp [isNumber, number]
    | none =>
      simp only [pathFromTokens, number] at read
      split at read
      next => cases read
      next seg parsed =>
        have kind : seg.type = .set := by
          simp only [pathSegmentFromString] at parsed
          split at parsed
          next => cases parsed
          next => exact segmentFromTokens_type parsed
        rw [inductionHypothesis read, List.countP_append, List.countP_singleton]
        simp only [kind, isNumber, number, Option.isSome_none, decide_true, Bool.not_false, if_true]
        omega

omit reads in
theorem pathParts_count (path : Path) :
    (pathParts path).countP isSet = path.countP fun seg => seg.type = .set := by
  induction path with
  | nil => rfl
  | cons seg path inductionHypothesis =>
    rw [pathParts, List.flatMap_cons, List.countP_append, List.countP_cons, ← inductionHypothesis, Nat.add_comm]
    congr 1
    cases kind : seg.type with
    | set => simp [segmentParts, kind, isSet]
    | sequence => simp [segmentParts, kind, isSet, List.countP_map, Function.comp_def]

omit reads in
theorem mem_pathParts {path : Path} {asns : List Asn} (member : PathPart.set asns ∈ pathParts path) :
    ∃ seg ∈ path, seg.asns = asns := by
  obtain ⟨seg, inside, part⟩ := List.mem_flatMap.mp member
  refine ⟨seg, inside, ?_⟩
  cases kind : seg.type with
  | set => simpa [segmentParts, kind, eq_comm] using part
  | sequence => simp [segmentParts, kind] at part

omit reads in
/-- The hops of a path stand in SEQUENCEs of their own. -/
theorem CanonicalPath.runs {path : Path} (canonical : CanonicalPath path) {k : ℕ}
    (start : k = 0 ∨ ∀ seg ∈ path.head?, seg.type = .set) :
    RunsWithin (fun part => !isSet part) maxPathSequenceLength k (pathParts path) := by
  induction path generalizing k with
  | nil => trivial
  | cons seg path inductionHypothesis =>
    have rest : CanonicalPath path :=
      ⟨fun other member => canonical.nonempty other (List.mem_cons_of_mem _ member), canonical.apart.of_cons⟩
    rw [pathParts, List.flatMap_cons]
    cases kind : seg.type with
    | set =>
      simp only [segmentParts, kind, List.singleton_append, RunsWithin, isSet, Bool.not_true, Bool.false_eq_true,
        if_false]
      exact inductionHypothesis rest (.inl rfl)
    | sequence =>
      have zero : k = 0 := by
        refine start.resolve_right fun set => ?_
        rw [set seg rfl] at kind
        cases kind
      -- A sequence is one run of at most 255 hops, and what follows it is a set or nothing.
      have hops : ∀ part ∈ segmentParts seg, (!isSet part) = true := by
        intro part member
        simp only [segmentParts, kind, List.mem_map] at member
        obtain ⟨asn, _, rfl⟩ := member
        rfl
      have length : (segmentParts seg).length = seg.asns.length := by simp [segmentParts, kind]
      have short := seg.short
      rw [runsWithin_append _ _ hops (by omega)]
      refine inductionHypothesis rest (.inr fun next starts => ?_)
      cases path with
      | nil => cases starts
      | cons other path =>
        cases starts
        cases kind' : next.type with
        | set => rfl
        | sequence => exact absurd ⟨kind, kind'⟩ (List.isChain_cons_cons.mp canonical.apart).1

omit reads in
/-- A test that is passed less often, but as often, is passed in the same places. -/
theorem passes_of_countP {α : Type} {p q : α → Bool} {l : List α} (imp : ∀ a ∈ l, p a = true → q a = true)
    (count : l.countP q = l.countP p) : ∀ a ∈ l, q a = true → p a = true := by
  induction l with
  | nil => exact fun _ member => nomatch member
  | cons b l inductionHypothesis =>
    have imp' : ∀ a ∈ l, p a = true → q a = true := fun a member => imp a (List.mem_cons_of_mem _ member)
    have le := List.countP_mono_left imp'
    have here := imp b List.mem_cons_self
    rw [List.countP_cons, List.countP_cons] at count
    have both : l.countP q = l.countP p ∧ (q b = true → p b = true) := by
      cases first : p b with
      | true => simp only [first, here first, if_true] at count; exact ⟨by omega, fun _ => rfl⟩
      | false =>
        cases second : q b with
        | true => simp only [first, second, if_true, Bool.false_eq_true, if_false] at count; omega
        | false => simp only [first, second, Bool.false_eq_true, if_false] at count; exact ⟨by omega, id⟩
    intro a member passes
    cases List.mem_cons.mp member with
    | inl same => exact same ▸ both.2 (same ▸ passes)
    | inr later => exact inductionHypothesis imp' both.1 a later passes

omit reads in
theorem related_of_mem {α β : Type} {related : α → β → Prop} {l : List α} {l' : List β}
    (both : List.Forall₂ related l l') {a : α} (member : a ∈ l) : ∃ b ∈ l', related a b := by
  induction both with
  | nil => cases member
  | cons first _ inductionHypothesis =>
    cases List.mem_cons.mp member with
    | inl same => exact ⟨_, List.mem_cons_self, same ▸ first⟩
    | inr later =>
      obtain ⟨b, inside, holds⟩ := inductionHypothesis later
      exact ⟨b, List.mem_cons_of_mem _ inside, holds⟩

/-- A word is a number. -/
theorem AsnMeans.number {word : List Char} {asn : Asn} (means : AsnMeans reader word asn) :
    reader.ulongAt word = some asn.toNat :=
  (reads.numerals word asn.toNat asn.toNat_lt.le).mp means

/-- The ASNs of a token are those of the words of its item. -/
theorem tokenAsns_means {item : TextItem} (proper : item.Proper) {asns : List Asn}
    (means : List.Forall₂ (AsnMeans reader) (itemWords item) asns) :
    tokenAsns reader item.token = some (asns.map UInt16.toNat) := by
  cases item with
  | word word =>
    cases means with
    | cons first rest =>
      cases rest
      simp [tokenAsns, TextItem.token, first.number reads]
  | group text =>
    cases number : reader.ulongAt text with
    | some n =>
      -- the number is the only word of the group
      have numerals : ∀ word ∈ groupWords text, (reader.ulongAt word).isSome := by
        intro word member
        obtain ⟨asn, _, means⟩ := related_of_mem means member
        rw [means.number reads]
        rfl
      obtain ⟨word, one, value⟩ := reads.single text proper.1 numerals n number
      rw [itemWords, one] at means
      cases means with
      | cons first rest =>
        cases rest
        rw [first.number reads, Option.some.injEq] at value
        simp [tokenAsns, TextItem.token, number, value]
    | none =>
      have values : List.Forall₂ (fun word n => reader.numerals.asUint word = some n) (groupWords text)
          (asns.map UInt16.toNat) := List.forall₂_map_right_iff.mpr means
      simp only [tokenAsns, TextItem.token, number, reads.words text proper.2, Option.bind_some]
      exact mapM_of_forall₂ values

omit reads in
theorem ItemMeans.words {item : TextItem} {part : PathPart} (means : ItemMeans reader item part) :
    List.Forall₂ (AsnMeans reader) (itemWords item) (partAsns part).reverse := by
  cases means with
  | word means => exact .cons means .nil
  | group means => simpa [itemWords, partAsns] using List.forall₂_reverse_iff.mpr means

/-- The tokens of a text that means a path are taken. -/
theorem ItemMeans.accepted {item : TextItem} {part : PathPart} (proper : item.Proper)
    (means : ItemMeans reader item part) : Accepted reader item.token := by
  refine ⟨_, tokenAsns_means reads proper means.words, fun n member => ?_⟩
  obtain ⟨asn, _, rfl⟩ := List.mem_map.mp member
  exact asn.toNat_lt.le

/-- A text that means a path is read, if not as that path. -/
theorem PathMeans.read {text : List Char} {path : Path} (means : PathMeans reader text path) :
    ∃ path', pathFromString reader text = some path' := by
  obtain ⟨items, parsed, agree⟩ := means.items
  have accepted : ∀ token ∈ (items.map TextItem.token).reverse, Accepted reader token := by
    intro token member
    rw [← List.map_reverse] at member
    obtain ⟨item, inside, rfl⟩ := List.mem_map.mp member
    obtain ⟨part, _, means⟩ := related_of_mem agree inside
    exact means.accepted reads (pathItems_proper parsed item (List.mem_reverse.mp inside))
  obtain ⟨asns, values, le⟩ := exists_asns_of_accepted accepted
  obtain ⟨path', built, _⟩ := pathFromTokens_read values le []
  exact ⟨path', by rw [pathFromString, reads.items text items parsed]; exact built⟩

/-- What a text means fits. -/
theorem PathMeans.fits {text : List Char} {path : Path} (whole : PathMeans reader text path)
    (read : pathFromString reader text = some path) : PathFits reader text := by
  obtain ⟨items, parsed, agree⟩ := whole.items
  have proper := pathItems_proper parsed
  rw [pathFromString, reads.items text items parsed] at read
  -- as many tokens are no numbers as there are groups
  have groups : items.reverse.countP (fun item => !isWord item) = (pathParts path).countP isSet := by
    clear read parsed whole
    generalize items.reverse = l at agree
    generalize pathParts path = parts at agree
    induction agree with
    | nil => rfl
    | cons first _ inductionHypothesis =>
      rw [List.countP_cons, List.countP_cons, inductionHypothesis]
      cases first <;> rfl
  have count := pathFromTokens_count read
  rw [List.countP_nil, Nat.zero_add, ← pathParts_count, ← groups, ← List.map_reverse, List.countP_map] at count
  have wordNumber : ∀ item ∈ items.reverse, (!isNumber reader item.token) = true → (!isWord item) = true := by
    intro item member notNumber
    obtain ⟨part, _, means⟩ := related_of_mem agree member
    cases means with
    | word means => simp [isNumber, TextItem.token, means.number reads] at notNumber
    | group _ => rfl
  have noGroupNumber := passes_of_countP wordNumber count
  refine ⟨items, parsed, fun item member => ?_, ?_⟩
  · obtain ⟨part, inside, means⟩ := related_of_mem agree (List.mem_reverse.mpr member)
    have number := noGroupNumber item (List.mem_reverse.mpr member)
    cases means with
    | @word word asn means =>
      rw [ItemFits, means.number reads]
      have small := asn.toNat_lt
      simp only [maxAs, ne_eq, Option.some.injEq]
      omega
    | @group text asns means =>
      obtain ⟨seg, member', rfl⟩ := mem_pathParts inside
      have length := means.length_eq
      rw [List.length_reverse] at length
      refine ⟨by simpa [isNumber, TextItem.token, isWord] using number, ?_, length ▸ seg.short, ?_⟩
      · rintro none
        rw [none, List.length_nil] at length
        exact whole.canonical.nonempty seg member' (List.length_eq_zero_iff.mp length.symm)
      · intro word member max
        obtain ⟨asn, _, means⟩ := related_of_mem means (List.mem_reverse.mpr member)
        rw [means, Option.some.injEq] at max
        exact absurd max (Nat.ne_of_lt asn.toNat_lt)
  · have hops : ∀ item part, ItemMeans reader item part → isWord item = !isSet part := by
      rintro _ _ (_ | _) <;> rfl
    have same : RunsWithin isWord maxPathSequenceLength 0 items.reverse ↔
        RunsWithin (fun part => !isSet part) maxPathSequenceLength 0 (pathParts path) :=
      runsWithin_forall₂ isWord maxPathSequenceLength hops agree
    exact same.mpr (whole.canonical.runs (.inl rfl))

/-- A text that is read as a path means that path exactly when it fits. -/
theorem pathMeans_iff {text : List Char} {path : Path} (read : pathFromString reader text = some path) :
    PathMeans reader text path ↔ PathFits reader text := by
  refine ⟨fun means => means.fits reads read, ?_⟩
  rintro ⟨items, parsed, fit, runs⟩
  rw [pathFromString, reads.items text items parsed] at read
  simp only [← List.map_reverse] at read
  obtain ⟨canonical, parts, whole, agree⟩ := pathFromTokens_means reads
    (fun item member => pathItems_proper parsed item (List.mem_reverse.mp member))
    (fun item member => fit item (List.mem_reverse.mp member)) .nil runs read
  exact ⟨canonical, items, parsed, whole ▸ agree⟩

/-! ## What is meant by a path of the same ASNs -/

omit reads in
theorem ItemMeans.size {item : TextItem} {part : PathPart} (means : ItemMeans reader item part) :
    partSize part = itemSize item := by
  cases means with
  | word _ => rfl
  | group means => rw [partSize, itemSize, ← means.length_eq, List.length_reverse]

omit reads in
theorem itemMeans_of_size {item : TextItem} {part : PathPart} (size : partSize part = itemSize item)
    (means : List.Forall₂ (AsnMeans reader) (itemWords item) (partAsns part).reverse) :
    ItemMeans reader item part := by
  cases item with
  | word word =>
    cases part with
    | set _ => cases size
    | hop asn =>
      cases means with
      | cons first _ => exact .word first
  | group text =>
    cases part with
    | hop _ => cases size
    | set asns => exact .group (by simpa [itemWords, partAsns] using List.forall₂_reverse_iff.mpr means)

omit reads in
theorem partAsns_length {item : TextItem} {part : PathPart} (size : partSize part = itemSize item) :
    (partAsns part).length = (itemWords item).length := by
  cases item with
  | word _ =>
    cases part with
    | set _ => cases size
    | hop _ => rfl
  | group _ =>
    cases part with
    | hop _ => cases size
    | set _ => exact Option.some.inj size

omit reads in
theorem pathParts_asns (path : Path) : (pathParts path).flatMap partAsns = path.flatMap (·.asns) := by
  induction path with
  | nil => rfl
  | cons seg path inductionHypothesis =>
    have here : (segmentParts seg).flatMap partAsns = seg.asns := by
      cases kind : seg.type with
      | set => simp [segmentParts, kind, partAsns]
      | sequence => simp [segmentParts, kind, partAsns, List.flatMap_map]
    rw [pathParts, List.flatMap_cons, List.flatMap_append, here, List.flatMap_cons, ← inductionHypothesis]
    rfl

omit reads in
/-- Every element has a partner. -/
theorem exists_forall₂ {α β : Type} {related : α → β → Prop} {l : List α} (partner : ∀ a ∈ l, ∃ b, related a b) :
    ∃ l', List.Forall₂ related l l' := by
  induction l with
  | nil => exact ⟨[], .nil⟩
  | cons a l inductionHypothesis =>
    obtain ⟨b, holds⟩ := partner a List.mem_cons_self
    obtain ⟨l', rest⟩ := inductionHypothesis fun other member => partner other (List.mem_cons_of_mem _ member)
    exact ⟨b :: l', .cons holds rest⟩

section Shape

variable {items : List TextItem} {values : List (List Asn)} {parts : List PathPart}

omit reads in
/-- Parts of the same sizes have as many ASNs. -/
theorem partAsns_count (words : List.Forall₂ (fun item asns => List.Forall₂ (AsnMeans reader) (itemWords item) asns)
    items values) (shape : parts.map partSize = items.map itemSize) :
    (parts.flatMap partAsns).length = values.flatten.length := by
  induction words generalizing parts with
  | nil => rw [List.map_eq_nil_iff.mp shape, List.flatMap_nil, List.flatten_nil]
  | cons first _ inductionHypothesis =>
    obtain ⟨part, parts, rfl, size, rest⟩ := List.map_eq_cons_iff.mp shape
    rw [List.flatMap_cons, List.flatten_cons, List.length_append, List.length_append, inductionHypothesis rest,
      partAsns_length size, first.length_eq]

omit reads in
/-- Parts of the same sizes and with the same ASNs are those that are meant. -/
theorem itemsMean_of_shape
    (words : List.Forall₂ (fun item asns => List.Forall₂ (AsnMeans reader) (itemWords item) asns) items values)
    (shape : parts.map partSize = items.map itemSize)
    (content : parts.flatMap partAsns = values.flatMap List.reverse) :
    List.Forall₂ (ItemMeans reader) items parts := by
  induction words generalizing parts with
  | nil => exact List.map_eq_nil_iff.mp shape ▸ .nil
  | cons first _ inductionHypothesis =>
    obtain ⟨part, parts, rfl, size, rest⟩ := List.map_eq_cons_iff.mp shape
    rw [List.flatMap_cons, List.flatMap_cons] at content
    obtain ⟨here, later⟩ := List.append_inj content
      (by rw [partAsns_length size, first.length_eq, List.length_reverse])
    refine .cons (itemMeans_of_size size ?_) (inductionHypothesis rest later)
    rwa [here, List.reverse_reverse]

end Shape

omit reads in
theorem PathMeans.shaped {text : List Char} {path : Path} (means : PathMeans reader text path) :
    PathShaped reader text path := by
  obtain ⟨canonical, items, parsed, agree⟩ := means
  refine ⟨canonical, items, parsed, fun item member word inside => ?_, ?_⟩
  · obtain ⟨part, _, means⟩ := related_of_mem agree (List.mem_reverse.mpr member)
    obtain ⟨asn, _, means⟩ := related_of_mem means.words inside
    exact ⟨asn, means⟩
  · have sizes : List.Forall₂ (fun item part => itemSize item = partSize part) items.reverse (pathParts path) :=
      agree.imp fun _ _ means => means.size.symm
    exact (List.forall₂_eq_eq_eq ▸ List.forall₂_map_left_iff.mpr (List.forall₂_map_right_iff.mpr sizes)).symm

/-- A path of the shape of the text, with the ASNs of the path that is read. -/
theorem PathShaped.means {text : List Char} {path kept : Path} (shaped : PathShaped reader text kept)
    (read : pathFromString reader text = some path) (same : kept.map (·.asns) = path.map (·.asns)) :
    PathMeans reader text kept := by
  obtain ⟨canonical, items, parsed, numerals, shape⟩ := shaped
  refine ⟨canonical, items, parsed, ?_⟩
  have proper := pathItems_proper parsed
  obtain ⟨values, words⟩ : ∃ values, List.Forall₂
      (fun item asns => List.Forall₂ (AsnMeans reader) (itemWords item) asns) items.reverse values :=
    exists_forall₂ fun item member => exists_forall₂ (numerals item (List.mem_reverse.mp member))
  -- the parser sees the same words
  have tokens : List.Forall₂ (fun token asns => tokenAsns reader token = some asns)
      (items.reverse.map TextItem.token) (values.map fun asns => asns.map UInt16.toNat) := by
    refine List.forall₂_map_left_iff.mpr (List.forall₂_map_right_iff.mpr ?_)
    have all : ∀ item ∈ items.reverse, item.Proper := fun item member => proper item (List.mem_reverse.mp member)
    refine (List.forall₂_and_left _ _ |>.mpr ⟨all, words⟩).imp ?_
    rintro item asns ⟨proper, means⟩
    exact tokenAsns_means reads proper means
  have small : ∀ group ∈ values.map fun asns => asns.map UInt16.toNat, ∀ asn ∈ group, asn < 65536 := by
    intro group member asn inside
    obtain ⟨asns, _, rfl⟩ := List.mem_map.mp member
    obtain ⟨stored, _, rfl⟩ := List.mem_map.mp inside
    exact stored.toNat_lt
  obtain ⟨path', built, _, enough, whole⟩ := pathFromTokens_read tokens
    (fun group member asn inside => (small group member asn inside).le) []
  have same' : path' = path := by
    rw [pathFromString, reads.items text items parsed] at read
    simp only [← List.map_reverse, built, Option.some.injEq] at read
    exact read
  subst same'
  have asns : (pathParts kept).flatMap partAsns = path'.flatMap (·.asns) := by
    rw [pathParts_asns, List.flatMap_def, same, ← List.flatMap_def]
  -- nothing is dropped, since the shape has as many places
  have count : (textAsns path').length = (values.map fun asns => asns.map UInt16.toNat).flatten.length := by
    rw [textAsns_eq, List.length_map, List.length_reverse, ← asns, partAsns_count words shape,
      ← List.map_flatten, List.length_map]
  have text := whole (enough count) fun asn member => by
    obtain ⟨group, inside, found⟩ := List.mem_flatten.mp member
    exact small group inside asn found
  refine itemsMean_of_shape words shape (asns.trans ?_)
  rw [textAsns_eq, textAsns_nil, List.append_nil, ← List.map_reverse, ← List.map_flatten] at text
  have backwards : (path'.flatMap (·.asns)).reverse = values.reverse.flatten :=
    List.map_injective_iff.mpr (fun _ _ => UInt16.toNat_inj.mp) text
  rw [← List.reverse_reverse (path'.flatMap (·.asns)), backwards, List.reverse_flatten, List.map_reverse,
    List.reverse_reverse, List.flatMap_def]

/-- A path with the ASNs of the one that is read is meant exactly when it has the shape of the text. -/
theorem pathMeans_iff_shaped {text : List Char} {path kept : Path} (read : pathFromString reader text = some path)
    (same : kept.map (·.asns) = path.map (·.asns)) :
    PathMeans reader text kept ↔ PathShaped reader text kept :=
  ⟨fun means => means.shaped, fun shaped => shaped.means reads read same⟩

omit reads in
/-- The reader of before has the library that is expected. -/
theorem plainReader_reads : ReadsPaths plainReader where
  items text items read := congrArg some (pathItems_scan (itemChars_nil false) read).2
  words _ _ := rfl
  numerals _ _ _ := Iff.rfl
  single text some _ n number := by
    have digits : text.all Char.isDigit = true := by
      by_contra other
      rw [show plainReader.ulongAt text = none from if_neg fun numeral => other numeral.1] at number
      cases number
    have plain : ∀ c ∈ text, plainChar c := fun c member => plainChar_of_isDigit (List.all_eq_true.mp digits c member)
    exact ⟨text, groupWords_word some plain, number⟩

end Reader

end Cbgp.Verified
