import Cbgp.Verified.PathParser
import Cbgp.Verified.PathPrinters

/-! # Printing and parsing AS-paths

What `path_from_string` makes of the text that `path_dump` prints in display order.  The text is a list
of words and groups; parsing goes through the path from its first segment on, rebuilds a SEQUENCE hop by
hop and a SET at once.  A SET of one ASN is printed as a group of one number, whose token is a number.
-/

namespace Cbgp.Verified

open Cbgp.Bgp

/-! ## Texts -/

/-- A part of a text between two spaces. -/
inductive TextItem where
  | word (text : List Char)
  | group (text : List Char)

namespace TextItem

def text : TextItem → List Char
  | word text => text
  | group text => '{' :: (text ++ ['}'])

/-- The token that the item gives: a group loses its brackets. -/
def token : TextItem → List Char
  | word text => text
  | group text => text

end TextItem

/-- Neither a space nor a bracket. -/
def plainChar (c : Char) : Bool := c ≠ ' ' && !(['{', '[', '(', '}', ']', ')'].contains c)

/-- A character of a group. -/
def groupChar (c : Char) : Bool := !(['{', '[', '(', '}', ']', ')'].contains c)

/-- An item whose text is read as one token. -/
def TextItem.Proper : TextItem → Prop
  | .word text => text ≠ [] ∧ ∀ c ∈ text, plainChar c
  | .group text => text ≠ [] ∧ ∀ c ∈ text, groupChar c

/-- The library as it is documented: texts are split at the spaces outside brackets, a group is one
token without its brackets, and a token is a number when it is a numeral, which several ASNs with
spaces between them are not. -/
structure Tokenizes (reader : PathReader) : Prop where
  items : ∀ items : List TextItem, (∀ item ∈ items, item.Proper) →
    reader.pathTokens (spaced (items.map TextItem.text)) = some (items.map TextItem.token)
  words : ∀ words : List (List Char), (∀ word ∈ words, word ≠ [] ∧ ∀ c ∈ word, plainChar c) →
    reader.segmentTokens (spaced words) = some words
  numeral : ∀ n < 2 ^ 32, reader.ulongAt (Nat.toDigits 10 n) = some n
  several : ∀ asns : List Asn, 1 < asns.length → reader.ulongAt (spaced (asns.map asnDigits)) = none

theorem plainChar_of_isDigit {c : Char} (digit : c.isDigit) : plainChar c := by
  have : c ≠ ' ' ∧ c ∉ ['{', '[', '(', '}', ']', ')'] := by
    constructor
    · rintro rfl
      revert digit
      decide
    · intro member
      simp only [List.mem_cons, List.not_mem_nil, or_false] at member
      rcases member with rfl | rfl | rfl | rfl | rfl | rfl <;> revert digit <;> decide
  simp [plainChar, this.1, this.2]

theorem groupChar_of_plainChar {c : Char} (plain : plainChar c) : groupChar c := by
  simp only [plainChar, Bool.and_eq_true] at plain
  exact plain.2

/-! ### The reader at hand -/

section Scan

variable (opening closing : List Char)

theorem scanTokens_word {word : List Char} (plain : ∀ c ∈ word, c ≠ ' ' ∧ opening.contains c = false)
    (text token : List Char) :
    scanTokens opening closing false (word ++ text) token =
      scanTokens opening closing false text (word.reverse ++ token) := by
  induction word generalizing token with
  | nil => rfl
  | cons c word inductionHypothesis =>
    obtain ⟨noSpace, noBracket⟩ := plain c List.mem_cons_self
    rw [List.cons_append, scanTokens, if_neg noSpace, if_neg (Bool.eq_false_iff.mp noBracket),
      inductionHypothesis fun other member => plain other (List.mem_cons_of_mem _ member)]
    simp

theorem scanTokens_group {body : List Char} (inside : ∀ c ∈ body, closing.contains c = false) (close : Char)
    (closes : closing.contains close = true) (text token : List Char) :
    scanTokens opening closing true (body ++ close :: text) token =
      (token.reverse ++ body) :: scanTokens opening closing false text [] := by
  induction body generalizing token with
  | nil => simp only [List.nil_append, scanTokens, closes, if_true, List.append_nil]
  | cons c body inductionHypothesis =>
    have open' := inside c List.mem_cons_self
    rw [List.cons_append, scanTokens, if_neg (Bool.eq_false_iff.mp open'),
      inductionHypothesis fun other member => inside other (List.mem_cons_of_mem _ member)]
    simp

/-- Words and spaces. -/
theorem scanTokens_words {words : List (List Char)}
    (plain : ∀ word ∈ words, word ≠ [] ∧ ∀ c ∈ word, c ≠ ' ' ∧ opening.contains c = false) :
    scanTokens opening closing false (spaced words) [] = words := by
  induction words with
  | nil => rfl
  | cons word words inductionHypothesis =>
    obtain ⟨some, chars⟩ := plain word List.mem_cons_self
    have rest := inductionHypothesis fun other member => plain other (List.mem_cons_of_mem _ member)
    have turned : word.reverse ≠ [] := by simpa using some
    cases words with
    | nil =>
      have read := scanTokens_word opening closing chars [] []
      rw [List.append_nil, List.append_nil] at read
      rw [spaced, List.intercalate_singleton, read, scanTokens, if_neg turned, List.reverse_reverse]
    | cons word' words =>
      rw [spaced, List.intercalate_cons_cons, List.append_assoc, scanTokens_word opening closing chars,
        List.append_nil, List.singleton_append, scanTokens, if_pos rfl, if_neg turned, List.reverse_reverse]
      exact congrArg _ rest

end Scan

theorem plainReader_items {items : List TextItem} (proper : ∀ item ∈ items, item.Proper) :
    scanTokens ['{', '[', '('] ['}', ']', ')'] false (spaced (items.map TextItem.text)) [] =
      items.map TextItem.token := by
  -- What the printer writes inside a word or a group, the scanner does not take for a delimiter.
  have word : ∀ c, plainChar c → c ≠ ' ' ∧ ['{', '[', '('].contains c = false := by
    intro c plain
    simp only [plainChar, Bool.and_eq_true, decide_eq_true_eq, Bool.not_eq_true'] at plain
    refine ⟨plain.1, ?_⟩
    have all := plain.2
    simp only [List.contains_cons, Bool.or_eq_false_iff] at all ⊢
    exact ⟨all.1, all.2.1, all.2.2.1, rfl⟩
  have body : ∀ c, groupChar c → ['}', ']', ')'].contains c = false := by
    intro c inside
    have all := inside
    simp only [groupChar, Bool.not_eq_true', List.contains_cons, Bool.or_eq_false_iff] at all ⊢
    exact ⟨all.2.2.2.1, all.2.2.2.2.1, all.2.2.2.2.2.1, rfl⟩
  induction items with
  | nil => rfl
  | cons item items inductionHypothesis =>
    have rest := inductionHypothesis fun other member => proper other (List.mem_cons_of_mem _ member)
    have here := proper item List.mem_cons_self
    cases item with
    | word text =>
      obtain ⟨some, chars⟩ := here
      have turned : text.reverse ≠ [] := by simpa using some
      have read := scanTokens_word ['{', '[', '('] ['}', ']', ')'] fun c member => word c (chars c member)
      cases items with
      | nil =>
        have read := read [] []
        rw [List.append_nil, List.append_nil] at read
        simp only [List.map_cons, List.map_nil, TextItem.text, TextItem.token, spaced,
          List.intercalate_singleton, read, scanTokens, if_neg turned, List.reverse_reverse]
      | cons item' items =>
        simp only [List.map_cons, TextItem.text, TextItem.token, spaced, List.intercalate_cons_cons,
          List.append_assoc, read, List.append_nil, List.singleton_append, scanTokens, if_pos, if_neg turned,
          List.reverse_reverse] at rest ⊢
        exact congrArg _ rest
    | group text =>
      obtain ⟨_, chars⟩ := here
      have read := scanTokens_group ['{', '[', '('] ['}', ']', ')']
        (fun c member => body c (chars c member)) '}' (by decide)
      have opened : ∀ after token, scanTokens ['{', '[', '('] ['}', ']', ')'] false ('{' :: after) token =
          scanTokens ['{', '[', '('] ['}', ']', ')'] true after [] := by
        intro after token
        simp [scanTokens]
      cases items with
      | nil =>
        simp only [List.map_cons, List.map_nil, TextItem.text, TextItem.token, spaced,
          List.intercalate_singleton, opened, read, scanTokens, List.reverse_nil, List.nil_append, if_true]
      | cons item' items =>
        simp only [List.map_cons, TextItem.text, TextItem.token, spaced, List.intercalate_cons_cons,
          List.cons_append, List.append_assoc, List.nil_append, opened, read,
          List.reverse_nil, scanTokens, if_true] at rest ⊢
        exact congrArg _ rest

/-- Several words have a space between them. -/
theorem space_mem_spaced {words : List (List Char)} (several : 1 < words.length) : ' ' ∈ spaced words := by
  match words with
  | [] | [_] => simp at several
  | first :: second :: rest => simp [spaced, List.intercalate_cons_cons]

theorem plainReader_tokenizes : Tokenizes plainReader where
  items items proper := congrArg some (plainReader_items proper)
  words words proper := by
    refine congrArg some (scanTokens_words [] [] fun word member => ?_)
    obtain ⟨some, chars⟩ := proper word member
    refine ⟨some, fun c inside => ⟨?_, rfl⟩⟩
    have plain := chars c inside
    simp only [plainChar, Bool.and_eq_true, decide_eq_true_eq] at plain
    exact plain.1
  numeral := decimalNumerals.asUint_decimal
  several asns more := by
    have notDigits : ¬ ((spaced (asns.map asnDigits)).all Char.isDigit = true) := by
      intro all
      have := List.all_eq_true.mp all ' ' (space_mem_spaced (by rwa [List.length_map]))
      revert this
      decide
    exact if_neg fun numeral => notDigits numeral.1

/-! ## The text of a path as items -/

/-- The items of a segment in display order. -/
def segmentItems (seg : PathSeg) : List TextItem :=
  match seg.type with
  | .sequence => seg.asns.reverse.map fun asn => .word (asnDigits asn)
  | .set => [.group (spaced (seg.asns.reverse.map asnDigits))]

theorem spaced_append {front back : List (List Char)} (some : front ≠ []) (some' : back ≠ []) :
    spaced (front ++ back) = spaced front ++ ' ' :: spaced back := by
  induction front with
  | nil => exact absurd rfl some
  | cons word front inductionHypothesis =>
    cases front with
    | nil =>
      obtain ⟨word', back, rfl⟩ := List.exists_cons_of_ne_nil some'
      simp [spaced, List.intercalate_singleton, List.intercalate_cons_cons]
    | cons word' front =>
      have rest := inductionHypothesis (List.cons_ne_nil _ _)
      simp only [spaced, List.cons_append, List.intercalate_cons_cons, List.append_assoc] at rest ⊢
      rw [rest]

/-- Spaces between groups of words. -/
theorem spaced_flatMap {α : Type} {words : α → List (List Char)} {items : List α}
    (some : ∀ item ∈ items, words item ≠ []) :
    spaced (items.map fun item => spaced (words item)) = spaced (items.flatMap words) := by
  induction items with
  | nil => rfl
  | cons item items inductionHypothesis =>
    have rest := inductionHypothesis fun other member => some other (List.mem_cons_of_mem _ member)
    cases items with
    | nil => simp [spaced, List.intercalate_singleton]
    | cons item' items =>
      have later : (item' :: items).flatMap words ≠ [] := by
        obtain ⟨word, member⟩ := List.exists_mem_of_ne_nil _ (some item' (by simp))
        exact List.ne_nil_of_mem (List.mem_flatMap.mpr ⟨item', List.mem_cons_self, member⟩)
      rw [List.flatMap_cons, spaced_append (some item List.mem_cons_self) later, ← rest]
      simp [spaced, List.intercalate_cons_cons]

theorem segmentItems_ne_nil {seg : PathSeg} (nonempty : seg.asns ≠ []) : segmentItems seg ≠ [] := by
  cases kind : seg.type with
  | sequence => simpa [segmentItems, kind] using nonempty
  | set => simp [segmentItems, kind]

theorem segmentItems_text {seg : PathSeg} :
    spaced ((segmentItems seg).map TextItem.text) = pathSegmentDump seg true := by
  cases kind : seg.type with
  | sequence =>
    simp only [segmentItems, pathSegmentDump, asnOrder, kind, List.map_map, if_true]
    rfl
  | set => simp [segmentItems, pathSegmentDump, asnOrder, kind, spaced, TextItem.text, List.intercalate_singleton]

theorem pathDump_items {path : Path} (nonempty : ∀ seg ∈ path, seg.asns ≠ []) :
    pathDump (some path) true = spaced ((path.reverse.flatMap segmentItems).map TextItem.text) := by
  have parts : (path.reverse.map fun seg => pathSegmentDump seg true) =
      path.reverse.map fun seg => spaced ((segmentItems seg).map TextItem.text) :=
    List.map_congr_left fun seg _ => segmentItems_text.symm
  rw [pathDump, printOrder, if_pos rfl, Option.getD_some, parts, List.map_flatMap]
  refine spaced_flatMap fun seg member => ?_
  have some := segmentItems_ne_nil (nonempty seg (List.mem_reverse.mp member))
  simpa using some

theorem asnDigits_proper (asn : Asn) : asnDigits asn ≠ [] ∧ ∀ c ∈ asnDigits asn, plainChar c :=
  ⟨asnDigits_ne_nil asn, fun _ member => plainChar_of_isDigit (asnDigits_isDigit member)⟩

theorem segmentItems_proper {seg : PathSeg} (nonempty : seg.asns ≠ []) {item : TextItem}
    (member : item ∈ segmentItems seg) : item.Proper := by
  cases kind : seg.type with
  | sequence =>
    simp only [segmentItems, kind, List.mem_map] at member
    obtain ⟨asn, _, rfl⟩ := member
    exact asnDigits_proper asn
  | set =>
    simp only [segmentItems, kind, List.mem_singleton] at member
    subst member
    obtain ⟨asn, inside⟩ := List.exists_mem_of_ne_nil _ nonempty
    obtain ⟨c, digit⟩ := List.exists_mem_of_ne_nil _ (asnDigits_ne_nil asn)
    refine ⟨List.ne_nil_of_mem (mem_spaced_of_mem
      (List.mem_map_of_mem (List.mem_reverse.mpr inside)) digit), fun c found => ?_⟩
    rcases mem_spaced found with rfl | ⟨word, written, here⟩
    · decide
    · obtain ⟨asn, _, rfl⟩ := List.mem_map.mp written
      exact groupChar_of_plainChar (plainChar_of_isDigit (asnDigits_isDigit here))

/-- The tokens of a segment, from the last to the first. -/
def segmentTokens (seg : PathSeg) : List (List Char) :=
  (segmentItems seg).reverse.map TextItem.token

/-- What the parser loops over. -/
theorem pathFromString_dump {reader : PathReader} (tokenizes : Tokenizes reader) {path : Path}
    (nonempty : ∀ seg ∈ path, seg.asns ≠ []) :
    pathFromString reader (pathDump (some path) true) =
      pathFromTokens reader (path.flatMap segmentTokens) [] := by
  have proper : ∀ item ∈ path.reverse.flatMap segmentItems, item.Proper := by
    intro item member
    obtain ⟨seg, inside, found⟩ := List.mem_flatMap.mp member
    exact segmentItems_proper (nonempty seg (List.mem_reverse.mp inside)) found
  have tokens : ((path.reverse.flatMap segmentItems).map TextItem.token).reverse =
      path.flatMap segmentTokens := by
    rw [← List.map_reverse, List.reverse_flatMap, List.reverse_reverse, List.map_flatMap]
    rfl
  simp only [pathFromString, pathDump_items nonempty, tokenizes.items _ proper, tokens]

/-! ## Parsing segment by segment -/

section Parse

variable {reader : PathReader} (tokenizes : Tokenizes reader)
include tokenizes

theorem ulongAt_asnDigits (asn : Asn) : reader.ulongAt (asnDigits asn) = some asn.toNat :=
  tokenizes.numeral asn.toNat (Nat.lt_trans asn.toNat_lt (by decide))

theorem pathFromTokens_hop (asn : Asn) (tokens : List (List Char)) (path : Path) :
    pathFromTokens reader (asnDigits asn :: tokens) path =
      pathFromTokens reader tokens ((pathAppend path asn).getD path) := by
  have small : ¬ asn.toNat > maxAs := Nat.not_lt.mpr asn.toNat_lt.le
  simp only [pathFromTokens, ulongAt_asnDigits tokenizes, if_neg small]
  simp

/-- The rest of a SEQUENCE. -/
theorem pathFromTokens_hops {seg whole : PathSeg} (kind : seg.type = .sequence)
    (kind' : whole.type = .sequence) {asns : List Asn} (content : whole.asns = seg.asns ++ asns)
    (path : Path) (tokens : List (List Char)) :
    pathFromTokens reader (asns.map asnDigits ++ tokens) (path ++ [seg]) =
      pathFromTokens reader tokens (path ++ [whole]) := by
  induction asns generalizing seg with
  | nil =>
    have same : whole = seg := PathSeg.eq_of (kind'.trans kind.symm) (by simpa using content)
    rw [List.map_nil, List.nil_append, same]
  | cons asn asns inductionHypothesis =>
    have short := whole.short
    have room : seg.asns.length < maxPathSequenceLength := by
      rw [content, List.length_append, List.length_cons] at short
      omega
    rw [List.map_cons, List.cons_append, pathFromTokens_hop tokenizes, pathAppend_sequence kind]
    simp only [pathSegmentAdd, dif_pos room, Option.map_some, Option.getD_some]
    exact inductionHypothesis kind (by simpa using content)

/-- The group of a SET of several ASNs. -/
theorem pathSegmentFromString_dump {seg : PathSeg} (kind : seg.type = .set) :
    pathSegmentFromString reader (spaced (seg.asns.reverse.map asnDigits)) = some seg := by
  have proper : ∀ word ∈ seg.asns.reverse.map asnDigits, word ≠ [] ∧ ∀ c ∈ word, plainChar c := by
    intro word member
    obtain ⟨asn, _, rfl⟩ := List.mem_map.mp member
    exact asnDigits_proper asn
  have numbers : (seg.asns.reverse.map asnDigits).mapM reader.numerals.asUint =
      some (seg.asns.reverse.map UInt16.toNat) := by
    refine mapM_of_forall₂ ?_
    rw [List.forall₂_map_left_iff, List.forall₂_map_right_iff, List.forall₂_same]
    exact fun asn _ => reader.numerals.asUint_decimal asn.toNat (Nat.lt_trans asn.toNat_lt (by decide))
  obtain ⟨seg', parsed, kind', content⟩ := pathSegmentFromString_read (tokenizes.words _ proper) numbers
    fun asn member => by
      obtain ⟨stored, _, rfl⟩ := List.mem_map.mp member
      exact stored.toNat_lt.le
  rw [parsed]
  refine congrArg some (PathSeg.eq_of (kind'.trans kind.symm) ?_)
  rw [content, ← List.map_reverse, List.reverse_reverse, List.map_map]
  have back : Nat.toUInt16 ∘ UInt16.toNat = id := by
    funext asn
    simp
  rw [back, List.map_id, List.take_of_length_le seg.short]

/-- A group of several ASNs is not a number. -/
theorem pathFromTokens_group {seg : PathSeg} (kind : seg.type = .set) (several : 1 < seg.asns.length)
    (tokens : List (List Char)) (path : Path) :
    pathFromTokens reader (spaced (seg.asns.reverse.map asnDigits) :: tokens) path =
      pathFromTokens reader tokens (path ++ [seg]) := by
  have notNumber := tokenizes.several seg.asns.reverse (by rwa [List.length_reverse])
  simp only [pathFromTokens, notNumber, pathSegmentFromString_dump tokenizes kind]

theorem pathFromTokens_segment {seg : PathSeg} (nonempty : seg.asns ≠ []) {path : Path}
    (apart : seg.type = .sequence → ∀ last ∈ path.getLast?, last.type = .set)
    (several : seg.type = .set → seg.asns.length ≠ 1) (tokens : List (List Char)) :
    pathFromTokens reader (segmentTokens seg ++ tokens) path = pathFromTokens reader tokens (path ++ [seg]) := by
  cases kind : seg.type with
  | sequence =>
    have words : segmentTokens seg = seg.asns.map asnDigits := by
      simp [segmentTokens, segmentItems, kind, TextItem.token, List.map_reverse, Function.comp_def]
    obtain ⟨asn, asns, content⟩ := List.exists_cons_of_ne_nil nonempty
    rw [words, content, List.map_cons, List.cons_append, pathFromTokens_hop tokenizes,
      pathAppend_set (apart kind), Option.getD_some]
    exact pathFromTokens_hops tokenizes rfl kind content path tokens
  | set =>
    have words : segmentTokens seg = [spaced (seg.asns.reverse.map asnDigits)] := by
      simp [segmentTokens, segmentItems, kind, TextItem.token]
    have more : 1 < seg.asns.length := by
      have := several kind
      have := List.length_pos_iff.mpr nonempty
      omega
    rw [words, List.singleton_append, pathFromTokens_group tokenizes kind more]

/-- A path of segments that are told apart is read back. -/
theorem pathFromTokens_path {path acc : Path} (nonempty : ∀ seg ∈ path, seg.asns ≠ [])
    (apart : path.IsChain fun seg next => ¬ (seg.type = .sequence ∧ next.type = .sequence))
    (before : ∀ seg ∈ path.head?, seg.type = .sequence → ∀ last ∈ acc.getLast?, last.type = .set)
    (several : ∀ seg ∈ path, seg.type = .set → seg.asns.length ≠ 1) :
    pathFromTokens reader (path.flatMap segmentTokens) acc = some (acc ++ path) := by
  induction path generalizing acc with
  | nil => simp [pathFromTokens]
  | cons seg path inductionHypothesis =>
    rw [List.flatMap_cons, pathFromTokens_segment tokenizes (nonempty seg List.mem_cons_self)
      (before seg rfl) (several seg List.mem_cons_self)]
    have next : ∀ seg' ∈ path.head?, seg'.type = .sequence →
        ∀ last ∈ (acc ++ [seg]).getLast?, last.type = .set := by
      intro seg' first sequence last ends
      rw [List.getLast?_concat, Option.mem_some_iff] at ends
      subst ends
      cases path with
      | nil => cases first
      | cons other path =>
        cases first
        have neighbours := (List.isChain_cons_cons.mp apart).1
        cases kind : seg.type with
        | set => rfl
        | sequence => exact absurd ⟨kind, sequence⟩ neighbours
    rw [inductionHypothesis (fun other member => nonempty other (List.mem_cons_of_mem _ member))
      apart.of_cons next fun other member => several other (List.mem_cons_of_mem _ member)]
    simp

omit tokenizes in
/-- Hops leave the number of SETs as it is. -/
theorem pathAppend_sets (path : Path) (asn : Asn) :
    ((pathAppend path asn).getD path).countP (fun seg => seg.type = .set) =
      path.countP fun seg => seg.type = .set := by
  rw [pathAppend_eq]
  split
  · rfl
  · rw [Option.getD_some]
    induction path with
    | nil => rfl
    | cons seg path inductionHypothesis =>
      cases path with
      | nil =>
        simp only [prependAs]
        split
        next open' => simp [open'.1]
        next => simp [sequenceOf, List.countP_cons]
      | cons next path =>
        rename_i room
        rw [lastFull_cons_cons] at room
        rw [prependAs, List.countP_cons, List.countP_cons, inductionHypothesis room]

theorem pathFromTokens_hops_sets (asns : List Asn) (tokens : List (List Char)) (acc : Path) :
    ∃ acc', pathFromTokens reader (asns.map asnDigits ++ tokens) acc = pathFromTokens reader tokens acc' ∧
      acc'.countP (fun seg => seg.type = .set) = acc.countP fun seg => seg.type = .set := by
  induction asns generalizing acc with
  | nil => exact ⟨acc, rfl, rfl⟩
  | cons asn asns inductionHypothesis =>
    obtain ⟨acc', parsed, same⟩ := inductionHypothesis ((pathAppend acc asn).getD acc)
    refine ⟨acc', ?_, same.trans (pathAppend_sets acc asn)⟩
    rw [List.map_cons, List.cons_append, pathFromTokens_hop tokenizes]
    exact parsed

/-- The SETs that are read back are those of several ASNs. -/
theorem pathFromTokens_sets {path : Path} (nonempty : ∀ seg ∈ path, seg.asns ≠ []) (acc : Path) :
    ∃ path', pathFromTokens reader (path.flatMap segmentTokens) acc = some path' ∧
      path'.countP (fun seg => seg.type = .set) =
        acc.countP (fun seg => seg.type = .set) +
          path.countP fun seg => seg.type = .set && seg.asns.length ≠ 1 := by
  induction path generalizing acc with
  | nil => exact ⟨acc, rfl, rfl⟩
  | cons seg path inductionHypothesis =>
    have step : ∃ acc', pathFromTokens reader ((seg :: path).flatMap segmentTokens) acc =
        pathFromTokens reader (path.flatMap segmentTokens) acc' ∧
        acc'.countP (fun seg => seg.type = .set) = acc.countP (fun seg => seg.type = .set) +
          if seg.type = .set && seg.asns.length ≠ 1 then 1 else 0 := by
      rw [List.flatMap_cons]
      by_cases sequence : seg.type = .sequence ∨ seg.asns.length = 1
      · -- the ASNs are read as hops
        have words : segmentTokens seg = seg.asns.map asnDigits := by
          cases kind : seg.type with
          | sequence =>
            simp [segmentTokens, segmentItems, kind, TextItem.token, List.map_reverse, Function.comp_def]
          | set =>
            have one : seg.asns.length = 1 := by simpa [kind] using sequence
            obtain ⟨asn, content⟩ := List.length_eq_one_iff.mp one
            simp [segmentTokens, segmentItems, kind, content, TextItem.token, spaced,
              List.intercalate_singleton]
        have notCounted : ¬ ((seg.type = .set && seg.asns.length ≠ 1) = true) := by
          simp only [Bool.and_eq_true, decide_eq_true_eq]
          rintro ⟨set, several⟩
          rcases sequence with kind | one
          · rw [kind] at set
            cases set
          · exact several one
        obtain ⟨acc', parsed, same⟩ :=
          pathFromTokens_hops_sets tokenizes seg.asns (path.flatMap segmentTokens) acc
        exact ⟨acc', words ▸ parsed, by rw [same, if_neg notCounted, Nat.add_zero]⟩
      · push Not at sequence
        have kind : seg.type = .set := by
          cases kind : seg.type with
          | set => rfl
          | sequence => exact absurd kind sequence.1
        refine ⟨acc ++ [seg], pathFromTokens_segment tokenizes (nonempty seg List.mem_cons_self)
          (fun isSequence => absurd isSequence sequence.1) (fun _ => sequence.2) _, ?_⟩
        simp [kind, sequence.2]
    obtain ⟨acc', parsed, sets⟩ := step
    obtain ⟨path', rest, sets'⟩ := inductionHypothesis
      (fun other member => nonempty other (List.mem_cons_of_mem _ member)) acc'
    refine ⟨path', parsed.trans rest, ?_⟩
    rw [sets', sets, List.countP_cons]
    omega

/-! ## The round trip -/

omit tokenizes in
/-- A path has as many SETs as one that is the same segment by segment. -/
theorem sets_of_samePath {path path' : Path} (same : samePath (some path') (some path)) :
    path'.countP (fun seg => seg.type = .set) = path.countP fun seg => seg.type = .set := by
  have segments : List.Forall₂ PathSeg.Same path' path := same
  clear same
  induction segments with
  | nil => rfl
  | cons first _ inductionHypothesis => rw [List.countP_cons, List.countP_cons, first.1, inductionHypothesis]

omit tokenizes in
/-- A SET of one ASN is not among those of several. -/
theorem sets_fewer {path : Path} {seg : PathSeg} (member : seg ∈ path) (kind : seg.type = .set)
    (one : seg.asns.length = 1) :
    path.countP (fun seg => seg.type = .set && seg.asns.length ≠ 1) <
      path.countP fun seg => seg.type = .set := by
  obtain ⟨front, back, rfl⟩ := List.append_of_mem member
  have le : ∀ part : Path, part.countP (fun seg => seg.type = .set && seg.asns.length ≠ 1) ≤
      part.countP fun seg => seg.type = .set := fun part =>
    List.countP_mono_left fun other _ both => (Bool.and_eq_true_iff.mp both).1
  have inFront := le front
  have inBack := le back
  rw [List.countP_append, List.countP_append, List.countP_cons, List.countP_cons]
  have counted : (decide (seg.type = .set) && decide (seg.asns.length ≠ 1)) = false := by simp [one]
  rw [if_neg (by rw [counted]; exact Bool.false_ne_true), if_pos (decide_eq_true kind)]
  omega

/-- The printed text gives the path again, segment by segment, exactly when no SET has a single ASN. -/
theorem pathFromString_pathDump_iff {path : Path} (nonempty : ∀ seg ∈ path, seg.asns ≠ [])
    (apart : path.IsChain fun seg next => ¬ (seg.type = .sequence ∧ next.type = .sequence)) :
    (∃ path', pathFromString reader (pathDump (some path) true) = some path' ∧
        samePath (some path') (some path)) ↔
      ∀ seg ∈ path, seg.type = .set → seg.asns.length ≠ 1 := by
  rw [pathFromString_dump tokenizes nonempty]
  constructor
  · rintro ⟨path', parsed, same⟩
    obtain ⟨path'', parsed', sets⟩ := pathFromTokens_sets tokenizes nonempty []
    rw [parsed] at parsed'
    cases parsed'
    -- the SETs that are read back are as many as the path has
    rw [List.countP_nil, Nat.zero_add, sets_of_samePath same] at sets
    intro seg member kind one
    have fewer := sets_fewer member kind one
    omega
  · intro several
    refine ⟨path, ?_, List.forall₂_same.mpr fun seg _ => seg.same_refl⟩
    exact pathFromTokens_path tokenizes nonempty apart
      (by
        intro seg _ _ last absurd
        cases absurd) several

end Parse

/-- A SET of one ASN. -/
def loneSet : Path := [⟨.set, [5], by decide⟩]

theorem pathFromString_setPath :
    (∃ path', pathFromString plainReader (pathDump (some setPath) true) = some path' ∧
        samePath (some path') (some setPath)) ↔
      ∀ seg ∈ setPath, seg.type = .set → seg.asns.length ≠ 1 :=
  pathFromString_pathDump_iff plainReader_tokenizes (by decide) (.singleton _)

/-- It is read as a SEQUENCE. -/
theorem loneSet_lost : ¬ ∃ path', pathFromString plainReader (pathDump (some loneSet) true) = some path' ∧
    samePath (some path') (some loneSet) := by
  have parsed : pathFromString plainReader (pathDump (some loneSet) true) = some [sequenceOf 5] := by
    decide +kernel
  rintro ⟨path', parsed', same⟩
  rw [parsed] at parsed'
  cases parsed'
  have same : List.Forall₂ PathSeg.Same [sequenceOf 5] loneSet := same
  cases same with
  | cons first _ => cases first.1

end Cbgp.Verified
