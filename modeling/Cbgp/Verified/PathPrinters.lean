import Cbgp.Lib.Run
import Cbgp.Bgp.PathText

/-! # The two printers of AS-paths

`path_to_string` writes into a buffer, `path_dump` to a stream.  A printing step is described by the
text it adds to what the buffer filled (`Prints`): it succeeds exactly when the text and its end fit.
Steps compose, so the text of a path in reverse order is put together from those of its segments.  The
two texts differ in the opening bracket of a SET.
-/

namespace Cbgp.Verified

open Cbgp.Lib Cbgp.Bgp

/-! ## Printing steps -/

/-- The buffer of a size filled a text, its end right behind it. -/
structure Filled (size : ℕ) (done : List Char) (dst : Dst) : Prop where
  length : dst.mem.length = size
  pos : dst.pos = done.length
  room : dst.pos + dst.room = size
  space : 0 < dst.room
  text : dst.mem.take dst.pos = done
  ended : done ≠ [] → dst.mem[dst.pos]? = some '\x00'

/-- A step adds a text, or reports that it does not fit. -/
structure Prints (step : Dst → Except PrintStop Dst) (text : List Char) : Prop where
  fits : ∀ {size done dst}, Filled size done dst → done.length + text.length < size →
    ∃ dst', step dst = .ok dst' ∧ Filled size (done ++ text) dst'
  full : ∀ {size done dst}, Filled size done dst → ¬ done.length + text.length < size →
    step dst = .error .tooSmall

theorem Prints.nothing : Prints .ok [] where
  fits filled _ := ⟨_, rfl, by simpa using filled⟩
  full {size done dst} filled full := by
    have := filled.room
    have := filled.space
    have := filled.pos
    simp only [List.length_nil] at full
    omega

/-- One step after another. -/
theorem Prints.bind {step step' : Dst → Except PrintStop Dst} {text text' : List Char}
    (first : Prints step text) (second : Prints step' text') :
    Prints (fun dst => step dst >>= step') (text ++ text') where
  fits {size done dst} filled room := by
    rw [List.length_append] at room
    obtain ⟨dst1, printed, filled1⟩ := first.fits filled (by omega)
    obtain ⟨dst2, printed', filled2⟩ := second.fits filled1 (by rw [List.length_append]; omega)
    rw [List.append_assoc] at filled2
    refine ⟨dst2, ?_, filled2⟩
    simp only [printed]
    exact printed'
  full {size done dst} filled full := by
    rw [List.length_append] at full
    by_cases room : done.length + text.length < size
    · obtain ⟨dst1, printed, filled1⟩ := first.fits filled room
      simp only [printed]
      exact second.full filled1 (by rw [List.length_append]; omega)
    · simp only [first.full filled room]
      rfl

theorem sizeSub_of_le {size written : ℕ} (le : written ≤ size) : sizeSub size written = size - written :=
  if_pos le

/-- What `snprintf` leaves of a text that fits. -/
theorem snprintf_fits {size : ℕ} {done : List Char} {dst : Dst} (filled : Filled size done dst)
    {text : List Char} (fits : text.length < dst.room) :
    ∃ mem, snprintf dst text = .ok mem ∧
      (0 < text.length → Filled size (done ++ text) (dst.advance mem text.length)) := by
  have kept : text.take (dst.room - 1) = text := List.take_of_length_le (by omega)
  -- The terminating zero takes the last place of what is free.
  have inside : dst.pos + text.length < dst.mem.length := by
    rw [filled.length, ← filled.room]
    omega
  refine ⟨dst.mem.take dst.pos ++ text ++ '\x00' :: dst.mem.drop (dst.pos + text.length + 1), ?_, ?_⟩
  · simp only [snprintf, if_neg (Nat.pos_iff_ne_zero.mp filled.space), kept, if_pos inside]
  · intro nonempty
    have before : (dst.mem.take dst.pos).length = dst.pos := by
      rw [List.length_take]
      omega
    have whole : (done ++ text).length = dst.pos + text.length := by
      rw [List.length_append, filled.pos]
    exact {
      length := by
        simp only [Dst.advance, List.length_append, List.length_cons, List.length_drop, before]
        have := filled.length
        omega
      pos := whole.symm
      room := by
        simp only [Dst.advance, sizeSub_of_le fits.le]
        have := filled.room
        omega
      space := by
        simp only [Dst.advance, sizeSub_of_le fits.le]
        omega
      text := by
        simp only [Dst.advance, filled.text]
        rw [← whole, List.take_left]
      ended := by
        intro _
        simp only [Dst.advance, filled.text]
        rw [← whole, List.getElem?_append_right (Nat.le_refl _)]
        simp }

/-- `snprintf` never writes outside the buffer while the offset and the room add up to its size. -/
theorem snprintf_inside {size : ℕ} {done : List Char} {dst : Dst} (filled : Filled size done dst)
    (text : List Char) : ∃ mem, snprintf dst text = .ok mem := by
  have inside : dst.pos + (text.take (dst.room - 1)).length < dst.mem.length := by
    have := filled.space
    rw [filled.length, ← filled.room, List.length_take]
    omega
  simp only [snprintf, if_neg (Nat.pos_iff_ne_zero.mp filled.space), if_pos inside]
  exact ⟨_, rfl⟩

theorem room_iff {size : ℕ} {done : List Char} {dst : Dst} (filled : Filled size done dst)
    (written : ℕ) : done.length + written < size ↔ written < dst.room := by
  have := filled.room
  have := filled.pos
  omega

theorem printText_prints {text : List Char} (nonempty : text ≠ []) :
    Prints (fun dst => printText dst text) text where
  fits {size done dst} filled room := by
    have fits := (room_iff filled text.length).mp room
    obtain ⟨mem, printed, filled'⟩ := snprintf_fits filled fits
    refine ⟨dst.advance mem text.length, ?_, filled' (List.length_pos_iff.mpr nonempty)⟩
    simp [printText, printed, Except.bind, bind, Nat.not_le.mpr fits]
  full {size done dst} filled full := by
    have full : ¬ text.length < dst.room := fun fits => full ((room_iff filled _).mpr fits)
    obtain ⟨mem, printed⟩ := snprintf_inside filled text
    simp [printText, printed, Except.bind, bind, Nat.not_lt.mp full]

theorem cString_text {text rest : List Char} (proper : ∀ c ∈ text, c ≠ '\x00') :
    cString (text ++ '\x00' :: rest) = text := by
  rw [cString, List.takeWhile_append_of_pos (fun c member => by simpa using proper c member)]
  simp

/-- The string in a buffer that filled a text. -/
theorem Filled.string {size : ℕ} {done : List Char} {dst : Dst} (filled : Filled size done dst)
    (some : done ≠ []) (proper : ∀ c ∈ done, c ≠ '\x00') : cString dst.mem = done := by
  obtain ⟨inside, ended⟩ := List.getElem?_eq_some_iff.mp (filled.ended some)
  have contents : dst.mem = done ++ '\x00' :: dst.mem.drop (dst.pos + 1) := by
    rw [← ended, List.getElem_cons_drop]
    conv_rhs => rw [← filled.text]
    exact (List.take_append_drop _ _).symm
  rw [contents, cString_text proper]

theorem Filled.start {mem : List Char} (space : 0 < mem.length) : Filled mem.length [] ⟨mem, 0, mem.length⟩ :=
  ⟨rfl, rfl, Nat.zero_add _, space, rfl, fun absurd => (absurd rfl).elim⟩

/-! ## Segments and paths in reverse order -/

theorem asnDigits_ne_nil (asn : Asn) : asnDigits asn ≠ [] := Nat.toDigits_ne_nil

/-- A loop that prints words with a space before all but the first. -/
theorem printWords_prints {α : Type} {digits : α → List Char} (proper : ∀ a, digits a ≠ [])
    {print : Bool → List α → Dst → Except PrintStop Dst} (stops : ∀ first dst, print first [] dst = .ok dst)
    (turn : ∀ first a items dst, print first (a :: items) dst =
      printText dst (if first then digits a else ' ' :: digits a) >>= print false items)
    (items : List α) (first : Bool) :
    Prints (print first items)
      (if items = [] then [] else if first then spaced (items.map digits)
        else ' ' :: spaced (items.map digits)) := by
  induction items generalizing first with
  | nil =>
    have nothing : print first [] = .ok := funext (stops first)
    rw [nothing]
    exact Prints.nothing
  | cons a items inductionHypothesis =>
    have nonempty : (if first then digits a else ' ' :: digits a) ≠ [] := by
      cases first with
      | true => exact proper a
      | false => exact List.cons_ne_nil _ _
    have both := (printText_prints nonempty).bind (inductionHypothesis false)
    have same : (if first then digits a else ' ' :: digits a) ++
        (if items = [] then [] else if false then spaced (items.map digits)
          else ' ' :: spaced (items.map digits)) =
        if first then spaced ((a :: items).map digits) else ' ' :: spaced ((a :: items).map digits) := by
      cases items with
      | nil => cases first <;> simp [spaced, List.intercalate_singleton]
      | cons a' items => cases first <;> simp [spaced, List.intercalate_cons_cons]
    rw [if_neg (List.cons_ne_nil _ _), ← same, funext (turn first a items)]
    exact both

theorem printAsns_prints (asns : List Asn) (first : Bool) :
    Prints (printAsns first asns)
      (if asns = [] then [] else if first then spaced (asns.map asnDigits)
        else ' ' :: spaced (asns.map asnDigits)) :=
  printWords_prints asnDigits_ne_nil (fun _ _ => rfl) (fun _ _ _ _ => rfl) asns first

/-- What is printed before and after the ASNs of a segment. -/
def bracketText (seg : PathSeg) : List Char :=
  match seg.type with
  | .sequence => []
  | .set => ['}']

/-- The equality in the check of the opening bracket does for a buffer with room. -/
theorem printOpening_prints (seg : PathSeg) : Prints (printOpening seg) (bracketText seg) := by
  cases kind : seg.type with
  | sequence =>
    have same : printOpening seg = .ok := by
      funext dst
      simp only [printOpening, kind]
    simpa only [same, bracketText, kind] using Prints.nothing
  | set =>
    simp only [bracketText, kind]
    exact {
      fits {size done dst} filled room := by
        have fits := (room_iff filled _).mp room
        obtain ⟨mem, printed, filled'⟩ := snprintf_fits filled fits
        refine ⟨dst.advance mem 1, ?_, filled' (by simp)⟩
        have notOne : ¬ 1 = dst.room := fits.ne
        simp [printOpening, kind, printed, Except.bind, bind, notOne]
      full {size done dst} filled full := by
        have full : ¬ ['}'].length < dst.room := fun fits => full ((room_iff filled _).mpr fits)
        obtain ⟨mem, printed⟩ := snprintf_inside filled ['}']
        have one : 1 = dst.room := by
          have := filled.space
          simp only [List.length_singleton] at full
          omega
        simp [printOpening, kind, printed, Except.bind, bind, ← one] }

theorem printClosing_prints (seg : PathSeg) : Prints (printClosing seg) (bracketText seg) := by
  cases kind : seg.type with
  | sequence =>
    have same : printClosing seg = .ok := by
      funext dst
      simp only [printClosing, kind]
    simpa only [same, bracketText, kind] using Prints.nothing
  | set =>
    have same : printClosing seg = fun dst => printText dst ['}'] := by
      funext dst
      simp only [printClosing, kind]
    rw [same]
    simpa only [bracketText, kind] using printText_prints (List.cons_ne_nil '}' [])

/-- The text that `path_segment_to_string` writes in reverse order. -/
def segmentText (seg : PathSeg) : List Char :=
  bracketText seg ++ (spaced (seg.asns.reverse.map asnDigits) ++ bracketText seg)

theorem pathSegmentToString_prints {seg : PathSeg} (nonempty : seg.asns ≠ []) :
    Prints (pathSegmentToString seg true) (segmentText seg) := by
  have content := printAsns_prints seg.asns.reverse true
  rw [if_neg (by simpa using nonempty), if_pos rfl] at content
  have same : pathSegmentToString seg true = fun dst => printOpening seg dst >>= fun dst =>
      printContent seg true dst >>= printClosing seg := by
    funext dst
    simp only [pathSegmentToString, if_neg nonempty]
  rw [same]
  exact (printOpening_prints seg).bind (content.bind (printClosing_prints seg))

/-- The text that `path_to_string` writes in reverse order. -/
def pathText (path : Option Path) : List Char :=
  spaced ((printOrder path true).map segmentText)

theorem printSpace_prints (first : Bool) :
    Prints (printSpace first) (if first then [] else [' ']) := by
  cases first with
  | true => exact Prints.nothing
  | false => exact printText_prints (List.cons_ne_nil ' ' [])

/-- The check of `path_to_string` after a segment adds nothing to those made inside it. -/
theorem checked_prints {seg : PathSeg} (nonempty : seg.asns ≠ []) :
    Prints (fun dst => pathSegmentToString seg true dst >>= fun next =>
      if next.pos - dst.pos ≥ dst.room then .error .tooSmall else .ok next) (segmentText seg) where
  fits {size done dst} filled room := by
    obtain ⟨next, printed, filled'⟩ := (pathSegmentToString_prints nonempty).fits filled room
    have short : ¬ next.pos - dst.pos ≥ dst.room := by
      have := filled.room
      have := filled.space
      have := filled'.room
      have := filled'.space
      omega
    refine ⟨next, ?_, filled'⟩
    simp only [printed, bind, Except.bind, if_neg short]
  full {size done dst} filled full := by
    simp only [(pathSegmentToString_prints nonempty).full filled full]
    rfl

theorem printSegments_prints {path : List PathSeg} (nonempty : ∀ seg ∈ path, seg.asns ≠ [])
    (first : Bool) :
    Prints (printSegments true first path)
      (if path = [] then [] else (if first then [] else [' ']) ++ spaced (path.map segmentText)) := by
  induction path generalizing first with
  | nil => exact Prints.nothing
  | cons seg path inductionHypothesis =>
    have rest := inductionHypothesis (fun other member => nonempty other (List.mem_cons_of_mem _ member)) false
    have all := (printSpace_prints first).bind
      ((checked_prints (nonempty seg List.mem_cons_self)).bind rest)
    have steps : printSegments true first (seg :: path) = fun dst => printSpace first dst >>= fun dst =>
        (pathSegmentToString seg true dst >>= fun next =>
          if next.pos - dst.pos ≥ dst.room then .error .tooSmall else .ok next) >>=
            printSegments true false path := by
      funext dst
      simp only [printSegments, bind_assoc]
      congr 1
      funext dst
      congr 1
      funext next
      split <;> rfl
    have text : segmentText seg ++ (if path = [] then [] else [' '] ++ spaced (path.map segmentText)) =
        spaced ((seg :: path).map segmentText) := by
      cases path with
      | nil => simp [spaced, List.intercalate_singleton]
      | cons seg' path => simp [spaced, List.intercalate_cons_cons]
    simp only [Bool.false_eq_true, if_false] at all
    rw [text] at all
    rw [steps, if_neg (List.cons_ne_nil _ _)]
    exact all

/-! ## The whole text -/

theorem asnDigits_isDigit {asn : Asn} {c : Char} (member : c ∈ asnDigits asn) : c.isDigit :=
  Nat.isDigit_of_mem_toDigits (by decide) (by decide) member

/-- Of what a list of words with spaces between them consists. -/
theorem mem_spaced {words : List (List Char)} {c : Char} (member : c ∈ spaced words) :
    c = ' ' ∨ ∃ word ∈ words, c ∈ word := by
  induction words with
  | nil => simp [spaced] at member
  | cons word words inductionHypothesis =>
    cases words with
    | nil =>
      rw [spaced, List.intercalate_singleton] at member
      exact .inr ⟨word, List.mem_cons_self, member⟩
    | cons word' words =>
      rw [spaced, List.intercalate_cons_cons, List.append_assoc, List.mem_append, List.mem_append] at member
      rcases member with here | space | later
      · exact .inr ⟨word, List.mem_cons_self, here⟩
      · exact .inl (List.mem_singleton.mp space)
      · rcases inductionHypothesis later with space | ⟨other, inside, found⟩
        · exact .inl space
        · exact .inr ⟨other, List.mem_cons_of_mem _ inside, found⟩

theorem mem_spaced_of_mem {words : List (List Char)} {word : List Char} (inside : word ∈ words)
    {c : Char} (member : c ∈ word) : c ∈ spaced words := by
  induction words with
  | nil => cases inside
  | cons first words inductionHypothesis =>
    cases words with
    | nil =>
      rw [List.mem_singleton] at inside
      rwa [spaced, List.intercalate_singleton, ← inside]
    | cons word' words =>
      rw [spaced, List.intercalate_cons_cons, List.append_assoc, List.mem_append, List.mem_append]
      rcases List.mem_cons.mp inside with rfl | later
      · exact .inl member
      · exact .inr (.inr (inductionHypothesis later))

theorem length_spaced {words : List (List Char)} (some : words ≠ []) :
    (spaced words).length + 1 = (words.map fun word => word.length + 1).sum := by
  induction words with
  | nil => exact absurd rfl some
  | cons word words inductionHypothesis =>
    cases words with
    | nil => simp [spaced, List.intercalate_singleton]
    | cons word' words =>
      have rest := inductionHypothesis (List.cons_ne_nil _ _)
      simp only [spaced, List.intercalate_cons_cons, List.map_cons, List.sum_cons, List.length_append,
        List.length_singleton] at rest ⊢
      omega

theorem length_spaced_congr {α : Type} {f g : α → List Char} {items : List α}
    (same : ∀ item ∈ items, (f item).length = (g item).length) :
    (spaced (items.map f)).length = (spaced (items.map g)).length := by
  induction items with
  | nil => rfl
  | cons item items inductionHypothesis =>
    have here := same item List.mem_cons_self
    have rest := inductionHypothesis fun other member => same other (List.mem_cons_of_mem _ member)
    cases items with
    | nil => simpa [spaced, List.intercalate_singleton] using here
    | cons item' items => simpa [spaced, List.intercalate_cons_cons, here] using rest

/-- Which characters stand in a printed segment. -/
theorem mem_segmentText {seg : PathSeg} {c : Char} (member : c ∈ segmentText seg) :
    c = '}' ∨ c = ' ' ∨ c.isDigit := by
  have content : c ∈ spaced (seg.asns.reverse.map asnDigits) → c = '}' ∨ c = ' ' ∨ c.isDigit := by
    intro inside
    rcases mem_spaced inside with space | ⟨word, written, found⟩
    · exact .inr (.inl space)
    · obtain ⟨asn, _, rfl⟩ := List.mem_map.mp written
      exact .inr (.inr (asnDigits_isDigit found))
  rw [segmentText, List.mem_append, List.mem_append] at member
  cases kind : seg.type with
  | sequence =>
    simp only [bracketText, kind, List.not_mem_nil, false_or, or_false] at member
    exact content member
  | set =>
    simp only [bracketText, kind, List.mem_singleton] at member
    rcases member with bracket | inside | bracket
    · exact .inl bracket
    · exact content inside
    · exact .inl bracket

theorem mem_pathText {path : Option Path} {c : Char} (member : c ∈ pathText path) :
    c = '}' ∨ c = ' ' ∨ c.isDigit := by
  rcases mem_spaced member with space | ⟨word, written, found⟩
  · exact .inr (.inl space)
  · obtain ⟨seg, _, rfl⟩ := List.mem_map.mp written
    exact mem_segmentText found

/-- The two texts have the same length. -/
theorem length_pathText (path : Option Path) : (pathText path).length = (pathDump path true).length := by
  refine length_spaced_congr fun seg _ => ?_
  cases kind : seg.type with
  | sequence => simp [segmentText, bracketText, pathSegmentDump, asnOrder, kind]
  | set => simp [segmentText, bracketText, pathSegmentDump, asnOrder, kind]

theorem mem_printOrder {path : Option Path} {reverse : Bool} {seg : PathSeg} :
    seg ∈ printOrder path reverse ↔ seg ∈ path.getD [] := by
  cases reverse <;> simp [printOrder]

/-- The texts are the same when there is no SET. -/
theorem pathText_eq_iff (path : Option Path) :
    pathText path = pathDump path true ↔ ∀ seg ∈ path.getD [], seg.type = .sequence := by
  constructor
  · -- an opening bracket is in the dump only
    intro same seg member
    cases kind : seg.type with
    | sequence => rfl
    | set =>
      have opened : '{' ∈ pathDump path true :=
        mem_spaced_of_mem (List.mem_map_of_mem (mem_printOrder.mpr member))
          (by simp [pathSegmentDump, kind])
      rw [← same] at opened
      have := mem_pathText opened
      revert this
      decide
  · intro sequences
    have segments : (printOrder path true).map segmentText =
        (printOrder path true).map fun seg => pathSegmentDump seg true := by
      refine List.map_congr_left fun seg member => ?_
      have kind := sequences seg (mem_printOrder.mp member)
      simp [segmentText, bracketText, pathSegmentDump, asnOrder, kind]
    rw [pathText, pathDump, segments]

theorem pathText_ne_nil {path : Option Path} (nonempty : ∀ seg ∈ path.getD [], seg.asns ≠ [])
    (order : printOrder path true ≠ []) : pathText path ≠ [] := by
  -- any digit of any ASN
  obtain ⟨seg, member⟩ := List.exists_mem_of_ne_nil _ order
  obtain ⟨asn, inside⟩ := List.exists_mem_of_ne_nil _ (nonempty seg (mem_printOrder.mp member))
  obtain ⟨c, digit⟩ := List.exists_mem_of_ne_nil _ (asnDigits_ne_nil asn)
  have content : c ∈ spaced (seg.asns.reverse.map asnDigits) :=
    mem_spaced_of_mem (List.mem_map_of_mem (List.mem_reverse.mpr inside)) digit
  have written : c ∈ segmentText seg := by
    rw [segmentText, List.mem_append, List.mem_append]
    exact .inr (.inl content)
  exact List.ne_nil_of_mem (mem_spaced_of_mem (List.mem_map_of_mem member) written)

/-- What `path_to_string` does in reverse order with a buffer that is not empty. -/
theorem pathToString_reverse {path : Option Path} (nonempty : ∀ seg ∈ path.getD [], seg.asns ≠ [])
    {mem : List Char} (space : 0 < mem.length) :
    if (pathText path).length < mem.length then
      ∃ mem', pathToString path true mem = .ok (mem', (pathText path).length) ∧
        cString mem' = pathText path
    else pathToString path true mem = .error .tooSmall := by
  by_cases segments : path.getD [] = []
  · -- an empty text, written by hand
    cases mem with
    | nil => exact absurd space (Nat.lt_irrefl 0)
    | cons c mem =>
      have empty : pathText path = [] := by simp [pathText, printOrder, segments, spaced]
      rw [empty, List.length_nil, if_pos space]
      exact ⟨'\x00' :: mem, by simp [pathToString, pathNumSegments, segments], rfl⟩
  · have order : printOrder path true ≠ [] := by simpa [printOrder] using segments
    have ordered : ∀ seg ∈ printOrder path true, seg.asns ≠ [] := fun seg member =>
      nonempty seg (mem_printOrder.mp member)
    have prints := printSegments_prints ordered true
    rw [if_neg order, if_pos rfl, List.nil_append] at prints
    have filled := Filled.start space
    have notEmpty : ¬ pathNumSegments path = 0 := by simpa [pathNumSegments] using segments
    split
    next fits =>
      obtain ⟨dst, printed, filled'⟩ := prints.fits filled (by simpa [pathText] using fits)
      rw [List.nil_append] at filled'
      have written : sizeSub mem.length dst.room = (pathText path).length := by
        have := filled'.room
        have := filled'.pos
        rw [sizeSub_of_le (by omega)]
        simp only [pathText]
        omega
      have proper : ∀ c ∈ pathText path, c ≠ '\x00' := by
        rintro c member rfl
        have := mem_pathText member
        revert this
        decide
      have someText := pathText_ne_nil nonempty order
      refine ⟨dst.mem, ?_, filled'.string someText proper⟩
      simp only [pathToString, if_neg notEmpty, printed, bind, Except.bind, written]
    next full =>
      have stopped := prints.full filled (by simpa [pathText] using full)
      simp only [pathToString, if_neg notEmpty, stopped, bind, Except.bind]

/-! ## When the printers agree -/

/-- `path_to_string` reports that the text and its end do not fit, exactly when they do not, or writes
what `path_dump` prints and returns its length; it accesses nothing outside. -/
def PrintersAgree (path : Option Path) (reverse : Bool) (mem : List Char) : Prop :=
  (mem.length ≤ (pathDump path reverse).length ∧ pathToString path reverse mem = .error .tooSmall) ∨
    ((pathDump path reverse).length < mem.length ∧
      ∃ mem', pathToString path reverse mem = .ok (mem', (pathDump path reverse).length) ∧
        cString mem' = pathDump path reverse)

/-- No segment, or the reverse order and no SET; in reverse order also a text that does not fit, unless
there is no buffer at all and a SET comes first; in the other order a SET first and a single byte. -/
def Printable (path : Option Path) (reverse : Bool) (mem : List Char) : Prop :=
  path.getD [] = [] ∨
    if reverse then
      (∀ seg ∈ path.getD [], seg.type = .sequence) ∨
        (mem.length ≤ (pathDump path true).length ∧
          (mem = [] → ∀ seg ∈ (printOrder path true).head?, seg.type = .sequence))
    else (∀ seg ∈ (path.getD []).head?, seg.type = .set) ∧ mem.length = 1

theorem printersAgree_reverse {path : Option Path} (nonempty : ∀ seg ∈ path.getD [], seg.asns ≠ [])
    {mem : List Char} (space : 0 < mem.length) :
    PrintersAgree path true mem ↔
      (∀ seg ∈ path.getD [], seg.type = .sequence) ∨ mem.length ≤ (pathDump path true).length := by
  have printed := pathToString_reverse nonempty space
  rw [length_pathText] at printed
  split at printed
  next fits =>
    obtain ⟨mem', returned, written⟩ := printed
    simp only [PrintersAgree, returned, Nat.not_le.mpr fits, fits, false_and, or_false, false_or,
      true_and, Except.ok.injEq, Prod.mk.injEq, and_true, ← pathText_eq_iff]
    constructor
    · rintro ⟨mem'', rfl, same⟩
      exact written.symm.trans same
    · intro same
      exact ⟨mem', rfl, written.trans same⟩
  next full =>
    have le := Nat.not_lt.mp full
    simp only [PrintersAgree, printed, le, and_self, true_or, or_true]

/-- Without a buffer: an access outside it when a SET is printed first. -/
theorem pathToString_nil {path : Option Path} {seg : PathSeg} {rest : List PathSeg}
    (order : printOrder path true = seg :: rest) (nonempty : seg.asns ≠ []) :
    pathToString path true [] = .error (if seg.type = .sequence then .tooSmall else .outside) := by
  have notEmpty : ¬ pathNumSegments path = 0 := by
    intro empty
    have none : path.getD [] = [] := List.length_eq_zero_iff.mp empty
    simp [printOrder, none] at order
  obtain ⟨asn, asns, content⟩ := List.exists_cons_of_ne_nil (by simpa using nonempty : seg.asns.reverse ≠ [])
  simp only [pathToString, if_neg notEmpty, order, printSegments, printSpace, if_true, bind, Except.bind,
    pathSegmentToString, if_neg nonempty, printOpening, printContent, content, printAsns]
  cases kind : seg.type with
  | sequence => simp [printText, snprintf, bind, Except.bind]
  | set =>
    -- `dst_size` wraps around
    simp [printText, snprintf, bind, Except.bind, Dst.advance, sizeSub]

/-- In the order of the path the first ASN is read outside its segment. -/
theorem pathToString_forward {path : Option Path} {seg : PathSeg} {rest : List PathSeg}
    (order : path.getD [] = seg :: rest) (nonempty : seg.asns ≠ []) (mem : List Char) :
    pathToString path false mem =
      .error (if seg.type = .set ∧ mem.length = 1 then .tooSmall else .outside) := by
  have notEmpty : ¬ pathNumSegments path = 0 := by simp [pathNumSegments, order]
  have printed : printOrder path false = seg :: rest := order
  simp only [pathToString, if_neg notEmpty, printed, printSegments, printSpace, if_true, bind, Except.bind,
    pathSegmentToString, if_neg nonempty, printOpening, printContent]
  cases kind : seg.type with
  | sequence => simp
  | set =>
    cases mem with
    | nil => simp [snprintf]
    | cons c mem =>
      have inside : 0 + (['}'].take (mem.length + 1 - 1)).length < mem.length + 1 := by
        rw [List.length_take]
        omega
      simp only [snprintf, List.length_cons, Nat.add_one_ne_zero, if_false, if_pos inside]
      by_cases one : mem.length = 0
      · simp [one]
      · simp [one]

theorem printersAgree_iff {path : Option Path} (nonempty : ∀ seg ∈ path.getD [], seg.asns ≠ [])
    (reverse : Bool) (mem : List Char) : PrintersAgree path reverse mem ↔ Printable path reverse mem := by
  by_cases segments : path.getD [] = []
  · -- nothing to print
    have dump : pathDump path reverse = [] := by simp [pathDump, printOrder, segments, spaced]
    simp only [Printable, segments, true_or, iff_true, PrintersAgree, dump]
    cases mem with
    | nil => exact .inl ⟨Nat.le_refl 0, by simp [pathToString, pathNumSegments, segments]⟩
    | cons c mem =>
      exact .inr ⟨Nat.succ_pos _, '\x00' :: mem, by simp [pathToString, pathNumSegments, segments], rfl⟩
  · simp only [Printable, segments, false_or]
    cases reverse with
    | true =>
      cases mem with
      | cons c mem =>
        have space : 0 < (c :: mem).length := Nat.succ_pos _
        simp [printersAgree_reverse nonempty space]
      | nil =>
        obtain ⟨seg, rest, order⟩ := List.exists_cons_of_ne_nil
          (by simpa [printOrder] using segments : printOrder path true ≠ [])
        have member : seg ∈ path.getD [] := mem_printOrder.mp (order ▸ List.mem_cons_self)
        have printed := pathToString_nil order (nonempty seg member)
        simp only [PrintersAgree, printed, order, List.length_nil, Nat.zero_le, true_and, List.head?_cons,
          Option.mem_def, Option.some.injEq, forall_eq', if_true, reduceCtorEq, false_and,
          exists_false, and_false, or_false, Except.error.injEq, forall_const]
        cases kind : seg.type with
        | sequence => simp
        | set =>
          have notAll : ¬ ∀ seg ∈ path.getD [], seg.type = .sequence := by
            intro all
            simpa [kind] using all seg member
          simp only [reduceCtorEq, if_false, or_false, false_iff]
          exact notAll
    | false =>
      obtain ⟨seg, rest, order⟩ := List.exists_cons_of_ne_nil segments
      have member : seg ∈ path.getD [] := order ▸ List.mem_cons_self
      have printed := pathToString_forward order (nonempty seg member) mem
      simp only [PrintersAgree, printed, order, List.head?_cons, Option.mem_def, Option.some.injEq,
        forall_eq', Bool.false_eq_true, if_false, reduceCtorEq, false_and, exists_false, and_false, or_false,
        Except.error.injEq]
      constructor
      · rintro ⟨_, stopped⟩
        by_contra other
        rw [if_neg other] at stopped
        cases stopped
      · rintro ⟨kind, one⟩
        refine ⟨?_, if_pos ⟨kind, one⟩⟩
        -- an opening bracket at least
        rw [one]
        refine List.length_pos_iff.mpr (List.ne_nil_of_mem (a := '{') ?_)
        refine mem_spaced_of_mem (List.mem_map_of_mem (mem_printOrder.mpr member)) ?_
        simp [pathSegmentDump, kind]

/-! ## Hashing and matching -/

theorem textIn_eq {path : Option Path} (nonempty : ∀ seg ∈ path.getD [], seg.asns ≠ []) {size : ℕ}
    (space : 0 < size) :
    textIn size path = if (pathDump path true).length < size then some (pathText path) else none := by
  have buffer : (List.replicate size '\x00').length = size := List.length_replicate
  have printed := pathToString_reverse nonempty (buffer ▸ space)
  rw [length_pathText, buffer] at printed
  split at printed
  next fits =>
    obtain ⟨mem, returned, written⟩ := printed
    simp only [textIn, returned, written, if_pos fits]
  next full => simp only [textIn, printed, if_neg full]

/-- Only paths without empty segments are printed. -/
theorem printSegments_nonempty {reverse first : Bool} {path : List PathSeg} {dst dst' : Dst}
    (printed : printSegments reverse first path dst = .ok dst') : ∀ seg ∈ path, seg.asns ≠ [] := by
  induction path generalizing first dst with
  | nil => simp
  | cons seg path inductionHypothesis =>
    simp only [printSegments] at printed
    obtain ⟨dst1, _, printed⟩ := except_bind_eq_ok.mp printed
    obtain ⟨dst2, segment, printed⟩ := except_bind_eq_ok.mp printed
    have nonempty : seg.asns ≠ [] := by
      intro empty
      simp only [pathSegmentToString, if_pos empty] at segment
      cases segment
    split at printed
    · cases printed
    · exact List.forall_mem_cons.mpr ⟨nonempty, inductionHypothesis printed⟩

/-- The paths whose text fits. -/
theorem textIn_ne_none {path : Option Path} {size : ℕ} (space : 0 < size) :
    textIn size path ≠ none ↔
      (∀ seg ∈ path.getD [], seg.asns ≠ []) ∧ (pathDump path true).length < size := by
  constructor
  · intro printed
    have nonempty : ∀ seg ∈ path.getD [], seg.asns ≠ [] := by
      simp only [textIn, pathToString] at printed
      split at printed
      next mem n returned =>
        split at returned
        next none => simp [List.length_eq_zero_iff.mp none]
        next some =>
          obtain ⟨dst, segments, _⟩ := except_bind_eq_ok.mp returned
          intro seg member
          exact printSegments_nonempty segments seg (mem_printOrder.mpr member)
      next => exact absurd rfl printed
    rw [textIn_eq nonempty space] at printed
    exact ⟨nonempty, by simpa using printed⟩
  · rintro ⟨nonempty, fits⟩
    rw [textIn_eq nonempty space, if_pos fits]
    simp

/-- What is evaluated is what the user sees, unless nothing is evaluated. -/
theorem textIn_seen_iff {path : Option Path} (nonempty : ∀ seg ∈ path.getD [], seg.asns ≠ []) {size : ℕ}
    (space : 0 < size) :
    (∀ text, textIn size path = some text → text = pathDump path true) ↔
      (∀ seg ∈ path.getD [], seg.type = .sequence) ∨ size ≤ (pathDump path true).length := by
  rw [textIn_eq nonempty space]
  split
  next fits => simp [Nat.not_le.mpr fits, ← pathText_eq_iff]
  next full => simp [Nat.not_lt.mp full]

/-- The printers agree, and matching and hashing see what the user sees, exactly on these inputs. -/
theorem printers_agree {path : Option Path} (nonempty : ∀ seg ∈ path.getD [], seg.asns ≠ []) :
    (∀ reverse mem, PrintersAgree path reverse mem ↔ Printable path reverse mem) ∧
    ((∀ text, pathMatchText path = some text → text = pathDump path true) ↔
      (∀ seg ∈ path.getD [], seg.type = .sequence) ∨ 1000 ≤ (pathDump path true).length) ∧
    ((∀ text, pathHashText path = some text → text = pathDump path true) ↔
      (∀ seg ∈ path.getD [], seg.type = .sequence) ∨ 1024 ≤ (pathDump path true).length) :=
  ⟨printersAgree_iff nonempty, textIn_seen_iff nonempty (by decide), textIn_seen_iff nonempty (by decide)⟩

/-- A path with a SET of two ASNs. -/
def setPath : Path := [⟨.set, [1, 2], by decide⟩]

theorem printers_agree_setPath :
    PrintersAgree (some setPath) true (List.replicate 4 '?') ↔
      Printable (some setPath) true (List.replicate 4 '?') := by
  have nonempty : ∀ seg ∈ (some setPath).getD [], seg.asns ≠ [] := by decide
  exact (printers_agree nonempty).1 true _

/-- The opening bracket. -/
theorem setPath_printed : ¬ PrintersAgree (some setPath) true (List.replicate 8 '?') := by
  have printed : pathToString (some setPath) true (List.replicate 8 '?') =
      .ok (['}', '2', ' ', '1', '}', '\x00', '?', '?'], 5) := by decide +kernel
  rintro (⟨_, stopped⟩ | ⟨_, mem, returned, same⟩)
  · rw [printed] at stopped
    cases stopped
  · rw [printed] at returned
    cases returned
    revert same
    decide

end Cbgp.Verified
