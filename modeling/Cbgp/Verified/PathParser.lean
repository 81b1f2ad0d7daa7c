import Cbgp.Lib.Runs
import Cbgp.Bgp.PathText
import Cbgp.Verified.AsLevelFormats
import Cbgp.Verified.AsPaths

/-! # Parsing AS-paths

`path_from_string` against the ASNs of its tokens.  It reads the tokens from the last to the first, and
the path keeps the most recent hop last, so that a path shows the tokens in their order when it is read
backwards (`textAsns`).  Three things go wrong without an error: an ASN of 65536 becomes 0, and what
does not fit into a segment is dropped, in a sequence and in a set.
-/

namespace Cbgp.Verified

open Cbgp.Lib Cbgp.Bgp

/-! ## The ASNs of a string -/

/-- The ASNs of a path in the order of its text. -/
def textAsns (path : Path) : List ℕ :=
  path.reverse.flatMap fun seg => seg.asns.reverse.map UInt16.toNat

@[simp] theorem textAsns_nil : textAsns [] = [] := rfl

theorem textAsns_append (path : Path) (seg : PathSeg) :
    textAsns (path ++ [seg]) = seg.asns.reverse.map UInt16.toNat ++ textAsns path := by
  simp [textAsns]

theorem textAsns_eq (path : Path) : textAsns path = (path.flatMap (·.asns)).reverse.map UInt16.toNat := by
  induction path using List.reverseRecOn with
  | nil => rfl
  | append_singleton path seg inductionHypothesis => simp [textAsns_append, inductionHypothesis]

theorem textAsns_prependAs (asn : Asn) (path : Path) :
    textAsns (prependAs asn path) = asn.toNat :: textAsns path := by
  simp [textAsns_eq, pathAsns_prependAs]

section Reader

variable (reader : PathReader)

/-- The token is a number. -/
def isNumber (token : List Char) : Bool := (reader.ulongAt token).isSome

/-- The ASNs of a token: its number, or the numbers of its group. -/
def tokenAsns (token : List Char) : Option (List ℕ) :=
  match reader.ulongAt token with
  | some asn => some [asn]
  | none => (reader.segmentTokens token).bind fun words => words.mapM reader.numerals.asUint

/-- The ASNs of a string, in order. -/
def stringAsns (pathStr : List Char) : Option (List ℕ) :=
  ((reader.pathTokens pathStr).bind fun tokens => tokens.mapM (tokenAsns reader)).map List.flatten

end Reader

/-! ## Optional values of a list -/

section MapM

variable {α β : Type} {f : α → Option β}

theorem forall₂_of_mapM {l : List α} {values : List β} (read : l.mapM f = some values) :
    List.Forall₂ (fun a b => f a = some b) l values := by
  induction l generalizing values with
  | nil =>
    cases read
    exact .nil
  | cons a l inductionHypothesis =>
    simp only [List.mapM_cons, Option.bind_eq_bind, Option.bind_eq_some_iff, Option.pure_def,
      Option.some.injEq] at read
    obtain ⟨b, first, rest, others, rfl⟩ := read
    exact .cons first (inductionHypothesis others)

theorem mapM_of_forall₂ {l : List α} {values : List β}
    (read : List.Forall₂ (fun a b => f a = some b) l values) : l.mapM f = some values := by
  induction read with
  | nil => rfl
  | cons first _ inductionHypothesis => simp [List.mapM_cons, first, inductionHypothesis]

theorem mapM_eq_none {l : List α} : l.mapM f = none ↔ ∃ a ∈ l, f a = none := by
  induction l with
  | nil => simp
  | cons a l inductionHypothesis =>
    cases here : f a with
    | none => simp [List.mapM_cons, here]
    | some b =>
      have rest : (a :: l).mapM f = none ↔ l.mapM f = none := by
        cases others : l.mapM f <;> simp [List.mapM_cons, here, others]
      rw [rest, inductionHypothesis]
      simp [here]

theorem exists_of_mem_mapM {l : List α} {values : List β} (read : l.mapM f = some values) {b : β}
    (member : b ∈ values) : ∃ a ∈ l, f a = some b := by
  have pairs := forall₂_of_mapM read
  induction pairs with
  | nil => cases member
  | @cons a b' l values first rest inductionHypothesis =>
    cases List.mem_cons.mp member with
    | inl same => exact ⟨a, List.mem_cons_self, same ▸ first⟩
    | inr later =>
      obtain ⟨a', inside, value⟩ := inductionHypothesis (mapM_of_forall₂ rest) later
      exact ⟨a', List.mem_cons_of_mem _ inside, value⟩

end MapM

/-! ## Tokens -/

section Tokens

variable {reader : PathReader}

theorem str2asn_of_le {word : List Char} {asn : ℕ} (read : reader.numerals.asUint word = some asn)
    (le : asn ≤ maxAs) : str2asn reader.numerals word = some asn.toUInt16 := by
  simp only [str2asn, read, if_neg (Nat.not_lt.mpr le)]

/-- Adding to a segment and not looking at the result. -/
theorem pathSegmentAdd_getD (seg : PathSeg) (asn : Asn) :
    ((pathSegmentAdd seg asn).getD seg).type = seg.type ∧
      ((pathSegmentAdd seg asn).getD seg).asns = (seg.asns ++ [asn]).take maxPathSequenceLength := by
  have short := seg.short
  by_cases room : seg.asns.length < maxPathSequenceLength
  · have whole : (seg.asns ++ [asn]).length ≤ maxPathSequenceLength := by
      rw [List.length_append, List.length_singleton]
      omega
    simp [pathSegmentAdd, room, List.take_of_length_le whole]
  · have full : seg.asns.length = maxPathSequenceLength := by omega
    simp [pathSegmentAdd, ← full]

/-- A group of numbers becomes a segment with as many of them as it takes. -/
theorem segmentFromTokens_read {words : List (List Char)} {asns : List ℕ}
    (read : List.Forall₂ (fun word asn => reader.numerals.asUint word = some asn) words asns)
    (le : ∀ asn ∈ asns, asn ≤ maxAs) (seg : PathSeg) :
    ∃ seg', segmentFromTokens reader words seg = some seg' ∧ seg'.type = seg.type ∧
      seg'.asns = (seg.asns ++ asns.map Nat.toUInt16).take maxPathSequenceLength := by
  induction read generalizing seg with
  | nil => exact ⟨seg, rfl, rfl, by simp [List.take_of_length_le seg.short]⟩
  | @cons word asn words asns first _ inductionHypothesis =>
    obtain ⟨kind, grown⟩ := pathSegmentAdd_getD seg asn.toUInt16
    obtain ⟨seg', rest, kind', grown'⟩ := inductionHypothesis
      (fun other member => le other (List.mem_cons_of_mem _ member))
      ((pathSegmentAdd seg asn.toUInt16).getD seg)
    refine ⟨seg', ?_, kind'.trans kind, ?_⟩
    · simp only [segmentFromTokens, str2asn_of_le first (le asn List.mem_cons_self)]
      exact rest
    · rw [grown', grown]
      by_cases room : seg.asns.length < maxPathSequenceLength
      · have whole : (seg.asns ++ [asn.toUInt16]).length ≤ maxPathSequenceLength := by
          rw [List.length_append, List.length_singleton]
          omega
        rw [List.take_of_length_le whole]
        simp
      · -- a segment that is full keeps what it has
        have full : maxPathSequenceLength ≤ seg.asns.length := Nat.not_lt.mp room
        have keeps : ∀ more, (seg.asns ++ more).take maxPathSequenceLength = seg.asns := by
          intro more
          rw [List.take_append_of_le_length full, List.take_of_length_le seg.short]
        rw [keeps, keeps, keeps]

theorem segmentFromTokens_bad {words : List (List Char)} (seg : PathSeg)
    (bad : ∃ word ∈ words, str2asn reader.numerals word = none) :
    segmentFromTokens reader words seg = none := by
  induction words generalizing seg with
  | nil =>
    obtain ⟨word, member, _⟩ := bad
    cases member
  | cons word words inductionHypothesis =>
    simp only [segmentFromTokens]
    cases here : str2asn reader.numerals word with
    | none => rfl
    | some asn =>
      obtain ⟨other, member, none⟩ := bad
      cases List.mem_cons.mp member with
      | inl same =>
        rw [same, here] at none
        cases none
      | inr later => exact inductionHypothesis _ ⟨other, later, none⟩

/-- A group in brackets. -/
theorem pathSegmentFromString_read {token : List Char} {words : List (List Char)} {asns : List ℕ}
    (split : reader.segmentTokens token = some words) (read : words.mapM reader.numerals.asUint = some asns)
    (le : ∀ asn ∈ asns, asn ≤ maxAs) :
    ∃ seg, pathSegmentFromString reader token = some seg ∧ seg.type = .set ∧
      seg.asns = (asns.reverse.map Nat.toUInt16).take maxPathSequenceLength := by
  have backwards := List.forall₂_reverse_iff.mpr (forall₂_of_mapM read)
  obtain ⟨seg, parsed, kind, content⟩ := segmentFromTokens_read backwards
    (fun asn member => le asn (List.mem_reverse.mp member)) emptySet
  refine ⟨seg, ?_, kind, by simpa [emptySet] using content⟩
  simp only [pathSegmentFromString, split, parsed]

variable (reader) in
/-- A token that the parser takes: its numbers are at most 65536. -/
def Accepted (token : List Char) : Prop :=
  ∃ asns, tokenAsns reader token = some asns ∧ ∀ asn ∈ asns, asn ≤ maxAs

theorem str2asn_eq_none {word : List Char} :
    str2asn reader.numerals word = none ↔
      ∀ asn, reader.numerals.asUint word = some asn → maxAs < asn := by
  cases read : reader.numerals.asUint word with
  | none => simp [str2asn, read]
  | some asn =>
    by_cases above : asn > maxAs
    · simp [str2asn, read, above]
    · simp [str2asn, read, above]

theorem pathFromTokens_bad {tokens : List (List Char)} (path : Path)
    (bad : ∃ token ∈ tokens, ¬ Accepted reader token) : pathFromTokens reader tokens path = none := by
  induction tokens generalizing path with
  | nil =>
    obtain ⟨token, member, _⟩ := bad
    cases member
  | cons token tokens inductionHypothesis =>
    by_cases good : Accepted reader token
    · -- a later token is refused
      have later : ∃ other ∈ tokens, ¬ Accepted reader other := by
        obtain ⟨other, member, refused⟩ := bad
        cases List.mem_cons.mp member with
        | inl same => exact absurd (same ▸ good) refused
        | inr later => exact ⟨other, later, refused⟩
      simp only [pathFromTokens]
      split
      · split
        · rfl
        · exact inductionHypothesis _ later
      · split
        · rfl
        · exact inductionHypothesis _ later
    · cases number : reader.ulongAt token with
      | some asn =>
        have above : asn > maxAs := by
          by_contra le
          refine good ⟨[asn], by simp [tokenAsns, number], fun other member => ?_⟩
          rw [List.mem_singleton.mp member]
          exact Nat.not_lt.mp le
        simp only [pathFromTokens, number, if_pos above]
      | none =>
        have none : pathSegmentFromString reader token = none := by
          cases split : reader.segmentTokens token with
          | none => simp only [pathSegmentFromString, split]
          | some words =>
            simp only [pathSegmentFromString, split]
            refine segmentFromTokens_bad emptySet ?_
            by_contra all
            push Not at all
            -- then every word is a number that is not too large
            have numbers : ∀ word ∈ words, ∃ asn, reader.numerals.asUint word = some asn ∧ asn ≤ maxAs := by
              intro word member
              have read := all word (List.mem_reverse.mpr member)
              rw [Ne, str2asn_eq_none] at read
              push Not at read
              exact read
            cases read : words.mapM reader.numerals.asUint with
            | none =>
              obtain ⟨word, member, unread⟩ := mapM_eq_none.mp read
              obtain ⟨asn, value, _⟩ := numbers word member
              rw [unread] at value
              cases value
            | some asns =>
              refine good ⟨asns, by simp [tokenAsns, number, split, read], ?_⟩
              intro asn member
              obtain ⟨word, inside, value⟩ := exists_of_mem_mapM read member
              obtain ⟨asn', value', le⟩ := numbers word inside
              rw [value] at value'
              cases value'
              exact le
        simp only [pathFromTokens, number, none]

/-- The path that grows by the ASNs of a token. -/
theorem pathFromTokens_step {token : List Char} {asns : List ℕ} (read : tokenAsns reader token = some asns)
    (le : ∀ asn ∈ asns, asn ≤ maxAs) (tokens : List (List Char)) (path : Path) :
    ∃ grown, pathFromTokens reader (token :: tokens) path = pathFromTokens reader tokens grown ∧
      if isNumber reader token then
        asns.length = 1 ∧
          if lastRun path < maxPathSequenceLength then
            lastRun grown = lastRun path + 1 ∧
              textAsns grown = asns.map (fun asn => asn.toUInt16.toNat) ++ textAsns path
          else grown = path
      else
        lastRun grown = 0 ∧
          textAsns grown =
            ((asns.reverse.take maxPathSequenceLength).reverse.map fun asn => asn.toUInt16.toNat) ++
              textAsns path := by
  cases number : reader.ulongAt token with
  | some asn =>
    simp only [tokenAsns, number, Option.some.injEq] at read
    subst read
    have notAbove : ¬ asn > maxAs := Nat.not_lt.mpr (le asn List.mem_cons_self)
    refine ⟨(pathAppend path asn.toUInt16).getD path, ?_, ?_⟩
    · simp only [pathFromTokens, number, if_neg notAbove]
    · rw [if_pos (by simp [isNumber, number])]
      refine ⟨rfl, ?_⟩
      have bound := lastRun_le path
      -- A full segment takes no further number, and the parser does not look at the failure.
      cases full : lastFull path with
      | true =>
        have run := (lastFull_iff path).mp full
        rw [if_neg (by omega), pathAppend_eq, full]
        rfl
      | false =>
        have run : lastRun path ≠ maxPathSequenceLength := fun run => by
          rw [(lastFull_iff path).mpr run] at full
          cases full
        rw [if_pos (by omega), pathAppend_eq, full]
        exact ⟨lastRun_prependAs _ full, textAsns_prependAs _ _⟩
  | none =>
    simp only [tokenAsns, number, Option.bind_eq_some_iff] at read
    -- A set starts a segment of its own and keeps the last 255 of its numbers.
    obtain ⟨words, split, values⟩ := read
    obtain ⟨seg, parsed, kind, content⟩ := pathSegmentFromString_read split values le
    refine ⟨path ++ [seg], ?_, ?_⟩
    · simp only [pathFromTokens, number, parsed]
    · rw [if_neg (by simp [isNumber, number])]
      refine ⟨lastRun_of_set kind path, ?_⟩
      rw [textAsns_append, content]
      simp [List.map_take, List.map_reverse, Function.comp_def]

/-! ## Strings -/

/-- Nothing is longer than a segment, when the path ends in a run of hops: neither a run of numbers nor
a group.  The tokens come in the order in which they are read. -/
def TokensFit (reader : PathReader) (k : ℕ) (tokens : List (List Char)) (asns : List (List ℕ)) : Prop :=
  RunsWithin (isNumber reader) maxPathSequenceLength k tokens ∧
    ∀ group ∈ asns, group.length ≤ maxPathSequenceLength

/-- What the parser makes of tokens that it takes: no more ASNs than they have, as many only if they
fit, and then those of the tokens. -/
theorem pathFromTokens_read {tokens : List (List Char)} {asns : List (List ℕ)}
    (read : List.Forall₂ (fun token asns => tokenAsns reader token = some asns) tokens asns)
    (le : ∀ group ∈ asns, ∀ asn ∈ group, asn ≤ maxAs) (path : Path) :
    ∃ path', pathFromTokens reader tokens path = some path' ∧
      (textAsns path').length ≤ asns.flatten.length + (textAsns path).length ∧
      ((textAsns path').length = asns.flatten.length + (textAsns path).length →
        TokensFit reader (lastRun path) tokens asns) ∧
      (TokensFit reader (lastRun path) tokens asns → (∀ asn ∈ asns.flatten, asn < 65536) →
        textAsns path' = asns.reverse.flatten ++ textAsns path) := by
  induction read generalizing path with
  | nil => exact ⟨path, rfl, by simp, fun _ => ⟨trivial, by simp⟩, fun _ _ => by simp⟩
  | @cons token group tokens asns first _ inductionHypothesis =>
    obtain ⟨grown, parsed, step⟩ := pathFromTokens_step first (le group List.mem_cons_self) tokens path
    obtain ⟨path', rest, atMost, enough, exact'⟩ := inductionHypothesis
      (fun other member => le other (List.mem_cons_of_mem _ member)) grown
    refine ⟨path', parsed.trans rest, ?_⟩
    have narrow : ∀ part : List ℕ, (∀ asn ∈ part, asn < 65536) →
        part.map (fun asn => asn.toUInt16.toNat) = part := by
      intro part small
      conv_rhs => rw [← List.map_id part]
      exact List.map_congr_left fun asn member => by simpa using Nat.mod_eq_of_lt (small asn member)
    simp only [List.flatten_cons, List.length_append]
    split at step
    next number =>
      obtain ⟨one, step⟩ := step
      split at step
      next room =>
        obtain ⟨run, text⟩ := step
        have length : (textAsns grown).length = group.length + (textAsns path).length := by
          rw [text, List.length_append, List.length_map]
        refine ⟨by omega, fun same => ?_, fun fits small => ?_⟩
        · obtain ⟨runs, groups⟩ := enough (by omega)
          rw [run] at runs
          refine ⟨by simp only [RunsWithin, number, if_true]; exact ⟨room, runs⟩, ?_⟩
          intro other member
          cases List.mem_cons.mp member with
          | inl same =>
            rw [same, one]
            decide
          | inr later => exact groups other later
        · obtain ⟨runs, groups⟩ := fits
          simp only [RunsWithin, number, if_true] at runs
          have fits' : TokensFit reader (lastRun grown) tokens asns :=
            ⟨run ▸ runs.2, fun other member => groups other (List.mem_cons_of_mem _ member)⟩
          rw [exact' fits' fun asn member => small asn (List.mem_append_right _ member), text,
            narrow group fun asn member => small asn (List.mem_append_left _ member)]
          simp
      next full =>
        -- the hop is lost
        subst step
        refine ⟨by omega, fun same => by omega, fun fits _ => ?_⟩
        have runs := fits.1
        simp only [RunsWithin, number, if_true] at runs
        exact absurd runs.1 full
    next notNumber =>
      obtain ⟨run, text⟩ := step
      have length : (textAsns grown).length =
          min maxPathSequenceLength group.length + (textAsns path).length := by
        rw [text, List.length_append, List.length_map, List.length_reverse, List.length_take,
          List.length_reverse]
      refine ⟨by omega, fun same => ?_, fun fits small => ?_⟩
      · obtain ⟨runs, groups⟩ := enough (by omega)
        rw [run] at runs
        refine ⟨by simpa only [RunsWithin, notNumber, Bool.false_eq_true, if_false] using runs, ?_⟩
        intro other member
        cases List.mem_cons.mp member with
        | inl same =>
          rw [same]
          omega
        | inr later => exact groups other later
      · obtain ⟨runs, groups⟩ := fits
        simp only [RunsWithin, notNumber, Bool.false_eq_true, if_false] at runs
        have fits' : TokensFit reader (lastRun grown) tokens asns :=
          ⟨run ▸ runs, fun other member => groups other (List.mem_cons_of_mem _ member)⟩
        have short := groups group List.mem_cons_self
        rw [exact' fits' fun asn member => small asn (List.mem_append_right _ member), text,
          List.take_of_length_le (by rwa [List.length_reverse]), List.reverse_reverse,
          narrow group fun asn member => small asn (List.mem_append_left _ member)]
        simp

variable (reader)

/-- The parser refuses the string: it cannot be split, or some token is neither a number nor a group of
numbers, all of them at most 65536. -/
def Rejected (pathStr : List Char) : Prop :=
  ∀ tokens, reader.pathTokens pathStr = some tokens → ∃ token ∈ tokens, ¬ Accepted reader token

/-- No 65536, and neither a run of numbers nor a group with more than 255 ASNs. -/
def StringFits (pathStr : List Char) : Prop :=
  ∀ tokens, reader.pathTokens pathStr = some tokens →
    (∀ run, run <:+: tokens → (∀ token ∈ run, isNumber reader token) → run.length ≤ 255) ∧
      ∀ token ∈ tokens, ∀ asns, tokenAsns reader token = some asns → asns.length ≤ 255 ∧ 65536 ∉ asns

/-- No path, or one with every ASN of the string, in order and with its value. -/
def Unaltered (pathStr : List Char) : Prop :=
  pathFromString reader pathStr = none ∨
    ∃ path asns, pathFromString reader pathStr = some path ∧ stringAsns reader pathStr = some asns ∧
      textAsns path = asns ∧ ∀ asn ∈ asns, asn ≤ 65535

/-- A string with an ASN above 65535, or with more ASNs in a row than a segment holds, gives no path. -/
def RefusesOverflow (pathStr : List Char) : Prop :=
  ∀ tokens, reader.pathTokens pathStr = some tokens →
    (∃ token ∈ tokens, ∃ asns, tokenAsns reader token = some asns ∧
      (255 < asns.length ∨ ∃ asn ∈ asns, 65535 < asn)) ∨
    (∃ run, run <:+: tokens ∧ (∀ token ∈ run, isNumber reader token) ∧ 255 < run.length) →
    pathFromString reader pathStr = none

variable {reader}

theorem pathFromString_rejected {pathStr : List Char} (rejected : Rejected reader pathStr) :
    pathFromString reader pathStr = none := by
  cases split : reader.pathTokens pathStr with
  | none => simp only [pathFromString, split]
  | some tokens =>
    obtain ⟨token, member, refused⟩ := rejected tokens split
    simp only [pathFromString, split]
    exact pathFromTokens_bad [] ⟨token, List.mem_reverse.mpr member, refused⟩

theorem exists_asns_of_accepted {tokens : List (List Char)}
    (accepted : ∀ token ∈ tokens, Accepted reader token) :
    ∃ asns, List.Forall₂ (fun token asns => tokenAsns reader token = some asns) tokens asns ∧
      ∀ group ∈ asns, ∀ asn ∈ group, asn ≤ maxAs := by
  induction tokens with
  | nil => exact ⟨[], .nil, by simp⟩
  | cons token tokens inductionHypothesis =>
    obtain ⟨group, read, le⟩ := accepted token List.mem_cons_self
    obtain ⟨asns, rest, others⟩ := inductionHypothesis
      fun other member => accepted other (List.mem_cons_of_mem _ member)
    refine ⟨group :: asns, .cons read rest, fun other member => ?_⟩
    cases List.mem_cons.mp member with
    | inl same => exact same ▸ le
    | inr later => exact others other later

theorem mem_of_forall₂ {tokens : List (List Char)} {asns : List (List ℕ)}
    (read : List.Forall₂ (fun token asns => tokenAsns reader token = some asns) tokens asns)
    {group : List ℕ} (member : group ∈ asns) : ∃ token ∈ tokens, tokenAsns reader token = some group :=
  exists_of_mem_mapM (mapM_of_forall₂ read) member

/-- A string is never altered silently, and what does not fit is refused, exactly when the string is
refused anyway or everything in it fits. -/
theorem pathFromString_unaltered_iff (pathStr : List Char) :
    Unaltered reader pathStr ∧ RefusesOverflow reader pathStr ↔
      Rejected reader pathStr ∨ StringFits reader pathStr := by
  by_cases rejected : Rejected reader pathStr
  · have none := pathFromString_rejected rejected
    simp only [rejected, true_or, iff_true]
    exact ⟨.inl none, fun _ _ _ => none⟩
  · simp only [rejected, false_or]
    simp only [Rejected] at rejected
    push Not at rejected
    obtain ⟨tokens, split, accepted⟩ := rejected
    obtain ⟨asns, read, le⟩ := exists_asns_of_accepted accepted
    obtain ⟨path, parsed, _, enough, exact'⟩ := pathFromTokens_read (List.forall₂_reverse_iff.mpr read)
      (fun group member => le group (List.mem_reverse.mp member)) []
    have string : pathFromString reader pathStr = some path := by
      simp only [pathFromString, split, parsed]
    have values : stringAsns reader pathStr = some asns.flatten := by
      simp only [stringAsns, split, Option.bind_some, mapM_of_forall₂ read, Option.map_some]
    -- The tokens are read from the last one back, so the runs are those of the reversed list.
    have flat : ∀ asn, asn ∈ asns.reverse.flatten ↔ asn ∈ asns.flatten := fun asn => by simp
    have runs : RunsWithin (isNumber reader) maxPathSequenceLength (lastRun []) tokens.reverse ↔
        ∀ run, run <:+: tokens → (∀ token ∈ run, isNumber reader token) → run.length ≤ 255 :=
      runsWithin_reverse (isNumber reader) maxPathSequenceLength
    simp only [List.reverse_reverse, textAsns_nil, List.append_nil, List.length_nil, Nat.add_zero]
      at enough exact'
    constructor
    · rintro ⟨unaltered, _⟩
      have same : textAsns path = asns.flatten ∧ ∀ asn ∈ asns.flatten, asn ≤ 65535 := by
        rcases unaltered with none | ⟨path', asns', string', values', same, small⟩
        · rw [string] at none
          cases none
        · rw [string] at string'
          rw [values] at values'
          cases string'
          cases values'
          exact ⟨same, small⟩
      -- No number lost means equal lengths, which is what the count lemma turns into the bounds.
      have lengths : (textAsns path).length = asns.reverse.flatten.length := by
        rw [same.1, List.length_flatten, List.length_flatten, List.map_reverse, List.sum_reverse]
      obtain ⟨within, groups⟩ := enough lengths
      intro tokens' split'
      rw [split] at split'
      cases split'
      refine ⟨runs.mp within, fun token member group found => ?_⟩
      obtain ⟨group', inside, found'⟩ : ∃ group' ∈ asns, tokenAsns reader token = some group' := by
        clear * - read member
        induction read with
        | nil => cases member
        | @cons token' group' tokens asns first _ inductionHypothesis =>
          cases List.mem_cons.mp member with
          | inl same => exact ⟨group', List.mem_cons_self, same ▸ first⟩
          | inr later =>
            obtain ⟨other, inside, found⟩ := inductionHypothesis later
            exact ⟨other, List.mem_cons_of_mem _ inside, found⟩
      rw [found] at found'
      cases found'
      refine ⟨groups group (List.mem_reverse.mpr inside), fun large => ?_⟩
      have := same.2 65536 (List.mem_flatten.mpr ⟨group, inside, large⟩)
      omega
    · intro fits
      obtain ⟨within, groups⟩ := fits tokens split
      -- The string fits: 65536 is the one number that str2asn lets through and that wraps to 0.
      have small : ∀ asn ∈ asns.flatten, asn ≤ 65535 := by
        intro asn member
        obtain ⟨group, inside, found⟩ := List.mem_flatten.mp member
        obtain ⟨token, position, value⟩ := mem_of_forall₂ read inside
        have notLimit : asn ≠ 65536 := fun same => (groups token position group value).2 (same ▸ found)
        have atMost : asn ≤ 65536 := le group inside asn found
        omega
      have tokensFit : TokensFit reader (lastRun []) tokens.reverse asns.reverse := by
        refine ⟨runs.mpr within, fun group member => ?_⟩
        obtain ⟨token, position, value⟩ := mem_of_forall₂ read (List.mem_reverse.mp member)
        exact (groups token position group value).1
      have same := exact' tokensFit fun asn member => by
        have := small asn ((flat asn).mp member)
        omega
      -- Such a string overflows in none of the three ways: long set, large number, long run.
      refine ⟨.inr ⟨path, asns.flatten, string, values, same, small⟩, fun tokens' split' overflow => ?_⟩
      rw [split] at split'
      cases split'
      exfalso
      rcases overflow with ⟨token, member, group, value, long | ⟨asn, inside, large⟩⟩ | ⟨run, inside, all, long⟩
      · have := (groups token member group value).1
        omega
      · obtain ⟨group', value', bound⟩ := accepted token member
        rw [value] at value'
        cases value'
        have atMost : asn ≤ 65536 := bound asn inside
        have := (groups token member group value).2
        have notLimit : asn ≠ 65536 := fun same => this (same ▸ inside)
        omega
      · have := within run inside all
        omega

end Tokens

/-! ## A reader -/

/-- A tokenizer: spaces separate, except in a group; a group loses its brackets. -/
def scanTokens (opening closing : List Char) : Bool → List Char → List Char → List (List Char)
  | _, [], token => if token = [] then [] else [token.reverse]
  | true, c :: text, token =>
    if closing.contains c then token.reverse :: scanTokens opening closing false text []
    else scanTokens opening closing true text (c :: token)
  | false, c :: text, token =>
    if c = ' ' then
      if token = [] then scanTokens opening closing false text []
      else token.reverse :: scanTokens opening closing false text []
    else if opening.contains c then scanTokens opening closing true text []
    else scanTokens opening closing false text (c :: token)

/-- The library as the parser expects it. -/
def plainReader : PathReader where
  numerals := decimalNumerals
  ulongAt := decimalNumerals.asUint
  pathTokens text := some (scanTokens ['{', '[', '('] ['}', ']', ')'] false text [])
  segmentTokens text := some (scanTokens [] [] false text [])

/-- 65536 is read as 0. -/
theorem narrowed_altered : ¬ Unaltered plainReader ['6', '5', '5', '3', '6'] := by
  have parsed : pathFromString plainReader ['6', '5', '5', '3', '6'] = some [sequenceOf 0] := by
    decide +kernel
  have values : stringAsns plainReader ['6', '5', '5', '3', '6'] = some [65536] := by decide +kernel
  rintro (none | ⟨path, asns, _, values', _, small⟩)
  · rw [parsed] at none
    cases none
  · rw [values] at values'
    cases values'
    exact absurd (small 65536 (by simp)) (by decide)

end Cbgp.Verified
