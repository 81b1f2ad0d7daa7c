import Cbgp.Bgp.CommText
import Cbgp.Verified.CommText
import Cbgp.Verified.PathRoundTrip

/-! # The parser of Communities

What `comm_value_from_string` accepts, as a grammar over the way the half of a pair may be written: in the
code a half may be empty, and it may follow white space and a sign.
-/

namespace Cbgp.Verified

open Cbgp.Lib Cbgp.Bgp

/-! ## The grammar -/

/-- A community value as text, over the way a half may be written. -/
inductive CommSyntax (Half : List Char → ℕ → Prop) : List Char → Comm → Prop where
  | noExport : CommSyntax Half "no-export".toList commNoExport
  | noAdvertise : CommSyntax Half "no-advertise".toList commNoAdvertise
  | number {s : List Char} : Digits 10 s → numeralValue 10 s < 2 ^ 32 →
      CommSyntax Half s (numeralValue 10 s).toUInt32
  | pair {high low : List Char} {h l : ℕ} : Half high h → Half low l → h ≤ 65535 → l ≤ 65535 →
      CommSyntax Half (high ++ ':' :: low) (65536 * h + l).toUInt32

/-- What the code takes for the half of a pair. -/
def HalfText (text : List Char) (n : ℕ) : Prop := text = [] ∧ n = 0 ∨ SignedConstant text n

/-- What the parser relies on in the library: the tokenizer splits at spaces, and `str_as_ulong` accepts the
decimal numbers without a sign. -/
structure ReadsComms (reader : CommReader) : Prop where
  words : ∀ words : List (List Char), (∀ word ∈ words, word ≠ [] ∧ ' ' ∉ word) →
    reader.tokens (spaced words) = some words
  numeral : ∀ s, ∀ n < 2 ^ 32, reader.asUlong s = some n ↔ Digits 10 s ∧ numeralValue 10 s = n

/-! ## Halves -/

theorem strtoul_empty (rest : List Char) (stops : ∀ c ∈ rest.head?, c = ':') : strtoul 0 rest = (0, rest) := by
  cases rest with
  | nil => rfl
  | cons c rest =>
    cases stops c rfl
    rfl

theorem stopsAt_colon {rest : List Char} (stops : ∀ c ∈ rest.head?, c = ':') : StopsAt 36 rest := by
  intro c member
  cases stops c member
  rfl

/-- A half is read to its end. -/
theorem strtoul_half {text rest : List Char} {n : ℕ} (stops : ∀ c ∈ rest.head?, c = ':') :
    strtoul 0 (text ++ rest) = (n, rest) ↔ HalfText text n := by
  by_cases empty : text = []
  · subst empty
    rw [List.nil_append, strtoul_empty rest stops, HalfText]
    constructor
    · intro read
      exact .inl ⟨rfl, (Prod.mk.inj read).1.symm⟩
    · intro half
      cases half with
      | inl nothing => rw [nothing.2]
      | inr signed =>
        obtain ⟨_, _, _, _, _, whole, -, -, written, -⟩ := signed
        simp only [List.nil_eq, List.append_eq_nil_iff] at whole
        exact absurd whole.2 written.ne_nil
  · rw [strtoul_zero_iff empty (stopsAt_colon stops), HalfText]
    simp [empty]

/-- Two halves with a colon between them. -/
theorem commPairFromString_iff {s : List Char} {comm : Comm} :
    commPairFromString s = some comm ↔
      ∃ high low h l, s = high ++ ':' :: low ∧ HalfText high h ∧ HalfText low l ∧ h ≤ 65535 ∧ l ≤ 65535 ∧
        comm = (65536 * h + l).toUInt32 := by
  have value : ∀ h l : ℕ, (h <<< 16).toUInt32 + l.toUInt32 = (65536 * h + l).toUInt32 := by
    intro h l
    apply UInt32.toNat_inj.mp
    simp [Nat.shiftLeft_eq, Nat.mul_comm]
  constructor
  -- Both halves are read by strtoul: the first must stop at the colon and the second at the end.
  · intro read
    simp only [commPairFromString] at read
    obtain ⟨high, split⟩ := strtoul_suffix 0 s
    generalize front : strtoul 0 s = result at read split
    obtain ⟨h, rest⟩ := result
    split at read
    next => cases read
    next colon =>
      obtain ⟨low, rfl⟩ := List.head?_eq_some_iff.mp (not_not.mp colon)
      split at read
      next => cases read
      next small =>
        rw [List.tail_cons] at read
        generalize back : strtoul 0 low = result at read
        obtain ⟨l, rest⟩ := result
        split at read
        next => cases read
        next ended =>
          split at read
          next => cases read
          next small' =>
            cases not_not.mp ended
            cases read
            rw [← split] at front
            rw [← List.append_nil low] at back
            exact ⟨high, low, h, l, split.symm, (strtoul_half (by simp)).mp front, (strtoul_half (by simp)).mp back,
              Nat.le_of_not_lt small, Nat.le_of_not_lt small', value h l⟩
  · rintro ⟨high, low, h, l, rfl, half, half', small, small', rfl⟩
    have front : strtoul 0 (high ++ ':' :: low) = (h, ':' :: low) := (strtoul_half (by simp)).mpr half
    have back : strtoul 0 (low ++ []) = (l, []) := (strtoul_half (by simp)).mpr half'
    rw [List.append_nil] at back
    simp only [commPairFromString, front, back, List.head?_cons, ne_eq, not_true_eq_false, if_false,
      List.tail_cons, gt_iff_lt, Nat.not_lt.mpr small, Nat.not_lt.mpr small', value]

section Reader

variable {reader : CommReader}

theorem digits_apart {s : List Char} (proper : Digits 10 s) :
    s ≠ "no-export".toList ∧ s ≠ "no-advertise".toList ∧ ':' ∉ s := by
  refine ⟨?_, ?_, fun colon => ?_⟩
  · rintro rfl
    exact absurd (proper.2 'n' (by decide)) (by decide)
  · rintro rfl
    exact absurd (proper.2 'n' (by decide)) (by decide)
  · exact absurd (proper.2 ':' colon) (by decide)

/-- `comm_value_from_string` reads the loose form of a value. -/
theorem commValueFromString_iff (reads : ReadsComms reader) {s : List Char} {comm : Comm} :
    commValueFromString reader s = some comm ↔ CommSyntax HalfText s comm := by
  constructor
  -- The parser tries the two names, then a number, and a pair only if there is a colon.
  · intro read
    rw [commValueFromString] at read
    split at read
    next name =>
      cases read
      exact name ▸ .noExport
    next =>
      split at read
      next name =>
        cases read
        exact name ▸ .noAdvertise
      next =>
        split at read
        next =>
          split at read
          next => cases read
          next n numeral =>
            split at read
            next => cases read
            next small =>
              cases read
              have small : n < 2 ^ 32 := by omega
              obtain ⟨proper, rfl⟩ := (reads.numeral s n small).mp numeral
              exact .number proper small
        next =>
          obtain ⟨high, low, h, l, rfl, half, half', small, small', rfl⟩ := commPairFromString_iff.mp read
          exact .pair half half' small small'
  · intro text
    cases text with
    | noExport => rfl
    | noAdvertise => rfl
    | number proper small =>
      obtain ⟨noExport, noAdvertise, colon⟩ := digits_apart proper
      have numeral := (reads.numeral s _ small).mpr ⟨proper, rfl⟩
      have fits : ¬ numeralValue 10 s > 0xffffffff := by omega
      rw [commValueFromString, if_neg noExport, if_neg noAdvertise, if_pos colon, numeral]
      exact if_neg fits
    | @pair high low h l half half' small small' =>
      have colon : ':' ∈ high ++ ':' :: low := by simp
      -- Neither name contains a colon.
      have noExport : high ++ ':' :: low ≠ "no-export".toList := by
        intro name
        rw [name] at colon
        exact absurd colon (by decide)
      have noAdvertise : high ++ ':' :: low ≠ "no-advertise".toList := by
        intro name
        rw [name] at colon
        exact absurd colon (by decide)
      rw [commValueFromString, if_neg noExport, if_neg noAdvertise, if_neg (not_not.mpr colon)]
      exact commPairFromString_iff.mpr ⟨high, low, h, l, rfl, half, half', small, small', rfl⟩

/-! ## Round trip -/

theorem commPairText_form (comm : Comm) : CommSyntax HalfText (commPairText comm) comm := by
  have small := comm.toNat_lt
  have half : ∀ n ≤ 65535, HalfText (Nat.toDigits 10 n) n :=
    fun n le => .inr ((constant_toDigits n).signed (by omega))
  have high : (comm >>> 16).toNat ≤ 65535 := by
    simp [Nat.shiftRight_eq_div_pow]
    omega
  have low : (comm &&& 65535).toNat ≤ 65535 := by
    simp [Nat.and_two_pow_sub_one_eq_mod _ 16]
    omega
  have whole : (65536 * (comm >>> 16).toNat + (comm &&& 65535).toNat).toUInt32 = comm := by
    apply UInt32.toNat_inj.mp
    simp [Nat.shiftRight_eq_div_pow, Nat.and_two_pow_sub_one_eq_mod _ 16]
    omega
  have pair := CommSyntax.pair (half _ high) (half _ low) high low
  rwa [whole] at pair

theorem commValueDump_form (comm : Comm) (mode : CommDump) : CommSyntax HalfText (commValueDump comm mode) comm := by
  cases mode with
  | raw => exact commPairText_form comm
  | text =>
    rw [commValueDump]
    split
    next known => exact known ▸ .noExport
    next =>
      split
      next known => exact known ▸ .noAdvertise
      next => exact commPairText_form comm

theorem commDigits_form (comm : Comm) : CommSyntax HalfText (commDigits comm) comm := by
  have small := comm.toNat_lt
  have proper : Digits 10 (commDigits comm) := by
    refine ⟨commDigits_ne_nil comm, fun c member => ?_⟩
    rw [isDigitOf_ten]
    exact Nat.isDigit_of_mem_toDigits (by decide) (by decide) member
  have number := @CommSyntax.number HalfText _ proper
  rw [commDigits, numeralValue_toDigits] at number
  have same : comm.toNat.toUInt32 = comm := UInt32.ofNat_toNat
  rw [same] at number
  exact number small

theorem commsFromTokens_read {text : Comm → List Char} {comms done : List Comm}
    (read : ∀ comm, commValueFromString reader (text comm) = some comm) (room : done.length + comms.length ≤ 255) :
    commsFromTokens reader (comms.map text) done = .ok (some (done ++ comms)) := by
  induction comms generalizing done with
  | nil => simp [commsFromTokens]
  | cons comm comms inductionHypothesis =>
    rw [List.length_cons] at room
    have fits : done.length < 255 := by omega
    have room' : (done ++ [comm]).length + comms.length ≤ 255 := by
      rw [List.length_append, List.length_singleton]
      omega
    have rest := inductionHypothesis room'
    rw [List.append_assoc] at rest
    simpa [commsFromTokens, read, commsAdd, fits] using rest

/-- A word of the grammar has no space. -/
theorem commPairText_plain (comm : Comm) : commPairText comm ≠ [] ∧ ' ' ∉ commPairText comm := by
  have digits : ∀ n, ' ' ∉ Nat.toDigits 10 n := by
    intro n member
    have digit := Nat.isDigit_of_mem_toDigits (by decide) (by decide) member
    cases digit
  simp [commPairText, digits]

theorem commValueDump_plain (comm : Comm) (mode : CommDump) :
    commValueDump comm mode ≠ [] ∧ ' ' ∉ commValueDump comm mode := by
  cases mode with
  | raw => exact commPairText_plain comm
  | text =>
    rw [commValueDump]
    split
    next => decide
    next =>
      split
      next => decide
      next => exact commPairText_plain comm

theorem commDigits_plain (comm : Comm) : commDigits comm ≠ [] ∧ ' ' ∉ commDigits comm := by
  refine ⟨commDigits_ne_nil comm, fun member => ?_⟩
  have digit := Nat.isDigit_of_mem_toDigits (by decide) (by decide) member
  cases digit

/-- Values that are written one by one, with spaces between them, are read in the same order. -/
theorem commFromString_read (reads : ReadsComms reader) {text : Comm → List Char} {comms : List Comm}
    (written : ∀ comm, CommSyntax HalfText (text comm) comm) (plain : ∀ comm, text comm ≠ [] ∧ ' ' ∉ text comm)
    (short : comms.length ≤ 255) : commFromString reader (spaced (comms.map text)) = .ok (some comms) := by
  have words : ∀ word ∈ comms.map text, word ≠ [] ∧ ' ' ∉ word := by
    intro word member
    obtain ⟨comm, -, rfl⟩ := List.mem_map.mp member
    exact plain comm
  rw [commFromString, reads.words _ words]
  exact commsFromTokens_read (fun comm => (commValueFromString_iff reads).mpr (written comm)) (by simpa using short)

theorem commToString_text {comms : List Comm} {mem mem' : List Char} {n : ℕ}
    (printed : commToString (some comms) mem = .ok (mem', n)) : cString mem' = commsText comms := by
  simp only [commToString, Option.getD_some] at printed
  split at printed
  next none =>
    subst none
    cases mem with
    | nil => cases printed
    | cons c mem =>
      cases printed
      rfl
  next some =>
    cases mem with
    | nil =>
      cases comms with
      | nil => exact absurd rfl some
      | cons comm comms => cases printed
    | cons c mem =>
      have buffer := printComms_buffer some (List.length_pos_of_mem (List.mem_cons_self (a := c) (l := mem)))
      split at buffer
      next =>
        obtain ⟨dst, printed', text⟩ := buffer
        rw [printed'] at printed
        cases printed
        exact text
      next =>
        rw [buffer] at printed
        cases printed

theorem commToString_fits {comms : List Comm} {mem : List Char} (fits : (commsText comms).length < mem.length) :
    ∃ mem' n, commToString (some comms) mem = .ok (mem', n) := by
  simp only [commToString, Option.getD_some]
  split
  next =>
    cases mem with
    | nil => cases fits
    | cons c mem => exact ⟨_, _, rfl⟩
  next some =>
    have buffer := printComms_buffer some (Nat.zero_lt_of_lt fits)
    rw [if_pos fits] at buffer
    obtain ⟨dst, printed, -⟩ := buffer
    rw [printed]
    exact ⟨_, _, rfl⟩

/-! ## What is accepted -/

theorem CommSyntax.imp {Half Half' : List Char → ℕ → Prop} (imp : ∀ {text n}, n ≤ 65535 → Half text n → Half' text n)
    {s : List Char} {comm : Comm} (text : CommSyntax Half s comm) : CommSyntax Half' s comm := by
  cases text with
  | noExport => exact .noExport
  | noAdvertise => exact .noAdvertise
  | number proper small => exact .number proper small
  | pair half half' small small' => exact .pair (imp small half) (imp small' half') small small'

/-- A string is read as a value exactly where it has the form of one. -/
def ReadsValue (reader : CommReader) (s : List Char) : Prop :=
  ∀ comm, commValueFromString reader s = some comm ↔ CommSyntax Constant s comm

/-- Where two halves stand, in the loose form, each of them starts with a digit. -/
def HalvesPlaced (s : List Char) : Prop :=
  ∀ high low h l, s = high ++ ':' :: low → HalfText high h → HalfText low l → h ≤ 65535 → l ≤ 65535 →
    high.head?.any Char.isDigit = true ∧ low.head?.any Char.isDigit = true

theorem HalfText.constant {text : List Char} {n : ℕ} (half : HalfText text n) (small : n ≤ 65535)
    (digit : text.head?.any Char.isDigit = true) : Constant text n := by
  cases half with
  | inl nothing =>
    rw [nothing.1] at digit
    cases digit
  | inr signed => exact signed.constant (by omega) digit

/-- Where two constants stand around a colon no other halves do. -/
theorem halvesPlaced_of_constants {high low : List Char} {h l : ℕ} (constant : Constant high h)
    (constant' : Constant low l) (small : h ≤ 65535) : HalvesPlaced (high ++ ':' :: low) := by
  intro high' low' h' l' whole half _ _ _
  -- the first colon ends what is read of the first half
  have front : strtoul 0 (high' ++ ':' :: low') = (h', ':' :: low') := (strtoul_half (by simp)).mpr half
  have front' : strtoul 0 (high ++ ':' :: low) = (h, ':' :: low) :=
    (strtoul_half (by simp)).mpr (.inr (constant.signed (by omega)))
  rw [← whole] at front
  cases front.symm.trans front'
  cases List.append_cancel_right whole
  exact ⟨constant.digit, constant'.digit⟩

theorem halvesPlaced_of_no_colon {s : List Char} (none : ':' ∉ s) : HalvesPlaced s := by
  rintro high low h l rfl
  exact absurd (by simp) none

theorem ReadsValue.placed (reads : ReadsComms reader) {s : List Char} (value : ReadsValue reader s) :
    HalvesPlaced s := by
  rintro high low h l rfl half half' small small'
  have text := CommSyntax.pair half half' small small'
  have strict := (value _).mp ((commValueFromString_iff reads).mpr text)
  generalize whole : high ++ ':' :: low = s at strict
  generalize (65536 * h + l).toUInt32 = comm at strict
  have colon : ':' ∈ s := by simp [← whole]
  cases strict with
  | noExport => exact absurd colon (by decide)
  | noAdvertise => exact absurd colon (by decide)
  | number proper _ => exact absurd colon (digits_apart proper).2.2
  | pair constant constant' below _ =>
    exact halvesPlaced_of_constants constant constant' below high low h l whole.symm half half' small small'

theorem HalvesPlaced.reads (reads : ReadsComms reader) {s : List Char} (placed : HalvesPlaced s) :
    ReadsValue reader s := by
  intro comm
  rw [commValueFromString_iff reads]
  constructor
  · intro text
    cases text with
    | noExport => exact .noExport
    | noAdvertise => exact .noAdvertise
    | number proper small => exact .number proper small
    | pair half half' small small' =>
      obtain ⟨digit, digit'⟩ := placed _ _ _ _ rfl half half' small small'
      exact .pair (half.constant small digit) (half'.constant small' digit') small small'
  · exact CommSyntax.imp fun small constant => .inr (constant.signed (by omega))

/-- Every list of Communities that fits is read as it was written, in each of the three forms; and a string is
read as it should be exactly when no half of a pair is empty, signed or behind white space. -/
theorem comm_text_iff (reads : ReadsComms reader) (s : List Char) :
    (∀ comms : List Comm, comms.length ≤ 255 →
      (∀ mode, commFromString reader (commDump comms mode) = .ok (some comms)) ∧
        (∀ mem, (commsText comms).length < mem.length → ∃ mem' n, commToString (some comms) mem = .ok (mem', n)) ∧
          ∀ mem mem' n, commToString (some comms) mem = .ok (mem', n) →
            commFromString reader (cString mem') = .ok (some comms)) ∧
      (ReadsValue reader s ↔ HalvesPlaced s) := by
  refine ⟨fun comms short => ⟨fun mode => ?_, fun mem fits => commToString_fits fits, fun mem mem' n printed => ?_⟩,
    ReadsValue.placed reads, HalvesPlaced.reads reads⟩
  · exact commFromString_read reads (fun comm => commValueDump_form comm mode)
      (fun comm => commValueDump_plain comm mode) short
  · rw [commToString_text printed]
    exact commFromString_read reads commDigits_form commDigits_plain short

/-- The library as the parser expects it. -/
def plainCommReader : CommReader where
  asUlong s :=
    if s ≠ [] ∧ s.all (isDigitOf 10) ∧ numeralValue 10 s < 2 ^ 64 then some (numeralValue 10 s) else none
  tokens s := some (scanTokens [] [] false s [])

theorem plainCommReader_reads : ReadsComms plainCommReader where
  words words plain := by
    refine congrArg some (scanTokens_words [] [] fun word member => ?_)
    obtain ⟨some, noSpace⟩ := plain word member
    exact ⟨some, fun c inside => ⟨fun space => noSpace (space ▸ inside), rfl⟩⟩
  numeral s n small := by
    simp only [plainCommReader]
    constructor
    · intro read
      split at read
      next numeral =>
        cases read
        exact ⟨⟨numeral.1, List.all_eq_true.mp numeral.2.1⟩, rfl⟩
      next => cases read
    · rintro ⟨proper, rfl⟩
      exact if_pos ⟨proper.1, List.all_eq_true.mpr proper.2, Nat.lt_trans small (by decide)⟩

theorem comm_text_iff_plain :
    (∀ comms : List Comm, comms.length ≤ 255 →
      (∀ mode, commFromString plainCommReader (commDump comms mode) = .ok (some comms)) ∧
        (∀ mem, (commsText comms).length < mem.length → ∃ mem' n, commToString (some comms) mem = .ok (mem', n)) ∧
          ∀ mem mem' n, commToString (some comms) mem = .ok (mem', n) →
            commFromString plainCommReader (cString mem') = .ok (some comms)) ∧
      (ReadsValue plainCommReader "5:".toList ↔ HalvesPlaced "5:".toList) :=
  comm_text_iff plainCommReader_reads "5:".toList

/-- A pair is read without its second half. -/
theorem empty_half :
    commValueFromString plainCommReader "5:".toList = some 0x50000 ∧ ¬ ReadsValue plainCommReader "5:".toList := by
  refine ⟨by decide, fun value => ?_⟩
  have placed := value.placed plainCommReader_reads ['5'] [] 5 0 rfl
    (.inr ((constant_toDigits 5).signed (by decide))) (.inl ⟨rfl, rfl⟩) (by decide) (by decide)
  cases placed.2

end Reader

end Cbgp.Verified
