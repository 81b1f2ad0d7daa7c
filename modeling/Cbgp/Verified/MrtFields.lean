import Cbgp.Bgp.Mrtd
import Cbgp.Verified.CommParser
import Cbgp.Verified.PathMeans
import Cbgp.Verified.PrefixText

/-! # The fields of an MRT record

What each field of a record means, and when the reader takes it for that: an address and a prefix have a
digit wherever a number starts, an ASN is not 65536, a number has no more than 32 bits, and the halves of
a community value start with digits.
-/

namespace Cbgp.Verified

open Cbgp.Lib Cbgp.Net Cbgp.Bgp

/-! ## Fields of a line -/

/-- The line has the field, and its text has a property. -/
def FieldIs (tokens : List (List Char)) (i : ℕ) (holds : List Char → Prop) : Prop :=
  ∃ token, tokens[i]? = some token ∧ holds token

theorem FieldIs.imp {tokens : List (List Char)} {i : ℕ} {holds holds' : List Char → Prop}
    (field : FieldIs tokens i holds) (imp : ∀ token, holds token → holds' token) : FieldIs tokens i holds' := by
  obtain ⟨token, here, held⟩ := field
  exact ⟨token, here, imp token held⟩

theorem FieldIs.both {tokens : List (List Char)} {i : ℕ} {holds holds' : List Char → Prop}
    (field : FieldIs tokens i holds) (field' : FieldIs tokens i holds') :
    FieldIs tokens i fun token => holds token ∧ holds' token := by
  obtain ⟨token, here, held⟩ := field
  obtain ⟨token', here', held'⟩ := field'
  rw [here, Option.some.injEq] at here'
  subst here'
  exact ⟨token, here, held, held'⟩

theorem readField_ok {α : Type} {tokens : List (List Char)} {i : ℕ} {code : MrtError}
    {text : List Char → List Char} {read : List Char → Option α} {value : α} :
    readField tokens i code text read = .ok value ↔ FieldIs tokens i (read · = some value) := by
  unfold readField tokensGetStringAt FieldIs
  cases tokens[i]? with
  | none => simp [bind, Except.bind]
  | some token =>
    cases got : read token with
    | none => simp [bind, Except.bind, got]
    | some value' => simp [bind, Except.bind, got]

theorem readField_error {α : Type} {tokens : List (List Char)} {i : ℕ} {code : MrtError}
    {text : List Char → List Char} {read : List Char → Option α} {stop : MrtStop}
    (stopped : readField tokens i code text read = .error stop) :
    tokens[i]? = none ∧ stop = .outside ∨
      FieldIs tokens i (read · = none) ∧ ∃ userError, stop = .failed code userError := by
  unfold readField tokensGetStringAt at stopped
  cases here : tokens[i]? with
  | none =>
    simp only [here, bind, Except.bind, Except.error.injEq] at stopped
    exact .inl ⟨rfl, stopped.symm⟩
  | some token =>
    simp only [here, bind, Except.bind] at stopped
    split at stopped
    next => cases stopped
    next none =>
      cases stopped
      exact .inr ⟨⟨token, here, none⟩, _, rfl⟩

/-! ## Addresses and prefixes -/

/-- The text is an address. -/
def AddressMeans (text : List Char) (addr : NetAddr) : Prop := AddressSyntax DecimalText text addr []

/-- The text is a prefix. -/
def PrefixMeans (text : List Char) (p : Pfx) : Prop := PrefixSyntax DecimalText DecimalText text p []

theorem str2address_iff {text : List Char} {addr : NetAddr} :
    str2address text = some addr ↔ AddressSyntax SignedText text addr [] := by
  rw [← ipStringToAddress_iff, str2address]
  split
  next other read => simp [read]
  next none => simpa using fun read => none addr read

theorem str2prefix_iff {text : List Char} {p : Pfx} :
    str2prefix text = some p ↔ PrefixSyntax SignedText MaskText text p [] := by
  rw [← ipStringToPrefix_iff, str2prefix]
  split
  next other read => simp [read]
  next none => simpa using fun read => none p read

theorem AddressMeans.read {text : List Char} {addr : NetAddr} (means : AddressMeans text addr) :
    str2address text = some addr :=
  str2address_iff.mpr means.signed

theorem PrefixMeans.read {text : List Char} {p : Pfx} (means : PrefixMeans text p) : str2prefix text = some p :=
  str2prefix_iff.mpr means.signed

/-- An address that is read is what is written exactly when its numbers are written without more. -/
theorem addressMeans_iff {text : List Char} {addr : NetAddr} (read : str2address text = some addr) :
    AddressMeans text addr ↔ DigitsPlaced text [] :=
  ⟨AddressSyntax.placed, (str2address_iff.mp read).decimal⟩

theorem prefixMeans_iff {text : List Char} {p : Pfx} (read : str2prefix text = some p) :
    PrefixMeans text p ↔ DigitsPlaced text [] :=
  ⟨PrefixSyntax.placed, (str2prefix_iff.mp read).decimal⟩

/-! ## Numbers -/

section Asn

variable {reader : PathReader} {text : List Char} {asn : Asn}

theorem AsnMeans.read (means : AsnMeans reader text asn) : str2asn reader.numerals text = some asn := by
  rw [str2asn_of_le means asn.toNat_lt.le]
  simp

theorem asnMeans_iff (read : str2asn reader.numerals text = some asn) :
    AsnMeans reader text asn ↔ reader.numerals.asUint text ≠ some maxAs := by
  unfold str2asn at read
  cases number : reader.numerals.asUint text with
  | none => simp [number] at read
  | some n =>
    simp only [number] at read
    split at read
    next => cases read
    next notAbove =>
      cases read
      have le := Nat.le_of_not_lt notAbove
      rw [AsnMeans, number, Option.some.injEq, Ne, Option.some.injEq]
      constructor
      · intro same max
        rw [max] at same
        exact absurd same (by decide)
      · intro differ
        have small : n < 65536 := by
          simp only [maxAs] at le differ
          omega
        exact (toUInt16_toNat small).symm

end Asn

section Number

variable {asUlong : List Char → Option ℕ} {missing : UInt32} {text : List Char}

/-- The text is a number of 32 bits, or it is empty and the number is missing. -/
def NumberMeans (asUlong : List Char → Option ℕ) (missing : UInt32) (text : List Char) (number : UInt32) : Prop :=
  if text = [] then number = missing else asUlong text = some number.toNat

theorem NumberMeans.read {number : UInt32} (means : NumberMeans asUlong missing text number) :
    optionalNumber asUlong missing.toNat text = some number.toNat := by
  unfold NumberMeans at means
  unfold optionalNumber
  split at means
  next none => rw [if_pos none, means]
  next some => rw [if_neg some, means]

/-- What is narrowed when it is stored. -/
theorem numberMeans_iff {n : ℕ} (read : optionalNumber asUlong missing.toNat text = some n) :
    NumberMeans asUlong missing text n.toUInt32 ↔ n < 2 ^ 32 := by
  unfold optionalNumber at read
  unfold NumberMeans
  split at read
  next none =>
    cases read
    simp [none, missing.toNat_lt]
  next some =>
    rw [if_neg some, read, Option.some.injEq]
    constructor
    · intro same
      rw [same]
      exact n.toUInt32.toNat_lt
    · intro small
      simp only [Nat.toUInt32, UInt32.toNat_ofNat']
      omega

end Number

/-! ## Origins -/

theorem bgpOriginFromStr_iff {text : List Char} {origin : Origin} :
    bgpOriginFromStr text = some origin ↔ text = bgpOriginToStr origin := by
  constructor
  · intro read
    simpa using List.find?_some read
  · rintro rfl
    cases origin <;> rfl

/-! ## Communities -/

section Comms

variable (reader : CommReader)

/-- A community value as text. -/
inductive CommMeans : List Char → Comm → Prop where
  | noExport : CommMeans "no-export".toList commNoExport
  | noAdvertise : CommMeans "no-advertise".toList commNoAdvertise
  | number {text : List Char} {comm : Comm} : text ≠ "no-export".toList → text ≠ "no-advertise".toList →
      ':' ∉ text → reader.asUlong text = some comm.toNat → CommMeans text comm
  | pair {high low : List Char} {h l : ℕ} : Constant high h → Constant low l → h ≤ 65535 → l ≤ 65535 →
      CommMeans (high ++ ':' :: low) (65536 * h + l).toUInt32

/-- The values of a list, one by one. -/
def CommsMeans (text : List Char) (comms : List Comm) : Prop :=
  ∃ tokens, reader.tokens text = some tokens ∧ List.Forall₂ (CommMeans reader) tokens comms

/-- No more values than a list takes, and digits where the halves of a value start. -/
def CommsFitText (text : List Char) : Prop :=
  ∃ tokens, reader.tokens text = some tokens ∧ tokens.length ≤ 255 ∧ ∀ token ∈ tokens, HalvesPlaced token

variable {reader} {text : List Char} {comm : Comm}

theorem colon_of_append (high low : List Char) : ':' ∈ high ++ ':' :: low := by simp

theorem CommMeans.read (means : CommMeans reader text comm) : commValueFromString reader text = some comm := by
  cases means with
  | noExport => rfl
  | noAdvertise => rfl
  | number notName notName' noColon value =>
    have small : ¬ comm.toNat > 0xffffffff := by
      have := comm.toNat_lt
      omega
    rw [commValueFromString, if_neg notName, if_neg notName', if_pos noColon, value]
    simp [small]
  | @pair high low h l constant constant' small small' =>
    have pair : commPairFromString (high ++ ':' :: low) = some (65536 * h + l).toUInt32 :=
      commPairFromString_iff.mpr ⟨high, low, h, l, rfl, .inr (constant.signed (by omega)),
        .inr (constant'.signed (by omega)), small, small', rfl⟩
    have colon := colon_of_append high low
    rw [commValueFromString, if_neg, if_neg, if_neg (not_not.mpr colon), pair]
    · intro name
      rw [name] at colon
      exact absurd colon (by decide)
    · intro name
      rw [name] at colon
      exact absurd colon (by decide)

/-- A value that is read is the one that is written exactly when its halves start with digits. -/
theorem commMeans_iff (read : commValueFromString reader text = some comm) :
    CommMeans reader text comm ↔ HalvesPlaced text := by
  constructor
  · rintro (_ | _ | ⟨_, _, noColon, _⟩ | ⟨constant, constant', small, _⟩)
    · exact halvesPlaced_of_no_colon (by decide)
    · exact halvesPlaced_of_no_colon (by decide)
    · exact halvesPlaced_of_no_colon noColon
    · exact halvesPlaced_of_constants constant constant' small
  -- The value of a number is the text's own; a pair needs both halves where strtoul stops.
  · intro placed
    rw [commValueFromString] at read
    split at read
    next name =>
      cases read
      exact name ▸ .noExport
    next notName =>
      split at read
      next name =>
        cases read
        exact name ▸ .noAdvertise
      next notName' =>
        split at read
        next noColon =>
          split at read
          next => cases read
          next n value =>
            split at read
            next => cases read
            next small =>
              cases read
              refine .number notName notName' noColon (value.trans (congrArg some ?_))
              simp only [Nat.toUInt32, UInt32.toNat_ofNat']
              omega
        next =>
          obtain ⟨high, low, h, l, rfl, half, half', small, small', rfl⟩ := commPairFromString_iff.mp read
          obtain ⟨digit, digit'⟩ := placed high low h l rfl half half' small small'
          exact .pair (half.constant small digit) (half'.constant small' digit') small small'

/-- The values of a list that is read, in the room that is left behind those read before. -/
theorem commsFromTokens_iff {tokens : List (List Char)} {done comms : List Comm} :
    commsFromTokens reader tokens done = .ok (some comms) ↔
      ∃ values, comms = done ++ values ∧ List.Forall₂ (commValueFromString reader · = some ·) tokens values ∧
        (tokens = [] ∨ done.length + tokens.length ≤ 255) := by
  induction tokens generalizing done with
  | nil =>
    simp only [commsFromTokens, List.forall₂_nil_left_iff, true_or, and_true, exists_eq_right,
      List.append_nil, Except.ok.injEq, Option.some.injEq]
    exact eq_comm
  | cons token tokens inductionHypothesis =>
    simp only [commsFromTokens, List.forall₂_cons_left_iff, reduceCtorEq, false_or, List.length_cons]
    cases value : commValueFromString reader token with
    | none => simp
    | some comm =>
      by_cases room : done.length < 255
      · simp only [commsAdd, if_pos room, inductionHypothesis, List.length_append, List.length_singleton,
          Option.some.injEq]
        constructor
        · rintro ⟨values, rfl, all, fits⟩
          refine ⟨comm :: values, by simp, ⟨comm, values, rfl, all, rfl⟩, ?_⟩
          rcases fits with rfl | fits
          · simp only [List.length_nil]
            omega
          · omega
        · rintro ⟨_, rfl, ⟨_, values, rfl, all, rfl⟩, fits⟩
          exact ⟨values, by simp, all, .inr (by omega)⟩
      · simp only [commsAdd, if_neg room, reduceCtorEq, false_iff]
        rintro ⟨_, _, _, fits⟩
        omega

theorem commsFromTokens_readable {tokens : List (List Char)} {values : List Comm}
    (all : List.Forall₂ (commValueFromString reader · = some ·) tokens values) (done : List Comm) :
    commsFromTokens reader tokens done ≠ .ok none := by
  induction all generalizing done with
  | nil => simp [commsFromTokens]
  | cons value _ inductionHypothesis =>
    simp only [commsFromTokens, value, commsAdd]
    split
    next => simp
    next => exact inductionHypothesis _

variable {comms : List Comm}

theorem commFromString_iff :
    commFromString reader text = .ok (some comms) ↔
      ∃ tokens, reader.tokens text = some tokens ∧
        List.Forall₂ (commValueFromString reader · = some ·) tokens comms ∧ tokens.length ≤ 255 := by
  unfold commFromString
  cases reader.tokens text with
  | none => simp
  | some tokens =>
    simp only [commsFromTokens_iff, List.nil_append, List.length_nil, Nat.zero_add, Option.some.injEq,
      exists_eq_left']
    constructor
    · rintro ⟨all, rfl | fits⟩
      · exact ⟨all, Nat.zero_le _⟩
      · exact ⟨all, fits⟩
    · rintro ⟨all, fits⟩
      exact ⟨all, .inr fits⟩

theorem CommsMeans.readable (means : CommsMeans reader text comms) : commFromString reader text ≠ .ok none := by
  obtain ⟨tokens, found, all⟩ := means
  simp only [commFromString, found]
  exact commsFromTokens_readable (all.imp fun _ _ value => value.read) []

/-- A relation that comes down to a property of the first element, where another one holds. -/
theorem forall₂_iff_forall {α β : Type} {related related' : α → β → Prop} {property : α → Prop}
    (same : ∀ a b, related a b → (related' a b ↔ property a)) {l : List α} {l' : List β}
    (all : List.Forall₂ related l l') : List.Forall₂ related' l l' ↔ ∀ a ∈ l, property a := by
  induction all with
  | nil => simp
  | cons first _ inductionHypothesis =>
    rw [List.forall₂_cons, List.forall_mem_cons, same _ _ first, inductionHypothesis]

/-- Communities that are read are those listed exactly when every value is the one that is written. -/
theorem commsMeans_iff (read : commFromString reader text = .ok (some comms)) :
    CommsMeans reader text comms ↔ CommsFitText reader text := by
  obtain ⟨tokens, found, all, short⟩ := commFromString_iff.mp read
  have value : ∀ token comm, commValueFromString reader token = some comm →
      (CommMeans reader token comm ↔ HalvesPlaced token) := fun _ _ value => commMeans_iff value
  simp only [CommsMeans, CommsFitText, found, Option.some.injEq, exists_eq_left', short, true_and]
  exact forall₂_iff_forall value all

end Comms

end Cbgp.Verified
