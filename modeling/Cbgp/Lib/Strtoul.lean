import Mathlib.Data.List.Basic
import Mathlib.Data.List.TakeWhile
import Mathlib.Tactic.IntervalCases

/-! # The conversion of numbers of C

`strtoul` of the standard library, with 64 bits, on a string without its end: it skips white space, takes
a sign, finds the base, and reads as many digits as there are.  It returns the value and what follows the
digits, or 0 and the whole string when there are none.  What it reads is described by the parts of the
string (`strtoul_ten_cases`, `strtoul_zero_iff`).
-/

namespace Cbgp.Lib

/-- `isspace`. -/
def isSpace (c : Char) : Bool := [' ', '\t', '\n', '\x0b', '\x0c', '\r'].contains c

/-- The value of a digit; letters go up to base 36. -/
def digitOf (c : Char) : ℕ :=
  if c.isDigit then c.toNat - 48
  else if c.isLower then c.toNat - 87
  else if c.isUpper then c.toNat - 55
  else 36

/-- A digit of a base. -/
def isDigitOf (base : ℕ) (c : Char) : Bool := digitOf c < base

/-- The value of digits. -/
def numeralValue (base : ℕ) (digits : List Char) : ℕ :=
  digits.foldl (fun value c => base * value + digitOf c) 0

/-- The sign, and what follows it. -/
def splitSign : List Char → Bool × List Char
  | '-' :: s => (true, s)
  | '+' :: s => (false, s)
  | s => (false, s)

/-- The base when it is not given, and where its digits start: `0x` needs a digit behind it. -/
def detectBase : List Char → ℕ × List Char
  | '0' :: x :: c :: s =>
    if (x = 'x' || x = 'X') && isDigitOf 16 c then (16, c :: s) else (8, '0' :: x :: c :: s)
  | '0' :: s => (8, '0' :: s)
  | s => (10, s)

/-- The value with its sign; values that are too large give the largest one. -/
def signedValue (negative : Bool) (value : ℕ) : ℕ :=
  if value ≥ 2 ^ 64 then 2 ^ 64 - 1
  else if negative then (2 ^ 64 - value) % 2 ^ 64
  else value

/-- The base, and where the digits start. -/
def findBase (base : ℕ) (s : List Char) : ℕ × List Char :=
  if base = 0 then detectBase s else (base, s)

/-- `strtoul`, with the base 10 or, to be found, 0. -/
def strtoul (base : ℕ) (str : List Char) : ℕ × List Char :=
  let (negative, s) := splitSign (str.dropWhile isSpace)
  let (base, s) := findBase base s
  let digits := s.takeWhile (isDigitOf base)
  if digits = [] then (0, str)
  else (signedValue negative (numeralValue base digits), s.dropWhile (isDigitOf base))

/-! ## Parts of a string -/

section Parts

variable {p : Char → Bool} {front rest : List Char}

/-- The characters that pass a test, up to where one does not. -/
theorem takeWhile_parts (all : ∀ c ∈ front, p c = true) (ends : ∀ c ∈ rest.head?, p c = false) :
    (front ++ rest).takeWhile p = front := by
  rw [List.takeWhile_append_of_pos all]
  cases rest with
  | nil => simp
  | cons c rest => simp [ends c rfl]

theorem dropWhile_parts (all : ∀ c ∈ front, p c = true) (ends : ∀ c ∈ rest.head?, p c = false) :
    (front ++ rest).dropWhile p = rest := by
  rw [List.dropWhile_append_of_pos all]
  cases rest with
  | nil => rfl
  | cons c rest => simp [ends c rfl]

theorem head_dropWhile (p : Char → Bool) (s : List Char) : ∀ c ∈ (s.dropWhile p).head?, p c = false := by
  intro c head
  induction s with
  | nil => cases head
  | cons d s inductionHypothesis =>
    rw [List.dropWhile_cons] at head
    split at head
    next => exact inductionHypothesis head
    next fails =>
      cases head
      exact Bool.eq_false_iff.mpr fails

end Parts

/-- Digits of a base, one at least. -/
def Digits (base : ℕ) (digits : List Char) : Prop :=
  digits ≠ [] ∧ ∀ c ∈ digits, isDigitOf base c = true

/-- No digit of a base follows. -/
def StopsAt (base : ℕ) (rest : List Char) : Prop := ∀ c ∈ rest.head?, isDigitOf base c = false

/-- A sign, or none. -/
inductive Sign : List Char → Bool → Prop where
  | none : Sign [] false
  | plus : Sign ['+'] false
  | minus : Sign ['-'] true

theorem digitOf_lt {c : Char} : digitOf c < 10 ↔ c.isDigit = true := by
  unfold digitOf
  by_cases digit : c.isDigit = true
  · have bounds := Char.isDigit_iff_toNat.mp digit
    simp only [digit, if_true, iff_true]
    change 48 ≤ c.toNat ∧ c.toNat ≤ 57 at bounds
    omega
  · simp only [digit, Bool.false_eq_true, if_false, iff_false]
    by_cases lower : c.isLower = true
    · have bound : 97 ≤ c.toNat := by
        have both : 97 ≤ c.val ∧ c.val ≤ 122 := by
          change (decide (97 ≤ c.val) && decide (c.val ≤ 122)) = true at lower
          simpa using lower
        exact both.1
      simp only [lower, if_true]
      omega
    · by_cases upper : c.isUpper = true
      · have bound : 65 ≤ c.toNat := by
          have both : 65 ≤ c.val ∧ c.val ≤ 90 := by
            change (decide (65 ≤ c.val ∧ c.val ≤ 90)) = true at upper
            exact of_decide_eq_true upper
          exact both.1
        simp only [lower, upper, Bool.false_eq_true, if_true, if_false]
        omega
      · simp only [lower, upper, Bool.false_eq_true, if_false]
        omega

theorem isDigitOf_ten (c : Char) : isDigitOf 10 c = c.isDigit := by
  rw [isDigitOf, Bool.eq_iff_iff, decide_eq_true_eq, digitOf_lt]

theorem isSpace_digit {c : Char} (space : isSpace c = true) : c.isDigit = false := by
  simp only [isSpace, List.contains_iff_mem, List.mem_cons, List.not_mem_nil, or_false] at space
  obtain rfl | rfl | rfl | rfl | rfl | rfl := space <;> rfl

theorem splitSign_parts (s : List Char) : ∃ sign, Sign sign (splitSign s).1 ∧ s = sign ++ (splitSign s).2 := by
  unfold splitSign
  split
  · exact ⟨['-'], .minus, rfl⟩
  · exact ⟨['+'], .plus, rfl⟩
  · exact ⟨[], .none, rfl⟩

theorem splitSign_signed {sign body : List Char} {negative : Bool} (signed : Sign sign negative)
    (digit : ∀ c ∈ body.head?, c.isDigit = true) : splitSign (sign ++ body) = (negative, body) := by
  cases signed with
  | plus => rfl
  | minus => rfl
  | none =>
    cases body with
    | nil => rfl
    | cons c body =>
      have digit := digit c rfl
      rw [List.nil_append, splitSign]
      · rintro s same
        cases same
        revert digit
        decide
      · rintro s same
        cases same
        revert digit
        decide

/-- What stands in front of the digits does not matter, except for the sign. -/
theorem strtoul_parts (base : ℕ) {blanks sign body : List Char} {negative : Bool}
    (blank : ∀ c ∈ blanks, isSpace c = true) (signed : Sign sign negative)
    (digit : ∀ c ∈ body.head?, c.isDigit = true)
    (digits : (findBase base body).2.takeWhile (isDigitOf (findBase base body).1) ≠ []) :
    strtoul base (blanks ++ sign ++ body) =
      (signedValue negative (numeralValue (findBase base body).1
        ((findBase base body).2.takeWhile (isDigitOf (findBase base body).1))),
        (findBase base body).2.dropWhile (isDigitOf (findBase base body).1)) := by
  have head : ∀ c ∈ (sign ++ body).head?, isSpace c = false := by
    intro c member
    cases signed with
    | none =>
      rw [Bool.eq_false_iff]
      intro space
      exact Bool.false_ne_true ((isSpace_digit space).symm.trans (digit c member))
    | plus =>
      cases member
      decide
    | minus =>
      cases member
      decide
  rw [strtoul, List.append_assoc, dropWhile_parts blank head, splitSign_signed signed digit]
  exact if_neg digits

theorem strtoul_eq (base : ℕ) (str : List Char) :
    strtoul base str =
      if (findBase base (splitSign (str.dropWhile isSpace)).2).2.takeWhile
          (isDigitOf (findBase base (splitSign (str.dropWhile isSpace)).2).1) = [] then (0, str)
      else
        (signedValue (splitSign (str.dropWhile isSpace)).1
          (numeralValue (findBase base (splitSign (str.dropWhile isSpace)).2).1
            ((findBase base (splitSign (str.dropWhile isSpace)).2).2.takeWhile
              (isDigitOf (findBase base (splitSign (str.dropWhile isSpace)).2).1))),
          (findBase base (splitSign (str.dropWhile isSpace)).2).2.dropWhile
            (isDigitOf (findBase base (splitSign (str.dropWhile isSpace)).2).1)) :=
  rfl

/-- Either nothing is read, or the string has its parts. -/
theorem strtoul_cases (base : ℕ) (str : List Char) :
    strtoul base str = (0, str) ∨
      ∃ blanks sign negative body, str = blanks ++ sign ++ body ∧ (∀ c ∈ blanks, isSpace c = true) ∧
        Sign sign negative ∧ (findBase base body).2.takeWhile (isDigitOf (findBase base body).1) ≠ [] ∧
        strtoul base str =
          (signedValue negative (numeralValue (findBase base body).1
            ((findBase base body).2.takeWhile (isDigitOf (findBase base body).1))),
            (findBase base body).2.dropWhile (isDigitOf (findBase base body).1)) := by
  obtain ⟨sign, signed, split⟩ := splitSign_parts (str.dropWhile isSpace)
  rw [strtoul_eq]
  by_cases digits : (findBase base (splitSign (str.dropWhile isSpace)).2).2.takeWhile
      (isDigitOf (findBase base (splitSign (str.dropWhile isSpace)).2).1) = []
  · exact .inl (if_pos digits)
  · refine .inr ⟨str.takeWhile isSpace, sign, _, (splitSign (str.dropWhile isSpace)).2, ?_,
      fun c member => List.mem_takeWhile_imp member, signed, digits, if_neg digits⟩
    rw [List.append_assoc, ← split, List.takeWhile_append_dropWhile]

/-- Where digits were read. -/
theorem strtoul_read {base n : ℕ} {str rest : List Char} (read : strtoul base str = (n, rest)) (moved : rest ≠ str) :
    ∃ blanks sign negative body, str = blanks ++ sign ++ body ∧ (∀ c ∈ blanks, isSpace c = true) ∧
      Sign sign negative ∧ (findBase base body).2.takeWhile (isDigitOf (findBase base body).1) ≠ [] ∧
      n = signedValue negative (numeralValue (findBase base body).1
        ((findBase base body).2.takeWhile (isDigitOf (findBase base body).1))) ∧
      rest = (findBase base body).2.dropWhile (isDigitOf (findBase base body).1) := by
  cases strtoul_cases base str with
  | inl unread =>
    rw [read, Prod.mk.injEq] at unread
    exact absurd unread.2 moved
  | inr parts =>
    obtain ⟨blanks, sign, negative, body, split, blank, signed, digits, parts⟩ := parts
    rw [read, Prod.mk.injEq] at parts
    exact ⟨blanks, sign, negative, body, split, blank, signed, digits, parts.1, parts.2⟩

/-! ## The base 10 -/

/-- A number with what `strtoul` takes in front of it, and what follows. -/
def SignedText (s : List Char) (n : ℕ) (rest : List Char) : Prop :=
  ∃ blanks sign negative digits, s = blanks ++ sign ++ (digits ++ rest) ∧
    (∀ c ∈ blanks, isSpace c = true) ∧ Sign sign negative ∧ Digits 10 digits ∧ StopsAt 10 rest ∧
      n = signedValue negative (numeralValue 10 digits)

theorem Digits.head {digits : List Char} (proper : Digits 10 digits) (rest : List Char) :
    ∀ c ∈ (digits ++ rest).head?, c.isDigit = true := by
  intro c member
  cases digits with
  | nil => exact absurd rfl proper.1
  | cons d digits =>
    cases member
    rw [← isDigitOf_ten]
    exact proper.2 _ List.mem_cons_self

theorem SignedText.read {s rest : List Char} {n : ℕ} (text : SignedText s n rest) :
    strtoul 10 s = (n, rest) ∧ rest ≠ s := by
  obtain ⟨blanks, sign, negative, digits, rfl, blank, signed, proper, ends, rfl⟩ := text
  have taken : (digits ++ rest).takeWhile (isDigitOf 10) = digits := takeWhile_parts proper.2 ends
  have left : (digits ++ rest).dropWhile (isDigitOf 10) = rest := dropWhile_parts proper.2 ends
  constructor
  · have parts := strtoul_parts 10 blank signed (proper.head rest) (by
      change (digits ++ rest).takeWhile (isDigitOf 10) ≠ []
      rw [taken]
      exact proper.1)
    rw [parts]
    change (signedValue negative (numeralValue 10 ((digits ++ rest).takeWhile (isDigitOf 10))),
      (digits ++ rest).dropWhile (isDigitOf 10)) = _
    rw [taken, left]
  · intro same
    have lengths := congrArg List.length same
    have positive := List.length_pos_iff.mpr proper.1
    simp only [List.length_append] at lengths
    omega

theorem strtoul_ten_cases (s : List Char) :
    strtoul 10 s = (0, s) ∨ SignedText s (strtoul 10 s).1 (strtoul 10 s).2 := by
  cases strtoul_cases 10 s with
  | inl unread => exact .inl unread
  | inr parts =>
    obtain ⟨blanks, sign, negative, body, split, blank, signed, digits, parts⟩ := parts
    rw [parts]
    refine .inr ⟨blanks, sign, negative, body.takeWhile (isDigitOf 10), ?_, blank, signed,
      ⟨digits, fun c member => List.mem_takeWhile_imp member⟩, head_dropWhile _ _, rfl⟩
    rw [split]
    exact congrArg _ List.takeWhile_append_dropWhile.symm

theorem SignedText.suffix {s rest : List Char} {n : ℕ} (number : SignedText s n rest) : rest <:+ s := by
  obtain ⟨blanks, sign, negative, digits, rfl, -⟩ := number
  rw [← List.append_assoc]
  exact List.suffix_append _ _

/-- A decimal number, and what follows. -/
def DecimalText (s : List Char) (n : ℕ) (rest : List Char) : Prop :=
  ∃ digits, s = digits ++ rest ∧ Digits 10 digits ∧ StopsAt 10 rest ∧ n = numeralValue 10 digits

theorem DecimalText.suffix {s rest : List Char} {n : ℕ} (number : DecimalText s n rest) : rest <:+ s := by
  obtain ⟨digits, rfl, -⟩ := number
  exact List.suffix_append _ _

theorem signedValue_unsigned {value : ℕ} (small : value < 2 ^ 64) : signedValue false value = value := by
  rw [signedValue, if_neg (Nat.not_le.mpr small)]
  exact if_neg Bool.false_ne_true

theorem DecimalText.signed {s rest : List Char} {n : ℕ} (text : DecimalText s n rest) (small : n < 2 ^ 64) :
    SignedText s n rest := by
  obtain ⟨digits, rfl, proper, ends, rfl⟩ := text
  exact ⟨[], [], false, digits, rfl, by simp, .none, proper, ends, (signedValue_unsigned small).symm⟩

theorem DecimalText.digit {s rest : List Char} {n : ℕ} (text : DecimalText s n rest) :
    s.head?.any Char.isDigit = true := by
  obtain ⟨digits, rfl, proper, _, _⟩ := text
  cases digits with
  | nil => exact absurd rfl proper.1
  | cons c digits => exact proper.head rest c rfl

/-- With a digit in front there is neither white space nor a sign. -/
theorem unsigned_of_digit {blanks sign body : List Char} {negative : Bool}
    (blank : ∀ c ∈ blanks, isSpace c = true) (signed : Sign sign negative)
    (digit : (blanks ++ sign ++ body).head?.any Char.isDigit = true) : blanks = [] ∧ sign = [] ∧ negative = false := by
  cases blanks with
  | cons c blanks =>
    have letter := isSpace_digit (blank c List.mem_cons_self)
    simp [letter] at digit
  | nil =>
    cases signed with
    | none => exact ⟨rfl, rfl, rfl⟩
    | plus => cases digit
    | minus => cases digit

theorem signedValue_of_lt {value : ℕ} (small : signedValue false value < 2 ^ 64 - 1) :
    signedValue false value = value := by
  simp only [signedValue, Bool.false_eq_true, if_false] at small ⊢
  split
  next large =>
    rw [if_pos large] at small
    exact absurd small (Nat.lt_irrefl _)
  next => rfl

theorem SignedText.decimal {s rest : List Char} {n : ℕ} (text : SignedText s n rest) (small : n < 2 ^ 64 - 1)
    (digit : s.head?.any Char.isDigit = true) : DecimalText s n rest := by
  obtain ⟨blanks, sign, negative, digits, rfl, blank, signed, proper, stops, rfl⟩ := text
  obtain ⟨rfl, rfl, rfl⟩ := unsigned_of_digit blank signed digit
  exact ⟨digits, rfl, proper, stops, signedValue_of_lt small⟩

theorem signedText_of_digit {s : List Char} (digit : s.head?.any Char.isDigit = true) :
    ∃ n rest, SignedText s n rest := by
  refine ⟨_, s.dropWhile (isDigitOf 10), [], [], false, s.takeWhile (isDigitOf 10), ?_, by simp, .none,
    ⟨?_, fun c member => List.mem_takeWhile_imp member⟩, head_dropWhile _ _, rfl⟩
  · simp [List.takeWhile_append_dropWhile]
  · cases s with
    | nil => cases digit
    | cons c s =>
      rw [List.takeWhile_cons, isDigitOf_ten]
      simp [show c.isDigit = true from digit]

theorem digitOf_eq {c : Char} (digit : c.isDigit = true) : digitOf c = c.toNat - 48 := if_pos digit

/-- The digits of a number have its value. -/
theorem numeralValue_toDigits (n : ℕ) : numeralValue 10 (Nat.toDigits 10 n) = n := by
  have same : numeralValue 10 (Nat.toDigits 10 n) = Nat.ofDigitChars 10 (Nat.toDigits 10 n) 0 := by
    refine List.foldl_ext _ _ 0 fun value c member => ?_
    rw [digitOf_eq (Nat.isDigit_of_mem_toDigits (by decide) (by decide) member)]
    rfl
  rw [same, Nat.ofDigitChars_ten_toDigits]

theorem decimalText_toDigits {rest : List Char} (ends : StopsAt 10 rest) (n : ℕ) :
    DecimalText (Nat.toDigits 10 n ++ rest) n rest := by
  refine ⟨_, rfl, ⟨Nat.toDigits_ne_nil, fun c member => ?_⟩, ends, (numeralValue_toDigits n).symm⟩
  rw [isDigitOf_ten]
  exact Nat.isDigit_of_mem_toDigits (by decide) (by decide) member

/-! ## The base that is found -/

/-- A number as C writes it: decimal, octal behind `0`, hexadecimal behind `0x`. -/
inductive Constant : List Char → ℕ → Prop where
  | decimal {digits : List Char} : Digits 10 digits → digits.head? ≠ some '0' →
      Constant digits (numeralValue 10 digits)
  | octal {digits : List Char} : (∀ c ∈ digits, isDigitOf 8 c = true) →
      Constant ('0' :: digits) (numeralValue 8 ('0' :: digits))
  | hexadecimal {x : Char} {digits : List Char} : x = 'x' ∨ x = 'X' → Digits 16 digits →
      Constant ('0' :: x :: digits) (numeralValue 16 digits)

theorem Constant.head {text : List Char} {n : ℕ} (constant : Constant text n) (rest : List Char) :
    ∀ c ∈ (text ++ rest).head?, c.isDigit = true := by
  cases constant with
  | decimal proper _ => exact proper.head rest
  | octal _ =>
    intro c member
    cases member
    decide
  | hexadecimal _ _ =>
    intro c member
    cases member
    decide

theorem Constant.ne_nil {text : List Char} {n : ℕ} (constant : Constant text n) : text ≠ [] := by
  cases constant with
  | decimal proper _ => exact proper.1
  | octal _ => exact List.cons_ne_nil _ _
  | hexadecimal _ _ => exact List.cons_ne_nil _ _

theorem StopsAt.le {base base' : ℕ} {rest : List Char} (ends : StopsAt base' rest) (le : base ≤ base') :
    StopsAt base rest := by
  intro c member
  have beyond := ends c member
  simp only [isDigitOf, decide_eq_false_iff_not] at beyond ⊢
  omega

theorem detectBase_octal {s : List Char} (plain : ∀ x ∈ s.head?, x ≠ 'x' ∧ x ≠ 'X') :
    detectBase ('0' :: s) = (8, '0' :: s) := by
  cases s with
  | nil => rfl
  | cons x s =>
    cases s with
    | nil => rfl
    | cons c s =>
      obtain ⟨lower, upper⟩ := plain x rfl
      simp [detectBase, lower, upper]

/-- The base that is found, and the digits up to the end. -/
theorem Constant.found {text rest : List Char} {n : ℕ} (constant : Constant text n) (ends : StopsAt 36 rest) :
    ∃ base digits, findBase 0 (text ++ rest) = (base, digits ++ rest) ∧ base ≤ 36 ∧ Digits base digits ∧
      numeralValue base digits = n := by
  cases constant with
  | decimal proper leading =>
    refine ⟨10, text, ?_, by decide, proper, rfl⟩
    cases text with
    | nil => exact absurd rfl proper.1
    | cons d digits =>
      rw [findBase, if_pos rfl, List.cons_append, detectBase]
      · rintro x c s same
        exact leading (congrArg some (List.cons.inj same).1)
      · rintro s same
        exact leading (congrArg some (List.cons.inj same).1)
  | @octal digits proper =>
    refine ⟨8, '0' :: digits, ?_, by decide, ⟨List.cons_ne_nil _ _, List.forall_mem_cons.mpr ⟨rfl, proper⟩⟩, rfl⟩
    rw [findBase, if_pos rfl]
    refine detectBase_octal fun x member => ?_
    -- neither an octal digit nor what follows the digits is an `x`
    have small : isDigitOf 8 x = true ∨ isDigitOf 36 x = false := by
      cases digits with
      | nil => exact .inr (ends x member)
      | cons d digits =>
        cases member
        exact .inl (proper _ List.mem_cons_self)
    constructor
    · rintro rfl
      revert small
      decide
    · rintro rfl
      revert small
      decide
  | @hexadecimal x digits lower proper =>
    refine ⟨16, digits, ?_, by decide, proper, rfl⟩
    cases digits with
    | nil => exact absurd rfl proper.1
    | cons c digits =>
      have digit := proper.2 c List.mem_cons_self
      have isX : (decide (x = 'x') || decide (x = 'X')) = true := by simpa using lower
      simp [findBase, detectBase, digit, isX]

theorem detectBase_cases (body : List Char) :
    (∃ x c s, body = '0' :: x :: c :: s ∧ (x = 'x' ∨ x = 'X') ∧ detectBase body = (16, c :: s)) ∨
      (∃ s, body = '0' :: s ∧ detectBase body = (8, '0' :: s)) ∨
      (body.head? ≠ some '0' ∧ detectBase body = (10, body)) := by
  unfold detectBase
  split
  next x c s =>
    split
    next isX =>
      rw [Bool.and_eq_true, Bool.or_eq_true, decide_eq_true_eq, decide_eq_true_eq] at isX
      exact .inl ⟨x, c, s, rfl, isX.1, rfl⟩
    next => exact .inr (.inl ⟨x :: c :: s, rfl, rfl⟩)
  next s _ => exact .inr (.inl ⟨s, rfl, rfl⟩)
  next none =>
    refine .inr (.inr ⟨fun leading => ?_, rfl⟩)
    cases body with
    | nil => cases leading
    | cons d s =>
      cases leading
      exact none s rfl

theorem constant_of_found {body : List Char}
    (digits : (findBase 0 body).2.takeWhile (isDigitOf (findBase 0 body).1) ≠ []) :
    ∃ text, body = text ++ (findBase 0 body).2.dropWhile (isDigitOf (findBase 0 body).1) ∧
      Constant text (numeralValue (findBase 0 body).1
        ((findBase 0 body).2.takeWhile (isDigitOf (findBase 0 body).1))) := by
  rw [findBase, if_pos rfl] at digits ⊢
  obtain ⟨x, c, s, rfl, isX, found⟩ | ⟨s, rfl, found⟩ | ⟨leading, found⟩ := detectBase_cases body
  · rw [found] at digits ⊢
    refine ⟨'0' :: x :: (c :: s).takeWhile (isDigitOf 16), ?_,
      .hexadecimal isX ⟨digits, fun d member => List.mem_takeWhile_imp member⟩⟩
    simp [List.takeWhile_append_dropWhile]
  · rw [found]
    have first : ('0' :: s).takeWhile (isDigitOf 8) = '0' :: s.takeWhile (isDigitOf 8) := by
      rw [List.takeWhile_cons_of_pos (by decide)]
    have behind : ('0' :: s).dropWhile (isDigitOf 8) = s.dropWhile (isDigitOf 8) := by
      rw [List.dropWhile_cons_of_pos (by decide)]
    simp only [first, behind]
    refine ⟨'0' :: s.takeWhile (isDigitOf 8), ?_, .octal fun d member => List.mem_takeWhile_imp member⟩
    rw [List.cons_append, List.takeWhile_append_dropWhile]
  · rw [found] at digits ⊢
    refine ⟨body.takeWhile (isDigitOf 10), List.takeWhile_append_dropWhile.symm,
      .decimal ⟨digits, fun d member => List.mem_takeWhile_imp member⟩ fun zero => ?_⟩
    refine leading ?_
    cases body with
    | nil => cases zero
    | cons d s =>
      rw [List.takeWhile_cons] at zero
      split at zero
      · exact zero
      · cases zero

/-- A number as C writes it, with what `strtoul` takes in front of it. -/
def SignedConstant (text : List Char) (n : ℕ) : Prop :=
  ∃ blanks sign negative constant value, text = blanks ++ sign ++ constant ∧
    (∀ c ∈ blanks, isSpace c = true) ∧ Sign sign negative ∧ Constant constant value ∧
      n = signedValue negative value

theorem SignedConstant.constant {text : List Char} {n : ℕ} (signed : SignedConstant text n) (small : n < 2 ^ 64 - 1)
    (digit : text.head?.any Char.isDigit = true) : Constant text n := by
  obtain ⟨blanks, sign, negative, constant, value, rfl, blank, signed, written, rfl⟩ := signed
  obtain ⟨rfl, rfl, rfl⟩ := unsigned_of_digit blank signed digit
  rw [signedValue_of_lt small]
  exact written

theorem Constant.signed {text : List Char} {n : ℕ} (constant : Constant text n) (small : n < 2 ^ 64) :
    SignedConstant text n :=
  ⟨[], [], false, text, n, rfl, by simp, .none, constant, (signedValue_unsigned small).symm⟩

theorem Constant.digit {text : List Char} {n : ℕ} (constant : Constant text n) :
    text.head?.any Char.isDigit = true := by
  have head := constant.head []
  rw [List.append_nil] at head
  cases text with
  | nil => exact absurd rfl constant.ne_nil
  | cons c text => exact head c rfl

/-- The digits of a number start with a zero only if it is zero. -/
theorem head_toDigits {n : ℕ} (positive : 0 < n) : (Nat.toDigits 10 n).head? ≠ some '0' := by
  induction n using Nat.strongRecOn with
  | ind n inductionHypothesis =>
    rw [Nat.toDigits_eq_if (by decide)]
    split
    next small =>
      intro zero
      interval_cases n <;> cases zero
    next large =>
      have rest := inductionHypothesis (n / 10) (by omega) (by omega)
      rwa [List.head?_append_of_ne_nil _ Nat.toDigits_ne_nil]

theorem constant_toDigits (n : ℕ) : Constant (Nat.toDigits 10 n) n := by
  cases n with
  | zero => exact @Constant.octal [] (fun c member => nomatch member)
  | succ n =>
    have proper : Digits 10 (Nat.toDigits 10 (n + 1)) := by
      refine ⟨Nat.toDigits_ne_nil, fun c member => ?_⟩
      rw [isDigitOf_ten]
      exact Nat.isDigit_of_mem_toDigits (by decide) (by decide) member
    have constant := Constant.decimal proper (head_toDigits (Nat.succ_pos n))
    rwa [numeralValue_toDigits] at constant

theorem findBase_suffix (base : ℕ) (body : List Char) : (findBase base body).2 <:+ body := by
  rw [findBase]
  split
  next =>
    obtain ⟨x, c, s, rfl, -, found⟩ | ⟨s, rfl, found⟩ | ⟨-, found⟩ := detectBase_cases body
    · rw [found]
      exact (List.suffix_cons _ _).trans (List.suffix_cons _ _)
    · exact found ▸ List.suffix_rfl
    · exact found ▸ List.suffix_rfl
  next => exact List.suffix_rfl

/-- What follows a number is an end of the string. -/
theorem strtoul_suffix (base : ℕ) (s : List Char) : (strtoul base s).2 <:+ s := by
  cases strtoul_cases base s with
  | inl unread => exact unread ▸ List.suffix_rfl
  | inr parts =>
    obtain ⟨blanks, sign, negative, body, rfl, -, -, -, parts⟩ := parts
    rw [parts]
    exact (List.dropWhile_suffix _).trans ((findBase_suffix base body).trans (List.suffix_append _ _))

/-- A text in front of something that does not go on with it is read to its end exactly when it is a
number. -/
theorem strtoul_zero_iff {text rest : List Char} {n : ℕ} (some : text ≠ []) (ends : StopsAt 36 rest) :
    strtoul 0 (text ++ rest) = (n, rest) ↔ SignedConstant text n := by
  constructor
  · intro read
    have moved : rest ≠ text ++ rest := by
      intro same
      have lengths := congrArg List.length same
      have positive := List.length_pos_iff.mpr some
      rw [List.length_append] at lengths
      omega
    obtain ⟨blanks, sign, negative, body, split, blank, signed, digits, value, remains⟩ :=
      strtoul_read read moved
    obtain ⟨constant, whole, written⟩ := constant_of_found digits
    refine ⟨blanks, sign, negative, constant, _, ?_, blank, signed, written, value⟩
    rw [whole, ← remains, ← List.append_assoc] at split
    exact List.append_cancel_right split
  · rintro ⟨blanks, sign, negative, constant, value, rfl, blank, signed, written, rfl⟩
    obtain ⟨base, digits, found, small, proper, rfl⟩ := written.found ends
    have ends' : StopsAt base rest := ends.le small
    have taken : (digits ++ rest).takeWhile (isDigitOf base) = digits := takeWhile_parts proper.2 ends'
    have left : (digits ++ rest).dropWhile (isDigitOf base) = rest := dropWhile_parts proper.2 ends'
    rw [List.append_assoc, strtoul_parts 0 blank signed (written.head rest) (by
      rw [found, taken]
      exact proper.1)]
    rw [found, taken, left]

end Cbgp.Lib
