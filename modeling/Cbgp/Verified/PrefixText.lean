import Mathlib.Tactic.NormNum
import Cbgp.Net.PrefixText

/-! # Prefixes as text

What the parsers of addresses, prefixes and destinations accept, as a grammar over the way a number may be
written: in the code a number may follow white space and a sign, and the mask of a prefix need not be there.
A text that the code accepts is as it should be exactly when there is a digit wherever a number has to start.
-/

namespace Cbgp.Verified

open Cbgp.Lib Cbgp.Net

/-! ## The grammar -/

section Grammar

-- how a number, and the mask, may be written: the text, the value and what follows
variable (Number Mask : List Char → ℕ → List Char → Prop)

/-- Octets with a dot between them, and what follows. -/
inductive OctetsSyntax : List Char → List ℕ → List Char → Prop where
  | last {s rest : List Char} {d : ℕ} : Number s d rest → d ≤ 255 → OctetsSyntax s [d] rest
  | more {s s' rest : List Char} {d : ℕ} {ds : List ℕ} : Number s d ('.' :: s') → d ≤ 255 →
      OctetsSyntax s' ds rest → OctetsSyntax s (d :: ds) rest

/-- The address with the given first octets; those that are missing are zero. -/
def networkOf (ds : List ℕ) : NetAddr :=
  ((ds ++ List.replicate (4 - ds.length) 0).foldl (fun value d => 256 * value + d) 0).toUInt32

/-- One to four octets, a slash and a mask. -/
def PrefixSyntax (s : List Char) (p : Pfx) (rest : List Char) : Prop :=
  ∃ ds tail, OctetsSyntax Number s ds ('/' :: tail) ∧ ds.length ≤ 4 ∧ Mask tail p.mask rest ∧
    p.network = networkOf ds

/-- Four octets. -/
def AddressSyntax (s : List Char) (addr : NetAddr) (rest : List Char) : Prop :=
  ∃ ds, OctetsSyntax Number s ds rest ∧ ds.length = 4 ∧ addr = networkOf ds

/-- A destination, with nothing behind it. -/
def DestSyntax (s : List Char) : IpDest → Prop
  | .any => s = ['*']
  | .pfx p => PrefixSyntax Number Mask s p []
  | .address addr => AddressSyntax Number s addr []

end Grammar

/-- What the code takes for the mask: a number, or nothing where there is none. -/
def MaskText (s : List Char) (n : ℕ) (rest : List Char) : Prop :=
  SignedText s n rest ∨ (n = 0 ∧ rest = s ∧ ∀ n' rest', ¬ SignedText s n' rest')

/-- A digit stands at the start, and behind each dot and slash in front of the rest. -/
def DigitsPlaced (s rest : List Char) : Prop :=
  s.head?.any Char.isDigit = true ∧
    ∀ c behind, (c :: behind) <:+ s → rest <:+ behind → c = '.' ∨ c = '/' → behind.head?.any Char.isDigit = true

/-! ## The octets -/

/-- The loops of both parsers build the value of the octets. -/
def extend (network : NetAddr) (ds : List ℕ) : NetAddr :=
  ds.foldl (fun network d => (network <<< 8) + d.toUInt32) network

theorem extend_toUInt32 (ds : List ℕ) (n : ℕ) :
    extend n.toUInt32 ds = (ds.foldl (fun value d => 256 * value + d) n).toUInt32 := by
  induction ds generalizing n with
  | nil => rfl
  | cons d ds inductionHypothesis =>
    have step : (n.toUInt32 <<< 8) + d.toUInt32 = (256 * n + d).toUInt32 := by
      apply UInt32.toNat_inj.mp
      simp [UInt32.toNat_shiftLeft, Nat.shiftLeft_eq]
      omega
    rw [extend, List.foldl_cons, step]
    exact inductionHypothesis _

theorem shiftMissing_eq (network : NetAddr) (numDigits : ℕ) :
    shiftMissing network numDigits = extend network (List.replicate numDigits 0) := by
  induction numDigits generalizing network with
  | zero => rfl
  | succ numDigits inductionHypothesis =>
    rw [shiftMissing, inductionHypothesis]
    simp [extend, List.replicate_succ]

theorem networkOf_eq (ds : List ℕ) : shiftMissing (extend 0 ds) (4 - ds.length) = networkOf ds := by
  rw [shiftMissing_eq, networkOf, ← extend_toUInt32, extend, extend, ← List.foldl_append]
  rfl

theorem networkOf_address {ds : List ℕ} (four : ds.length = 4) : extend 0 ds = networkOf ds := by
  have missing := networkOf_eq ds
  rwa [four, Nat.sub_self, shiftMissing] at missing

/-! ## The code and its grammar -/

theorem readOctets_complete {s rest : List Char} {ds : List ℕ} (octets : OctetsSyntax SignedText s ds rest)
    {tail : List Char} (slash : rest = '/' :: tail) {numDigits : ℕ} (fits : ds.length ≤ numDigits)
    (network : NetAddr) (endPtr : List Char) :
    readOctets network s endPtr numDigits =
      some ⟨extend network ds, tail, '/' :: tail, numDigits - ds.length⟩ := by
  induction octets generalizing numDigits network endPtr with
  | @last s rest d number small =>
    subst slash
    cases numDigits with
    | zero => cases fits
    | succ numDigits =>
      obtain ⟨read, moved⟩ := number.read
      simp [readOctets, read, Nat.not_lt.mpr small, moved.symm, extend]
  | @more s s' rest d ds number small _ inductionHypothesis =>
    cases numDigits with
    | zero => cases fits
    | succ numDigits =>
      obtain ⟨read, moved⟩ := number.read
      have behind := inductionHypothesis slash (Nat.le_of_succ_le_succ fits) ((network <<< 8) + d.toUInt32) ('.' :: s')
      simp [readOctets, read, Nat.not_lt.mpr small, moved.symm, behind, extend]

theorem readOctets_sound {network : NetAddr} {s endPtr : List Char} {numDigits : ℕ} {reader : PrefixReader}
    (read : readOctets network s endPtr numDigits = some reader) (slash : reader.endPtr.head? = some '/')
    (start : numDigits = 0 → endPtr.head? ≠ some '/') :
    ∃ ds, OctetsSyntax SignedText s ds ('/' :: reader.str) ∧ ds.length ≤ numDigits := by
  induction numDigits generalizing network s endPtr with
  | zero =>
    cases read
    exact absurd slash (start rfl)
  | succ numDigits inductionHypothesis =>
    have cases := strtoul_ten_cases s
    simp only [readOctets] at read
    generalize strtoul 10 s = result at cases read
    obtain ⟨d, end'⟩ := result
    split at read
    next => cases read
    next fine =>
      push Not at fine
      have number : SignedText s d end' :=
        cases.resolve_left fun unread => fine.2 (Prod.mk.inj unread).2.symm
      split at read
      next last =>
        cases read
        obtain ⟨tail, rfl⟩ := List.head?_eq_some_iff.mp last
        exact ⟨[d], .last number fine.1, Nat.succ_le_succ (Nat.zero_le _)⟩
      next notSlash =>
        split at read
        next => cases read
        next dot =>
          obtain ⟨s', rfl⟩ := List.head?_eq_some_iff.mp (not_not.mp dot)
          obtain ⟨ds, octets, fits⟩ := inductionHypothesis read fun _ => notSlash
          exact ⟨d :: ds, .more number fine.1 octets, Nat.succ_le_succ fits⟩

theorem MaskText.read_iff {s rest : List Char} {n : ℕ} : strtoul 10 s = (n, rest) ↔ MaskText s n rest := by
  constructor
  · intro read
    by_cases unread : ∀ n' rest', ¬ SignedText s n' rest'
    · have nothing := (strtoul_ten_cases s).resolve_right (unread _ _)
      rw [read, Prod.mk.injEq] at nothing
      exact .inr ⟨nothing.1, nothing.2, unread⟩
    · push Not at unread
      obtain ⟨n', rest', number⟩ := unread
      have same := number.read.1
      rw [read, Prod.mk.injEq] at same
      obtain ⟨rfl, rfl⟩ := same
      exact .inl number
  · intro mask
    cases mask with
    | inl number => exact number.read.1
    | inr nothing =>
      obtain ⟨rfl, rfl, unread⟩ := nothing
      exact (strtoul_ten_cases rest).resolve_right (unread _ _)

/-- `ip_string_to_prefix` reads the loose form of a prefix. -/
theorem ipStringToPrefix_iff {s rest : List Char} {p : Pfx} :
    ipStringToPrefix s = some (p, rest) ↔ PrefixSyntax SignedText MaskText s p rest := by
  constructor
  · intro read
    simp only [ipStringToPrefix] at read
    split at read
    next => cases read
    next reader octetsRead =>
      split at read
      next => cases read
      next slash =>
        split at read
        next => cases read
        next small =>
          obtain ⟨ds, octets, fits⟩ := readOctets_sound octetsRead (not_not.mp slash) (by simp)
          have same := readOctets_complete octets rfl fits 0 s
          rw [octetsRead, Option.some.injEq] at same
          cases read
          have network : shiftMissing reader.network reader.numDigits = networkOf ds := by
            rw [same]
            exact networkOf_eq ds
          exact ⟨ds, reader.str, octets, fits, MaskText.read_iff.mp rfl, network⟩
  · rintro ⟨ds, tail, octets, fits, mask, network⟩
    have octetsRead := readOctets_complete octets rfl fits 0 s
    have maskRead := MaskText.read_iff.mpr mask
    obtain ⟨_, mask', short⟩ := p
    dsimp only at maskRead network
    simp [ipStringToPrefix, octetsRead, maskRead, Nat.not_lt.mpr short, networkOf_eq, network]

theorem readAddress_complete {s rest : List Char} {ds : List ℕ} (octets : OctetsSyntax SignedText s ds rest)
    (addr : NetAddr) (endPtr : List Char) :
    readAddress addr s endPtr ds.length = some (extend addr ds, rest) := by
  induction octets generalizing addr endPtr with
  | @last s rest d number small =>
    obtain ⟨read, moved⟩ := number.read
    simp [readAddress, read, Nat.not_lt.mpr small, moved.symm, extend]
  | @more s s' rest d ds number small _ inductionHypothesis =>
    obtain ⟨read, moved⟩ := number.read
    have behind := inductionHypothesis ((addr <<< 8) + d.toUInt32) ('.' :: s')
    simp [readAddress, read, Nat.not_lt.mpr small, moved.symm, behind, extend]

theorem readAddress_sound {addr addr' : NetAddr} {s endPtr rest : List Char} {numDigits : ℕ}
    (read : readAddress addr s endPtr (numDigits + 1) = some (addr', rest)) :
    ∃ ds, OctetsSyntax SignedText s ds rest ∧ ds.length = numDigits + 1 := by
  induction numDigits generalizing addr s endPtr with
  | zero =>
    have cases := strtoul_ten_cases s
    simp only [readAddress] at read
    generalize strtoul 10 s = result at cases read
    obtain ⟨d, end'⟩ := result
    split at read
    next => cases read
    next fine =>
      push Not at fine
      have number : SignedText s d end' := cases.resolve_left fun unread => fine.1 (Prod.mk.inj unread).2.symm
      cases read
      exact ⟨[d], .last number fine.2.1, rfl⟩
  | succ numDigits inductionHypothesis =>
    have cases := strtoul_ten_cases s
    rw [readAddress] at read
    generalize strtoul 10 s = result at cases read
    obtain ⟨d, end'⟩ := result
    split at read
    next => cases read
    next fine =>
      push Not at fine
      obtain ⟨s', rfl⟩ := List.head?_eq_some_iff.mp (fine.2.2 (Nat.succ_pos _))
      have number : SignedText s d ('.' :: s') := cases.resolve_left fun unread => fine.1 (Prod.mk.inj unread).2.symm
      obtain ⟨ds, octets, length⟩ := inductionHypothesis read
      exact ⟨d :: ds, .more number fine.2.1 octets, congrArg Nat.succ length⟩

/-- `ip_string_to_address` reads the loose form of an address. -/
theorem ipStringToAddress_iff {s rest : List Char} {addr : NetAddr} :
    ipStringToAddress s = some (addr, rest) ↔ AddressSyntax SignedText s addr rest := by
  constructor
  · intro read
    obtain ⟨ds, octets, length⟩ := readAddress_sound read
    have same := readAddress_complete octets 0 s
    rw [length] at same
    obtain ⟨rfl, -⟩ := Prod.mk.inj (Option.some.inj (read.symm.trans same))
    exact ⟨ds, octets, length, networkOf_address length⟩
  · rintro ⟨ds, octets, length, rfl⟩
    have read := readAddress_complete octets 0 s
    rw [length, networkOf_address length] at read
    exact read

theorem OctetsSyntax.apart {s tail : List Char} {ds ds' : List ℕ} (octets : OctetsSyntax SignedText s ds []) :
    ¬ OctetsSyntax SignedText s ds' ('/' :: tail) := by
  generalize ending : ([] : List Char) = rest at octets
  intro octets'
  induction octets generalizing ds' with
  | last number _ =>
    subst ending
    cases octets' with
    | last number' _ => cases number.read.1.symm.trans number'.read.1
    | more number' _ _ => cases number.read.1.symm.trans number'.read.1
  | more number _ _ inductionHypothesis =>
    cases octets' with
    | last number' _ => cases number.read.1.symm.trans number'.read.1
    | more number' _ octets' =>
      cases number.read.1.symm.trans number'.read.1
      exact inductionHypothesis ending octets'

/-- `ip_string_to_dest` reads the loose form of a destination. -/
theorem ipStringToDest_iff {s : List Char} {d : IpDest} :
    ipStringToDest s = some d ↔ DestSyntax SignedText MaskText s d := by
  by_cases star : s = ['*']
  · subst star
    have noPrefix : ipStringToPrefix ['*'] = none := rfl
    have noAddress : ipStringToAddress ['*'] = none := rfl
    cases d with
    | any => simp [ipStringToDest, DestSyntax]
    | pfx p => simp [ipStringToDest, DestSyntax, ← ipStringToPrefix_iff, noPrefix]
    | address addr => simp [ipStringToDest, DestSyntax, ← ipStringToAddress_iff, noAddress]
  · rw [ipStringToDest, if_neg star]
    -- A prefix is tried before an address, and no text is both: an address ends where a slash follows.
    split
    next p read =>
      cases d with
      | any => simp [DestSyntax, star]
      | pfx p' => simp [DestSyntax, ← ipStringToPrefix_iff, read]
      | address addr =>
        obtain ⟨_, _, octets', -, -⟩ := ipStringToPrefix_iff.mp read
        simp only [DestSyntax, Option.some.injEq, reduceCtorEq, false_iff]
        rintro ⟨ds, octets, -, -⟩
        exact octets.apart octets'
    next noPrefix =>
      have none : ∀ p, ¬ PrefixSyntax SignedText MaskText s p [] :=
        fun p read => noPrefix p (ipStringToPrefix_iff.mpr read)
      split
      next addr read =>
        cases d with
        | any => simp [DestSyntax, star]
        | pfx p => simp [DestSyntax, none]
        | address addr' => simp [DestSyntax, ← ipStringToAddress_iff, read]
      next noAddress =>
        cases d with
        | any => simp [DestSyntax, star]
        | pfx p => simp [DestSyntax, none]
        | address addr =>
          simp only [DestSyntax, ← ipStringToAddress_iff, reduceCtorEq, false_iff]
          exact noAddress addr

/-! ## Where the digits stand -/

theorem OctetsSyntax.suffix {Number : List Char → ℕ → List Char → Prop}
    (suffix : ∀ {s n rest}, Number s n rest → rest <:+ s) {s rest : List Char} {ds : List ℕ}
    (octets : OctetsSyntax Number s ds rest) : rest <:+ s := by
  induction octets with
  | last number _ => exact suffix number
  | more number _ _ inductionHypothesis =>
    exact inductionHypothesis.trans ((List.suffix_cons _ _).trans (suffix number))

theorem OctetsSyntax.imp {Number Number' : List Char → ℕ → List Char → Prop}
    (imp : ∀ {s n rest}, n ≤ 255 → Number s n rest → Number' s n rest) {s rest : List Char} {ds : List ℕ}
    (octets : OctetsSyntax Number s ds rest) : OctetsSyntax Number' s ds rest := by
  induction octets with
  | last number small => exact .last (imp small number) small
  | more number small _ inductionHypothesis => exact .more (imp small number) small inductionHypothesis

theorem OctetsSyntax.signed {s rest : List Char} {ds : List ℕ} (octets : OctetsSyntax DecimalText s ds rest) :
    OctetsSyntax SignedText s ds rest :=
  octets.imp fun small number => number.signed (by omega)

theorem DigitsPlaced.behind {s s' rest : List Char} {c : Char} (placed : DigitsPlaced s rest)
    (part : (c :: s') <:+ s) (more : rest <:+ s') (separator : c = '.' ∨ c = '/') : DigitsPlaced s' rest :=
  ⟨placed.2 c s' part more separator,
    fun d behind part' => placed.2 d behind (part'.trans ((List.suffix_cons _ _).trans part))⟩

theorem DigitsPlaced.shorter {s rest rest' : List Char} (placed : DigitsPlaced s rest) (more : rest <:+ rest') :
    DigitsPlaced s rest' :=
  ⟨placed.1, fun c behind part more' => placed.2 c behind part (more.trans more')⟩

/-- A digit wherever a number starts leaves no room for anything else. -/
theorem OctetsSyntax.decimal {s rest : List Char} {ds : List ℕ} (octets : OctetsSyntax SignedText s ds rest)
    (placed : DigitsPlaced s rest) : OctetsSyntax DecimalText s ds rest := by
  induction octets with
  | last number small => exact .last (number.decimal (by omega) placed.1) small
  | more number small octets inductionHypothesis =>
    have behind := placed.behind number.suffix (octets.suffix SignedText.suffix) (.inl rfl)
    exact .more (number.decimal (by omega) placed.1) small (inductionHypothesis behind)

/-- What ends behind the digits of a number, or starts with one of them. -/
theorem suffix_cases {digits rest behind : List Char} {c : Char} (part : (c :: behind) <:+ digits ++ rest) :
    (c :: behind) <:+ rest ∨ c ∈ digits := by
  cases List.suffix_or_suffix_of_suffix part (List.suffix_append digits rest) with
  | inl within => exact .inl within
  | inr longer =>
    obtain ⟨front, split⟩ := longer
    cases front with
    | nil =>
      rw [List.nil_append] at split
      exact .inl (split ▸ List.suffix_rfl)
    | cons d front =>
      rw [List.cons_append, List.cons.injEq] at split
      obtain ⟨rfl, rfl⟩ := split
      have inner : (d :: front) <:+ digits := (List.suffix_append_inj_of_length_eq rfl).mp part |>.1
      exact .inr (inner.subset List.mem_cons_self)

theorem not_suffix_self {c : Char} {behind rest : List Char} (part : (c :: behind) <:+ rest) : ¬ rest <:+ behind := by
  intro more
  have length := part.length_le
  have length' := more.length_le
  rw [List.length_cons] at length
  omega

/-- The digits of a number are neither dots nor slashes. -/
theorem separator_behind {s rest behind : List Char} {n : ℕ} {c : Char} (number : DecimalText s n rest)
    (part : (c :: behind) <:+ s) (separator : c = '.' ∨ c = '/') : (c :: behind) <:+ rest := by
  obtain ⟨digits, rfl, proper, -⟩ := number
  cases suffix_cases part with
  | inl found => exact found
  | inr inside =>
    have digit := proper.2 c inside
    obtain rfl | rfl := separator <;> exact absurd digit (by decide)

theorem OctetsSyntax.placed {s rest : List Char} {ds : List ℕ} (octets : OctetsSyntax DecimalText s ds rest) :
    DigitsPlaced s rest := by
  induction octets with
  | last number _ =>
    refine ⟨number.digit, fun c behind part more separator => ?_⟩
    exact absurd more (not_suffix_self (separator_behind number part separator))
  | @more s s' rest d ds number _ _ inductionHypothesis =>
    refine ⟨number.digit, fun c behind part more separator => ?_⟩
    cases List.suffix_cons_iff.mp (separator_behind number part separator) with
    | inl same =>
      cases same
      exact inductionHypothesis.1
    | inr within => exact inductionHypothesis.2 c behind within more separator

theorem PrefixSyntax.placed {s rest : List Char} {p : Pfx} (text : PrefixSyntax DecimalText DecimalText s p rest) :
    DigitsPlaced s rest := by
  obtain ⟨ds, tail, octets, -, mask, -⟩ := text
  have front := octets.placed
  refine ⟨front.1, fun c behind part more separator => ?_⟩
  have slash := octets.suffix DecimalText.suffix
  cases List.suffix_or_suffix_of_suffix part slash with
  | inl within =>
    -- the slash, or something behind it
    cases List.suffix_cons_iff.mp within with
    | inl same =>
      cases same
      exact mask.digit
    | inr within => exact absurd more (not_suffix_self (separator_behind mask within separator))
  | inr before =>
    cases List.suffix_cons_iff.mp before with
    | inl same =>
      cases same
      exact mask.digit
    | inr before => exact front.2 c behind part before separator

theorem AddressSyntax.placed {s rest : List Char} {addr : NetAddr} (text : AddressSyntax DecimalText s addr rest) :
    DigitsPlaced s rest := by
  obtain ⟨ds, octets, -, -⟩ := text
  exact octets.placed

/-! ## The two grammars -/

theorem PrefixSyntax.signed {s rest : List Char} {p : Pfx} (text : PrefixSyntax DecimalText DecimalText s p rest) :
    PrefixSyntax SignedText MaskText s p rest := by
  obtain ⟨ds, tail, octets, fits, mask, network⟩ := text
  have short := p.short
  exact ⟨ds, tail, octets.signed, fits, .inl (mask.signed (by omega)), network⟩

theorem AddressSyntax.signed {s rest : List Char} {addr : NetAddr} (text : AddressSyntax DecimalText s addr rest) :
    AddressSyntax SignedText s addr rest := by
  obtain ⟨ds, octets, four, address⟩ := text
  exact ⟨ds, octets.signed, four, address⟩

theorem PrefixSyntax.decimal {s rest : List Char} {p : Pfx} (text : PrefixSyntax SignedText MaskText s p rest)
    (placed : DigitsPlaced s rest) : PrefixSyntax DecimalText DecimalText s p rest := by
  obtain ⟨ds, tail, octets, fits, mask, network⟩ := text
  have short := p.short
  have within : rest <:+ tail := by
    cases mask with
    | inl number => exact number.suffix
    | inr nothing => exact nothing.2.1 ▸ List.suffix_rfl
  have slash := octets.suffix SignedText.suffix
  have digit := placed.2 '/' tail slash within (.inr rfl)
  refine ⟨ds, tail, octets.decimal (placed.shorter (within.trans (List.suffix_cons _ _))), fits, ?_, network⟩
  cases mask with
  | inl number => exact number.decimal (by omega) digit
  | inr nothing =>
    obtain ⟨n, rest', number⟩ := signedText_of_digit digit
    exact absurd number (nothing.2.2 n rest')

theorem AddressSyntax.decimal {s rest : List Char} {addr : NetAddr} (text : AddressSyntax SignedText s addr rest)
    (placed : DigitsPlaced s rest) : AddressSyntax DecimalText s addr rest := by
  obtain ⟨ds, octets, four, address⟩ := text
  exact ⟨ds, octets.decimal placed, four, address⟩

/-! ## Round trip -/

theorem networkOf_octets (network : NetAddr) : networkOf (octets network) = network := by
  apply UInt32.toNat_inj.mp
  have small := network.toNat_lt
  simp [networkOf, octets, Nat.shiftRight_eq_div_pow, Nat.and_two_pow_sub_one_eq_mod _ 8]
  omega

theorem octets_le (network : NetAddr) : ∀ d ∈ octets network, d ≤ 255 := by
  have small := network.toNat_lt
  simp [octets, Nat.shiftRight_eq_div_pow, Nat.and_two_pow_sub_one_eq_mod _ 8]
  omega

theorem octetsSyntax_text {tail : List Char} (ends : StopsAt 10 tail) {d : ℕ} {ds : List ℕ}
    (small : ∀ e ∈ d :: ds, e ≤ 255) :
    OctetsSyntax DecimalText (['.'].intercalate ((d :: ds).map (Nat.toDigits 10)) ++ tail) (d :: ds) tail := by
  induction ds generalizing d with
  | nil =>
    simpa using OctetsSyntax.last (decimalText_toDigits ends d) (small d List.mem_cons_self)
  | cons e ds inductionHypothesis =>
    have behind := inductionHypothesis (d := e) fun f member => small f (List.mem_cons_of_mem _ member)
    have dot : StopsAt 10 ('.' :: (['.'].intercalate ((e :: ds).map (Nat.toDigits 10)) ++ tail)) := by
      intro c member
      cases member
      rfl
    have front := OctetsSyntax.more (decimalText_toDigits dot d) (small d List.mem_cons_self) behind
    simpa [List.intercalate] using front

theorem prefixText_form (p : Pfx) : PrefixSyntax DecimalText DecimalText (prefixText p) p [] := by
  have slash : StopsAt 10 ('/' :: Nat.toDigits 10 p.mask) := by
    intro c member
    cases member
    rfl
  refine ⟨octets p.network, Nat.toDigits 10 p.mask, octetsSyntax_text slash (octets_le p.network), le_refl 4, ?_,
    (networkOf_octets p.network).symm⟩
  have nothing : StopsAt 10 [] := fun c member => nomatch member
  have mask := decimalText_toDigits nothing p.mask
  rwa [List.append_nil] at mask

theorem length_prefixText (p : Pfx) : (prefixText p).length < 19 := by
  have small := octets_le p.network
  have short := p.short
  have three : ∀ {d : ℕ}, d ≤ 255 → (Nat.toDigits 10 d).length ≤ 3 :=
    fun le => (Nat.length_toDigits_le_iff (by decide) (by decide)).mpr (by omega)
  have two : (Nat.toDigits 10 p.mask).length ≤ 2 :=
    (Nat.length_toDigits_le_iff (by decide) (by decide)).mpr (by omega)
  simp only [octets, List.forall_mem_cons] at small
  obtain ⟨first, second, third, fourth, -⟩ := small
  have first := three first
  have second := three second
  have third := three third
  have fourth := three fourth
  simp only [prefixText, octets, List.map_cons, List.map_nil, List.intercalate_cons_cons, List.intercalate_singleton,
    List.length_append, List.length_cons, List.length_nil]
  omega

/-- What is printed is read again. -/
theorem ipPrefixToString_read {p : Pfx} {size : ℕ} {text : List Char} (printed : ipPrefixToString p size = some text) :
    ipStringToPrefix text = some (p, []) := by
  rw [ipPrefixToString] at printed
  split at printed
  next => cases printed
  next =>
    cases printed
    exact ipStringToPrefix_iff.mpr (prefixText_form p).signed

/-! ## What is accepted -/

/-- A string is read as a prefix, and as a destination, exactly where it has the form of one. -/
def ReadsForm (s : List Char) : Prop :=
  (∀ p rest, ipStringToPrefix s = some (p, rest) ↔ PrefixSyntax DecimalText DecimalText s p rest) ∧
    ∀ d, ipStringToDest s = some d ↔ DestSyntax DecimalText DecimalText s d

/-- Whatever at the start of a string has the loose form of a prefix, and the whole string if it has the loose
form of an address, has a digit wherever a number starts. -/
def NumbersPlaced (s : List Char) : Prop :=
  (∀ p rest, PrefixSyntax SignedText MaskText s p rest → DigitsPlaced s rest) ∧
    ∀ addr, AddressSyntax SignedText s addr [] → DigitsPlaced s []

theorem ReadsForm.placed {s : List Char} (reads : ReadsForm s) : NumbersPlaced s := by
  constructor
  · intro p rest text
    exact ((reads.1 p rest).mp (ipStringToPrefix_iff.mpr text)).placed
  · intro addr text
    have read := (reads.2 (.address addr)).mp (ipStringToDest_iff.mpr text)
    exact AddressSyntax.placed read

theorem NumbersPlaced.reads {s : List Char} (placed : NumbersPlaced s) : ReadsForm s := by
  constructor
  · intro p rest
    rw [ipStringToPrefix_iff]
    exact ⟨fun text => text.decimal (placed.1 p rest text), PrefixSyntax.signed⟩
  · intro d
    rw [ipStringToDest_iff]
    cases d with
    | any => exact Iff.rfl
    | pfx p => exact ⟨fun text => PrefixSyntax.decimal text (placed.1 p [] text), PrefixSyntax.signed⟩
    | address addr => exact ⟨fun text => AddressSyntax.decimal text (placed.2 addr text), AddressSyntax.signed⟩

/-- Every prefix is read as it was printed, and a string is read as it should be exactly when there is a digit
wherever a number starts in it. -/
theorem prefix_text_iff (p : Pfx) (s : List Char) :
    ((∃ text, ipPrefixToString p 19 = some text) ∧
      ∀ size text, ipPrefixToString p size = some text → ipStringToPrefix text = some (p, [])) ∧
      (ReadsForm s ↔ NumbersPlaced s) := by
  refine ⟨⟨⟨prefixText p, if_neg (Nat.not_le.mpr (length_prefixText p))⟩, fun size text => ipPrefixToString_read⟩,
    ReadsForm.placed, NumbersPlaced.reads⟩

/-- A prefix is read without a digit in its mask. -/
theorem empty_mask :
    ipStringToPrefix "1.2.3.4/".toList = some (⟨0x01020304, 0, by decide⟩, []) ∧
      ipStringToDest "1.2.3.4/".toList = some (.pfx ⟨0x01020304, 0, by decide⟩) ∧ ¬ ReadsForm "1.2.3.4/".toList := by
  refine ⟨by decide, by decide, fun reads => ?_⟩
  have read : ipStringToPrefix "1.2.3.4/".toList = some (⟨0x01020304, 0, by decide⟩, []) := by decide
  have placed := ((reads.1 _ _).mp read).placed
  have digit := placed.2 '/' [] (by decide) (by decide) (.inr rfl)
  cases digit

end Cbgp.Verified
