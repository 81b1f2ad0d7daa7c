import Mathlib.Data.List.Perm.Basic
import Mathlib.Tactic.Set

/-! # Selection by elimination

Choosing from a list by rules applied one after the other.  A rule is a relation `dom d c`, read
"`d` eliminates `c`"; applying it keeps the items that no item of the list eliminates.

* `undominated` — one rule; `survivors` — a list of rules.
* Both commute with permutations of the list (`undominated_perm`, `survivors_perm`).
* A rule that is irreflexive and transitive never empties a non-empty list
  (`undominated_ne_nil`, `survivors_ne_nil`).
* `keepBest` — the two loops by which such a rule is programmed: find the best value, then drop
  what is worse.  `keepBest_eq_undominated` says when they compute the rule.
* `lex` — rules that are weak orders, in sequence, are one rule (`survivors_eq_lex`).
* `NoRevival` — when items can be taken away without changing the selection
  (`undominated_filter_single`).
-/

namespace Cbgp.Lib

universe u v

variable {α : Type u}

/-! ## One rule -/

/-- The items that no item of the list eliminates, in their order. -/
def undominated (dom : α → α → Bool) (l : List α) : List α :=
  l.filter fun c => l.all fun d => !dom d c

theorem mem_undominated {dom : α → α → Bool} {l : List α} {c : α} :
    c ∈ undominated dom l ↔ c ∈ l ∧ ∀ d ∈ l, dom d c = false := by
  simp [undominated]

theorem undominated_sublist (dom : α → α → Bool) (l : List α) : (undominated dom l).Sublist l :=
  List.filter_sublist

theorem undominated_perm {dom : α → α → Bool} {l l' : List α} (perm : l.Perm l') :
    (undominated dom l).Perm (undominated dom l') := by
  have test : (fun c => l.all fun d => !dom d c) = fun c => l'.all fun d => !dom d c := by
    funext c
    exact Bool.eq_iff_iff.mpr (by simp [perm.mem_iff])
  rw [undominated, undominated, test]
  exact perm.filter _

/-- A strict order: what a rule has to be to keep something. -/
structure StrictRule (dom : α → α → Bool) : Prop where
  irrefl : ∀ c, dom c c = false
  trans : ∀ {c d e}, dom c d = true → dom d e = true → dom c e = true

/-- Every item of a list is kept or eliminated by an item that is kept. -/
theorem StrictRule.kept_or_eliminated {dom : α → α → Bool} (strict : StrictRule dom) (l : List α)
    {c : α} (member : c ∈ l) :
    c ∈ undominated dom l ∨ ∃ d ∈ undominated dom l, dom d c = true := by
  -- Strong induction on the number of items that eliminate `c`.
  generalize size : (l.filter fun d => dom d c).length = n
  induction n using Nat.strongRecOn generalizing c with
  | _ n inductionHypothesis =>
    by_cases kept : ∀ d ∈ l, dom d c = false
    · exact Or.inl (mem_undominated.mpr ⟨member, kept⟩)
    · push Not at kept
      obtain ⟨d, memberD, eliminates⟩ := kept
      replace eliminates : dom d c = true := by simpa using eliminates
      have fewer : (l.filter fun e => dom e d).length < n := by
        have below : ((l.filter fun e => dom e c).filter fun e => dom e d).length
            < (l.filter fun e => dom e c).length := by
          apply List.length_filter_lt_length_iff_exists.mpr
          exact ⟨d, List.mem_filter.mpr ⟨memberD, eliminates⟩, by simp [strict.irrefl]⟩
        have same : (l.filter fun e => dom e c).filter (fun e => dom e d)
            = l.filter fun e => dom e d := by
          rw [List.filter_filter]
          apply List.filter_congr
          intro e _
          by_cases h : dom e d = true
          · simp [h, strict.trans h eliminates]
          · simp [h]
        rw [same] at below
        omega
      rcases inductionHypothesis _ fewer memberD rfl with kept | ⟨e, kept, above⟩
      · exact Or.inr ⟨d, kept, eliminates⟩
      · exact Or.inr ⟨e, kept, strict.trans above eliminates⟩

theorem StrictRule.undominated_ne_nil {dom : α → α → Bool} (strict : StrictRule dom) {l : List α}
    (nonempty : l ≠ []) : undominated dom l ≠ [] := by
  obtain ⟨c, member⟩ := List.exists_mem_of_ne_nil l nonempty
  rcases strict.kept_or_eliminated l member with kept | ⟨d, kept, _⟩
  · exact List.ne_nil_of_mem kept
  · exact List.ne_nil_of_mem kept

/-- A list of at most one item is left alone. -/
theorem StrictRule.undominated_short {dom : α → α → Bool} (strict : StrictRule dom) {l : List α}
    (short : l.length ≤ 1) : undominated dom l = l := by
  match l, short with
  | [], _ => rfl
  | [c], _ => simp [undominated, strict.irrefl]

/-! ## Rules in sequence -/

/-- Apply the rules one after the other. -/
def survivors (doms : List (α → α → Bool)) (l : List α) : List α :=
  doms.foldl (fun l dom => undominated dom l) l

@[simp] theorem survivors_nil (l : List α) : survivors [] l = l := rfl

@[simp] theorem survivors_cons (dom : α → α → Bool) (doms : List (α → α → Bool)) (l : List α) :
    survivors (dom :: doms) l = survivors doms (undominated dom l) := rfl

theorem survivors_append (doms doms' : List (α → α → Bool)) (l : List α) :
    survivors (doms ++ doms') l = survivors doms' (survivors doms l) :=
  List.foldl_append

theorem survivors_sublist (doms : List (α → α → Bool)) (l : List α) :
    (survivors doms l).Sublist l := by
  induction doms generalizing l with
  | nil => exact List.Sublist.refl _
  | cons dom doms inductionHypothesis =>
    exact (inductionHypothesis _).trans (undominated_sublist dom l)

theorem survivors_perm (doms : List (α → α → Bool)) {l l' : List α} (perm : l.Perm l') :
    (survivors doms l).Perm (survivors doms l') := by
  induction doms generalizing l l' with
  | nil => exact perm
  | cons dom doms inductionHypothesis => exact inductionHypothesis (undominated_perm perm)

theorem survivors_ne_nil {doms : List (α → α → Bool)} (strict : ∀ dom ∈ doms, StrictRule dom)
    {l : List α} (nonempty : l ≠ []) : survivors doms l ≠ [] := by
  induction doms generalizing l with
  | nil => exact nonempty
  | cons dom doms inductionHypothesis =>
    exact inductionHypothesis (fun d member => strict d (List.mem_cons_of_mem _ member))
      ((strict dom List.mem_cons_self).undominated_ne_nil nonempty)

theorem survivors_short {doms : List (α → α → Bool)} (strict : ∀ dom ∈ doms, StrictRule dom)
    {l : List α} (short : l.length ≤ 1) : survivors doms l = l := by
  induction doms with
  | nil => rfl
  | cons dom doms inductionHypothesis =>
    rw [survivors_cons, (strict dom List.mem_cons_self).undominated_short short]
    exact inductionHypothesis fun d member => strict d (List.mem_cons_of_mem _ member)

/-! ## Rules given by a value

Most rules compare one value of the items; these never put two items beside each other that a third
one tells apart. -/

/-- A comparison of values that is a strict weak order. -/
structure WeakOrder {β : Type v} (better : β → β → Bool) : Prop where
  asymm : ∀ {x y}, better x y = true → better y x = false
  split : ∀ {x z} (y), better x z = true → better x y = true ∨ better y z = true

namespace WeakOrder

variable {β : Type v} {better : β → β → Bool}

theorem irrefl (weak : WeakOrder better) (x : β) : better x x = false := by
  by_contra h
  have same : better x x = true := by simpa using h
  exact absurd (weak.asymm same) (by simp [same])

theorem trans (weak : WeakOrder better) {x y z : β} (first : better x y = true)
    (second : better y z = true) : better x z = true := by
  rcases weak.split z first with h | h
  · exact h
  · exact absurd (weak.asymm second) (by simp [h])

theorem strictRule (weak : WeakOrder better) : StrictRule better where
  irrefl := weak.irrefl
  trans := weak.trans

theorem comap (weak : WeakOrder better) (value : α → β) :
    WeakOrder fun d c => better (value d) (value c) where
  asymm := weak.asymm
  split y := weak.split (value y)

end WeakOrder

/-- The two loops of a rule: `best` starts at `worst` and becomes each better value met; then the
items worse than it go. -/
def keepBest {β : Type v} (better : β → β → Bool) (worst : β) (value : α → β) (l : List α) : List α :=
  let best := l.foldl (fun best c => if better (value c) best then value c else best) worst
  l.filter fun c => !better best (value c)

section KeepBest

variable {β : Type v} {better : β → β → Bool} (value : α → β)

/-- What the first loop computes: the start value or the value of an item, and no item's value, nor
the start value, is better. -/
theorem foldl_best (weak : WeakOrder better) (l : List α) (start : β) :
    let best := l.foldl (fun best c => if better (value c) best then value c else best) start
    (best = start ∨ ∃ c ∈ l, best = value c) ∧ better start best = false ∧
      ∀ c ∈ l, better (value c) best = false := by
  induction l generalizing start with
  | nil => simp [weak.irrefl]
  | cons c l inductionHypothesis =>
    obtain ⟨source, noStart, noItem⟩ :=
      inductionHypothesis (if better (value c) start then value c else start)
    simp only [List.foldl_cons]
    set best := l.foldl (fun best c => if better (value c) best then value c else best)
      (if better (value c) start then value c else start)
    -- The start may have been replaced in this turn: the one dropped is not better either.
    have notBoth : better start best = false ∧ better (value c) best = false := by
      by_cases h : better (value c) start = true
      · simp only [h, if_true] at noStart
        refine ⟨?_, noStart⟩
        by_contra above
        rcases weak.split (value c) (show better start best = true by simpa using above) with u | u
        · exact absurd (weak.asymm h) (by simp [u])
        · simp [u] at noStart
      · simp only [h] at noStart
        refine ⟨noStart, ?_⟩
        by_contra above
        rcases weak.split start (show better (value c) best = true by simpa using above) with u | u
        · exact h u
        · simp [u] at noStart
    refine ⟨?_, notBoth.1, ?_⟩
    · rcases source with source | ⟨d, member, source⟩
      · by_cases h : better (value c) start = true
        · exact Or.inr ⟨c, List.mem_cons_self, by simpa [h] using source⟩
        · exact Or.inl (by simpa [h] using source)
      · exact Or.inr ⟨d, List.mem_cons_of_mem _ member, source⟩
    · intro d member
      rcases List.mem_cons.mp member with rfl | member
      · exact notBoth.2
      · exact noItem d member

/-- The loops compute the rule when no item is worse than the start value. -/
theorem keepBest_eq_undominated (weak : WeakOrder better) {worst : β} {l : List α}
    (bounded : ∀ c ∈ l, better worst (value c) = false) :
    keepBest better worst value l = undominated (fun d c => better (value d) (value c)) l := by
  obtain ⟨source, noStart, noItem⟩ := foldl_best value weak l worst
  apply List.filter_congr
  intro c member
  rw [Bool.eq_iff_iff]
  simp only [Bool.not_eq_true', List.all_eq_true]
  constructor
  · intro notBelow d memberD
    by_contra above
    rcases weak.split _ (show better (value d) (value c) = true by simpa using above) with u | u
    · exact absurd (noItem d memberD) (by simpa using u)
    · simp [u] at notBelow
  · intro kept
    rcases source with source | ⟨d, memberD, source⟩
    · rw [source]
      exact bounded c member
    · rw [source]
      exact kept d memberD

end KeepBest

/-- Comparison of natural numbers, lowest first. -/
theorem weakOrder_lt : WeakOrder fun x y : Nat => decide (x < y) where
  asymm h := by simp at *; omega
  split y h := by simp at *; omega

/-! ## Weak orders in sequence -/

theorem undominated_congr {dom dom' : α → α → Bool} {l : List α}
    (same : ∀ d ∈ l, ∀ c ∈ l, dom d c = dom' d c) : undominated dom l = undominated dom' l := by
  apply List.filter_congr
  intro c memberC
  rw [Bool.eq_iff_iff]
  simp only [List.all_eq_true, Bool.not_eq_true']
  constructor
  · intro free d memberD
    exact same d memberD c memberC ▸ free d memberD
  · intro free d memberD
    exact (same d memberD c memberC).trans (free d memberD)

theorem survivors_congr {doms doms' : List (α → α → Bool)} {l : List α}
    (same : List.Forall₂ (fun dom dom' => ∀ d ∈ l, ∀ c ∈ l, dom d c = dom' d c) doms doms') :
    survivors doms l = survivors doms' l := by
  induction doms generalizing doms' l with
  | nil =>
    cases same
    rfl
  | cons dom doms inductionHypothesis =>
    cases same with
    | cons head tail =>
      rw [survivors_cons, survivors_cons, undominated_congr head]
      refine inductionHypothesis (tail.imp fun _ _ agree d memberD c memberC => ?_)
      exact agree d (mem_undominated.mp memberD).1 c (mem_undominated.mp memberC).1

/-- The first of the rules that tells two items apart decides. -/
def lex : List (α → α → Bool) → α → α → Bool
  | [], _, _ => false
  | dom :: doms, d, c => dom d c || (!dom c d && lex doms d c)

theorem lex_weak {doms : List (α → α → Bool)} (weak : ∀ dom ∈ doms, WeakOrder dom) :
    WeakOrder (lex doms) := by
  induction doms with
  | nil => exact ⟨by simp [lex], by simp [lex]⟩
  | cons dom doms inductionHypothesis =>
    have head : WeakOrder dom := weak dom List.mem_cons_self
    have tail := inductionHypothesis fun d member => weak d (List.mem_cons_of_mem _ member)
    refine ⟨fun {x y} above => ?_, fun {x z} y above => ?_⟩
    · simp only [lex, Bool.or_eq_true, Bool.and_eq_true, Bool.not_eq_true', Bool.or_eq_false_iff]
        at above ⊢
      cases above with
      | inl first => exact ⟨head.asymm first, by simp [first]⟩
      | inr later => exact ⟨later.1, by simp [tail.asymm later.2]⟩
    · simp only [lex, Bool.or_eq_true, Bool.and_eq_true, Bool.not_eq_true'] at above ⊢
      cases above with
      | inl first =>
        cases head.split y first with
        | inl left => exact .inl (.inl left)
        | inr right => exact .inr (.inl right)
      | inr later =>
        -- `dom` does not tell `x` and `z` apart: it decides at `y` or leaves all three equal.
        by_cases above : dom x y = true
        · exact .inl (.inl above)
        · by_cases below : dom y z = true
          · exact .inr (.inl below)
          · have notLeft : dom y x = false := by
              by_contra first
              rcases head.split z (show dom y x = true by simpa using first) with u | u
              · exact below u
              · simp [u] at later
            have notRight : dom z y = false := by
              by_contra first
              rcases head.split x (show dom z y = true by simpa using first) with u | u
              · simp [u] at later
              · exact above u
            cases tail.split y later.2 with
            | inl left => exact .inl (.inr ⟨notLeft, left⟩)
            | inr right => exact .inr (.inr ⟨notRight, right⟩)

/-- Weak orders in sequence select what their lexicographic order selects at once. -/
theorem survivors_eq_lex {doms : List (α → α → Bool)} (weak : ∀ dom ∈ doms, WeakOrder dom)
    (l : List α) : survivors doms l = undominated (lex doms) l := by
  induction doms generalizing l with
  | nil =>
    refine (List.filter_eq_self.mpr fun c _ => ?_).symm
    simp [lex]
  | cons dom doms inductionHypothesis =>
    have head : WeakOrder dom := weak dom List.mem_cons_self
    rw [survivors_cons,
      inductionHypothesis fun d member => weak d (List.mem_cons_of_mem _ member)]
    unfold undominated
    rw [List.filter_filter]
    apply List.filter_congr
    intro c memberC
    rw [Bool.eq_iff_iff]
    simp only [Bool.and_eq_true, List.all_eq_true, List.mem_filter, Bool.not_eq_true', lex,
      Bool.or_eq_false_iff, Bool.and_eq_false_iff, Bool.not_eq_false']
    constructor
    · rintro ⟨later, free⟩ e member
      refine ⟨free e member, ?_⟩
      by_cases below : dom c e = true
      · exact .inl below
      · refine .inr (later e ⟨member, fun f memberF => ?_⟩)
        by_contra above
        rcases head.split c (show dom f e = true by simpa using above) with u | u
        · simp [free f memberF] at u
        · exact below u
    · intro free
      refine ⟨fun e kept => ?_, fun e member => (free e member).1⟩
      cases (free e kept.1).2 with
      | inl below => simp [kept.2 c memberC] at below
      | inr later => exact later

/-! ## Taking items away -/

section Filter

variable {keep : α → Bool} {l : List α} {w : α}

/-- A weak order keeps of fewer items what it kept of all, if one of these is still there. -/
theorem WeakOrder.undominated_filter {dom : α → α → Bool} (weak : WeakOrder dom)
    (member : w ∈ undominated dom l) (kept : keep w = true) :
    undominated dom (l.filter keep) = (undominated dom l).filter keep := by
  obtain ⟨memberW, freeW⟩ := mem_undominated.mp member
  unfold undominated
  rw [List.filter_filter, List.filter_filter]
  apply List.filter_congr
  intro c _
  rw [Bool.eq_iff_iff]
  simp only [Bool.and_eq_true, List.all_eq_true, List.mem_filter, Bool.not_eq_true']
  constructor
  · rintro ⟨free, keepC⟩
    refine ⟨keepC, fun d memberD => ?_⟩
    by_contra above
    rcases weak.split w (show dom d c = true by simpa using above) with u | u
    · simp [freeW d memberD] at u
    · simp [free w ⟨memberW, kept⟩] at u
  · rintro ⟨keepC, free⟩
    exact ⟨fun d memberD => free d memberD.1, keepC⟩

/-- Between a weak order `first` and a rule `last` stands a rule `mid` that need not be a weak order:
an item that `mid` eliminates may come back when others go.  `NoRevival` says that each item that
comes back when only the items of `keep` are left is eliminated by `last`. -/
def NoRevival (first mid last : α → α → Bool) (keep : α → Bool) (l : List α) : Prop :=
  ∀ x ∈ undominated first l, keep x = true →
    (∃ c ∈ undominated first l, keep c = false ∧ mid c x = true) →
    (∀ y ∈ undominated first l, keep y = true → mid y x = false) →
    ∃ m ∈ undominated mid (undominated first l), keep m = true ∧ last m x = true

theorem eq_singleton_of_nodup (nodup : l.Nodup) (member : w ∈ l) (only : ∀ x ∈ l, x = w) :
    l = [w] :=
  List.perm_singleton.mp ((List.perm_ext_iff_of_nodup nodup (by simp)).mpr fun x =>
    ⟨fun memberX => List.mem_singleton.mpr (only x memberX),
      fun memberX => List.mem_singleton.mp memberX ▸ member⟩)

/-- Without revivals, taking away items other than the one selected leaves the selection as it is. -/
theorem undominated_filter_single {first mid last : α → α → Bool} (weak : WeakOrder first)
    (strict : StrictRule last) (nodup : l.Nodup) (kept : keep w = true)
    (selected : undominated last (undominated mid (undominated first l)) = [w])
    (noRevival : NoRevival first mid last keep l) :
    undominated last (undominated mid (undominated first (l.filter keep))) = [w] := by
  have final : w ∈ undominated last (undominated mid (undominated first l)) := by simp [selected]
  obtain ⟨inMid, freeLast⟩ := mem_undominated.mp final
  obtain ⟨inFirst, freeMid⟩ := mem_undominated.mp inMid
  rw [weak.undominated_filter inFirst kept]
  -- What `mid` kept of all the items and is still there, it keeps.
  have stays {x : α} (member : x ∈ undominated mid (undominated first l)) (keepX : keep x = true) :
      x ∈ undominated mid ((undominated first l).filter keep) := by
    obtain ⟨inside, free⟩ := mem_undominated.mp member
    exact mem_undominated.mpr ⟨List.mem_filter.mpr ⟨inside, keepX⟩,
      fun d memberD => free d (List.mem_filter.mp memberD).1⟩
  -- Everything else it keeps has come back.
  have comesBack {x : α} (member : x ∈ undominated mid ((undominated first l).filter keep)) :
      x ∈ undominated mid (undominated first l) ∨
        ∃ m ∈ undominated mid (undominated first l), keep m = true ∧ last m x = true := by
    obtain ⟨inside, free⟩ := mem_undominated.mp member
    obtain ⟨memberX, keepX⟩ := List.mem_filter.mp inside
    by_cases kept : ∀ c ∈ undominated first l, mid c x = false
    · exact .inl (mem_undominated.mpr ⟨memberX, kept⟩)
    · push Not at kept
      obtain ⟨c, memberC, eliminates⟩ := kept
      replace eliminates : mid c x = true := by simpa using eliminates
      have notKept (y : α) (memberY : y ∈ undominated first l) (keepY : keep y = true) :
          mid y x = false := free y (List.mem_filter.mpr ⟨memberY, keepY⟩)
      refine .inr (noRevival x memberX keepX ⟨c, memberC, ?_, eliminates⟩ notKept)
      by_contra keepC
      simp [notKept c memberC (by simpa using keepC)] at eliminates
  refine eq_singleton_of_nodup ?_ (mem_undominated.mpr ⟨stays inMid kept, ?_⟩) ?_
  · refine nodup.sublist ?_
    exact ((undominated_sublist _ _).trans (undominated_sublist _ _)).trans
      (List.filter_sublist.trans (undominated_sublist _ _))
  · intro y memberY
    cases comesBack memberY with
    | inl inside => exact freeLast y inside
    | inr back =>
      obtain ⟨m, memberM, _, above⟩ := back
      by_contra below
      have both := strict.trans above (show last y w = true by simpa using below)
      simp [freeLast m memberM] at both
  · intro x memberX
    obtain ⟨inside, free⟩ := mem_undominated.mp memberX
    cases comesBack inside with
    | inl memberX =>
      rcases strict.kept_or_eliminated _ memberX with u | ⟨d, u, eliminates⟩
      · simpa [selected] using u
      · rw [selected, List.mem_singleton] at u
        subst u
        simp [free d (stays inMid kept)] at eliminates
    | inr back =>
      obtain ⟨m, memberM, keepM, above⟩ := back
      simp [free m (stays memberM keepM)] at above

end Filter

end Cbgp.Lib
