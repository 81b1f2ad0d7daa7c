import Cbgp.Lib.Run
import Cbgp.Bgp.AttrRepository
import Cbgp.Verified.PathPrinters

/-! # Interned attributes

What holds of the repositories after any operations: the elements are told apart, every element can be
hashed, and the references counted for an element are the attribute sets that point to it (`RepoInv`).
So an attribute that is copied is found as itself, and the assertions fail only where an absent and an
empty AS-path meet (`assertions_iff`).  Which path is stored is decided by a comparison that leaves out
the types of the segments (`interned_paths`).
-/

namespace Cbgp.Verified

open Cbgp.Lib Cbgp.Bgp

/-! ## Comparisons -/

theorem asnsCmp_eq_zero {asns1 asns2 : List Asn} (lengths : asns1.length = asns2.length) :
    asnsCmp asns1 asns2 = 0 ↔ asns1 = asns2 := by
  induction asns1 generalizing asns2 with
  | nil =>
    rw [List.length_nil] at lengths
    simp [List.length_eq_zero_iff.mp lengths.symm, asnsCmp]
  | cons asn1 asns1 inductionHypothesis =>
    cases asns2 with
    | nil => cases lengths
    | cons asn2 asns2 =>
      have rest := inductionHypothesis (Nat.succ.inj lengths)
      simp only [asnsCmp, List.cons.injEq]
      by_cases less : asn1 < asn2
      · simp only [if_pos less]
        have : asn1 ≠ asn2 := UInt16.ne_of_lt less
        simp [this]
      · by_cases more : asn1 > asn2
        · simp only [if_neg less, if_pos more]
          have : asn1 ≠ asn2 := (UInt16.ne_of_lt more).symm
          simp [this]
        · simp only [if_neg less, if_neg more, rest]
          have : asn1 = asn2 := UInt16.le_antisymm (UInt16.not_lt.mp more) (UInt16.not_lt.mp less)
          simp [this]

theorem pathSegmentCmp_eq_zero (seg1 seg2 : PathSeg) : pathSegmentCmp seg1 seg2 = 0 ↔ seg1.asns = seg2.asns := by
  simp only [pathSegmentCmp]
  by_cases less : seg1.asns.length < seg2.asns.length
  · simp only [if_pos less]
    have : seg1.asns ≠ seg2.asns := fun same => by simp [same] at less
    simp [this]
  · by_cases more : seg1.asns.length > seg2.asns.length
    · simp only [if_neg less, if_pos more]
      have : seg1.asns ≠ seg2.asns := fun same => by simp [same] at more
      simp [this]
    · simp only [if_neg less, if_neg more]
      exact asnsCmp_eq_zero (by omega)

theorem pathSegmentsCmp_eq_zero {path1 path2 : Path} (lengths : path1.length = path2.length) :
    pathSegmentsCmp path1 path2 = 0 ↔ path1.map (·.asns) = path2.map (·.asns) := by
  induction path1 generalizing path2 with
  | nil =>
    rw [List.length_nil] at lengths
    simp [List.length_eq_zero_iff.mp lengths.symm, pathSegmentsCmp]
  | cons seg1 path1 inductionHypothesis =>
    cases path2 with
    | nil => cases lengths
    | cons seg2 path2 =>
      have rest := inductionHypothesis (Nat.succ.inj lengths)
      simp only [pathSegmentsCmp, List.map_cons, List.cons.injEq, ← pathSegmentCmp_eq_zero, ← rest]
      by_cases same : pathSegmentCmp seg1 seg2 = 0
      · simp [same]
      · simp [same]

/-- Paths compare equal when they have the same ASNs in as many segments. -/
theorem pathCmp_eq_zero (path1 path2 : Option Path) :
    pathCmp path1 path2 = 0 ↔ (path1.getD []).map (·.asns) = (path2.getD []).map (·.asns) := by
  have lengths : ∀ p q : Path, p.map (·.asns) = q.map (·.asns) → p.length = q.length := by
    intro p q same
    simpa using congrArg List.length same
  cases path1 with
  | none =>
    cases path2 with
    | none => simp [pathCmp]
    | some path2 => cases path2 <;> simp [pathCmp]
  | some path1 =>
    cases path2 with
    | none => cases path1 <;> simp [pathCmp]
    | some path2 =>
      simp only [pathCmp, Option.getD_some]
      by_cases less : path1.length < path2.length
      · simp only [if_pos less]
        have : path1.map (·.asns) ≠ path2.map (·.asns) := fun same => by
          have := lengths _ _ same
          omega
        simp [this]
      · by_cases more : path1.length > path2.length
        · simp only [if_neg less, if_pos more]
          have : path1.map (·.asns) ≠ path2.map (·.asns) := fun same => by
            have := lengths _ _ same
            omega
          simp [this]
        · simp only [if_neg less, if_neg more]
          exact pathSegmentsCmp_eq_zero (by omega)

theorem commValuesCmp_eq_zero {comms1 comms2 : List Comm} (lengths : comms1.length = comms2.length) :
    commValuesCmp comms1 comms2 = 0 ↔ comms1 = comms2 := by
  induction comms1 generalizing comms2 with
  | nil =>
    rw [List.length_nil] at lengths
    simp [List.length_eq_zero_iff.mp lengths.symm, commValuesCmp]
  | cons comm1 comms1 inductionHypothesis =>
    cases comms2 with
    | nil => cases lengths
    | cons comm2 comms2 =>
      have rest := inductionHypothesis (Nat.succ.inj lengths)
      simp only [commValuesCmp, List.cons.injEq]
      by_cases less : comm1 < comm2
      · simp only [if_pos less]
        have : comm1 ≠ comm2 := UInt32.ne_of_lt less
        simp [this]
      · by_cases more : comm1 > comm2
        · simp only [if_neg less, if_pos more]
          have : comm1 ≠ comm2 := (UInt32.ne_of_lt more).symm
          simp [this]
        · simp only [if_neg less, if_neg more, rest]
          have : comm1 = comm2 := UInt32.le_antisymm (UInt32.not_lt.mp more) (UInt32.not_lt.mp less)
          simp [this]

theorem commsCmp_eq_zero (comms1 comms2 : Option (List Comm)) :
    commsCmp comms1 comms2 = 0 ↔ comms1.getD [] = comms2.getD [] := by
  cases comms1 with
  | none =>
    cases comms2 with
    | none => simp [commsCmp]
    | some comms2 => cases comms2 <;> simp [commsCmp]
  | some comms1 =>
    cases comms2 with
    | none => cases comms1 <;> simp [commsCmp]
    | some comms2 =>
      simp only [commsCmp, Option.getD_some]
      by_cases less : comms1.length < comms2.length
      · simp only [if_pos less]
        have : comms1 ≠ comms2 := fun same => by simp [same] at less
        simp [this]
      · by_cases more : comms1.length > comms2.length
        · simp only [if_neg less, if_pos more]
          have : comms1 ≠ comms2 := fun same => by simp [same] at more
          simp [this]
        · simp only [if_neg less, if_neg more]
          exact commValuesCmp_eq_zero (by omega)

section Alike

variable (settings : HashSettings)

theorem pathsAlike_iff (path1 path2 : Option Path) :
    pathsAlike settings path1 path2 = true ↔
      (pathHashCompute settings path1).toOption = (pathHashCompute settings path2).toOption ∧
        (path1.getD []).map (·.asns) = (path2.getD []).map (·.asns) := by
  rw [pathsAlike, Bool.and_eq_true, decide_eq_true_eq, decide_eq_true_eq, pathCmp_eq_zero]

theorem pathsAlike_self (path : Option Path) : pathsAlike settings path path = true :=
  (pathsAlike_iff settings path path).mpr ⟨rfl, rfl⟩

theorem commsAlike_iff (comms1 comms2 : Option (List Comm)) :
    commsAlike settings comms1 comms2 = true ↔
      (commHashCompute settings comms1).toOption = (commHashCompute settings comms2).toOption ∧
        comms1.getD [] = comms2.getD [] := by
  rw [commsAlike, Bool.and_eq_true, decide_eq_true_eq, decide_eq_true_eq, commsCmp_eq_zero]

theorem commsAlike_self (comms : Option (List Comm)) : commsAlike settings comms comms = true :=
  (commsAlike_iff settings comms comms).mpr ⟨rfl, rfl⟩

/-- Neither a path without segments nor no path stops the hash, and both have the same. -/
theorem pathHashCompute_empty :
    ∃ key, pathHashCompute settings none = .ok key ∧ pathHashCompute settings (some []) = .ok key := by
  cases method : settings.pathMethod with
  | string =>
    refine ⟨settings.keyString [] settings.pathSize, ?_, ?_⟩
    · have text : pathHashText none = some [] := by decide +kernel
      simp only [pathHashCompute, method, text]
    · have text : pathHashText (some []) = some [] := by decide +kernel
      simp only [pathHashCompute, method, text]
  | zebra => exact ⟨(pathHashZebra none).toNat, by simp [pathHashCompute, method], by
      simp [pathHashCompute, method, pathHashZebra]⟩
  | oat => exact ⟨pathHashOat none settings.pathSize, by simp [pathHashCompute, method], by
      simp [pathHashCompute, method, pathHashOat]⟩

end Alike

/-! ## Sets of interned elements -/

section SoundItems

variable {α : Type} {compute : Option α → Except AttrFault ℕ} {alike : Option α → Option α → Bool}
  {items : List (InternItem α)}

/-- The elements are told apart, and each can be hashed. -/
structure SoundItems (compute : Option α → Except AttrFault ℕ) (alike : Option α → Option α → Bool)
    (items : List (InternItem α)) : Prop where
  interned : Interned alike items
  hashed : ∀ ref ∈ stored items, ∃ key, compute ref.value = .ok key

theorem SoundItems.empty : SoundItems compute alike [] where
  interned := .empty alike
  hashed _ member := nomatch member

theorem SoundItems.add (sound : SoundItems compute alike items) (ref : Ref α) {key : ℕ}
    (hashed : compute ref.value = .ok key) : SoundItems compute alike (addRef alike ref items).2 where
  interned := sound.interned.add ref
  hashed other member := by
    cases mem_stored_addRef member with
    | inl old => exact sound.hashed other old
    | inr new =>
      rw [new.1]
      exact ⟨key, hashed⟩

variable [DecidableEq α]

/-- The set without one reference. -/
structure RefDropped (compute : Option α → Except AttrFault ℕ) (alike : Option α → Option α → Bool)
    (ref : Ref α) (items items' : List (InternItem α)) : Prop where
  sound : SoundItems compute alike items'
  subset : stored items' ⊆ stored items
  count : ∀ obj, refCount (some obj) items' + (if ref = some obj then 1 else 0) = refCount (some obj) items
  null : none ∈ stored items' ↔ none ∈ stored items

theorem RefDropped.null_ref (sound : SoundItems compute alike items) : RefDropped compute alike none items items where
  sound := sound
  subset := fun _ member => member
  count := by simp
  null := Iff.rfl

theorem SoundItems.remove (sound : SoundItems compute alike items) (self : ∀ value, alike value value = true)
    {obj : Obj α} (member : some obj ∈ stored items) :
    ∃ items', removeRef alike (some obj) items = some items' ∧ RefDropped compute alike (some obj) items items' := by
  obtain ⟨items', removed, interned, subset, count⟩ := removeRef_self sound.interned (self _) member
  have null : none ∈ stored items' ↔ none ∈ stored items := by
    have same := count none
    simp only [reduceCtorEq, if_false, Nat.add_zero] at same
    rw [← refCount_pos interned, ← refCount_pos sound.interned, same]
  exact ⟨items', removed, ⟨interned, fun ref member => sound.hashed ref (subset member)⟩, subset,
    fun other => count (some other), null⟩

/-- The set with one more reference, to a pointer that is stored or null. -/
structure RefCopied (compute : Option α → Except AttrFault ℕ) (alike : Option α → Option α → Bool)
    (ref : Ref α) (items items' : List (InternItem α)) : Prop where
  sound : SoundItems compute alike items'
  subset : ∀ obj, some obj ∈ stored items' → some obj ∈ stored items
  count : ∀ obj, refCount (some obj) items' = refCount (some obj) items + (if ref = some obj then 1 else 0)

theorem RefCopied.null_ref (sound : SoundItems compute alike items) :
    RefCopied compute alike none items items where
  sound := sound
  subset := fun _ member => member
  count := by simp

theorem SoundItems.copy (sound : SoundItems compute alike items) {ref : Ref α} {key : ℕ}
    (hashed : compute ref.value = .ok key) (found : (addRef alike ref items).1 = ref)
    (held : ∀ obj, ref = some obj → some obj ∈ stored items) :
    RefCopied compute alike ref items (addRef alike ref items).2 where
  sound := sound.add ref hashed
  subset obj member := by
    cases mem_stored_addRef member with
    | inl old => exact old
    | inr new => exact held obj new.1.symm
  count obj := by rw [refCount_addRef, found]

/-! ### References of attribute sets -/

/-- The attribute sets that hold a pointer. -/
def holders (pointer : AttrRefs → Ref α) (attrs : List (Option AttrRefs)) (ref : Ref α) : ℕ :=
  attrs.countP fun slot => slot.any fun refs => pointer refs = ref

theorem holders_set (pointer : AttrRefs → Ref α) {attrs : List (Option AttrRefs)} {i : ℕ} {refs : AttrRefs}
    (here : attrs[i]? = some (some refs)) (slot : Option AttrRefs) (ref : Ref α) :
    holders pointer (attrs.set i slot) ref + (if pointer refs = ref then 1 else 0) =
      holders pointer attrs ref + (if slot.any fun refs => pointer refs = ref then 1 else 0) := by
  obtain ⟨inside, content⟩ := List.getElem?_eq_some_iff.mp here
  have before : (if pointer refs = ref then 1 else 0) ≤ holders pointer attrs ref := by
    split
    next same =>
      refine List.countP_pos_iff.mpr ⟨some refs, ?_, by simpa using same⟩
      exact content ▸ List.getElem_mem inside
    next => exact Nat.zero_le _
  simp only [holders] at before ⊢
  rw [List.countP_set inside, content]
  simp only [Option.any_some, decide_eq_true_eq]
  omega

theorem holders_append (pointer : AttrRefs → Ref α) (attrs : List (Option AttrRefs)) (refs : AttrRefs)
    (ref : Ref α) :
    holders pointer (attrs ++ [some refs]) ref = holders pointer attrs ref + (if pointer refs = ref then 1 else 0) := by
  simp [holders, List.countP_append, List.countP_singleton]

theorem holders_pos (pointer : AttrRefs → Ref α) {attrs : List (Option AttrRefs)} {i : ℕ} {refs : AttrRefs}
    (here : attrs[i]? = some (some refs)) : 0 < holders pointer attrs (pointer refs) :=
  List.countP_pos_iff.mpr ⟨some refs, List.mem_of_getElem? here, by simp⟩

end SoundItems

section Repository

variable {settings : HashSettings}

/-- What holds of the repositories after any operations. -/
structure RepoInv (settings : HashSettings) (repo : Repository) : Prop where
  paths : SoundItems (pathHashCompute settings) (pathsAlike settings) repo.paths
  comms : SoundItems (commHashCompute settings) (commsAlike settings) repo.comms
  pathCount : ∀ obj, refCount (some obj) repo.paths = holders (·.path) repo.attrs (some obj)
  commCount : ∀ obj, refCount (some obj) repo.comms = holders (·.comms) repo.attrs (some obj)
  someComms : ∀ obj, some obj ∈ stored repo.comms → obj.value ≠ []

theorem RepoInv.empty : RepoInv settings .empty where
  paths := .empty
  comms := .empty
  pathCount _ := rfl
  commCount _ := rfl
  someComms _ member := nomatch member

section Held

variable {repo : Repository} {i : ℕ} {refs : AttrRefs}

theorem attrAt_eq_some : repo.attrAt i = some refs ↔ repo.attrs[i]? = some (some refs) := by
  rw [Repository.attrAt, Option.join_eq_some_iff]

theorem RepoInv.path_stored (inv : RepoInv settings repo) (here : repo.attrAt i = some refs) {obj : Obj Path}
    (held : refs.path = some obj) : some obj ∈ stored repo.paths := by
  have positive := holders_pos (·.path) (attrAt_eq_some.mp here)
  rwa [held, ← inv.pathCount, refCount_pos inv.paths.interned] at positive

theorem RepoInv.comms_stored (inv : RepoInv settings repo) (here : repo.attrAt i = some refs)
    {obj : Obj (List Comm)} (held : refs.comms = some obj) : some obj ∈ stored repo.comms := by
  have positive := holders_pos (·.comms) (attrAt_eq_some.mp here)
  rwa [held, ← inv.commCount, refCount_pos inv.comms.interned] at positive

/-! ## The AS-path of an attribute set -/

/-- The reference of an attribute set can be dropped. -/
theorem attrPathDestroy_spec (inv : RepoInv settings repo) (here : repo.attrAt i = some refs) :
    ∃ paths, attrPathDestroy settings repo refs.path = .ok { repo with paths := paths } ∧
      RefDropped (pathHashCompute settings) (pathsAlike settings) refs.path repo.paths paths := by
  cases held : refs.path with
  | none => exact ⟨repo.paths, rfl, .null_ref inv.paths⟩
  | some obj =>
    have member := inv.path_stored here held
    obtain ⟨key, hashed⟩ := inv.paths.hashed _ member
    obtain ⟨paths, removed, dropped⟩ := inv.paths.remove (pathsAlike_self settings) member
    refine ⟨paths, ?_, dropped⟩
    simp only [attrPathDestroy, pathHashRemove, hashed, removed]
    rfl

/-- Setting a path: the old reference is dropped, then the new object is looked for. -/
theorem attrSetPath_some (inv : RepoInv settings repo) (here : repo.attrAt i = some refs) (path : Path) :
    ∃ paths, RefDropped (pathHashCompute settings) (pathsAlike settings) refs.path repo.paths paths ∧
      attrSetPath settings repo refs.path (some path) =
        match pathHashCompute settings (some path) with
        | .error fault => .error fault
        | .ok _ =>
          if (addRef (pathsAlike settings) (some ⟨repo.fresh, path⟩) paths).1 = none then .error .pathSet
          else .ok ((addRef (pathsAlike settings) (some ⟨repo.fresh, path⟩) paths).1,
            { repo with
              paths := (addRef (pathsAlike settings) (some ⟨repo.fresh, path⟩) paths).2
              fresh := repo.fresh + 1 }) := by
  obtain ⟨paths, destroyed, dropped⟩ := attrPathDestroy_spec inv here
  refine ⟨paths, dropped, ?_⟩
  simp only [attrSetPath, destroyed, pathHashAdd, Ref.value_some, bind, Except.bind]
  cases pathHashCompute settings (some path) with
  | error fault => rfl
  | ok key => rfl

theorem attrSetPath_none (inv : RepoInv settings repo) (here : repo.attrAt i = some refs) :
    ∃ paths, RefDropped (pathHashCompute settings) (pathsAlike settings) refs.path repo.paths paths ∧
      attrSetPath settings repo refs.path none = .ok (none, { repo with paths := paths }) := by
  obtain ⟨paths, destroyed, dropped⟩ := attrPathDestroy_spec inv here
  refine ⟨paths, dropped, ?_⟩
  simp only [attrSetPath, destroyed, bind, Except.bind]

/-- A path is taken for no path when it has no segments. -/
theorem pathsAlike_null (path : Path) : pathsAlike settings none (some path) = true ↔ path = [] := by
  rw [pathsAlike_iff]
  constructor
  · rintro ⟨_, same⟩
    simpa using same.symm
  · intro empty
    obtain ⟨key, null, hashed⟩ := pathHashCompute_empty settings
    rw [empty, null, hashed]
    exact ⟨rfl, rfl⟩

theorem pathsAlike_common {path1 path2 path3 : Option Path} (first : pathsAlike settings path1 path3 = true)
    (second : pathsAlike settings path2 path3 = true) : pathsAlike settings path1 path2 = true := by
  rw [pathsAlike_iff] at first second ⊢
  exact ⟨first.1.trans second.1.symm, first.2.trans second.2.symm⟩

/-- The null reference is found for a path exactly when it is stored and the path has no segments. -/
theorem addRef_eq_none {items : List (InternItem Path)}
    (interned : Interned (pathsAlike settings) items) (obj : Obj Path) :
    (addRef (pathsAlike settings) (some obj) items).1 = none ↔ none ∈ stored items ∧ obj.value = [] := by
  constructor
  · intro null
    rcases addRef_stored (pathsAlike settings) (some obj) items with ⟨member, alike, _⟩ | ⟨_, result, _⟩
    · rw [null] at member alike
      exact ⟨member, (pathsAlike_null obj.value).mp alike⟩
    · rw [null] at result
      cases result
  · rintro ⟨member, empty⟩
    refine addRef_of_alike interned pathsAlike_common member ?_
    rw [Ref.value_some, empty]
    exact (pathsAlike_null []).mpr rfl

theorem pathsAlike_null' (path : Path) : pathsAlike settings (some path) none = true ↔ path = [] := by
  have null : pathsAlike settings none (some path) = true ↔ path = [] := pathsAlike_null path
  rw [← null]
  constructor
  · intro same
    exact pathsAlike_common (pathsAlike_self settings none) same
  · intro same
    exact pathsAlike_common (pathsAlike_self settings (some path)) same

/-- The null reference is found for itself exactly when no path without segments is stored. -/
theorem addRef_null {items : List (InternItem Path)} (interned : Interned (pathsAlike settings) items) :
    (addRef (pathsAlike settings) none items).1 = none ↔ ∀ obj, some obj ∈ stored items → obj.value ≠ [] := by
  constructor
  · intro null obj member empty
    have found : (addRef (pathsAlike settings) none items).1 = some obj :=
      addRef_of_alike interned pathsAlike_common member ((pathsAlike_null' obj.value).mpr empty)
    rw [null] at found
    cases found
  · intro apart
    rcases addRef_stored (pathsAlike settings) none items with ⟨member, alike, _⟩ | ⟨_, result, _⟩
    · cases found : (addRef (pathsAlike settings) none items).1 with
      | none => rfl
      | some obj =>
        rw [found] at member alike
        exact absurd ((pathsAlike_null' obj.value).mp alike) (apart obj member)
    · exact result

/-- A path that is copied is found as itself. -/
theorem attrPathCopy_ok (inv : RepoInv settings repo) (here : repo.attrAt i = some refs)
    (apart : refs.path = none → ∀ obj, some obj ∈ stored repo.paths → obj.value ≠ []) :
    ∃ paths, attrPathCopy settings repo refs.path = .ok (refs.path, { repo with paths := paths }) ∧
      RefCopied (pathHashCompute settings) (pathsAlike settings) refs.path repo.paths paths := by
  have hashed : ∃ key, pathHashCompute settings refs.path.value = .ok key := by
    cases held : refs.path with
    | none =>
      obtain ⟨key, hashed, _⟩ := pathHashCompute_empty settings
      exact ⟨key, hashed⟩
    | some obj => exact inv.paths.hashed _ (inv.path_stored here held)
  have found : (addRef (pathsAlike settings) refs.path repo.paths).1 = refs.path := by
    cases held : refs.path with
    | none => exact (addRef_null inv.paths.interned).mpr (apart held)
    | some obj => exact addRef_self inv.paths.interned (pathsAlike_self settings _) (inv.path_stored here held)
  obtain ⟨key, hashed⟩ := hashed
  refine ⟨_, ?_, inv.paths.copy hashed found fun obj held => inv.path_stored here held⟩
  simp [attrPathCopy, pathHashAdd, hashed, bind, Except.bind, found]

/-- The copy of an absent path where an empty one is stored. -/
theorem attrPathCopy_null (inv : RepoInv settings repo)
    (mixed : ¬ ∀ obj, some obj ∈ stored repo.paths → obj.value ≠ []) :
    attrPathCopy settings repo none = .error .pathCopy := by
  obtain ⟨key, hashed, _⟩ := pathHashCompute_empty settings
  have found := fun null => mixed ((addRef_null inv.paths.interned).mp null)
  simp only [attrPathCopy, pathHashAdd, Ref.value_none, hashed, bind, Except.bind, if_neg found]

/-! ## The Communities of an attribute set -/

/-- The Communities of an attribute set can be hashed, unless they are absent and the method is `ZEBRA`. -/
theorem commHashCompute_held (inv : RepoInv settings repo) (here : repo.attrAt i = some refs) :
    (∃ key, commHashCompute settings refs.comms.value = .ok key) ∨
      (refs.comms = none ∧ settings.commMethod = .zebra ∧
        commHashCompute settings refs.comms.value = .error .commHashNull) := by
  cases held : refs.comms with
  | some obj => exact .inl (inv.comms.hashed _ (inv.comms_stored here held))
  | none =>
    cases method : settings.commMethod with
    | zebra => exact .inr ⟨rfl, rfl, by simp [commHashCompute, method]⟩
    | string =>
      have text : commTextIn 1024 none = some [] := by decide +kernel
      refine .inl ⟨settings.keyString [] settings.commSize, ?_⟩
      simp only [commHashCompute, method, Ref.value_none, text]

/-- Communities that are copied are found as themselves. -/
theorem attrCommCopy_ok (inv : RepoInv settings repo) (here : repo.attrAt i = some refs) {key : ℕ}
    (hashed : commHashCompute settings refs.comms.value = .ok key) (paths : List (InternItem Path)) :
    ∃ comms, attrCommCopy settings { repo with paths := paths } refs.comms =
        .ok (refs.comms, { repo with paths := paths, comms := comms }) ∧
      RefCopied (commHashCompute settings) (commsAlike settings) refs.comms repo.comms comms := by
  have found : (addRef (commsAlike settings) refs.comms repo.comms).1 = refs.comms := by
    cases held : refs.comms with
    | some obj => exact addRef_self inv.comms.interned (commsAlike_self settings _) (inv.comms_stored here held)
    | none =>
      rcases addRef_stored (commsAlike settings) none repo.comms with ⟨member, alike, _⟩ | ⟨_, result, _⟩
      · cases other : (addRef (commsAlike settings) none repo.comms).1 with
        | none => rfl
        | some obj =>
          -- no Communities that are stored are empty
          rw [other] at member alike
          exact absurd ((commsAlike_iff settings (some obj.value) none).mp alike).2 (inv.someComms obj member)
      · exact result
  refine ⟨_, ?_, inv.comms.copy hashed found fun obj held => inv.comms_stored here held⟩
  simp [attrCommCopy, commHashAdd, hashed, bind, Except.bind, found]

/-- The reference of an attribute set can be dropped. -/
theorem attrCommDestroy_spec (inv : RepoInv settings repo) (here : repo.attrAt i = some refs)
    (paths : List (InternItem Path)) :
    ∃ comms, attrCommDestroy settings { repo with paths := paths } refs.comms =
        .ok { repo with paths := paths, comms := comms } ∧
      RefDropped (commHashCompute settings) (commsAlike settings) refs.comms repo.comms comms := by
  cases held : refs.comms with
  | none => exact ⟨repo.comms, rfl, .null_ref inv.comms⟩
  | some obj =>
    have member := inv.comms_stored here held
    obtain ⟨key, hashed⟩ := inv.comms.hashed _ member
    obtain ⟨comms, removed, dropped⟩ := inv.comms.remove (commsAlike_self settings) member
    refine ⟨comms, ?_, dropped⟩
    simp only [attrCommDestroy, commHashRemove, hashed, removed]
    rfl

/-- Setting Communities: the old reference is dropped, then the new object is looked for. -/
theorem attrSetComm_some (inv : RepoInv settings repo) (here : repo.attrAt i = some refs) {comms : List Comm}
    (nonempty : comms ≠ []) :
    ∃ items, RefDropped (commHashCompute settings) (commsAlike settings) refs.comms repo.comms items ∧
      attrSetComm settings repo refs.comms (some comms) =
        match commHashCompute settings (some comms) with
        | .error fault => .error fault
        | .ok _ =>
          .ok ((addRef (commsAlike settings) (some ⟨repo.fresh, comms⟩) items).1,
            { repo with
              comms := (addRef (commsAlike settings) (some ⟨repo.fresh, comms⟩) items).2
              fresh := repo.fresh + 1 }) := by
  obtain ⟨items, destroyed, dropped⟩ := attrCommDestroy_spec inv here repo.paths
  refine ⟨items, dropped, ?_⟩
  -- Communities are not taken for the null reference
  have found : (addRef (commsAlike settings) (some ⟨repo.fresh, comms⟩) items).1 ≠ none := by
    intro null
    have alike : commsAlike settings
        (Ref.value (addRef (commsAlike settings) (some ⟨repo.fresh, comms⟩) items).1) (some comms) = true :=
      addRef_alike (some ⟨repo.fresh, comms⟩) (commsAlike_self settings (some comms)) items
    rw [null] at alike
    exact nonempty ((commsAlike_iff settings none (some comms)).mp alike).2.symm
  simp only [attrSetComm, destroyed, commHashAdd, Ref.value_some, bind, Except.bind]
  cases commHashCompute settings (some comms) with
  | error fault => rfl
  | ok key => exact if_neg found

theorem attrSetComm_none (inv : RepoInv settings repo) (here : repo.attrAt i = some refs) :
    ∃ items, RefDropped (commHashCompute settings) (commsAlike settings) refs.comms repo.comms items ∧
      attrSetComm settings repo refs.comms none = .ok (none, { repo with comms := items }) := by
  obtain ⟨items, destroyed, dropped⟩ := attrCommDestroy_spec inv here repo.paths
  refine ⟨items, dropped, ?_⟩
  simp only [attrSetComm, destroyed, bind, Except.bind]

/-! ## What an operation keeps -/

/-- Another AS-path in the place of the old one. -/
theorem RepoInv.putPath (inv : RepoInv settings repo) (here : repo.attrAt i = some refs) {path : Ref Path}
    {paths : List (InternItem Path)} {fresh : ℕ}
    (sound : SoundItems (pathHashCompute settings) (pathsAlike settings) paths)
    (count : ∀ obj, refCount (some obj) paths + (if refs.path = some obj then 1 else 0) =
      refCount (some obj) repo.paths + (if path = some obj then 1 else 0)) :
    RepoInv settings (putPath { repo with paths := paths, fresh := fresh } i refs path) where
  paths := sound
  comms := inv.comms
  pathCount obj := by
    have set := holders_set (·.path) (attrAt_eq_some.mp here) (some { refs with path := path }) (some obj)
    have counted := count obj
    rw [inv.pathCount] at counted
    simp only [Option.any_some, decide_eq_true_eq] at set
    simp only [Bgp.putPath, Repository.put]
    omega
  commCount obj := by
    have set := holders_set (·.comms) (attrAt_eq_some.mp here) (some { refs with path := path }) (some obj)
    simp only [Option.any_some, decide_eq_true_eq] at set
    simp only [Bgp.putPath, Repository.put, inv.commCount]
    omega
  someComms := inv.someComms

/-- Other Communities in the place of the old ones. -/
theorem RepoInv.putComms (inv : RepoInv settings repo) (here : repo.attrAt i = some refs)
    {comms : Ref (List Comm)} {items : List (InternItem (List Comm))} {fresh : ℕ}
    (sound : SoundItems (commHashCompute settings) (commsAlike settings) items)
    (count : ∀ obj, refCount (some obj) items + (if refs.comms = some obj then 1 else 0) =
      refCount (some obj) repo.comms + (if comms = some obj then 1 else 0))
    (someComms : ∀ obj, some obj ∈ stored items → obj.value ≠ []) :
    RepoInv settings (putComms { repo with comms := items, fresh := fresh } i refs comms) where
  paths := inv.paths
  comms := sound
  pathCount obj := by
    have set := holders_set (·.path) (attrAt_eq_some.mp here) (some { refs with comms := comms }) (some obj)
    simp only [Option.any_some, decide_eq_true_eq] at set
    simp only [Bgp.putComms, Repository.put, inv.pathCount]
    omega
  commCount obj := by
    have set := holders_set (·.comms) (attrAt_eq_some.mp here) (some { refs with comms := comms }) (some obj)
    have counted := count obj
    rw [inv.commCount] at counted
    simp only [Option.any_some, decide_eq_true_eq] at set
    simp only [Bgp.putComms, Repository.put]
    omega
  someComms := someComms

/-- Setting a path keeps the invariant. -/
theorem attrSetPath_inv (inv : RepoInv settings repo) (here : repo.attrAt i = some refs) {path : Option Path}
    {ref : Ref Path} {repo' : Repository} (result : attrSetPath settings repo refs.path path = .ok (ref, repo')) :
    RepoInv settings (putPath repo' i refs ref) := by
  cases path with
  | none =>
    obtain ⟨paths, dropped, set⟩ := attrSetPath_none inv here
    rw [set] at result
    cases result
    exact inv.putPath here dropped.sound fun obj => by simpa using dropped.count obj
  | some path =>
    obtain ⟨paths, dropped, set⟩ := attrSetPath_some inv here path
    rw [set] at result
    cases hashed : pathHashCompute settings (some path) with
    | error fault => simp [hashed] at result
    | ok key =>
      simp only [hashed] at result
      split at result
      next => cases result
      next found =>
        cases result
        refine inv.putPath here (dropped.sound.add (some ⟨repo.fresh, path⟩) hashed) fun obj => ?_
        rw [refCount_addRef]
        have := dropped.count obj
        omega

/-- Setting Communities keeps the invariant. -/
theorem attrSetComm_inv (inv : RepoInv settings repo) (here : repo.attrAt i = some refs)
    {comms : Option (List Comm)} (nonempty : comms ≠ some []) {ref : Ref (List Comm)} {repo' : Repository}
    (result : attrSetComm settings repo refs.comms comms = .ok (ref, repo')) :
    RepoInv settings (putComms repo' i refs ref) := by
  cases comms with
  | none =>
    obtain ⟨items, dropped, set⟩ := attrSetComm_none inv here
    rw [set] at result
    cases result
    exact inv.putComms here dropped.sound (fun obj => by simpa using dropped.count obj)
      fun obj member => inv.someComms obj (dropped.subset member)
  | some comms =>
    have content : comms ≠ [] := fun empty => nonempty (congrArg some empty)
    obtain ⟨items, dropped, set⟩ := attrSetComm_some inv here content
    rw [set] at result
    cases hashed : commHashCompute settings (some comms) with
    | error fault => simp [hashed] at result
    | ok key =>
      simp only [hashed] at result
      cases result
      refine inv.putComms here (dropped.sound.add (some ⟨repo.fresh, comms⟩) hashed) (fun obj => ?_)
        fun obj member => ?_
      · rw [refCount_addRef]
        have := dropped.count obj
        omega
      · cases mem_stored_addRef member with
        | inl old => exact inv.someComms obj (dropped.subset old)
        | inr new =>
          cases new.1
          exact content

/-- A copy of an attribute set. -/
theorem RepoInv.copy (inv : RepoInv settings repo) {paths : List (InternItem Path)}
    {comms : List (InternItem (List Comm))}
    (path : RefCopied (pathHashCompute settings) (pathsAlike settings) refs.path repo.paths paths)
    (comm : RefCopied (commHashCompute settings) (commsAlike settings) refs.comms repo.comms comms) :
    RepoInv settings { repo with paths := paths, comms := comms, attrs := repo.attrs ++ [some refs] } where
  paths := path.sound
  comms := comm.sound
  pathCount obj := by rw [path.count, inv.pathCount, holders_append]
  commCount obj := by rw [comm.count, inv.commCount, holders_append]
  someComms obj member := inv.someComms obj (comm.subset obj member)

/-- What a copy does. -/
theorem attrCopy_spec (inv : RepoInv settings repo) (here : repo.attrAt i = some refs) :
    ((refs.path = none → ∀ obj, some obj ∈ stored repo.paths → obj.value ≠ []) ∧
        ¬ (refs.comms = none ∧ settings.commMethod = .zebra) ∧
        ∃ paths comms, attrCopy settings repo refs =
            .ok { repo with paths := paths, comms := comms, attrs := repo.attrs ++ [some refs] } ∧
          RefCopied (pathHashCompute settings) (pathsAlike settings) refs.path repo.paths paths ∧
          RefCopied (commHashCompute settings) (commsAlike settings) refs.comms repo.comms comms) ∨
      ((refs.path = none ∧ ¬ ∀ obj, some obj ∈ stored repo.paths → obj.value ≠ []) ∧
        attrCopy settings repo refs = .error .pathCopy) ∨
      ((refs.comms = none ∧ settings.commMethod = .zebra) ∧
        attrCopy settings repo refs = .error .commHashNull) := by
  by_cases apart : refs.path = none → ∀ obj, some obj ∈ stored repo.paths → obj.value ≠ []
  · obtain ⟨paths, copied, path⟩ := attrPathCopy_ok inv here apart
    rcases commHashCompute_held inv here with ⟨key, hashed⟩ | ⟨null, method, fault⟩
    · obtain ⟨comms, copied', comm⟩ := attrCommCopy_ok inv here hashed paths
      refine .inl ⟨apart, ?_, paths, comms, ?_, path, comm⟩
      · rintro ⟨null, method⟩
        simp [null, commHashCompute, method] at hashed
      · simp only [attrCopy, copied, copied', bind, Except.bind]
    · refine .inr (.inr ⟨⟨null, method⟩, ?_⟩)
      simp only [attrCopy, copied, bind, Except.bind, attrCommCopy, commHashAdd, fault]
  · obtain ⟨null, mixed⟩ := Classical.not_imp.mp apart
    refine .inr (.inl ⟨⟨null, mixed⟩, ?_⟩)
    simp only [attrCopy, null, attrPathCopy_null inv mixed, bind, Except.bind]

/-- What the destruction does. -/
theorem attrDestroy_spec (inv : RepoInv settings repo) (here : repo.attrAt i = some refs) :
    ∃ paths comms, attrDestroy settings repo i refs =
        .ok (Repository.put { repo with paths := paths, comms := comms } i none) ∧
      RefDropped (pathHashCompute settings) (pathsAlike settings) refs.path repo.paths paths ∧
      RefDropped (commHashCompute settings) (commsAlike settings) refs.comms repo.comms comms := by
  obtain ⟨paths, destroyed, path⟩ := attrPathDestroy_spec inv here
  obtain ⟨comms, destroyed', comm⟩ := attrCommDestroy_spec inv here paths
  refine ⟨paths, comms, ?_, path, comm⟩
  simp only [attrDestroy, destroyed, destroyed', bind, Except.bind]

theorem RepoInv.destroy (inv : RepoInv settings repo) (here : repo.attrAt i = some refs)
    {paths : List (InternItem Path)} {comms : List (InternItem (List Comm))}
    (path : RefDropped (pathHashCompute settings) (pathsAlike settings) refs.path repo.paths paths)
    (comm : RefDropped (commHashCompute settings) (commsAlike settings) refs.comms repo.comms comms) :
    RepoInv settings (Repository.put { repo with paths := paths, comms := comms } i none) where
  paths := path.sound
  comms := comm.sound
  pathCount obj := by
    have set := holders_set (·.path) (attrAt_eq_some.mp here) none (some obj)
    have counted := path.count obj
    rw [inv.pathCount] at counted
    simp only [Option.any_none, Bool.false_eq_true, if_false] at set
    simp only [Repository.put]
    omega
  commCount obj := by
    have set := holders_set (·.comms) (attrAt_eq_some.mp here) none (some obj)
    have counted := comm.count obj
    rw [inv.commCount] at counted
    simp only [Option.any_none, Bool.false_eq_true, if_false] at set
    simp only [Repository.put]
    omega
  someComms obj member := inv.someComms obj (comm.subset member)

/-- The path that an operation interns, from the AS-path of its attribute set. -/
def AttrOp.interns (op : AttrOp) (old : Option Path) : Option Path :=
  match op with
  | .setPath _ path => path
  | .pathPrepend _ asn amount => pathAppendTimes asn amount.toNat (old.getD [])
  | .pathRemPrivate _ => some (pathRemovePrivate (old.getD []))
  | _ => none

theorem attrStep_place {op : AttrOp} (place : op.place = some i) (here : repo.attrAt i = some refs) :
    attrStep settings repo op = attrOp settings repo i refs op := by
  simp only [attrStep, place, here]

/-- Interning a path is setting it. -/
theorem attrOp_interns {op : AttrOp} (place : op.place = some i) {path : Path}
    (interns : AttrOp.interns op refs.path.value = some path) :
    attrOp settings repo i refs op =
      (attrSetPath settings repo refs.path (some path)).map fun (ref, repo) => putPath repo i refs ref := by
  cases op with
  | setPath j path' =>
    cases interns
    rfl
  | pathRemPrivate j =>
    cases interns
    rfl
  | pathPrepend j asn amount =>
    simp only [AttrOp.interns] at interns
    simp only [attrOp, attrPathPrepend, interns, bind, Except.bind]
    cases attrSetPath settings repo refs.path (some path) with
    | error fault => rfl
    | ok result => rfl
  | _ => cases interns

theorem commsRemove_ne_nil {comms : List Comm} (nonempty : comms ≠ []) (comm : Comm) :
    commsRemove comms comm ≠ some [] := by
  intro removed
  simp only [commsRemove] at removed
  split at removed
  · exact nonempty (Option.some.inj removed)
  · split at removed
    next => cases removed
    next some =>
      rw [Option.some.inj removed] at some
      exact some rfl

theorem commsAdd_ne_nil {comms comms' : List Comm} {comm : Comm} (added : commsAdd comms comm = .ok comms') :
    comms' ≠ [] := by
  simp only [commsAdd] at added
  split at added
  · cases added
    simp
  · cases added

theorem attrOp_inv (inv : RepoInv settings repo) (here : repo.attrAt i = some refs) {op : AttrOp}
    (place : op.place = some i) {repo' : Repository} (result : attrOp settings repo i refs op = .ok repo') :
    RepoInv settings repo' := by
  -- Most operations end by storing one new path or one new list.
  have setting : ∀ {path repo'}, (attrSetPath settings repo refs.path path).map
      (fun set => putPath set.2 i refs set.1) = .ok repo' → RepoInv settings repo' := by
    intro path repo' result
    obtain ⟨set', set, rfl⟩ := except_map_eq_ok.mp result
    exact attrSetPath_inv inv here set
  have settingComms : ∀ {comms repo'}, comms ≠ some [] → (attrSetComm settings repo refs.comms comms).map
      (fun set => putComms set.2 i refs set.1) = .ok repo' → RepoInv settings repo' := by
    intro comms repo' nonempty result
    obtain ⟨set', set, rfl⟩ := except_map_eq_ok.mp result
    exact attrSetComm_inv inv here nonempty set
  cases op with
  | create => cases place
  | copy j =>
    rcases attrCopy_spec inv here with ⟨_, _, paths, comms, copied, path, comm⟩ | ⟨_, fault⟩ | ⟨_, fault⟩
    · simp only [attrOp, copied] at result
      cases result
      exact inv.copy path comm
    · simp only [attrOp, fault, reduceCtorEq] at result
    · simp only [attrOp, fault, reduceCtorEq] at result
  | setPath j path => exact setting result
  | pathRemPrivate j => exact setting result
  | pathPrepend j asn amount =>
    cases appended : pathAppendTimes asn amount.toNat (refs.path.value.getD []) with
    | some path =>
      have interns : AttrOp.interns (.pathPrepend j asn amount) refs.path.value = some path := appended
      rw [attrOp_interns place interns] at result
      exact setting result
    | none =>
      simp only [attrOp, attrPathPrepend, appended, Except.map] at result
      cases result
      exact inv.putPath here inv.paths fun obj => rfl
  | commAppend j comm =>
    simp only [attrOp, attrCommAppend] at result
    split at result
    next comms added => exact settingComms (fun empty => commsAdd_ne_nil added (Option.some.inj empty)) result
    next => cases result
  | commRemove j comm =>
    simp only [attrOp, attrCommRemove] at result
    cases held : refs.comms with
    | none =>
      simp only [held, Ref.value_none, Except.map] at result
      cases result
      exact inv.putComms here inv.comms (fun obj => by rw [held]) inv.someComms
    | some obj =>
      have nonempty := inv.someComms obj (inv.comms_stored here held)
      simp only [held, Ref.value_some] at result
      exact settingComms (commsRemove_ne_nil nonempty comm) (held ▸ result)
  | commStrip j =>
    obtain ⟨comms, destroyed, dropped⟩ := attrCommDestroy_spec inv here repo.paths
    obtain ⟨repo1, stripped, rfl⟩ := except_map_eq_ok.mp result
    rw [destroyed] at stripped
    cases stripped
    exact inv.putComms here dropped.sound (fun obj => by simpa using dropped.count obj)
      fun obj member => inv.someComms obj (dropped.subset member)
  | destroy j =>
    obtain ⟨paths, comms, destroyed, path, comm⟩ := attrDestroy_spec inv here
    simp only [attrOp, destroyed] at result
    cases result
    exact inv.destroy here path comm

/-- Every operation keeps the invariant. -/
theorem attrStep_inv (inv : RepoInv settings repo) {op : AttrOp} {repo' : Repository}
    (result : attrStep settings repo op = .ok repo') : RepoInv settings repo' := by
  cases place : op.place with
  | none =>
    simp only [attrStep, place] at result
    cases result
    have path : RefCopied (pathHashCompute settings) (pathsAlike settings) (AttrRefs.mk none none).path
      repo.paths repo.paths := .null_ref inv.paths
    exact inv.copy path (.null_ref inv.comms)
  | some i =>
    cases here : repo.attrAt i with
    | none =>
      simp only [attrStep, place, here] at result
      cases result
      exact inv
    | some refs =>
      rw [attrStep_place place here] at result
      exact attrOp_inv inv here place result

end Held

/-! ## The assertions -/

/-- The assertions that a pointer is the one expected, or not null. -/
def asserted : AttrFault → Bool
  | .pathCopy | .pathSet | .commCopy | .commSet => true
  | _ => false

/-- An operation trips none of the assertions; the copy of a route without an AS-path or without
Communities succeeds, and so does the removal of the private ASNs where nothing else is. -/
structure NeverTrips (settings : HashSettings) (repo : Repository) (op : AttrOp) : Prop where
  unasserted : ∀ fault, attrStep settings repo op = .error fault → asserted fault = false
  copied : ∀ i refs, op = .copy i → repo.attrAt i = some refs → refs.path = none ∨ refs.comms = none →
    ∃ repo', attrStep settings repo op = .ok repo'
  cleared : ∀ i refs, op = .pathRemPrivate i → repo.attrAt i = some refs →
    (∀ seg ∈ refs.path.value.getD [], ∀ asn ∈ seg.asns, 64512 ≤ asn) →
    ∃ repo', attrStep settings repo op = .ok repo'

/-- An absent and an empty AS-path do not meet, and absent Communities are not copied with the method
`ZEBRA`. -/
structure KeepsApart (settings : HashSettings) (repo : Repository) (op : AttrOp) : Prop where
  copyPath : ∀ i refs, op = .copy i → repo.attrAt i = some refs → refs.path = none →
    ∀ obj, some obj ∈ stored repo.paths → obj.value ≠ []
  copyComms : ∀ i refs, op = .copy i → repo.attrAt i = some refs → refs.comms = none →
    settings.commMethod ≠ .zebra
  setPath : ∀ i refs, op.place = some i → repo.attrAt i = some refs →
    AttrOp.interns op refs.path.value = some [] → none ∉ stored repo.paths

section Assertions

variable {repo : Repository} {i : ℕ} {refs : AttrRefs}

theorem pathHashCompute_fault {path : Option Path} {fault : AttrFault}
    (stopped : pathHashCompute settings path = .error fault) :
    settings.pathMethod = .string ∧ pathHashText path = none ∧ fault = .pathHash := by
  simp only [pathHashCompute] at stopped
  cases method : settings.pathMethod with
  | string =>
    cases text : pathHashText path with
    | none =>
      simp only [method, text] at stopped
      cases stopped
      exact ⟨rfl, rfl, rfl⟩
    | some text' => simp only [method, text, reduceCtorEq] at stopped
  | zebra => simp only [method, reduceCtorEq] at stopped
  | oat => simp only [method, reduceCtorEq] at stopped

theorem commHashCompute_fault {comms : Option (List Comm)} {fault : AttrFault}
    (stopped : commHashCompute settings comms = .error fault) : asserted fault = false := by
  simp only [commHashCompute] at stopped
  split at stopped
  · split at stopped
    · cases stopped
    · cases stopped
      rfl
  · split at stopped
    · cases stopped
    · cases stopped
      rfl

/-- The assertion of `bgp_attr_set_path` fails for an empty path while the null reference is stored. -/
theorem attrSetPath_null (inv : RepoInv settings repo) (here : repo.attrAt i = some refs)
    (null : none ∈ stored repo.paths) : attrSetPath settings repo refs.path (some []) = .error .pathSet := by
  obtain ⟨paths, dropped, set⟩ := attrSetPath_some inv here []
  have found := (addRef_eq_none dropped.sound.interned ⟨repo.fresh, []⟩).mpr ⟨dropped.null.mpr null, rfl⟩
  obtain ⟨key, _, hashed⟩ := pathHashCompute_empty settings
  rw [set]
  simp only [hashed, if_pos found]

/-- Otherwise only a path that cannot be hashed stops it. -/
theorem attrSetPath_fault (inv : RepoInv settings repo) (here : repo.attrAt i = some refs) {path : Path}
    (apart : path = [] → none ∉ stored repo.paths) {fault : AttrFault}
    (stopped : attrSetPath settings repo refs.path (some path) = .error fault) :
    pathHashCompute settings (some path) = .error fault := by
  obtain ⟨paths, dropped, set⟩ := attrSetPath_some inv here path
  have found : ¬ (addRef (pathsAlike settings) (some ⟨repo.fresh, path⟩) paths).1 = none := by
    rw [addRef_eq_none dropped.sound.interned, dropped.null]
    rintro ⟨null, empty⟩
    exact apart empty null
  rw [set] at stopped
  cases hashed : pathHashCompute settings (some path) with
  | error fault' =>
    simp only [hashed] at stopped
    cases stopped
    rfl
  | ok key =>
    simp only [hashed, if_neg found] at stopped
    cases stopped

/-- Communities are never taken for absent ones. -/
theorem attrSetComm_fault (inv : RepoInv settings repo) (here : repo.attrAt i = some refs)
    {comms : Option (List Comm)} (nonempty : comms ≠ some []) {fault : AttrFault}
    (stopped : attrSetComm settings repo refs.comms comms = .error fault) : asserted fault = false := by
  cases comms with
  | none =>
    obtain ⟨items, _, set⟩ := attrSetComm_none inv here
    rw [set] at stopped
    cases stopped
  | some comms =>
    obtain ⟨items, _, set⟩ := attrSetComm_some inv here fun empty => nonempty (congrArg some empty)
    rw [set] at stopped
    split at stopped
    next fault' hashed =>
      cases stopped
      exact commHashCompute_fault hashed
    next => cases stopped

/-- Where an absent and an empty path are kept apart, none of the assertions stops an operation. -/
theorem attrOp_fault (inv : RepoInv settings repo) (here : repo.attrAt i = some refs) {op : AttrOp}
    (place : op.place = some i)
    (copyPath : op = .copy i → refs.path = none → ∀ obj, some obj ∈ stored repo.paths → obj.value ≠ [])
    (setPath : AttrOp.interns op refs.path.value = some [] → none ∉ stored repo.paths) {fault : AttrFault}
    (stopped : attrOp settings repo i refs op = .error fault) : asserted fault = false := by
  -- An operation that interns a path faults only in the hash, and never in an assertion.
  have interned : ∀ {path}, AttrOp.interns op refs.path.value = some path → asserted fault = false := by
    intro path interns
    rw [attrOp_interns place interns, except_map_eq_error] at stopped
    have hash := attrSetPath_fault inv here (fun empty => setPath (interns.trans (congrArg some empty))) stopped
    rw [(pathHashCompute_fault hash).2.2]
    rfl
  cases op with
  | create => cases place
  | copy j =>
    cases place
    rcases attrCopy_spec inv here with ⟨_, _, paths, comms, copied, _⟩ | ⟨⟨null, mixed⟩, _⟩ | ⟨_, copied⟩
    · simp only [attrOp, copied, reduceCtorEq] at stopped
    · exact absurd (copyPath rfl null) mixed
    · simp only [attrOp, copied, Except.error.injEq] at stopped
      rw [← stopped]
      rfl
  | setPath j path =>
    cases path with
    | some path => exact interned rfl
    | none =>
      obtain ⟨paths, _, set⟩ := attrSetPath_none inv here
      simp only [attrOp, set, Except.map, reduceCtorEq] at stopped
  | pathRemPrivate j => exact interned rfl
  | pathPrepend j asn amount =>
    cases appended : pathAppendTimes asn amount.toNat (refs.path.value.getD []) with
    | some path => exact interned appended
    | none => simp only [attrOp, attrPathPrepend, appended, Except.map, reduceCtorEq] at stopped
  | commAppend j comm =>
    rw [attrOp, except_map_eq_error, attrCommAppend] at stopped
    split at stopped
    next comms added =>
      exact attrSetComm_fault inv here (fun empty => commsAdd_ne_nil added (Option.some.inj empty)) stopped
    next =>
      cases stopped
      rfl
  | commRemove j comm =>
    rw [attrOp, except_map_eq_error, attrCommRemove] at stopped
    cases held : refs.comms with
    | none => simp only [held, Ref.value_none, reduceCtorEq] at stopped
    | some obj =>
      have nonempty := inv.someComms obj (inv.comms_stored here held)
      simp only [held, Ref.value_some] at stopped
      exact attrSetComm_fault inv here (commsRemove_ne_nil nonempty comm) (held ▸ stopped)
  | commStrip j =>
    obtain ⟨comms, destroyed, _⟩ := attrCommDestroy_spec inv here repo.paths
    rw [attrOp, except_map_eq_error, destroyed] at stopped
    cases stopped
  | destroy j =>
    obtain ⟨paths, comms, destroyed, _⟩ := attrDestroy_spec inv here
    simp only [attrOp, destroyed, reduceCtorEq] at stopped

/-- Without private ASNs nothing is left of a path that has only those. -/
theorem pathRemovePrivate_private {path : Path} (nonempty : ∀ seg ∈ path, seg.asns ≠ [])
    (only : ∀ seg ∈ path, ∀ asn ∈ seg.asns, 64512 ≤ asn) : pathRemovePrivate path = [] := by
  rw [pathRemovePrivate, List.filterMap_eq_nil_iff]
  intro seg member
  have kept : seg.asns.filter (· < 64512) = [] := by
    rw [List.filter_eq_nil_iff]
    intro asn inside
    have := only seg member asn inside
    simpa using this
  have some : ¬ 0 = seg.asns.length := by
    rw [eq_comm, List.length_eq_zero_iff]
    exact nonempty seg member
  simp [pathSegmentRemovePrivate, kept, some]

/-- The removal of private ASNs leaves a path that can be hashed, where nothing else is. -/
theorem pathHashCompute_private (inv : RepoInv settings repo) (here : repo.attrAt i = some refs)
    (only : ∀ seg ∈ refs.path.value.getD [], ∀ asn ∈ seg.asns, 64512 ≤ asn) :
    ∃ key, pathHashCompute settings (some (pathRemovePrivate (refs.path.value.getD []))) = .ok key := by
  obtain ⟨key, _, hashed⟩ := pathHashCompute_empty settings
  cases result : pathHashCompute settings (some (pathRemovePrivate (refs.path.value.getD []))) with
  | ok key' => exact ⟨key', rfl⟩
  | error fault =>
    -- with the other methods no path stops the hash
    obtain ⟨method, _, _⟩ := pathHashCompute_fault result
    have nonempty : ∀ seg ∈ refs.path.value.getD [], seg.asns ≠ [] := by
      cases held : refs.path with
      | none => simp
      | some obj =>
        obtain ⟨key', stored⟩ := inv.paths.hashed _ (inv.path_stored here held)
        have printed : pathHashText (Ref.value (some obj)) ≠ none := by
          intro none
          simp only [pathHashCompute, method, none, reduceCtorEq] at stored
        exact ((textIn_ne_none (by decide)).mp printed).1
    rw [pathRemovePrivate_private nonempty only, hashed] at result
    cases result

/-- An operation trips no assertion exactly when it keeps absent and empty paths apart. -/
theorem neverTrips_iff (inv : RepoInv settings repo) (op : AttrOp) :
    NeverTrips settings repo op ↔ KeepsApart settings repo op := by
  constructor
  · intro never
    refine ⟨fun i refs copy here null => ?_, fun i refs copy here null method => ?_,
      fun i refs place here interns stored => ?_⟩
    -- A copy of no path looks the null path up, and an empty path stored is equal to it.
    · by_contra mixed
      have stopped : attrStep settings repo op = .error .pathCopy := by
        rw [attrStep_place (copy ▸ rfl) here, copy]
        simp only [attrOp, attrCopy, null, attrPathCopy_null inv mixed, bind, Except.bind]
      cases never.unasserted _ stopped
    · obtain ⟨repo', copied⟩ := never.copied i refs copy here (.inr null)
      rw [attrStep_place (copy ▸ rfl) here, copy] at copied
      rcases attrCopy_spec inv here with ⟨_, other, _⟩ | ⟨_, stopped⟩ | ⟨_, stopped⟩
      · exact other ⟨null, method⟩
      · simp only [attrOp, stopped, reduceCtorEq] at copied
      · simp only [attrOp, stopped, reduceCtorEq] at copied
    · have stopped : attrStep settings repo op = .error .pathSet := by
        rw [attrStep_place place here, attrOp_interns place interns, attrSetPath_null inv here stored]
        rfl
      cases never.unasserted _ stopped
  · intro apart
    refine ⟨fun fault stopped => ?_, fun i refs copy here null => ?_, fun i refs clear here only => ?_⟩
    -- Conversely an operation on attributes that are there faults as attrOp_fault says.
    · cases place : op.place with
      | none => simp only [attrStep, place, reduceCtorEq] at stopped
      | some i =>
        cases here : repo.attrAt i with
        | none => simp only [attrStep, place, here, reduceCtorEq] at stopped
        | some refs =>
          rw [attrStep_place place here] at stopped
          exact attrOp_fault inv here place (fun copy null => apart.copyPath i refs copy here null)
            (apart.setPath i refs place here) stopped
    · rw [attrStep_place (copy ▸ rfl) here, copy]
      rcases attrCopy_spec inv here with ⟨_, _, paths, comms, copied, _⟩ | ⟨⟨null, mixed⟩, _⟩ | ⟨⟨null, method⟩, _⟩
      · exact ⟨_, copied⟩
      · exact absurd (apart.copyPath i refs copy here null) mixed
      · exact absurd method (apart.copyComms i refs copy here null)
    · have place : op.place = some i := clear ▸ rfl
      have interns : AttrOp.interns op refs.path.value = some (pathRemovePrivate (refs.path.value.getD [])) :=
        clear ▸ rfl
      rw [attrStep_place place here, attrOp_interns place interns]
      cases set : attrSetPath settings repo refs.path (some (pathRemovePrivate (refs.path.value.getD []))) with
      | ok result => exact ⟨_, rfl⟩
      | error fault =>
        obtain ⟨key, hashed⟩ := pathHashCompute_private inv here only
        have fault := attrSetPath_fault inv here
          (fun empty => apart.setPath i refs place here (interns.trans (congrArg some empty))) set
        rw [hashed] at fault
        cases fault

end Assertions

/-- In every state that operations reach from empty repositories, an operation trips no assertion
exactly when it keeps absent and empty paths apart. -/
theorem assertions_iff {repo : Repository}
    (reached : Reach (attrStep settings) (fun _ _ => True) .empty repo) (op : AttrOp) :
    NeverTrips settings repo op ↔ KeepsApart settings repo op := by
  have inv : RepoInv settings repo :=
    reached.invariant .empty fun holds _ stepped => attrStep_inv holds stepped
  exact neverTrips_iff inv op

/-- The methods and sizes before the first use, with a sum as the key of a string. -/
def defaultHashes : HashSettings where
  pathMethod := .string
  pathSize := 25000
  commMethod := .string
  commSize := 25000
  keyString text size := (text.map Char.toNat).sum % size

theorem assertions_iff_create :
    NeverTrips defaultHashes ⟨[], [], 0, [some ⟨none, none⟩]⟩ (.copy 0) ↔
      KeepsApart defaultHashes ⟨[], [], 0, [some ⟨none, none⟩]⟩ (.copy 0) :=
  assertions_iff (.next (i := .create) .start trivial rfl) (.copy 0)

/-- The private ASNs of one route without an AS-path are removed, then another is copied. -/
theorem copy_asserted :
    ¬ ∀ repo op, Reach (attrStep defaultHashes) (fun _ _ => True) .empty repo →
      NeverTrips defaultHashes repo op := by
  intro never
  have ran : okAnd ([.create, .create, .pathRemPrivate 0].foldlM (attrStep defaultHashes) .empty)
      (fun repo => match attrStep defaultHashes repo (.copy 1) with
        | .error fault => asserted fault
        | .ok _ => false) = true := by decide +kernel
  obtain ⟨repo, ran, stopped⟩ := okAnd_iff.mp ran
  split at stopped
  next fault copied =>
    have unasserted := (never repo (.copy 1) (.of_foldlM (fun _ _ => trivial) ran)).unasserted fault copied
    rw [stopped] at unasserted
    cases unasserted
  next => cases stopped

/-! ## The values -/

/-- The AS-paths of the attribute sets. -/
def storedPaths (repo : Repository) : List (Option (Option Path)) :=
  repo.attrs.map fun slot => slot.map fun refs => refs.path.value

/-- An operation on the AS-paths of attribute sets that share nothing. -/
def plainOp (values : List (Option (Option Path))) (i : ℕ) (old : Option Path) (op : AttrOp) :
    List (Option (Option Path)) :=
  match op with
  | .copy _ => values ++ [some old]
  | .setPath _ path => values.set i (some path)
  | .pathPrepend _ asn amount =>
    match pathAppendTimes asn amount.toNat (old.getD []) with
    | some path => values.set i (some (some path))
    | none => values
  | .pathRemPrivate _ => values.set i (some (some (pathRemovePrivate (old.getD []))))
  | .destroy _ => values.set i none
  | _ => values

/-- One step of attribute sets that share nothing. -/
def plainStep (values : List (Option (Option Path))) (op : AttrOp) : List (Option (Option Path)) :=
  match op.place with
  | none => values ++ [some none]
  | some i =>
    match (values[i]?).join with
    | none => values
    | some old => plainOp values i old op

/-- No other attribute set has a different path that is taken for the path interned: one of the same
hash, with the same ASNs in segments of other types. -/
def Unmixed (settings : HashSettings) (repo : Repository) (op : AttrOp) : Prop :=
  ∀ i refs path, op.place = some i → repo.attrAt i = some refs →
    AttrOp.interns op refs.path.value = some path →
    ∀ j other obj, j ≠ i → repo.attrAt j = some other → other.path = some obj →
      pathsAlike settings (some obj.value) (some path) = true → obj.value = path

section Values

variable {repo : Repository} {i : ℕ} {refs : AttrRefs}

/-- What is stored when a reference was dropped: the paths of the other attribute sets. -/
theorem RefDropped.stored_iff (inv : RepoInv settings repo) (here : repo.attrAt i = some refs)
    {paths : List (InternItem Path)}
    (dropped : RefDropped (pathHashCompute settings) (pathsAlike settings) refs.path repo.paths paths)
    (obj : Obj Path) :
    some obj ∈ stored paths ↔ ∃ j other, j ≠ i ∧ repo.attrAt j = some other ∧ other.path = some obj := by
  have set := holders_set (·.path) (attrAt_eq_some.mp here) none (some obj)
  have counted := dropped.count obj
  rw [inv.pathCount] at counted
  simp only [Option.any_none, Bool.false_eq_true, if_false] at set
  have same : refCount (some obj) paths = holders (·.path) (repo.attrs.set i none) (some obj) := by omega
  rw [← refCount_pos dropped.sound.interned, same, holders, List.countP_pos_iff]
  constructor
  · rintro ⟨slot, member, holds⟩
    obtain ⟨j, content⟩ := List.mem_iff_getElem?.mp member
    cases slot with
    | none => cases holds
    | some other =>
      have away : j ≠ i := by
        rintro rfl
        rw [List.getElem?_set_self (List.getElem?_eq_some_iff.mp (attrAt_eq_some.mp here)).1] at content
        cases content
      rw [List.getElem?_set_ne away.symm] at content
      exact ⟨j, other, away, attrAt_eq_some.mpr content, by simpa using holds⟩
  · rintro ⟨j, other, away, content, pointer⟩
    refine ⟨some other, List.mem_of_getElem? (i := j) ?_, by simpa using pointer⟩
    rw [List.getElem?_set_ne away.symm]
    exact attrAt_eq_some.mp content

/-- The path found for the one interned has its value exactly when no other attribute set has a
different path that is taken for it. -/
theorem attrSetPath_value (inv : RepoInv settings repo) (here : repo.attrAt i = some refs) {path : Path}
    {ref : Ref Path} {repo' : Repository}
    (result : attrSetPath settings repo refs.path (some path) = .ok (ref, repo')) :
    repo'.attrs = repo.attrs ∧
      (ref.value = some path ↔
        ∀ j other obj, j ≠ i → repo.attrAt j = some other → other.path = some obj →
          pathsAlike settings (some obj.value) (some path) = true → obj.value = path) := by
  obtain ⟨paths, dropped, set⟩ := attrSetPath_some inv here path
  rw [set] at result
  cases hashed : pathHashCompute settings (some path) with
  | error fault => simp only [hashed, reduceCtorEq] at result
  | ok key =>
    simp only [hashed] at result
    split at result
    next => cases result
    next found =>
      cases result
      refine ⟨rfl, ?_⟩
      constructor
      -- A path stored under another attribute that compares equal is handed out in place of this one.
      · intro value j other obj away content pointer alike
        have member := (dropped.stored_iff inv here obj).mpr ⟨j, other, away, content, pointer⟩
        have found : (addRef (pathsAlike settings) (some ⟨repo.fresh, path⟩) paths).1 = some obj :=
          addRef_of_alike dropped.sound.interned pathsAlike_common member alike
        rw [found] at value
        exact Option.some.inj value
      · intro unmixed
        rcases addRef_stored (pathsAlike settings) (some ⟨repo.fresh, path⟩) paths with
          ⟨member, alike, _⟩ | ⟨_, new, _⟩
        · cases returned : (addRef (pathsAlike settings) (some ⟨repo.fresh, path⟩) paths).1 with
          | none => exact absurd returned found
          | some obj =>
            rw [returned] at member alike
            obtain ⟨j, other, away, content, pointer⟩ := (dropped.stored_iff inv here obj).mp member
            exact congrArg some (unmixed j other obj away content pointer alike)
        · rw [new]
          rfl

theorem storedPaths_put (repo : Repository) (i : ℕ) (slot : Option AttrRefs) :
    storedPaths (repo.put i slot) = (storedPaths repo).set i (slot.map fun refs => refs.path.value) := by
  simp [storedPaths, Repository.put]

theorem storedPaths_at (here : repo.attrAt i = some refs) :
    (storedPaths repo)[i]? = some (some refs.path.value) := by
  simp [storedPaths, attrAt_eq_some.mp here]

theorem storedPaths_absent (here : repo.attrAt i = none) : ((storedPaths repo)[i]?).join = none := by
  simp only [Repository.attrAt] at here
  simp only [storedPaths, List.getElem?_map]
  cases slot : repo.attrs[i]? with
  | none => rfl
  | some content =>
    rw [slot, Option.join_some] at here
    rw [here]
    rfl

theorem set_eq_iff {α : Type} {l : List α} (inside : i < l.length) (a b : α) : l.set i a = l.set i b ↔ a = b := by
  constructor
  · intro same
    have := congrArg (·[i]?) same
    simpa [List.getElem?_set_self inside] using this
  · exact fun same => by rw [same]

/-- An operation that interns a path does what it does where nothing is shared exactly when the path is
not mixed up with another. -/
theorem storedPaths_interns (inv : RepoInv settings repo) (here : repo.attrAt i = some refs) {op : AttrOp}
    (place : op.place = some i) {path : Path} (interns : AttrOp.interns op refs.path.value = some path)
    {repo' : Repository} (result : attrStep settings repo op = .ok repo') :
    storedPaths repo' = (storedPaths repo).set i (some (some path)) ↔ Unmixed settings repo op := by
  rw [attrStep_place place here, attrOp_interns place interns] at result
  obtain ⟨⟨ref, repo1⟩, set, rfl⟩ := except_map_eq_ok.mp result
  obtain ⟨kept, value⟩ := attrSetPath_value inv here set
  have others : storedPaths repo1 = storedPaths repo := by rw [storedPaths, storedPaths, kept]
  have inside := (List.getElem?_eq_some_iff.mp (storedPaths_at here)).1
  simp only [putPath, storedPaths_put, others, Option.map_some, set_eq_iff inside, Option.some.injEq, value]
  constructor
  · intro unmixed j refs' path' place' here' interns'
    cases place.symm.trans place'
    cases here.symm.trans here'
    cases interns.symm.trans interns'
    exact unmixed
  · intro unmixed
    exact unmixed i refs path place here interns

theorem attrCommDestroy_attrs {comms : Ref (List Comm)} {repo' : Repository}
    (result : attrCommDestroy settings repo comms = .ok repo') : repo'.attrs = repo.attrs := by
  cases comms with
  | none =>
    cases result
    rfl
  | some obj =>
    obtain ⟨key, _, result⟩ := except_bind_eq_ok.mp result
    split at result
    · cases result
      rfl
    · cases result
      rfl

theorem attrSetComm_attrs {old ref : Ref (List Comm)} {comms : Option (List Comm)} {repo' : Repository}
    (result : attrSetComm settings repo old comms = .ok (ref, repo')) : repo'.attrs = repo.attrs := by
  obtain ⟨repo1, destroyed, result⟩ := except_bind_eq_ok.mp result
  have kept := attrCommDestroy_attrs destroyed
  cases comms with
  | none =>
    cases result
    exact kept
  | some comms =>
    obtain ⟨⟨ref', repo2⟩, added, result⟩ := except_bind_eq_ok.mp result
    obtain ⟨key, _, added⟩ := except_bind_eq_ok.mp added
    cases added
    simp only at result
    split at result
    · cases result
    · cases result
      exact kept

/-- The other operations do what they do where nothing is shared. -/
theorem storedPaths_others (inv : RepoInv settings repo) (here : repo.attrAt i = some refs) {op : AttrOp}
    (place : op.place = some i) (interns : AttrOp.interns op refs.path.value = none)
    {repo' : Repository} (result : attrStep settings repo op = .ok repo') :
    storedPaths repo' = plainOp (storedPaths repo) i refs.path.value op := by
  have same : (storedPaths repo).set i (some refs.path.value) = storedPaths repo := by
    obtain ⟨inside, content⟩ := List.getElem?_eq_some_iff.mp (storedPaths_at here)
    rw [← content]
    exact List.set_getElem_self inside
  -- the other pointers have nothing to do with the AS-path
  have comms' : ∀ {comms ref repo1}, attrSetComm settings repo refs.comms comms = .ok (ref, repo1) →
      storedPaths (putComms repo1 i refs ref) = storedPaths repo := by
    intro comms ref repo1 set
    have kept : storedPaths repo1 = storedPaths repo := by
      rw [storedPaths, storedPaths, attrSetComm_attrs set]
    rw [putComms, storedPaths_put, kept]
    exact same
  rw [attrStep_place place here] at result
  cases op with
  | create => cases place
  | copy j =>
    rcases attrCopy_spec inv here with ⟨_, _, paths, comms, copied, _⟩ | ⟨_, fault⟩ | ⟨_, fault⟩
    · simp only [attrOp, copied] at result
      cases result
      simp [storedPaths, plainOp]
    · simp only [attrOp, fault, reduceCtorEq] at result
    · simp only [attrOp, fault, reduceCtorEq] at result
  | setPath j path =>
    cases path with
    | some path => cases interns
    | none =>
      obtain ⟨paths, _, set⟩ := attrSetPath_none inv here
      simp only [attrOp, set, Except.map] at result
      cases result
      cases place
      rw [putPath, storedPaths_put]
      rfl
  | pathRemPrivate j => cases interns
  | pathPrepend j asn amount =>
    simp only [AttrOp.interns] at interns
    simp only [attrOp, attrPathPrepend, interns, Except.map] at result
    cases result
    simp only [plainOp, interns, putPath, storedPaths_put]
    exact same
  | commAppend j comm =>
    obtain ⟨⟨ref, repo1⟩, set, rfl⟩ := except_map_eq_ok.mp result
    simp only [attrCommAppend] at set
    split at set
    next comms added => exact comms' set
    next => cases set
  | commRemove j comm =>
    obtain ⟨⟨ref, repo1⟩, set, rfl⟩ := except_map_eq_ok.mp result
    simp only [attrCommRemove] at set
    split at set
    next null =>
      cases set
      simp only [putComms, storedPaths_put]
      exact same
    next comms held => exact comms' set
  | commStrip j =>
    obtain ⟨repo1, stripped, rfl⟩ := except_map_eq_ok.mp result
    have kept : storedPaths repo1 = storedPaths repo := by
      rw [storedPaths, storedPaths, attrCommDestroy_attrs stripped]
    rw [putComms, storedPaths_put, kept]
    exact same
  | destroy j =>
    obtain ⟨paths, comms, destroyed, _⟩ := attrDestroy_spec inv here
    simp only [attrOp, destroyed] at result
    cases result
    rw [storedPaths_put]
    rfl

theorem plainOp_interns {op : AttrOp} (place : op.place = some i) (values : List (Option (Option Path)))
    {old : Option Path} {path : Path} (interns : AttrOp.interns op old = some path) :
    plainOp values i old op = values.set i (some (some path)) := by
  cases op with
  | setPath j path' =>
    cases interns
    rfl
  | pathRemPrivate j =>
    cases interns
    rfl
  | pathPrepend j asn amount =>
    simp only [AttrOp.interns] at interns
    simp only [plainOp, interns]
  | _ => cases interns

/-- A step does what it does where nothing is shared exactly when it mixes no paths up. -/
theorem attrStep_storedPaths (inv : RepoInv settings repo) (op : AttrOp) {repo' : Repository}
    (result : attrStep settings repo op = .ok repo') :
    storedPaths repo' = plainStep (storedPaths repo) op ↔ Unmixed settings repo op := by
  -- An operation that interns no path cannot be handed another path for it.
  have nothing : (∀ i refs, op.place = some i → repo.attrAt i = some refs →
      AttrOp.interns op refs.path.value = none) → Unmixed settings repo op := by
    intro none i refs path place here interns
    rw [none i refs place here] at interns
    cases interns
  cases place : op.place with
  | none =>
    have unmixed := nothing fun i refs place' _ => by
      rw [place] at place'
      cases place'
    simp only [attrStep, place] at result
    cases result
    simp [storedPaths, plainStep, place, unmixed]
  | some i =>
    cases here : repo.attrAt i with
    | none =>
      have unmixed := nothing fun j refs place' here' => by
        cases place.symm.trans place'
        rw [here] at here'
        cases here'
      simp only [attrStep, place, here] at result
      cases result
      simp [plainStep, place, storedPaths_absent here, unmixed]
    | some refs =>
      have plain : plainStep (storedPaths repo) op = plainOp (storedPaths repo) i refs.path.value op := by
        simp only [plainStep, place, storedPaths_at here, Option.join_some]
      rw [plain]
      cases interns : AttrOp.interns op refs.path.value with
      | some path =>
        rw [plainOp_interns place _ interns]
        exact storedPaths_interns inv here place interns result
      | none =>
        have unmixed := nothing fun j refs' place' here' => by
          cases place.symm.trans place'
          cases here.symm.trans here'
          exact interns
        exact iff_of_true (storedPaths_others inv here place interns result) unmixed

end Values

/-- The repositories and the values of attribute sets that share nothing. -/
def Mirrors (settings : HashSettings) (s : Repository × List (Option (Option Path))) : Prop :=
  RepoInv settings s.1 ∧ storedPaths s.1 = s.2

/-- A step of both. -/
def mirrorStep (settings : HashSettings) (s : Repository × List (Option (Option Path))) (op : AttrOp) :
    Except AttrFault (Repository × List (Option (Option Path))) :=
  (attrStep settings s.1 op).map fun repo => (repo, plainStep s.2 op)

theorem mirrorStep_mirrors {s s' : Repository × List (Option (Option Path))} {op : AttrOp}
    (mirrors : Mirrors settings s) (unmixed : Unmixed settings s.1 op)
    (result : mirrorStep settings s op = .ok s') : Mirrors settings s' := by
  obtain ⟨repo', stepped, rfl⟩ := except_map_eq_ok.mp result
  refine ⟨attrStep_inv mirrors.1 stepped, ?_⟩
  rw [(attrStep_storedPaths mirrors.1 op stepped).mpr unmixed, mirrors.2]

/-- In every run that mixes no paths up, each attribute set has the AS-path that was set; and the next
operation does what it does where nothing is shared exactly when it mixes no paths up. -/
theorem interned_paths {repo : Repository} {values : List (Option (Option Path))}
    (reached : Reach (mirrorStep settings) (fun s op => Unmixed settings s.1 op) (.empty, []) (repo, values)) :
    storedPaths repo = values ∧
      ∀ op repo', attrStep settings repo op = .ok repo' →
        (storedPaths repo' = plainStep values op ↔ Unmixed settings repo op) := by
  have mirrors : Mirrors settings (repo, values) := reached.invariant ⟨.empty, rfl⟩ mirrorStep_mirrors
  have same : storedPaths repo = values := mirrors.2
  refine ⟨same, fun op repo' stepped => ?_⟩
  rw [← same]
  exact attrStep_storedPaths mirrors.1 op stepped

/-- A run that keeps the values apart mixes no paths up. -/
theorem unmixed_of_run {ops : List AttrOp} {s : Repository × List (Option (Option Path))} (mirrors : Mirrors settings s)
    (same : ∀ entry ∈ loopStates (mirrorStep settings) s ops,
      okAnd (mirrorStep settings entry.1 entry.2) (fun s' => storedPaths s'.1 = s'.2) = true) :
    ∀ entry ∈ loopStates (mirrorStep settings) s ops, Unmixed settings entry.1.1 entry.2 := by
  induction ops generalizing s with
  | nil => exact List.forall_mem_nil _
  | cons op ops inductionHypothesis =>
    rw [loopStates, List.forall_mem_cons] at same ⊢
    obtain ⟨s', stepped, kept⟩ := okAnd_iff.mp same.1
    obtain ⟨repo', attrStepped, rfl⟩ := except_map_eq_ok.mp stepped
    have kept := of_decide_eq_true kept
    have later := same.2
    rw [stepped] at later ⊢
    refine ⟨(attrStep_storedPaths mirrors.1 op attrStepped).mp ?_, inductionHypothesis ⟨?_, kept⟩ later⟩
    · rw [mirrors.2]
      exact kept
    · exact attrStep_inv mirrors.1 attrStepped

/-- The method `ZEBRA`, where the order of the types of segments does not matter. -/
def zebraHashes : HashSettings := { defaultHashes with pathMethod := .zebra }

theorem twoAsns_short : [(1 : Asn), 2].length ≤ maxPathSequenceLength := by decide

/-- A SET and a SEQUENCE. -/
def setFirst : Path := [⟨.set, [1, 2], twoAsns_short⟩, ⟨.sequence, [3, 4], by decide⟩]

/-- A SEQUENCE and a SET. -/
def setLast : Path := [⟨.sequence, [1, 2], twoAsns_short⟩, ⟨.set, [3, 4], by decide⟩]

/-- A longer SEQUENCE. -/
def threeAsns : Path := [⟨.sequence, [1, 2, 3], by decide⟩]

/-- Two attribute sets get different paths, and the first one is copied. -/
def threeSets : List AttrOp :=
  [.create, .setPath 0 (some setFirst), .create, .setPath 1 (some threeAsns), .copy 0]

theorem interned_paths_three : ∃ repo, storedPaths repo = [some (some setFirst), some (some threeAsns),
    some (some setFirst)] := by
  have ran : okAnd (threeSets.foldlM (mirrorStep zebraHashes) (.empty, [])) (fun s =>
      s.2 = [some (some setFirst), some (some threeAsns), some (some setFirst)]) = true := by decide +kernel
  have same : ∀ entry ∈ loopStates (mirrorStep zebraHashes) (.empty, []) threeSets,
      okAnd (mirrorStep zebraHashes entry.1 entry.2) (fun s => storedPaths s.1 = s.2) = true := by
    decide +kernel
  obtain ⟨⟨repo, values⟩, ran, values_eq⟩ := okAnd_iff.mp ran
  have reached : Reach (mirrorStep zebraHashes) (fun s op => Unmixed zebraHashes s.1 op) (.empty, []) (repo, values) :=
    .of_foldlM (unmixed_of_run ⟨.empty, rfl⟩ same) ran
  exact ⟨repo, (interned_paths reached).1.trans (of_decide_eq_true values_eq)⟩

/-- Paths that differ in the types of their segments are mixed up. -/
theorem setLast_stored :
    ¬ ∀ repo values, Reach (mirrorStep zebraHashes) (fun _ _ => True) (.empty, []) (repo, values) →
      storedPaths repo = values := by
  intro same
  have ran : okAnd ([.create, .setPath 0 (some setFirst), .create, .setPath 1 (some setLast)].foldlM
      (mirrorStep zebraHashes) (.empty, [])) (fun s => storedPaths s.1 ≠ s.2) = true := by decide +kernel
  obtain ⟨⟨repo, values⟩, ran, differ⟩ := okAnd_iff.mp ran
  have stored := same repo values (.of_foldlM (fun _ _ => trivial) ran)
  simp [stored] at differ

end Repository

end Cbgp.Verified
