import Cbgp.Bgp.AsLevelConnected
import Cbgp.Verified.AsLevelLinks
import Mathlib.Algebra.Order.BigOperators.Group.List
import Mathlib.Algebra.Order.Group.Nat
import Mathlib.Data.Fintype.Card
import Mathlib.Logic.Relation

/-! # What the check of connectedness finds

`aslevel_topo_check_connectedness` marks the domains that paths of links lead to from the first one
(`Traversing`), and every domain is pushed once, so that the stack is large enough.  On a topology with
mutual links it tells whether every two domains are joined (`AsConnected`).
-/

namespace Cbgp.Verified

open Relation Cbgp.Lib Cbgp.Bgp

variable {topo : AsTopo}

/-! ## Paths of links -/

/-- There is a link from `a` to `b`. -/
def AsLinked (topo : AsTopo) (a b : Asn) : Prop := ∃ type, linkType topo a b = some type

/-- Every two domains are joined by a path of links. -/
def AsConnected (topo : AsTopo) : Prop :=
  ∀ a b, (topo.domain a).isSome → (topo.domain b).isSome → ReflTransGen (AsLinked topo) a b

theorem AsLinked.symm (links : MutualLinks topo) {a b : Asn} (linked : AsLinked topo a b) :
    AsLinked topo b a := by
  obtain ⟨type, found⟩ := linked
  exact ⟨_, links a b type found⟩

/-- It is enough that paths lead from one domain to the others. -/
theorem connected_of_first (links : MutualLinks topo) (first : Asn)
    (reached : ∀ b, (topo.domain b).isSome → ReflTransGen (AsLinked topo) first b) : AsConnected topo := by
  intro a b hasA hasB
  have symmetric : Std.Symm (AsLinked topo) := ⟨fun _ _ => AsLinked.symm links⟩
  have back : ReflTransGen (AsLinked topo) a first := symm (reached a hasA)
  exact back.trans (reached b hasB)

/-! ## Sets of ASNs -/

section Sets

variable {set set' : AsSet} {a b : Asn}

/-- The ASN is in the set. -/
def InAsSet (set : AsSet) (a : Asn) : Prop := packedTest set a.toNat = some true

instance (set : AsSet) (a : Asn) : Decidable (InAsSet set a) :=
  inferInstanceAs (Decidable (packedTest set a.toNat = some true))

/-- Every ASN has its bit, the last one included. -/
theorem asn_inside (sized : set.length = asSetSize) (a : Asn) : a.toNat / uintBits < set.length := by
  have bound := a.toNat_lt
  rw [sized]
  simp only [asSetSize, uintBits, maxAs]
  omega

theorem length_asSetInit : asSetInit.length = asSetSize := List.length_replicate

theorem not_inAsSet_init (a : Asn) : ¬ InAsSet asSetInit a := by
  have inside := asn_inside length_asSetInit a
  rw [length_asSetInit] at inside
  rw [InAsSet, asSetInit, packedTest_empty inside]
  nofun

theorem isInAsSet_ok (sized : set.length = asSetSize) (a : Asn) :
    ∃ found, isInAsSet set a = .ok found ∧ (found = true ↔ InAsSet set a) := by
  obtain ⟨found, test⟩ := packedTest_of_lt (asn_inside sized a)
  refine ⟨found, ?_, ?_⟩
  · simp only [isInAsSet, test]
  · rw [InAsSet, test, Option.some.injEq]

theorem asSetPut_ok (sized : set.length = asSetSize) (a : Asn) :
    ∃ set', asSetPut set a = .ok set' ∧ set'.length = asSetSize ∧
      ∀ b, InAsSet set' b ↔ b = a ∨ InAsSet set b := by
  obtain ⟨set', put⟩ := packedPut_of_lt (asn_inside sized a)
  refine ⟨set', by rw [asSetPut, put], (length_packedPut put).trans sized, fun b => ?_⟩
  rw [InAsSet, packedTest_put (by decide) put]
  by_cases same : b = a
  · simp [same]
  · have other : b.toNat ≠ a.toNat := fun equal => same (UInt16.toNat_inj.mp equal)
    simp [same, other, InAsSet]

end Sets

/-! ## The traversal -/

/-- The marked domains are reached from the first one, and what is linked to a marked domain is marked
or is behind the index of the domain on the stack. -/
structure Traversing (topo : AsTopo) (first : Asn) (search : ConnSearch) : Prop where
  sized : search.visited.length = asSetSize
  start : InAsSet search.visited first
  sound : ∀ a, InAsSet search.visited a →
    ReflTransGen (AsLinked topo) first a ∧ ∃ d, topo.domain a = some d
  onStack : ∀ ctx ∈ search.stack, InAsSet search.visited ctx.domain
  distinct : (search.stack.map CycleCtx.domain).Nodup
  explored : ∀ a d i link, InAsSet search.visited a → topo.domain a = some d →
    d.neighbors.items[i]? = some link →
      InAsSet search.visited link.neighbor ∨ ∃ ctx ∈ search.stack, ctx.domain = a ∧ ctx.index ≤ i

namespace Traversing

variable {first : Asn} {search : ConnSearch} {ctx : CycleCtx} {rest : List CycleCtx} {d : AsDomain}
  {link : AsLink} {visited : AsSet}

/-- The domain on top is completed. -/
theorem pop (traversing : Traversing topo first search) (stack : search.stack = ctx :: rest)
    (found : topo.domain ctx.domain = some d) (done : d.neighbors.items[ctx.index]? = none) :
    Traversing topo first { search with stack := rest } where
  sized := traversing.sized
  start := traversing.start
  sound := traversing.sound
  onStack other member := traversing.onStack other (stack ▸ List.mem_cons_of_mem _ member)
  distinct := by
    have distinct := traversing.distinct
    rw [stack, List.map_cons, List.nodup_cons] at distinct
    exact distinct.2
  explored a d' i link marked found' next := by
    rcases traversing.explored a d' i link marked found' next with marked' | ⟨other, member, same, before⟩
    · exact .inl marked'
    · rw [stack] at member
      rcases List.mem_cons.mp member with rfl | below
      · -- no link is behind the index
        rw [same, found', Option.some.injEq] at found
        subst found
        have ends := List.getElem?_eq_none_iff.mp done
        have inside := (List.getElem?_eq_some_iff.mp next).1
        omega
      · exact .inr ⟨other, below, same, before⟩

/-- The index of a domain on the stack is stepped over a marked domain. -/
theorem advance (top : List CycleCtx)
    (traversing : Traversing topo first ⟨top ++ ctx :: rest, visited⟩)
    (found : topo.domain ctx.domain = some d) (next : d.neighbors.items[ctx.index]? = some link)
    (marked : InAsSet visited link.neighbor) :
    Traversing topo first ⟨top ++ { ctx with index := ctx.index + 1 } :: rest, visited⟩ where
  sized := traversing.sized
  start := traversing.start
  sound := traversing.sound
  onStack other member := by
    rcases List.mem_append.mp member with above | below
    · exact traversing.onStack other (List.mem_append_left _ above)
    · rcases List.mem_cons.mp below with rfl | deeper
      · exact traversing.onStack ctx (by simp)
      · exact traversing.onStack other (by simp [deeper])
  distinct := by
    have distinct := traversing.distinct
    simp only [List.map_append, List.map_cons] at distinct ⊢
    exact distinct
  explored a d' i link' marked' found' next' := by
    rcases traversing.explored a d' i link' marked' found' next' with other | ⟨other, member, same, before⟩
    · exact .inl other
    · rcases List.mem_append.mp member with above | below
      · exact .inr ⟨other, List.mem_append_left _ above, same, before⟩
      · rcases List.mem_cons.mp below with rfl | deeper
        · by_cases here : i = other.index
          · rw [same, found', Option.some.injEq] at found
            subst found
            rw [← here, next', Option.some.injEq] at next
            exact .inl (next ▸ marked)
          · exact .inr ⟨{ other with index := other.index + 1 }, by simp, same, by
              change other.index + 1 ≤ i
              omega⟩
        · exact .inr ⟨other, by simp [deeper], same, before⟩

/-- A domain that a link leads to is marked and pushed. -/
theorem push (traversing : Traversing topo first search) {a b : Asn} (marked : InAsSet search.visited a)
    (linked : AsLinked topo a b) (exists' : ∃ d, topo.domain b = some d)
    (unmarked : ¬ InAsSet search.visited b) (sized : visited.length = asSetSize)
    (put : ∀ c, InAsSet visited c ↔ c = b ∨ InAsSet search.visited c) :
    Traversing topo first ⟨⟨b, 0⟩ :: search.stack, visited⟩ where
  sized := sized
  start := (put first).mpr (.inr traversing.start)
  sound c marked' := by
    rcases (put c).mp marked' with rfl | old
    · exact ⟨(traversing.sound a marked).1.tail linked, exists'⟩
    · exact traversing.sound c old
  onStack other member := by
    rcases List.mem_cons.mp member with rfl | below
    · exact (put b).mpr (.inl rfl)
    · exact (put _).mpr (.inr (traversing.onStack other below))
  distinct := by
    rw [List.map_cons, List.nodup_cons]
    refine ⟨?_, traversing.distinct⟩
    rintro member
    obtain ⟨other, below, same⟩ := List.mem_map.mp member
    have already := traversing.onStack other below
    rw [same] at already
    exact unmarked already
  explored c d' i link' marked' found' next' := by
    rcases (put c).mp marked' with rfl | old
    · exact .inr ⟨⟨c, 0⟩, List.mem_cons_self, rfl, Nat.zero_le i⟩
    · rcases traversing.explored c d' i link' old found' next' with reached | ⟨other, member, same, before⟩
      · exact .inl ((put _).mpr (.inr reached))
      · exact .inr ⟨other, List.mem_cons_of_mem _ member, same, before⟩

/-- Every domain is pushed once. -/
theorem stack_le (traversing : Traversing topo first search) : search.stack.length ≤ maxConnStack := by
  have injective : Function.Injective UInt16.toFin := fun _ _ => UInt16.toFin_inj.mp
  have bound := (traversing.distinct.map injective).length_le_card
  rw [List.length_map, List.length_map, Fintype.card_fin] at bound
  exact bound

end Traversing

/-! ## Every turn lowers a number -/

theorem sum_map_add_le {α : Type} {f g : α → ℕ} {l : List α} (below : ∀ x ∈ l, g x ≤ f x) {x : α}
    (member : x ∈ l) {k : ℕ} (less : g x + k ≤ f x) : (l.map g).sum + k ≤ (l.map f).sum := by
  induction l with
  | nil => cases member
  | cons y l inductionHypothesis =>
    rw [List.map_cons, List.map_cons, List.sum_cons, List.sum_cons]
    rcases List.mem_cons.mp member with rfl | inside
    · have rest : (l.map g).sum ≤ (l.map f).sum :=
        List.sum_le_sum fun z member' => below z (List.mem_cons_of_mem _ member')
      omega
    · have rest := inductionHypothesis (fun z member' => below z (List.mem_cons_of_mem _ member')) inside
      have head := below y List.mem_cons_self
      omega

/-- The turns that a domain will take after it was pushed, and one for the turn that pushes it. -/
def turnsOf (set : AsSet) (d : AsDomain) : ℕ :=
  if InAsSet set d.asn then 0 else d.neighbors.items.length + 2

/-- The turns that a domain on the stack will take. -/
def turnsLeft (topo : AsTopo) (ctx : CycleCtx) : ℕ :=
  match topo.domain ctx.domain with
  | none => 0
  | some d => d.neighbors.items.length - ctx.index + 1

/-- A bound on the turns that are left. -/
def connRank (topo : AsTopo) (search : ConnSearch) : ℕ :=
  (topo.domains.items.map (turnsOf search.visited)).sum + (search.stack.map (turnsLeft topo)).sum

section Turns

variable {first : Asn} {search : ConnSearch} {ctx : CycleCtx} {rest : List CycleCtx} {d : AsDomain}
  {link : AsLink}

theorem turnsLeft_eq (ctx : CycleCtx) (found : topo.domain ctx.domain = some d) :
    turnsLeft topo ctx = d.neighbors.items.length - ctx.index + 1 := by
  rw [turnsLeft, found]

theorem connTurn_pop (stack : search.stack = ctx :: rest) (found : topo.domain ctx.domain = some d)
    (done : d.neighbors.items[ctx.index]? = none) :
    connTurn topo search = .inr { search with stack := rest } := by
  simp only [connTurn, stack, found, done]

/-- A link to a neighbor is followed, or skipped when the neighbor is marked. -/
theorem connTurn_link (stack : search.stack = ctx :: rest) (found : topo.domain ctx.domain = some d)
    (next : d.neighbors.items[ctx.index]? = some link) {search' : ConnSearch}
    (reached : reachNeighbor { search with stack := { ctx with index := ctx.index + 1 } :: rest }
      link.neighbor = .ok search') :
    connTurn topo search = .inr search' := by
  simp only [connTurn, stack, found, next, reached]

/-- One turn keeps the invariant and lowers the number, until the stack is empty. -/
theorem Traversing.turn (links : MutualLinks topo) (traversing : Traversing topo first search) :
    (∃ search', connTurn topo search = .inr search' ∧ Traversing topo first search' ∧
      connRank topo search' < connRank topo search) ∨
    (search.stack = [] ∧ connTurn topo search = .inl (.ok search)) := by
  obtain ⟨stack, visited⟩ := search
  cases stack with
  | nil => exact .inr ⟨rfl, rfl⟩
  | cons ctx rest =>
    left
    have markedTop : InAsSet visited ctx.domain := traversing.onStack ctx List.mem_cons_self
    obtain ⟨_, d, found⟩ := traversing.sound ctx.domain markedTop
    -- The rank counts, for each domain on the stack or still unmarked, the turns it can take.
    cases next : d.neighbors.items[ctx.index]? with
    | none =>
      refine ⟨_, connTurn_pop rfl found next, traversing.pop rfl found next, ?_⟩
      simp only [connRank, List.map_cons, List.sum_cons, turnsLeft_eq ctx found]
      omega
    | some link =>
      have inside := (List.getElem?_eq_some_iff.mp next).1
      have member := List.mem_of_getElem? next
      have linked : AsLinked topo ctx.domain link.neighbor := ⟨_, linkType_of_mem found member⟩
      obtain ⟨isIn, test, marked⟩ := isInAsSet_ok traversing.sized link.neighbor
      have stepped : turnsLeft topo { ctx with index := ctx.index + 1 } + 1 = turnsLeft topo ctx := by
        rw [turnsLeft_eq ctx found, turnsLeft_eq ⟨ctx.domain, ctx.index + 1⟩ found]
        change d.neighbors.items.length - (ctx.index + 1) + 1 + 1 = _
        omega
      cases isIn with
      | true =>
        refine ⟨_, connTurn_link rfl found next ?_, traversing.advance [] found next
          (marked.mp rfl), ?_⟩
        · simp only [reachNeighbor, test, bind, Except.bind, if_true]
          rfl
        · simp only [connRank, List.nil_append, List.map_cons, List.sum_cons]
          omega
      | false =>
        have unmarked : ¬ InAsSet visited link.neighbor := fun already => nomatch marked.mpr already
        obtain ⟨visited', put, sized', marks⟩ := asSetPut_ok traversing.sized link.neighbor
        obtain ⟨n, found', _⟩ := links.neighbor found member
        have pushed := traversing.push markedTop linked ⟨n, found'⟩ unmarked sized' marks
        have room := pushed.stack_le
        refine ⟨_, connTurn_link rfl found next ?_, pushed.advance [⟨link.neighbor, 0⟩] found
          next ((marks _).mpr (.inl rfl)), ?_⟩
        · simp only [reachNeighbor, test, put, bind, Except.bind, Bool.false_eq_true, if_false]
          exact if_pos room
        · obtain ⟨inTopo, sameAsn⟩ := domain_eq_some.mp found'
          -- The domain pushed is marked: its turns move from the unmarked part of the rank to the stack.
          have fewer : (topo.domains.items.map (turnsOf visited')).sum + (n.neighbors.items.length + 2)
              ≤ (topo.domains.items.map (turnsOf visited)).sum := by
            refine sum_map_add_le ?_ inTopo ?_
            · intro other _
              simp only [turnsOf, marks]
              by_cases old : InAsSet visited other.asn
              · simp [old]
              · split <;> simp
            · simp only [turnsOf, sameAsn, marks, true_or, if_true, if_neg unmarked]
              omega
          simp only [connRank, List.cons_append, List.nil_append, List.map_cons, List.sum_cons,
            turnsLeft_eq ⟨link.neighbor, 0⟩ found']
          omega

end Turns

/-! ## The check -/

theorem checkEach_reached {visited : AsSet} (sized : visited.length = asSetSize) (l : List AsDomain) :
    ∃ error, checkEach (checkReached visited) l = .ok error ∧
      (error = .success ∨ error = .disconnected) ∧
      (error = .success ↔ ∀ d ∈ l, InAsSet visited d.asn) := by
  induction l with
  | nil => exact ⟨.success, rfl, .inl rfl, by simp⟩
  | cons d l inductionHypothesis =>
    obtain ⟨found, test, marked⟩ := isInAsSet_ok sized d.asn
    cases found with
    | true =>
      obtain ⟨error, checked, either, all⟩ := inductionHypothesis
      refine ⟨error, ?_, either, ?_⟩
      · simp only [checkEach, checkReached, test, Except.map, if_true, checked]
      · simp [all, marked.mp rfl]
    | false =>
      refine ⟨.disconnected, ?_, .inr rfl, fun same => ?_, fun all => ?_⟩
      · simp [checkEach, checkReached, test, Except.map]
      · cases same
      · cases marked.mpr (all d List.mem_cons_self)

/-- The traversal ends with the domains marked that paths of links lead to. -/
theorem connSearch_ends (links : MutualLinks topo) {first : Asn} {visited : AsSet}
    (start : Traversing topo first ⟨[⟨first, 0⟩], visited⟩) :
    ∃ fuel search, looping (connTurn topo) fuel ⟨[⟨first, 0⟩], visited⟩ = some (.ok search) ∧
      search.visited.length = asSetSize ∧
      ∀ a, InAsSet search.visited a ↔ ReflTransGen (AsLinked topo) first a := by
  have lowers : ∀ s next, Traversing topo first s → connTurn topo s = .inr next →
      Traversing topo first next ∧ connRank topo next < connRank topo s := by
    intro s next traversing turned
    rcases traversing.turn links with ⟨next', turned', kept⟩ | ⟨_, ended⟩
    · rw [turned, Sum.inr.injEq] at turned'
      exact turned' ▸ kept
    · rw [turned] at ended
      cases ended
  obtain ⟨fuel, result, ended⟩ := looping_some (Traversing topo first) (connRank topo) lowers start
  have post : ∃ search, result = .ok search ∧ search.stack = [] ∧ Traversing topo first search := by
    apply looping_result (Traversing topo first)
      (fun result => ∃ search, result = .ok search ∧ search.stack = [] ∧ Traversing topo first search)
      (fun s next traversing turned => (lowers s next traversing turned).1) _ start ended
    intro s result traversing stops
    rcases traversing.turn links with ⟨next, turned, _⟩ | ⟨empty, ended⟩
    · rw [turned] at stops
      cases stops
    · rw [stops, Sum.inl.injEq] at ended
      exact ⟨s, ended, empty, traversing⟩
  obtain ⟨search, rfl, empty, traversing⟩ := post
  refine ⟨fuel, search, ended, traversing.sized, fun a => ⟨fun marked => (traversing.sound a marked).1, ?_⟩⟩
  intro path
  induction path with
  | refl => exact traversing.start
  | tail _ linked marked =>
    -- nothing is on the stack, so that every link of a marked domain was followed
    obtain ⟨type, typed⟩ := linked
    obtain ⟨d, found, member⟩ := linkType_eq_some.mp typed
    obtain ⟨i, inside, next⟩ := List.getElem_of_mem member
    rcases traversing.explored _ d i _ marked found (List.getElem?_eq_some_iff.mpr ⟨inside, next⟩) with
      marked' | ⟨ctx, onStack, _⟩
    · exact marked'
    · rw [empty] at onStack
      cases onStack

theorem aslevelTopoCheckConnectedness_mono {fuel fuel' : ℕ} {result : Except AsLevelFault AsLevelError}
    (ended : aslevelTopoCheckConnectedness topo fuel = some result) (more : fuel ≤ fuel') :
    aslevelTopoCheckConnectedness topo fuel' = some result := by
  unfold aslevelTopoCheckConnectedness at ended ⊢
  split at ended
  · exact ended
  · split at ended
    · exact ended
    · obtain ⟨search, looped, same⟩ := Option.map_eq_some_iff.mp ended
      rw [looping_mono looped more, Option.map_some, same]

/-- On a topology that passes the consistency check the check of connectedness returns, whatever the
ASNs, and it succeeds exactly when every two domains are joined by a path of links. -/
theorem aslevelTopoCheckConnectedness_exact
    (consistent : aslevelTopoCheckConsistency topo = .ok .success) :
    ∃ enough error, (∀ fuel, enough ≤ fuel → aslevelTopoCheckConnectedness topo fuel = some (.ok error)) ∧
      (error = .success ∨ error = .disconnected) ∧ (error = .success ↔ AsConnected topo) := by
  have links := aslevelTopoCheckConsistency_iff.mp consistent
  cases items : topo.domains.items with
  -- A topology without domains is connected: there are no two to join.
  | nil =>
    refine ⟨0, .success, fun fuel _ => ?_, .inl rfl, fun _ a b hasA _ => ?_, fun _ => rfl⟩
    · rw [aslevelTopoCheckConnectedness, items]
    · obtain ⟨d, found⟩ := Option.isSome_iff_exists.mp hasA
      have inside := (domain_eq_some.mp found).1
      rw [items] at inside
      cases inside
  | cons d rest =>
    have found : topo.domain d.asn = some d := domain_eq_some.mpr ⟨items ▸ List.mem_cons_self, rfl⟩
    obtain ⟨visited, put, sized, marks⟩ := asSetPut_ok length_asSetInit d.asn
    have single : ∀ a, InAsSet visited a ↔ a = d.asn := by
      intro a
      rw [marks a, or_iff_left (not_inAsSet_init a)]
    -- The traversal starts at the first domain, which reaches all others if they are connected.
    have start : Traversing topo d.asn ⟨[⟨d.asn, 0⟩], visited⟩ := by
      refine ⟨sized, (single _).mpr rfl, fun a marked => ?_, fun ctx member => ?_,
        List.nodup_singleton _, fun a d' i link marked _ _ => ?_⟩
      · rw [(single a).mp marked]
        exact ⟨.refl, d, found⟩
      · rw [List.mem_singleton.mp member]
        exact (single _).mpr rfl
      · exact .inr ⟨_, List.mem_singleton_self _, ((single a).mp marked).symm, Nat.zero_le i⟩
    obtain ⟨enough, search, ended, sized', marked⟩ := connSearch_ends links start
    obtain ⟨error, checked, either, all⟩ := checkEach_reached sized' topo.domains.items
    refine ⟨enough, error, fun fuel more => ?_, either, all.trans ⟨fun reached => ?_, fun joined d' member => ?_⟩⟩
    · apply aslevelTopoCheckConnectedness_mono _ more
      rw [aslevelTopoCheckConnectedness, items]
      simp only [put, ended, Option.map_some, bind, Except.bind]
      rw [← items, checked]
    · apply connected_of_first links d.asn
      intro b hasB
      obtain ⟨n, found'⟩ := Option.isSome_iff_exists.mp hasB
      obtain ⟨inside, same⟩ := domain_eq_some.mp found'
      exact (marked b).mp (same ▸ reached n inside)
    · apply (marked d'.asn).mpr
      apply joined
      · rw [found]
        rfl
      · rw [domain_eq_some.mpr ⟨member, rfl⟩]
        rfl

/-- The first and the last ASN, as peers. -/
def boundaryPeers : AsTopo where
  domains := {
    items := [
      ⟨0, ⟨[⟨65535, .peer⟩], by decide⟩, by decide⟩,
      ⟨65535, ⟨[⟨0, .peer⟩], by decide⟩, by decide⟩]
    sorted := by decide }
  cachedDomains := (none, none)

theorem boundaryPeers_connected :
    ∃ enough, ∀ fuel, enough ≤ fuel →
      aslevelTopoCheckConnectedness boundaryPeers fuel = some (.ok .success) := by
  have joined : AsConnected boundaryPeers := by
    apply connected_of_first (aslevelTopoCheckConsistency_iff.mp (by rfl)) 0
    intro b hasB
    obtain ⟨d, found⟩ := Option.isSome_iff_exists.mp hasB
    obtain ⟨inside, rfl⟩ := domain_eq_some.mp found
    simp only [boundaryPeers, List.mem_cons, List.not_mem_nil, or_false] at inside
    rcases inside with rfl | rfl
    · exact .refl
    · exact .single ⟨.peer, by rfl⟩
  have consistent : aslevelTopoCheckConsistency boundaryPeers = .ok .success := by rfl
  obtain ⟨enough, error, ended, _, exact'⟩ := aslevelTopoCheckConnectedness_exact consistent
  obtain rfl := exact'.mpr joined
  exact ⟨enough, ended⟩

end Cbgp.Verified
