import Cbgp.Bgp.AsLevelCycle
import Cbgp.Lib.Descent
import Cbgp.Verified.AsLevelLinks

/-! # What the search for cycles finds

`aslevel_topo_check_cycle` descends from the domains without providers to their customers, in the order of the
neighbor arrays, and does not enter the cycles it has found (`Descends.runs`).  It finds the cycles below these
domains (`CycleBelowTop`) and no other, and its stack of 100 domains holds when no chain of the descent is longer
(`ChainsFit`).
-/

namespace Cbgp.Verified

open Relation Cbgp.Lib Cbgp.Bgp

variable {topo : AsTopo}

/-! ## Customers -/

/-- `b` is a customer of `a`. -/
def Customer (topo : AsTopo) (a b : Asn) : Prop :=
  linkType topo a b = some .customer

def Cyclic (topo : AsTopo) : Prop :=
  ∃ a, TransGen (Customer topo) a a

/-- A domain without providers. -/
def TopDomain (topo : AsTopo) (a : Asn) : Prop :=
  ∃ d, topo.domain a = some d ∧ aslevelAsNumProviders d = 0

/-- A cycle that is reached from a domain without providers. -/
def CycleBelowTop (topo : AsTopo) : Prop :=
  ∃ top a, TopDomain topo top ∧ ReflTransGen (Customer topo) top a ∧ TransGen (Customer topo) a a

/-- The customers among the ends of some links, in their order. -/
def customersOf (links : List AsLink) : List Asn :=
  (links.filter fun link => link.peerType = .customer).map AsLink.neighbor

/-- The customers of a domain, in the order of its neighbors. -/
def customers (topo : AsTopo) (a : Asn) : List Asn :=
  ((topo.domain a).map fun d => customersOf d.neighbors.items).getD []

/-- The descent from the domains without providers stands on no chain of more domains than the stack holds. -/
def ChainsFit (topo : AsTopo) : Prop :=
  ∃ found deepest, Descends (customers topo) [] (aslevelTopoGetTop topo) ∅ found deepest ∧ deepest ≤ maxQueueSize

theorem mem_customersOf {links : List AsLink} {b : Asn} :
    b ∈ customersOf links ↔ ∃ link ∈ links, link.peerType = .customer ∧ link.neighbor = b := by
  simp only [customersOf, List.mem_map, List.mem_filter, decide_eq_true_eq, and_assoc]

theorem mem_customers {a b : Asn} : b ∈ customers topo a ↔ Customer topo a b := by
  rw [Customer, linkType_eq_some]
  cases found : topo.domain a with
  | none => simp [customers, found]
  | some d =>
    simp only [customers, found, Option.map_some, Option.getD_some, mem_customersOf, Option.some.injEq,
      exists_eq_left']
    constructor
    · rintro ⟨⟨_, _⟩, inside, rfl, rfl⟩
      exact inside
    · exact fun inside => ⟨_, inside, rfl, rfl⟩

theorem mem_aslevelTopoGetTop {a : Asn} : a ∈ aslevelTopoGetTop topo ↔ TopDomain topo a := by
  simp only [aslevelTopoGetTop, List.mem_map, List.mem_filter, decide_eq_true_eq, TopDomain, domain_eq_some]
  constructor
  · rintro ⟨d, ⟨inside, none⟩, same⟩
    exact ⟨d, ⟨inside, same⟩, none⟩
  · rintro ⟨d, ⟨inside, same⟩, none⟩
    exact ⟨d, ⟨inside, none⟩, same⟩

/-- Where every domain has a provider there is a cycle. -/
theorem cyclic_of_no_top (links : MutualLinks topo) (nonempty : topo.domains.items ≠ [])
    (noTop : ∀ a, ¬ TopDomain topo a) : Cyclic topo := by
  have : Finite Asn := Finite.of_injective UInt16.toFin fun _ _ => UInt16.toFin_inj.mp
  obtain ⟨d, rest, items⟩ := List.exists_cons_of_ne_nil nonempty
  apply cyclic_of_predecessors (p := fun a => ∃ d, topo.domain a = some d)
  · exact ⟨d.asn, d, domain_eq_some.mpr ⟨items ▸ List.mem_cons_self, rfl⟩⟩
  · rintro a ⟨d, found⟩
    obtain ⟨b, provider⟩ := (aslevelAsNumProviders_pos found).mp fun none => noTop a ⟨d, found, none⟩
    have customer : Customer topo b a := links a b _ provider
    obtain ⟨n, found', _⟩ := linkType_eq_some.mp customer
    exact ⟨b, ⟨n, found'⟩, customer⟩

/-! ## The turns -/

section Turns

variable {search : CycleSearch} {ctx : CycleCtx} {rest : List CycleCtx} {d : AsDomain} {link : AsLink}

/-- The domain on top of the stack is completed. -/
theorem cycleTurn_pop (stack : search.stack = ctx :: rest) (found : topo.domain ctx.domain = some d)
    (done : d.neighbors.items[ctx.index]? = none) :
    cycleTurn topo search =
      .inr { search with stack := rest, visited := asSet search.visited ctx.domain false } := by
  simp only [cycleTurn, stack, found, done]

/-- The next link does not lead down. -/
theorem cycleTurn_skip (stack : search.stack = ctx :: rest) (found : topo.domain ctx.domain = some d)
    (next : d.neighbors.items[ctx.index]? = some link)
    (skipped : ¬ (search.inCycle link.neighbor = false ∧ link.peerType = .customer)) :
    cycleTurn topo search = .inr { search with stack := { ctx with index := ctx.index + 1 } :: rest } := by
  simp only [cycleTurn, stack, found, next, if_neg skipped]

/-- The cycle that a domain on the stack closes. -/
theorem cycleFrom_split {b : Asn} {stack : List CycleCtx} {behind before : List Asn}
    (split : stack.map CycleCtx.domain = behind ++ b :: before) (once : b ∉ before) :
    cycleFrom b stack = b :: behind.reverse := by
  rw [cycleFrom, List.map_reverse, split, List.reverse_append, List.reverse_cons, List.append_assoc,
    List.dropWhile_append_of_pos]
  · simp
  · intro a member
    have other : a ≠ b := fun same => once (same ▸ List.mem_reverse.mp member)
    simpa using other

/-- The next customer is on the stack. -/
theorem cycleTurn_cycle (stack : search.stack = ctx :: rest) (found : topo.domain ctx.domain = some d)
    (next : d.neighbors.items[ctx.index]? = some link)
    (down : search.inCycle link.neighbor = false ∧ link.peerType = .customer)
    (marked : search.visited link.neighbor = true) (cycle : cycleFrom link.neighbor search.stack ≠ []) :
    cycleTurn topo search =
      .inr { search with
        stack := { ctx with index := ctx.index + 1 } :: rest
        inCycle := (cycleFrom link.neighbor search.stack).foldl (fun set asn => asSet set asn true) search.inCycle
        numCycles := search.numCycles + 1 } := by
  rw [stack] at cycle ⊢
  simp only [cycleTurn, stack, found, next, if_pos down, marked, if_true, if_neg cycle]

/-- The next customer is not on the stack. -/
theorem cycleTurn_down (stack : search.stack = ctx :: rest) (found : topo.domain ctx.domain = some d)
    (next : d.neighbors.items[ctx.index]? = some link)
    (down : search.inCycle link.neighbor = false ∧ link.peerType = .customer)
    (unmarked : search.visited link.neighbor = false) :
    cycleTurn topo search =
      if search.stack.length = maxQueueSize then .inl (.error .stackFull)
      else
        .inr { search with
          stack := ⟨link.neighbor, 0⟩ :: { ctx with index := ctx.index + 1 } :: rest
          visited := asSet search.visited link.neighbor true } := by
  simp only [cycleTurn, stack, found, next, if_pos down, unmarked, Bool.false_eq_true, if_false, if_true]

end Turns

/-! ## The search follows the descent -/

theorem asSet_foldl {set : Asn → Bool} {asns : List Asn} {a : Asn} :
    asns.foldl (fun set asn => asSet set asn true) set a = true ↔ set a = true ∨ a ∈ asns := by
  induction asns generalizing set with
  | nil => simp
  | cons b asns inductionHypothesis =>
    rw [List.foldl_cons, inductionHypothesis, List.mem_cons]
    by_cases same : a = b
    · simp [asSet, same]
    · simp [asSet, same]

/-- The domains on the stack are distinct and marked, and those on cycles are the ones that were found. -/
structure AtDescent (search : CycleSearch) (found : Set Asn) : Prop where
  distinct : (search.stack.map CycleCtx.domain).Nodup
  marked : ∀ a, search.visited a = true ↔ a ∈ search.stack.map CycleCtx.domain
  known : ∀ a, search.inCycle a = true ↔ a ∈ found
  counted : search.numCycles = 0 ↔ found = ∅

namespace AtDescent

variable {search : CycleSearch} {found : Set Asn} {ctx : CycleCtx} {rest : List CycleCtx}

theorem start (standing : AtDescent search found) (top : Asn) : AtDescent (cycleStart search top) found where
  distinct := List.nodup_singleton _
  marked a := by simp [cycleStart, asSet]
  known := standing.known
  counted := standing.counted

theorem pop (standing : AtDescent search found) (stack : search.stack = ctx :: rest) :
    AtDescent { search with stack := rest, visited := asSet search.visited ctx.domain false } found where
  distinct := by
    have distinct := standing.distinct
    rw [stack, List.map_cons, List.nodup_cons] at distinct
    exact distinct.2
  marked a := by
    have marked := standing.marked a
    have distinct := standing.distinct
    rw [stack, List.map_cons, List.nodup_cons] at distinct
    rw [stack, List.map_cons, List.mem_cons] at marked
    by_cases same : a = ctx.domain
    · simp [asSet, same, distinct.1]
    · simp [asSet, same, marked]
  known := standing.known
  counted := standing.counted

/-- Another link of the domain on top of the stack is next. -/
theorem move (standing : AtDescent search found) (stack : search.stack = ctx :: rest) (index : ℕ) :
    AtDescent { search with stack := { ctx with index := index } :: rest } found where
  distinct := by
    have distinct := standing.distinct
    rwa [stack] at distinct
  marked a := by
    have marked := standing.marked a
    rwa [stack] at marked
  known := standing.known
  counted := standing.counted

theorem push (standing : AtDescent search found) (stack : search.stack = ctx :: rest) {b : Asn}
    (absent : b ∉ search.stack.map CycleCtx.domain) :
    AtDescent { search with
      stack := ⟨b, 0⟩ :: { ctx with index := ctx.index + 1 } :: rest
      visited := asSet search.visited b true } found where
  distinct := by
    have distinct := standing.distinct
    rw [stack] at absent distinct
    exact List.nodup_cons.mpr ⟨absent, distinct⟩
  marked a := by
    have marked := standing.marked a
    rw [stack] at marked
    by_cases same : a = b
    · simp [asSet, same]
    · simpa [asSet, same] using marked
  known := standing.known
  counted := standing.counted

/-- A domain on the stack closes a cycle. -/
theorem close (standing : AtDescent search found) (stack : search.stack = ctx :: rest) {b : Asn}
    {behind before : List Asn} (split : search.stack.map CycleCtx.domain = behind ++ b :: before) :
    cycleFrom b search.stack = b :: behind.reverse ∧
      AtDescent { search with
        stack := { ctx with index := ctx.index + 1 } :: rest
        inCycle := (cycleFrom b search.stack).foldl (fun set asn => asSet set asn true) search.inCycle
        numCycles := search.numCycles + 1 } (found ∪ {c | c ∈ b :: behind}) := by
  have distinct := standing.distinct
  rw [split, List.nodup_append, List.nodup_cons] at distinct
  have cycle := cycleFrom_split split distinct.2.1.1
  have moved := standing.move stack (ctx.index + 1)
  refine ⟨cycle, moved.distinct, moved.marked, fun a => ?_, ?_⟩
  · dsimp only
    rw [asSet_foldl, standing.known, cycle, Set.mem_union, Set.mem_ofPred_eq, List.mem_cons, List.mem_cons,
      List.mem_reverse]
  · refine ⟨fun zero => absurd zero (Nat.succ_ne_zero _), fun empty => ?_⟩
    have member : b ∈ found ∪ {c | c ∈ b :: behind} := Or.inr List.mem_cons_self
    rw [empty] at member
    exact member.elim

end AtDescent

/-- The search comes back to the stack below the domain with these domains on cycles, or its stack gets full when
a chain is too long. -/
def ReturnsTo (topo : AsTopo) (search : CycleSearch) (rest : List CycleCtx) (found : Set Asn) (deepest : ℕ) : Prop :=
  (deepest ≤ maxQueueSize → ∃ search', Turns (cycleTurn topo) search search' ∧ search'.stack = rest ∧
    AtDescent search' found) ∧
  (maxQueueSize < deepest → ∃ search', Turns (cycleTurn topo) search search' ∧
    cycleTurn topo search' = .inl (.error .stackFull))

theorem ReturnsTo.turns {search mid : CycleSearch} {rest : List CycleCtx} {found : Set Asn} {deepest : ℕ}
    (turns : Turns (cycleTurn topo) search mid) (runs : ReturnsTo topo mid rest found deepest) :
    ReturnsTo topo search rest found deepest := by
  refine ⟨fun fits => ?_, fun long => ?_⟩
  · obtain ⟨search', turns', after⟩ := runs.1 fits
    exact ⟨search', turns.trans turns', after⟩
  · obtain ⟨search', turns', after⟩ := runs.2 long
    exact ⟨search', turns.trans turns', after⟩

/-- The links before the next customer are skipped. -/
theorem skip_others {search : CycleSearch} {ctx : CycleCtx} {rest : List CycleCtx} {d : AsDomain}
    (stack : search.stack = ctx :: rest) (domain : topo.domain ctx.domain = some d) :
    ∃ index, Turns (cycleTurn topo) search { search with stack := ⟨ctx.domain, index⟩ :: rest } ∧
      customersOf (d.neighbors.items.drop index) = customersOf (d.neighbors.items.drop ctx.index) ∧
      ∀ link, d.neighbors.items[index]? = some link → link.peerType = .customer := by
  induction left : d.neighbors.items.length - ctx.index generalizing search ctx with
  | zero =>
    refine ⟨ctx.index, by rw [← stack]; exact .refl, rfl, fun link next => ?_⟩
    rw [List.getElem?_eq_none (by omega)] at next
    cases next
  | succ left inductionHypothesis =>
    have inside : ctx.index < d.neighbors.items.length := by omega
    have next := List.getElem?_eq_getElem inside
    have dropped := List.drop_eq_getElem_cons inside
    generalize d.neighbors.items[ctx.index] = link at next dropped
    by_cases customer : link.peerType = .customer
    · refine ⟨ctx.index, by rw [← stack]; exact .refl, rfl, fun link' next' => ?_⟩
      rw [next, Option.some.injEq] at next'
      exact next' ▸ customer
    · have skipped := cycleTurn_skip stack domain next fun down => customer down.2
      have moved : { search with stack := { ctx with index := ctx.index + 1 } :: rest }.stack =
          { ctx with index := ctx.index + 1 } :: rest := rfl
      obtain ⟨index, turns, same, leads⟩ := inductionHypothesis moved domain (by dsimp only; omega)
      refine ⟨index, .head skipped turns, ?_, leads⟩
      rw [same, dropped, customersOf, customersOf, List.filter_cons_of_neg (by simpa using customer)]

/-- The next link that leads to a customer, if there is one. -/
theorem next_customer {search : CycleSearch} {ctx : CycleCtx} {rest : List CycleCtx} {d : AsDomain}
    (stack : search.stack = ctx :: rest) (domain : topo.domain ctx.domain = some d) :
    ∃ index, Turns (cycleTurn topo) search { search with stack := ⟨ctx.domain, index⟩ :: rest } ∧
      (customersOf (d.neighbors.items.drop ctx.index) = [] → d.neighbors.items[index]? = none) ∧
      ∀ b bs, customersOf (d.neighbors.items.drop ctx.index) = b :: bs →
        d.neighbors.items[index]? = some ⟨b, .customer⟩ ∧ customersOf (d.neighbors.items.drop (index + 1)) = bs := by
  obtain ⟨index, turns, same, leads⟩ := skip_others stack domain
  refine ⟨index, turns, ?_⟩
  rw [← same]
  by_cases inside : index < d.neighbors.items.length
  · have next := List.getElem?_eq_getElem inside
    rw [List.drop_eq_getElem_cons inside]
    generalize d.neighbors.items[index] = link at next
    have customer := leads link next
    rw [customersOf, List.filter_cons_of_pos (by simpa using customer), List.map_cons]
    refine ⟨nofun, fun b bs split => ?_⟩
    rw [List.cons.injEq] at split
    refine ⟨?_, split.2⟩
    rw [next, ← split.1, ← customer]
  · rw [List.drop_of_length_le (by omega)]
    exact ⟨fun _ => List.getElem?_eq_none (by omega), nofun⟩

/-- The search follows the descent as far as the stack holds. -/
theorem runs_of_descends (links : MutualLinks topo) {chain bs : List Asn} {found found' : Set Asn} {deepest : ℕ}
    (descends : Descends (customers topo) chain bs found found' deepest) {search : CycleSearch} {ctx : CycleCtx}
    {rest : List CycleCtx} {d : AsDomain} (standing : AtDescent search found) (stack : search.stack = ctx :: rest)
    (isChain : search.stack.map CycleCtx.domain = chain) (room : chain.length ≤ maxQueueSize)
    (domain : topo.domain ctx.domain = some d) (left : customersOf (d.neighbors.items.drop ctx.index) = bs) :
    ReturnsTo topo search rest found' deepest := by
  induction descends generalizing search ctx rest d with
  | done =>
    -- no customer is left: the domain leaves the stack
    obtain ⟨index, turns, last, _⟩ := next_customer stack domain
    have moved := standing.move stack index
    refine .turns turns ⟨fun _ => ?_, fun long => absurd long (Nat.not_lt.mpr room)⟩
    exact ⟨_, .single (cycleTurn_pop rfl domain (last left)), rfl, moved.pop rfl⟩
  | @passes chain bs b found found' deepest known _ inductionHypothesis =>
    -- the flag of a cycle found before keeps the search away
    obtain ⟨index, turns, _, leads⟩ := next_customer stack domain
    obtain ⟨next, left'⟩ := leads b bs left
    have moved := standing.move stack index
    have marked := (standing.known b).mpr known
    refine .turns (turns.tail (cycleTurn_skip rfl domain next fun down => ?_))
      (inductionHypothesis (moved.move rfl (index + 1)) rfl ?_ room domain left')
    · rw [marked] at down
      cases down.1
    · rw [← isChain, stack]
      rfl
  | @closes behind before bs b found found' deepest unknown _ inductionHypothesis =>
    -- the customer is marked as visited: it is on the chain, since marks are taken back on the way up
    obtain ⟨index, turns, _, leads⟩ := next_customer stack domain
    obtain ⟨next, left'⟩ := leads b bs left
    have moved := standing.move stack index
    have split : (⟨ctx.domain, index⟩ :: rest : List CycleCtx).map CycleCtx.domain = behind ++ b :: before := by
      rw [← isChain, stack]
      rfl
    obtain ⟨cycle, closed⟩ := moved.close rfl split
    have free : search.inCycle b = false := by
      rw [Bool.eq_false_iff, ne_eq, standing.known]
      exact unknown
    have marked : search.visited b = true := by
      rw [standing.marked, isChain]
      simp
    refine .turns (turns.tail (cycleTurn_cycle rfl domain next ⟨free, rfl⟩ marked ?_))
      (inductionHypothesis closed rfl split room domain left')
    rw [cycle]
    exact List.cons_ne_nil _ _
  | @enters chain bs b found between found' deepest deepest' unknown absent entered later first second =>
    obtain ⟨index, turns, _, leads⟩ := next_customer stack domain
    obtain ⟨next, left'⟩ := leads b bs left
    have moved := standing.move stack index
    have same : (⟨ctx.domain, index⟩ :: rest : List CycleCtx).map CycleCtx.domain = chain := by
      rw [← isChain, stack]
      rfl
    have free : search.inCycle b = false := by
      rw [Bool.eq_false_iff, ne_eq, standing.known]
      exact unknown
    have unmarked : search.visited b = false := by
      rw [Bool.eq_false_iff, ne_eq, standing.marked, isChain]
      exact absent
    have down := @cycleTurn_down topo { search with stack := ⟨ctx.domain, index⟩ :: rest } _ _ _ _ rfl domain next
      ⟨free, rfl⟩ unmarked
    have size : (⟨ctx.domain, index⟩ :: rest : List CycleCtx).length = chain.length := by
      rw [← same, List.length_map]
    have deep := entered.length_le
    rw [List.length_cons] at deep
    by_cases full : chain.length = maxQueueSize
    · -- the assertion on the push fails, and the chain through the customer is too long
      rw [if_pos (by exact size.trans full)] at down
      exact .turns turns ⟨fun fits => absurd (le_of_max_le_left fits) (by omega), fun _ => ⟨_, .refl, down⟩⟩
    · rw [if_neg (by exact fun length => full (size.symm.trans length))] at down
      obtain ⟨n, domain', _⟩ := links.neighbor domain (List.mem_of_getElem? next)
      have pushed := moved.push rfl (show b ∉ _ by rw [same]; exact absent)
      have entering : customersOf (n.neighbors.items.drop 0) = customers topo b := by
        rw [customers, domain', Option.map_some, Option.getD_some, List.drop_zero]
      obtain ⟨comes, overflows⟩ := first pushed rfl (congrArg (b :: ·) same) (by rw [List.length_cons]; omega)
        domain' entering
      refine .turns (turns.tail down) ?_
      -- below the customer first, and then on to the next neighbor
      by_cases fits : deepest ≤ maxQueueSize
      · obtain ⟨search', turns', stack', standing'⟩ := comes fits
        have onward := second standing' stack' (by rw [stack']; exact same) room domain left'
        refine .turns turns' ⟨fun fits' => onward.1 (le_of_max_le_right fits'), fun long => onward.2 ?_⟩
        exact (lt_max_iff.mp long).resolve_left (Nat.not_lt.mpr fits)
      · refine ⟨fun fits' => absurd (le_of_max_le_left fits') fits, fun _ => overflows (Nat.not_le.mp fits)⟩

/-! ## The search from all domains without providers -/

theorem customers_eq : (fun a b => b ∈ customers topo a) = Customer topo :=
  funext fun _ => funext fun _ => propext mem_customers

/-- A domain without providers is on no cycle. -/
theorem TopDomain.acyclic (links : MutualLinks topo) {top : Asn} (isTop : TopDomain topo top) :
    ¬ TransGen (Customer topo) top top := by
  intro cycle
  obtain ⟨d, domain, none⟩ := isTop
  obtain ⟨a, _, edge⟩ := TransGen.tail'_iff.mp cycle
  exact (aslevelAsNumProviders_pos domain).mpr ⟨a, links a top _ edge⟩ none

/-- The search from a domain. -/
theorem cycleStart_runs (links : MutualLinks topo) {top : Asn} (isTop : TopDomain topo top) {search : CycleSearch}
    {found found' : Set Asn} {deepest : ℕ} (standing : AtDescent search found)
    (descends : Descends (customers topo) [top] (customers topo top) found found' deepest) :
    (deepest ≤ maxQueueSize → ∃ fuel search',
      looping (cycleTurn topo) fuel (cycleStart search top) = some (.ok search') ∧ AtDescent search' found') ∧
    (maxQueueSize < deepest → ∃ fuel,
      looping (cycleTurn topo) fuel (cycleStart search top) = some (.error .stackFull)) := by
  obtain ⟨d, domain, _⟩ := isTop
  have entering : customersOf (d.neighbors.items.drop 0) = customers topo top := by
    rw [customers, domain, Option.map_some, Option.getD_some, List.drop_zero]
  obtain ⟨comes, overflows⟩ := runs_of_descends links descends (standing.start top) rfl rfl (Nat.le_of_ble_eq_true rfl)
    domain entering
  refine ⟨fun fits => ?_, fun long => ?_⟩
  · obtain ⟨search', turns, stack, standing'⟩ := comes fits
    have ends : cycleTurn topo search' = .inl (.ok search') := by simp only [cycleTurn, stack]
    obtain ⟨fuel, ended⟩ := looping_steps turns (looping_inl ends 0)
    exact ⟨fuel, search', ended, standing'⟩
  · obtain ⟨search', turns, stops⟩ := overflows long
    exact looping_steps turns (looping_inl stops 0)

theorem searchTops_mono {tops : List Asn} {search : CycleSearch} {result : Except AsLevelFault CycleSearch}
    {fuel fuel' : ℕ} (ended : searchTops topo fuel tops search = some result)
    (more : fuel ≤ fuel') : searchTops topo fuel' tops search = some result := by
  induction tops generalizing search with
  | nil => exact ended
  | cons top tops inductionHypothesis =>
    rw [searchTops] at ended ⊢
    cases inner : looping (cycleTurn topo) fuel (cycleStart search top) with
    | none =>
      rw [inner] at ended
      cases ended
    | some first =>
      rw [looping_mono inner more]
      rw [inner] at ended
      cases first with
      | error fault => exact ended
      | ok search' => exact inductionHypothesis ended

/-- The search from all of them. -/
theorem searchTops_runs (links : MutualLinks topo) {chain tops : List Asn} {found found' : Set Asn} {deepest : ℕ}
    (descends : Descends (customers topo) chain tops found found' deepest) (start : chain = [])
    (isTop : ∀ top ∈ tops, TopDomain topo top) (cyclic : ∀ a ∈ found, TransGen (Customer topo) a a)
    {search : CycleSearch} (standing : AtDescent search found) :
    (deepest ≤ maxQueueSize → ∃ fuel search',
      searchTops topo fuel tops search = some (.ok search') ∧ AtDescent search' found') ∧
    (maxQueueSize < deepest → ∃ fuel, searchTops topo fuel tops search = some (.error .stackFull)) := by
  induction descends generalizing search with
  | done =>
    subst start
    exact ⟨fun _ => ⟨0, search, rfl, standing⟩, nofun⟩
  -- A top domain is on no cycle, so it is marked by no search before its own.
  | passes known => exact absurd (cyclic _ known) ((isTop _ List.mem_cons_self).acyclic links)
  | closes => simp at start
  | @enters chain rest top found between found' deepest deepest' _ _ entered _ _ second =>
    subst start
    obtain ⟨comes, overflows⟩ := cycleStart_runs links (isTop top List.mem_cons_self) standing entered
    -- The search from the first top fits on the stack or ends the check; the others follow it.
    by_cases fits : deepest ≤ maxQueueSize
    · obtain ⟨fuel, mid, ended, standing'⟩ := comes fits
      have cyclic' : ∀ a ∈ between, TransGen (Customer topo) a a := by
        intro a member
        obtain old | ⟨_, _, _, cycle⟩ := entered.sound (List.isChain_singleton _)
          (by rintro _ ⟨⟩ b inside; exact inside) a member
        · exact cyclic a old
        · exact @customers_eq topo ▸ cycle
      obtain ⟨comes', overflows'⟩ := second rfl (fun a member => isTop a (List.mem_cons_of_mem _ member))
        cyclic' standing'
      refine ⟨fun fits' => ?_, fun long => ?_⟩
      · obtain ⟨fuel', search', ended', standing''⟩ := comes' (le_of_max_le_right fits')
        refine ⟨max fuel fuel', search', ?_, standing''⟩
        rw [searchTops, looping_mono ended (le_max_left _ _)]
        exact searchTops_mono ended' (le_max_right _ _)
      · obtain ⟨fuel', ended'⟩ := overflows' ((lt_max_iff.mp long).resolve_left (Nat.not_lt.mpr fits))
        refine ⟨max fuel fuel', ?_⟩
        rw [searchTops, looping_mono ended (le_max_left _ _)]
        exact searchTops_mono ended' (le_max_right _ _)
    · refine ⟨fun fits' => absurd (le_of_max_le_left fits') fits, fun _ => ?_⟩
      obtain ⟨fuel, ended⟩ := overflows (Nat.not_le.mp fits)
      exact ⟨fuel, by rw [searchTops, ended]⟩

/-! ## The check -/

/-- The descent finds something exactly when there is a cycle below a domain without providers. -/
theorem found_iff {found : Set Asn} {deepest : ℕ}
    (descends : Descends (customers topo) [] (aslevelTopoGetTop topo) ∅ found deepest) :
    found ≠ ∅ ↔ CycleBelowTop topo := by
  constructor
  · intro some
    obtain ⟨a, member⟩ := Set.nonempty_iff_ne_empty.mpr some
    obtain old | ⟨top, isTop, path, cycle⟩ := descends.sound List.isChain_nil nofun a member
    · exact old.elim
    · rw [customers_eq] at path cycle
      exact ⟨top, a, mem_aslevelTopoGetTop.mp isTop, path, cycle⟩
  · rintro ⟨top, a, isTop, path, cycle⟩ none
    have shallow := descends.shallow none top (mem_aslevelTopoGetTop.mpr isTop)
    rw [customers_eq] at shallow
    obtain ⟨_, shallow'⟩ := shallow.reaches path
    exact shallow'.acyclic cycle

/-- The check ends: it finds the cycles below domains without providers, or its stack gets full. -/
theorem aslevelTopoCheckCycle_ends (links : MutualLinks topo) (hasTop : ∃ top, TopDomain topo top)
    {found : Set Asn} {deepest : ℕ}
    (descends : Descends (customers topo) [] (aslevelTopoGetTop topo) ∅ found deepest) :
    (deepest ≤ maxQueueSize → ∃ fuel error, aslevelTopoCheckCycle topo fuel = some (.ok error) ∧
      (error = .cycleDetected ∧ CycleBelowTop topo ∨ error = .success ∧ ¬ CycleBelowTop topo)) ∧
    (maxQueueSize < deepest → ∃ fuel, aslevelTopoCheckCycle topo fuel = some (.error .stackFull)) := by
  obtain ⟨top, isTop⟩ := hasTop
  have member := mem_aslevelTopoGetTop.mpr isTop
  obtain ⟨d, domain, _⟩ := isTop
  have nonempty := List.ne_nil_of_mem (domain_eq_some.mp domain).1
  have unfolded (fuel : ℕ) : aslevelTopoCheckCycle topo fuel =
      (searchTops topo fuel (aslevelTopoGetTop topo) ⟨[], fun _ => false, fun _ => false, 0⟩).map fun result =>
        result.map fun search => if 0 < search.numCycles then .cycleDetected else .success := by
    rw [aslevelTopoCheckCycle, if_neg nonempty]
    split
    next none => exact absurd member (none ▸ List.not_mem_nil)
    next => rfl
  have standing : AtDescent ⟨[], fun _ => false, fun _ => false, 0⟩ ∅ :=
    ⟨List.nodup_nil, by simp, by simp, by simp⟩
  obtain ⟨comes, overflows⟩ := searchTops_runs links descends rfl (fun _ => mem_aslevelTopoGetTop.mp) nofun standing
  refine ⟨fun fits => ?_, fun long => ?_⟩
  · obtain ⟨fuel, search', ended, standing'⟩ := comes fits
    refine ⟨fuel, _, by rw [unfolded, ended, Option.map_some]; rfl, ?_⟩
    rw [← found_iff descends, ne_eq, ← standing'.counted]
    by_cases counted : 0 < search'.numCycles
    · exact .inl ⟨if_pos counted, by omega⟩
    · exact .inr ⟨if_neg counted, by omega⟩
  · obtain ⟨fuel, ended⟩ := overflows long
    exact ⟨fuel, by rw [unfolded, ended, Option.map_some]; rfl⟩

theorem aslevelTopoCheckCycle_mono {fuel fuel' : ℕ} {result : Except AsLevelFault AsLevelError}
    (ended : aslevelTopoCheckCycle topo fuel = some result) (more : fuel ≤ fuel') :
    aslevelTopoCheckCycle topo fuel' = some result := by
  rw [aslevelTopoCheckCycle] at ended ⊢
  by_cases empty : topo.domains.items = []
  · rwa [if_pos empty] at ended ⊢
  · rw [if_neg empty] at ended ⊢
    cases tops : aslevelTopoGetTop topo with
    | nil => rwa [tops] at ended
    | cons top rest =>
      simp only [tops] at ended
      obtain ⟨search, searched, same⟩ := Option.map_eq_some_iff.mp ended
      simp only [searchTops_mono searched more, Option.map_some, same]

theorem aslevelTopoCheckCycle_unique {fuel fuel' : ℕ} {result result' : Except AsLevelFault AsLevelError}
    (ended : aslevelTopoCheckCycle topo fuel = some result)
    (ended' : aslevelTopoCheckCycle topo fuel' = some result') : result = result' := by
  have first := aslevelTopoCheckCycle_mono ended (le_max_left fuel fuel')
  have second := aslevelTopoCheckCycle_mono ended' (le_max_right fuel fuel')
  rw [first, Option.some.injEq] at second
  exact second

/-- The check returns, and tells whether there is a cycle. -/
def DetectsCycles (topo : AsTopo) : Prop :=
  ∃ fuel error, aslevelTopoCheckCycle topo fuel = some (.ok error) ∧
    (error = .cycleDetected ↔ Cyclic topo) ∧ (error = .success ↔ ¬ Cyclic topo)

/-- No domain is without providers, or the descent from those fits on the stack and a cycle, if there is one, is
below them. -/
def Searchable (topo : AsTopo) : Prop :=
  (∀ a, ¬ TopDomain topo a) ∨ (ChainsFit topo ∧ (Cyclic topo → CycleBelowTop topo))

theorem CycleBelowTop.cyclic (below : CycleBelowTop topo) : Cyclic topo := by
  obtain ⟨_, a, _, _, cycle⟩ := below
  exact ⟨a, cycle⟩

theorem detects_of_no_top (links : MutualLinks topo) (noTop : ∀ a, ¬ TopDomain topo a) :
    DetectsCycles topo := by
  by_cases empty : topo.domains.items = []
  · have acyclic : ¬ Cyclic topo := by
      rintro ⟨a, cycle⟩
      obtain ⟨b, edge, _⟩ := TransGen.head'_iff.mp cycle
      obtain ⟨d, found, _⟩ := linkType_eq_some.mp edge
      have inside := (domain_eq_some.mp found).1
      rw [empty] at inside
      cases inside
    refine ⟨0, .success, by rw [aslevelTopoCheckCycle, if_pos empty], ?_, ?_⟩
    · exact ⟨nofun, fun cyclic => absurd cyclic acyclic⟩
    · exact ⟨fun _ => acyclic, fun _ => rfl⟩
  · have cyclic := cyclic_of_no_top links empty noTop
    have none : aslevelTopoGetTop topo = [] :=
      List.eq_nil_iff_forall_not_mem.mpr fun a member => noTop a (mem_aslevelTopoGetTop.mp member)
    refine ⟨0, .cycleDetected, by rw [aslevelTopoCheckCycle, if_neg empty, none], ?_, ?_⟩
    · exact ⟨fun _ => cyclic, fun _ => rfl⟩
    · exact ⟨nofun, fun acyclic => absurd cyclic acyclic⟩

/-- The check tells whether there is a cycle exactly where the search can: cycles that no domain without providers
reaches go unseen, and a chain that does not fit on the stack fails the assertion. -/
theorem aslevelTopoCheckCycle_detects_iff (consistent : aslevelTopoCheckConsistency topo = .ok .success) :
    DetectsCycles topo ↔ Searchable topo := by
  have links := aslevelTopoCheckConsistency_iff.mp consistent
  by_cases hasTop : ∃ top, TopDomain topo top
  · have : Finite Asn := Finite.of_injective UInt16.toFin fun _ _ => UInt16.toFin_inj.mp
    constructor
    · rintro ⟨fuel, error, ended, detected, passed⟩
      obtain ⟨found, deepest, descends⟩ :=
        @Descends.exists_ Asn (customers topo) [] _ List.nodup_nil (aslevelTopoGetTop topo) ∅
      obtain ⟨comes, overflows⟩ := aslevelTopoCheckCycle_ends links hasTop descends
      have fits : deepest ≤ maxQueueSize := by
        by_contra long
        obtain ⟨fuel', ended'⟩ := overflows (Nat.not_le.mp long)
        cases aslevelTopoCheckCycle_unique ended ended'
      obtain ⟨fuel', error', ended', outcome⟩ := comes fits
      cases aslevelTopoCheckCycle_unique ended ended'
      refine .inr ⟨⟨found, deepest, descends, fits⟩, fun cyclic => ?_⟩
      obtain ⟨_, below⟩ | ⟨success, _⟩ := outcome
      · exact below
      · exact absurd cyclic (passed.mp success)
    · rintro (noTop | ⟨⟨found, deepest, descends, fits⟩, below⟩)
      · exact absurd hasTop (not_exists.mpr noTop)
      · obtain ⟨fuel, error, ended, outcome⟩ := (aslevelTopoCheckCycle_ends links hasTop descends).1 fits
        refine ⟨fuel, error, ended, ?_⟩
        obtain ⟨rfl, cycle⟩ | ⟨rfl, unseen⟩ := outcome
        · have cyclic := cycle.cyclic
          exact ⟨⟨fun _ => cyclic, fun _ => rfl⟩, ⟨nofun, fun acyclic => absurd cyclic acyclic⟩⟩
        · have acyclic : ¬ Cyclic topo := fun cyclic => unseen (below cyclic)
          exact ⟨⟨nofun, fun cyclic => absurd cyclic acyclic⟩, ⟨fun _ => acyclic, fun _ => rfl⟩⟩
  · have noTop := not_exists.mp hasTop
    exact ⟨fun _ => .inl noTop, fun _ => detects_of_no_top links noTop⟩

/-- The domains 1, 2 and 3, each a customer of the one before. -/
def customerRing : AsTopo where
  domains := {
    items := [
      ⟨1, ⟨[⟨2, .customer⟩, ⟨3, .provider⟩], by decide⟩, by decide⟩,
      ⟨2, ⟨[⟨1, .provider⟩, ⟨3, .customer⟩], by decide⟩, by decide⟩,
      ⟨3, ⟨[⟨1, .customer⟩, ⟨2, .provider⟩], by decide⟩, by decide⟩]
    sorted := by decide }
  cachedDomains := (none, none)

theorem soleCustomer_sorted :
    ([⟨1, .customer⟩] : List AsLink).Pairwise fun link link' => link.key < link'.key :=
  List.pairwise_singleton _ _

/-- The same domains below the domain 4, the provider of 1. -/
def ringBelowTop : AsTopo where
  domains := {
    items := [
      ⟨1, ⟨[⟨2, .customer⟩, ⟨3, .provider⟩, ⟨4, .provider⟩], by decide⟩, by decide⟩,
      ⟨2, ⟨[⟨1, .provider⟩, ⟨3, .customer⟩], by decide⟩, by decide⟩,
      ⟨3, ⟨[⟨1, .customer⟩, ⟨2, .provider⟩], by decide⟩, by decide⟩,
      ⟨4, ⟨[⟨1, .customer⟩], soleCustomer_sorted⟩, by decide⟩]
    sorted := by decide }
  cachedDomains := (none, none)

/-- The descent comes from 4 down to 3, where the cycle closes. -/
theorem ringBelowTop_searchable : Searchable ringBelowTop := by
  have closes : Descends (customers ringBelowTop) [3, 2, 1, 4] (customers ringBelowTop 3) ∅
      (∅ ∪ {c | c ∈ [1, 3, 2]}) 4 :=
    @Descends.closes _ _ [3, 2] [4] [] 1 _ _ _ (Set.notMem_empty 1) .done
  have descends : Descends (customers ringBelowTop) [] (aslevelTopoGetTop ringBelowTop) ∅ _ _ :=
    .enters (Set.notMem_empty 4) List.not_mem_nil
      (.enters (Set.notMem_empty 1) (by decide)
        (.enters (Set.notMem_empty 2) (by decide) (.enters (Set.notMem_empty 3) (by decide) closes .done) .done) .done)
      .done
  have isTop : TopDomain ringBelowTop 4 := ⟨_, rfl, rfl⟩
  have first : Customer ringBelowTop 1 2 := rfl
  have second : Customer ringBelowTop 2 3 := rfl
  have third : Customer ringBelowTop 3 1 := rfl
  exact .inr ⟨⟨_, _, descends, by decide⟩, fun _ =>
    ⟨4, 1, isTop, .single rfl, .tail (.tail (.single first) second) third⟩⟩

theorem ringBelowTop_detected : DetectsCycles ringBelowTop :=
  (aslevelTopoCheckCycle_detects_iff (by rfl)).mpr ringBelowTop_searchable

/-- The same domains beside the domain 4, which has no neighbors. -/
def ringBesideTop : AsTopo where
  domains := {
    items := customerRing.domains.items ++ [⟨4, .empty, nofun⟩]
    sorted := by decide }
  cachedDomains := (none, none)

/-- The search from 4 does not reach the cycle. -/
theorem ringBesideTop_undetected :
    aslevelTopoCheckConsistency ringBesideTop = .ok .success ∧ Cyclic ringBesideTop ∧
      aslevelTopoCheckCycle ringBesideTop 10 = some (.ok .success) ∧ ¬ DetectsCycles ringBesideTop := by
  have cyclic : Cyclic ringBesideTop := by
    have first : Customer ringBesideTop 1 2 := by rfl
    have second : Customer ringBesideTop 2 3 := by rfl
    have third : Customer ringBesideTop 3 1 := by rfl
    exact ⟨1, .tail (.tail (.single first) second) third⟩
  have ended : aslevelTopoCheckCycle ringBesideTop 10 = some (.ok .success) := by rfl
  refine ⟨by rfl, cyclic, ended, ?_⟩
  rintro ⟨fuel, error, ended', _, passed⟩
  have same := aslevelTopoCheckCycle_unique ended ended'
  rw [Except.ok.injEq] at same
  exact passed.mp same.symm cyclic

end Cbgp.Verified
