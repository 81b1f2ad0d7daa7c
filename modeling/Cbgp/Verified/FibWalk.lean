import Cbgp.Verified.FirstHops

/-! # The walk over a shortest-path tree

`_spt_compute_fib` finds an interface to every successor of the root, and an address for every router behind a
subnet (`Rooted`).  So its walk fails in two ways only: the stack gets full (`WalkFits`), or the router behind a
subnet is reached through the address 0.0.0.0, which the walk takes for a gateway that is still to be found, and
has successors of its own (`GatewaysNamed`).  Otherwise it ends in a forwarding table (`sptComputeFib_ok_iff`).
-/

namespace Cbgp.Verified

open Cbgp.Lib Cbgp.Net Relation

/-! ## What hangs on the root of a tree -/

section Search

variable {N I S : Type} {net : Topology N I S} {domain : List N} {root : N} {comp comp' : SptComp N I S}
  {context : SptContext I} {rest : List (SptContext I)}

/-- The root is visited once, at the start. -/
structure RootDone (net : Topology N I S) (root : N) (comp : SptComp N I S) : Prop where
  weight : weightOf comp.spt (elemKey net (.node root)) = some 0
  elem : elemOf comp.spt (elemKey net (.node root)) = some (.node root)
  queue : ∀ c ∈ comp.fifo, c.vertex ≠ elemKey net (.node root)

/-- The way out of a subnet that makes a router its successor. -/
def AcrossSubnets (net : Topology N I S) (spt : Spt N I S) : Prop :=
  ∀ a b s, a ∈ predsOf spt b → elemOf spt a = some (.subnet s) →
    ∃ i ∈ net.subnetIfaces s, b = elemKey net (.node (net.iface i).owner)

variable [DecidableEq N] [DecidableEq I] [DecidableEq S]

/-- What the root leads to has been found from it. -/
def FoundFirst (net : Topology N I S) (root : N) (spt : Spt N I S) : Prop :=
  ∀ k, k ∈ succsOf spt (elemKey net (.node root)) →
    ∃ elem, elemOf spt k = some elem ∧ (nodeFindIfaceTo net root elem).isSome

/-- While the root is visited, everything else has been found from it. -/
def FoundNear (net : Topology N I S) (root : N) (spt : Spt N I S) : Prop :=
  ∀ k elem, elemOf spt k = some elem → k ≠ elemKey net (.node root) → (nodeFindIfaceTo net root elem).isSome

/-- A link that can be used is one that `node_find_iface_to` finds. -/
theorem nodeFindIfaceTo_hop {link : I} {next : NetElem N I S}
    {cost : ℕ} (own : link ∈ net.ifaces root) (passes : hop net domain (.node root) link = some (next, cost)) :
    (nodeFindIfaceTo net root next).isSome := by
  obtain ⟨leads, unfiltered, _⟩ := hop_next passes
  have connected := (linkFiltered_eq_false.mp unfiltered).2.2.1
  rw [nodeFindIfaceTo, List.find?_isSome]
  refine ⟨link, own, ?_⟩
  cases leads with
  | router type dest => simp [connected, type, dest]
  | subnet type dest => simp [connected, type, dest]
  | link type dest => simp [connected, type, dest]

section Steps

omit [DecidableEq N] [DecidableEq S]

/-- The states of the tree that a link is traversed into: nothing changes, a predecessor is added, or a vertex
gets a smaller weight and waits for a visit. -/
theorem linkTraverse_cases {link : I} {src : NetElem N I S} {weight : UInt32} (shape : Shape net domain root comp)
    (atElem : elemOf comp.spt context.vertex = some src) (atWeight : weightOf comp.spt context.vertex = some weight)
    (ran : linkTraverse net domain context comp link = .ok comp') :
    comp' = comp ∨ ∃ next cost, hop net domain src link = some (next, cost) ∧
      ((Joined net next context.vertex comp.spt comp'.spt ∧ comp'.fifo = comp.fifo) ∨
        ∃ w : UInt32, w.toNat = weight.toNat + cost ∧
          (∀ w', weightOf comp.spt (elemKey net next) = some w' → w < w') ∧
          Improved net next context.vertex w comp.spt comp'.spt ∧
          comp'.fifo = comp.fifo ++ [⟨some link, elemKey net next⟩]) := by
  have traversed : Traversed net domain context comp src weight link (linkTraverse net domain context comp link) :=
    linkTraverse_traversed link shape.linked atElem atWeight (shape.light atWeight)
  rw [ran] at traversed
  cases traversed with
  | filtered => exact .inl rfl
  | back => exact .inl rfl
  | saturated => exact .inl rfl
  | worse => exact .inl rfl
  | equal passes known sum joined => exact .inr ⟨_, _, passes, .inl ⟨joined, rfl⟩⟩
  | improved passes sum below better improved => exact .inr ⟨_, _, passes, .inr ⟨_, sum, better, improved, rfl⟩⟩

/-- A link that is traversed leaves the root as it is. -/
theorem linkTraverse_rootDone {link : I} {src : NetElem N I S} (shape : Shape net domain root comp)
    (atElem : elemOf comp.spt context.vertex = some src) (done : RootDone net root comp)
    (ran : linkTraverse net domain context comp link = .ok comp') : RootDone net root comp' := by
  obtain ⟨weight, atWeight⟩ := weightOf_isSome.mpr (elemOf_isSome.mp ⟨src, atElem⟩)
  obtain rfl | ⟨next, cost, passes, ⟨joined, queue⟩ | ⟨w, sum, better, improved, queue⟩⟩ :=
    linkTraverse_cases shape atElem atWeight ran
  · exact done
  · exact ⟨(joined.weights _).trans done.weight, (joined.elems _).trans done.elem, queue ▸ done.queue⟩
  · -- nothing is nearer than the root
    have other : elemKey net next ≠ elemKey net (.node root) := by
      intro same
      have nearer : w.toNat < (0 : UInt32).toNat := better 0 (same ▸ done.weight)
      exact absurd nearer (Nat.not_lt_zero _)
    refine ⟨?_, ?_, fun c member => ?_⟩
    · rw [improved.weights, if_neg other.symm, done.weight]
    · rw [improved.elems, if_neg fun created => other created.1.symm, done.elem]
    · rw [queue, List.mem_append, List.mem_singleton] at member
      obtain old | rfl := member
      · exact done.queue c old
      · exact other

theorem linkTraverse_across {link : I} {src : NetElem N I S} (shape : Shape net domain root comp)
    (atElem : elemOf comp.spt context.vertex = some src) (out : link ∈ linksOf net src)
    (across : AcrossSubnets net comp.spt) (ran : linkTraverse net domain context comp link = .ok comp') :
    AcrossSubnets net comp'.spt := by
  obtain ⟨weight, atWeight⟩ := weightOf_isSome.mpr (elemOf_isSome.mp ⟨src, atElem⟩)
  obtain ⟨_, advance⟩ := (linkTraverse_shape shape atElem out).value ran
  -- the element of an old predecessor was known before
  have before {a b : Pfx} {s : S} (isPred : a ∈ predsOf comp.spt b) (atA : elemOf comp'.spt a = some (.subnet s)) :
      elemOf comp.spt a = some (.subnet s) := by
    obtain ⟨elem, _, _, _, known, _⟩ := shape.rising isPred
    have still := advance.grows known
    rw [atA, Option.some.injEq] at still
    rw [known, still]
  -- the new predecessor is the element that is visited
  have visited {next : NetElem N I S} {cost : ℕ} {s : S} (passes : hop net domain src link = some (next, cost))
      (atA : elemOf comp'.spt context.vertex = some (.subnet s)) :
      ∃ i ∈ net.subnetIfaces s, elemKey net next = elemKey net (.node (net.iface i).owner) := by
    have still := advance.grows atElem
    rw [atA, Option.some.injEq] at still
    subst still
    obtain ⟨leads, _, _⟩ := hop_next passes
    cases leads with
    | leaveSubnet =>
      refine ⟨link, ?_, rfl⟩
      simp only [linksOf, outboundLinks] at out
      split at out
      · exact out
      · cases out
  obtain rfl | ⟨next, cost, passes, ⟨joined, _⟩ | ⟨w, _, _, improved, _⟩⟩ :=
    linkTraverse_cases shape atElem atWeight ran
  · exact across
  · intro a b s isPred atA
    obtain old | ⟨rfl, rfl⟩ := (joined.preds b a).mp isPred
    · exact across a b s old (before old atA)
    · exact visited passes atA
  · intro a b s isPred atA
    rw [improved.preds] at isPred
    split at isPred
    next same =>
      subst same isPred
      exact visited passes atA
    next => exact across a b s isPred (before isPred atA)

/-- What every link keeps, a turn keeps. -/
theorem sptTurn_keeps {P : SptComp N I S → Prop} {src : NetElem N I S} (shape : Shape net domain root comp)
    (queue : comp.fifo = context :: rest) (atElem : elemOf comp.spt context.vertex = some src)
    (start : P { comp with fifo := rest })
    (link : ∀ {mid mid' : SptComp N I S} {link : I}, Shape net domain root mid →
      elemOf mid.spt context.vertex = some src → link ∈ linksOf net src → P mid →
      linkTraverse net domain context mid link = .ok mid' → P mid')
    (ran : sptTurn net domain comp context rest = .ok comp') : P comp' := by
  obtain ⟨vertex, found, rfl⟩ := Option.map_eq_some_iff.mp atElem
  simp only [sptTurn, found] at ran
  obtain ⟨links, read, ran⟩ := except_bind_eq_ok.mp ran
  have listed : linksOf net vertex.elem = links := by rw [linksOf, read]
  have holds : Ends (fun mid => Shape net domain root mid ∧
      elemOf mid.spt context.vertex = some vertex.elem ∧ P mid) (fun _ => True)
      (links.foldlM (linkTraverse net domain context) { comp with fifo := rest }) := by
    refine Ends.loop (fun mid i member holds => ?_) ⟨shape.pop queue, atElem, start⟩
    obtain ⟨shape', atElem', kept⟩ := holds
    have out : i ∈ linksOf net vertex.elem := listed ▸ loopStates_snd member
    refine Ends.intro (fun mid' ran' => ?_) fun _ _ => trivial
    obtain ⟨shape'', advance⟩ := (linkTraverse_shape shape' atElem' out).value ran'
    exact ⟨shape'', advance.grows atElem', link shape' atElem' out kept ran'⟩
  exact (holds.value ran).2.2

end Steps

/-- The links of the root. -/
theorem linkTraverse_near {link : I} (shape : Shape net domain root comp) (done : RootDone net root comp)
    (start : context.vertex = elemKey net (.node root)) (own : link ∈ net.ifaces root)
    (near : FoundNear net root comp.spt) (ran : linkTraverse net domain context comp link = .ok comp') :
    FoundNear net root comp'.spt := by
  obtain rfl | ⟨next, cost, passes, ⟨joined, _⟩ | ⟨w, _, _, improved, _⟩⟩ :=
    linkTraverse_cases shape (start ▸ done.elem) (start ▸ done.weight) ran
  · exact near
  · intro k elem atK other
    exact near k elem ((joined.elems k).symm.trans atK) other
  · intro k elem atK other
    rw [improved.elems] at atK
    split at atK
    · cases atK
      exact nodeFindIfaceTo_hop own passes
    · exact near k elem atK other

/-- The links of the others. -/
theorem linkTraverse_first {link : I} {src : NetElem N I S} (shape : Shape net domain root comp)
    (atElem : elemOf comp.spt context.vertex = some src) (out : link ∈ linksOf net src)
    (later : context.vertex ≠ elemKey net (.node root)) (first : FoundFirst net root comp.spt)
    (ran : linkTraverse net domain context comp link = .ok comp') : FoundFirst net root comp'.spt := by
  obtain ⟨weight, atWeight⟩ := weightOf_isSome.mpr (elemOf_isSome.mp ⟨src, atElem⟩)
  obtain ⟨shape', advance⟩ := (linkTraverse_shape shape atElem out).value ran
  intro k member
  have isPred : elemKey net (.node root) ∈ predsOf comp'.spt k := shape'.linked.mirror.mpr member
  have old : elemKey net (.node root) ∈ predsOf comp.spt k := by
    obtain rfl | ⟨next, cost, _, ⟨joined, _⟩ | ⟨w, _, _, improved, _⟩⟩ :=
      linkTraverse_cases shape atElem atWeight ran
    · exact isPred
    · obtain old | ⟨_, same⟩ := (joined.preds k _).mp isPred
      · exact old
      · exact absurd same.symm later
    · rw [improved.preds] at isPred
      split at isPred
      · exact absurd isPred.symm later
      · exact isPred
  obtain ⟨elem, known, found⟩ := first k (shape.linked.mirror.mp old)
  exact ⟨elem, advance.grows known, found⟩

/-- After the visit of the root. -/
structure Hanging (net : Topology N I S) (root : N) (comp : SptComp N I S) : Prop where
  done : RootDone net root comp
  across : AcrossSubnets net comp.spt
  first : FoundFirst net root comp.spt

/-- The visit of the root. -/
theorem sptStart_hanging
    (ran : sptTurn net domain (sptStart net root) ⟨none, elemKey net (.node root)⟩ [] = .ok comp) :
    Hanging net root comp := by
  have shape : Shape net domain root (sptStart net root) := sptStart_shape
  have atRoot : elemOf (sptStart net root).spt (elemKey net (.node root)) = some (.node root) := by
    rw [elemOf, sptStart, AList.lookup_insert, Option.map_some]
  have weighs : weightOf (sptStart net root).spt (elemKey net (.node root)) = some 0 := by
    rw [weightOf, sptStart, AList.lookup_insert, Option.map_some]
  have alone : ∀ k elem, elemOf (sptStart net root).spt k = some elem → k = elemKey net (.node root) := by
    intro k elem atK
    by_contra other
    rw [elemOf, sptStart, AList.lookup_insert_ne other] at atK
    cases atK
  have kept : RootDone net root comp ∧ AcrossSubnets net comp.spt ∧ FoundNear net root comp.spt := by
    refine @sptTurn_keeps _ _ _ _ _ _ _ _ _ _ _
      (fun mid => RootDone net root mid ∧ AcrossSubnets net mid.spt ∧ FoundNear net root mid.spt) _ shape rfl atRoot
      ⟨⟨weighs, atRoot, by simp⟩, fun a b s _ atA => ?_,
        fun k elem atK other => absurd (alone k elem atK) other⟩
      (fun shape' atElem out holds ran' => ?_) ran
    · have same := alone a _ atA
      subst same
      rw [atRoot] at atA
      cases atA
    · obtain ⟨done, across, near⟩ := holds
      exact ⟨linkTraverse_rootDone shape' atElem done ran', linkTraverse_across shape' atElem out across ran',
        linkTraverse_near shape' done rfl out near ran'⟩
  obtain ⟨done, across, near⟩ := kept
  have shape' := ((sptTurn_shape shape rfl).value ran).1
  refine ⟨done, across, fun k member => ?_⟩
  obtain ⟨_, _, elem, _, atRoot', weighs', atK, weighsK, less⟩ := shape'.rising (shape'.linked.mirror.mpr member)
  refine ⟨elem, atK, near k elem atK fun same => ?_⟩
  -- no vertex is its own successor
  subst same
  rw [atRoot', Option.some.injEq] at atK
  rw [weighs', Option.some.injEq] at weighsK
  subst atK weighsK
  exact Nat.lt_irrefl _ less

/-- The visits of the others. -/
theorem sptTurn_hanging (shape : Shape net domain root comp) (hanging : Hanging net root comp)
    (queue : comp.fifo = context :: rest) (ran : sptTurn net domain comp context rest = .ok comp') :
    Hanging net root comp' := by
  obtain ⟨src, atElem⟩ := elemOf_isSome.mpr (shape.queued context (by simp [queue]))
  have later : context.vertex ≠ elemKey net (.node root) := hanging.done.queue context (by simp [queue])
  refine sptTurn_keeps shape queue atElem ⟨⟨hanging.done.weight, hanging.done.elem, fun c member => ?_⟩,
    hanging.across, hanging.first⟩ (fun shape' atElem' out holds ran' => ?_) ran
  · exact hanging.done.queue c (by simp [queue, member])
  · exact ⟨linkTraverse_rootDone shape' atElem' holds.done ran',
      linkTraverse_across shape' atElem' out holds.across ran',
      linkTraverse_first shape' atElem' out later holds.first ran'⟩

/-- The tree of a search. -/
structure Rooted (net : Topology N I S) (root : N) (spt : Spt N I S) : Prop where
  elem : elemOf spt (elemKey net (.node root)) = some (.node root)
  keyed : ∀ {k elem}, elemOf spt k = some elem → elemKey net elem = k
  first : FoundFirst net root spt
  across : ∀ {s k}, elemOf spt (elemKey net (.subnet s)) = some (.subnet s) →
    k ∈ succsOf spt (elemKey net (.subnet s)) →
    ∃ m, elemOf spt k = some (.node m) ∧ k = elemKey net (.node m) ∧ (subnetFindIfaceTo net s (.node m)).isSome
  rising : Rising spt

theorem Hanging.rooted (hanging : Hanging net root comp) (shape : Shape net domain root comp) :
    Rooted net root comp.spt := by
  refine ⟨hanging.done.elem, fun atK => (shape.elems atK).1, hanging.first, fun {s k} atSubnet member => ?_,
    shape.rising_ranks⟩
  have isPred := shape.linked.mirror.mpr member
  obtain ⟨i, out, rfl⟩ := hanging.across _ _ s isPred atSubnet
  obtain ⟨_, _, elem, _, _, _, atK, _, _⟩ := shape.rising isPred
  obtain ⟨keyed, known⟩ := shape.elems atK
  obtain ⟨m, rfl⟩ := isNode_of_key known keyed
  cases elemKey_node_inj keyed
  refine ⟨_, atK, rfl, ?_⟩
  rw [subnetFindIfaceTo, List.find?_isSome]
  exact ⟨i, out, by simp⟩

theorem sptLoop_rooted {fuel : ℕ} {spt : Spt N I S} (shape : Shape net domain root comp)
    (hanging : Hanging net root comp) (ended : sptLoop net domain fuel comp = .ok spt) : Rooted net root spt := by
  induction fuel generalizing comp with
  | zero =>
    obtain ⟨queue, rfl⟩ | ⟨_, _, _, _, _, none, _⟩ := sptLoop_cases ended
    · exact hanging.rooted shape
    · cases none
  | succ fuel inductionHypothesis =>
    obtain ⟨queue, rfl⟩ | ⟨_, _, comp', _, queue, same, turn, later⟩ := sptLoop_cases ended
    · exact hanging.rooted shape
    · cases same
      exact inductionHypothesis ((sptTurn_shape shape queue).value turn).1
        (sptTurn_hanging shape hanging queue turn) later

/-- An interface is found to every successor of the root, and one on the subnet to every successor of a subnet. -/
theorem sptBfs_rooted {fuel : ℕ} {spt : Spt N I S} (ended : sptBfs net domain root fuel = .ok spt) :
    Rooted net root spt := by
  obtain ⟨queue, _⟩ | ⟨_, _, comp', _, queue, same, turn, later⟩ := sptLoop_cases ended
  · cases queue
  · cases queue
    exact sptLoop_rooted ((sptTurn_shape sptStart_shape rfl).value turn).1 (sptStart_hanging turn) later

end Search

/-! ## The stack of the walk -/

section Walk

variable {N I S : Type} [DecidableEq N] [DecidableEq I] [DecidableEq S] {net : Topology N I S} {order : Traversal}
  {spt : Spt N I S} {root : N}

/-- A vertex comes to stand on the stack, above so many others: what its predecessor stood above, and the
successors of it that are pushed before. -/
inductive Stacked (order : Traversal) (spt : Spt N I S) (start : Pfx) : Pfx → ℕ → Prop where
  | start : Stacked order spt start start 0
  | succ {key s : Pfx} {below : ℕ} {before after : List Pfx} : Stacked order spt start key below →
      order.order (succsOf spt key) = before ++ s :: after → Stacked order spt start s (below + before.length)

/-- The stack has room for every vertex. -/
def WalkFits (net : Topology N I S) (order : Traversal) (root : N) (spt : Spt N I S) : Prop :=
  ∀ key below, Stacked order spt (elemKey net (.node root)) key below → below < stackDepth

/-- A router behind a subnet of the root, which is reached through the address 0.0.0.0, has no successors. -/
def GatewaysNamed (net : Topology N I S) (root : N) (spt : Spt N I S) : Prop :=
  ∀ s m k, elemKey net (.subnet s) ∈ succsOf spt (elemKey net (.node root)) →
    elemOf spt (elemKey net (.subnet s)) = some (.subnet s) →
    elemKey net (.node m) ∈ succsOf spt (elemKey net (.subnet s)) →
    subnetFindIfaceTo net s (.node m) = some k → (net.iface k).addr = netAddrAny →
    succsOf spt (elemKey net (.node m)) = []

/-- A context above so many others on the stack, and one that it pushes. -/
def StackStep (net : Topology N I S) (order : Traversal) (spt : Spt N I S) (above next : FibContext I × ℕ) : Prop :=
  ∃ before after, order.order (succsOf spt above.1.vertex) = before ++ next.1.vertex :: after ∧
    next.2 = above.2 + before.length ∧ Hands net spt above.1 next.1

/-- Every successor is handed an entry, and the stack has room for it. -/
def HandsAll (net : Topology N I S) (order : Traversal) (spt : Spt N I S) (above : FibContext I × ℕ) : Prop :=
  above.1.vertex ∈ spt ∧ ∀ before s after, order.order (succsOf spt above.1.vertex) = before ++ s :: after →
    above.2 + before.length < stackDepth ∧ ∃ next, next.vertex = s ∧ Hands net spt above.1 next

/-- Nothing fails from a context on. -/
def Clear (net : Topology N I S) (order : Traversal) (spt : Spt N I S) (above : FibContext I × ℕ) : Prop :=
  ∀ later, ReflTransGen (StackStep net order spt) above later → HandsAll net order spt later

theorem HandedEntry.unique {vertex : SptVertex N I S} {rtentry : Option (FibEntry I)} {next next' : FibContext I}
    (handed : HandedEntry net spt vertex rtentry next) (handed' : HandedEntry net spt vertex rtentry next')
    (same : next.vertex = next'.vertex) : next = next' := by
  obtain ⟨succ, entry, found, given, has⟩ := handed
  obtain ⟨succ', entry', found', given', has'⟩ := handed'
  rw [same, found', Option.some.injEq] at found
  subst found
  rw [given', Except.ok.injEq] at given
  subst given
  cases next
  cases next'
  simp_all

/-- The loop over the successors pushes a context for each of them. -/
theorem fibSuccessors_ok {vertex : SptVertex N I S} {rtentry : Option (FibEntry I)} {keys : List Pfx} {fib : Fib}
    {rest : List (FibContext I)} {state : Fib × List (FibContext I)}
    (ran : keys.foldlM (fibSuccessor net spt vertex rtentry) (fib, rest) = .ok state) :
    ∃ pushed : List (FibContext I), state.2 = pushed.reverse ++ rest ∧ pushed.map FibContext.vertex = keys ∧
      (∀ c ∈ pushed, HandedEntry net spt vertex rtentry c) ∧
      ∀ before s after, keys = before ++ s :: after → rest.length + before.length < stackDepth := by
  induction keys generalizing fib rest with
  | nil =>
    cases ran
    exact ⟨[], rfl, rfl, by simp, by simp⟩
  | cons key keys inductionHypothesis =>
    rw [List.foldlM_cons] at ran
    obtain ⟨mid, first, later⟩ := except_bind_eq_ok.mp ran
    obtain ⟨succ, entry, found, given, room, rfl⟩ := fibSuccessor_ok first
    obtain ⟨pushed, stack, vertices, handed, fits⟩ := inductionHypothesis later
    refine ⟨⟨key, some entry⟩ :: pushed, by rw [stack]; simp, by simp [vertices], fun c member => ?_,
      fun before s after split => ?_⟩
    · cases member with
      | head => exact ⟨succ, entry, found, given, rfl⟩
      | tail _ member => exact handed c member
    · cases before with
      | nil => simpa using room
      | cons _ before =>
        rw [List.cons_append, List.cons.injEq] at split
        have fits := fits before s after split.2
        simp only [List.length_cons] at fits ⊢
        omega

theorem fibSuccessors_run {vertex : SptVertex N I S} {rtentry : Option (FibEntry I)} {keys : List Pfx} {fib : Fib}
    {rest : List (FibContext I)}
    (passes : ∀ before s after, keys = before ++ s :: after → rest.length + before.length < stackDepth ∧
      ∃ next, next.vertex = s ∧ HandedEntry net spt vertex rtentry next) :
    ∃ state, keys.foldlM (fibSuccessor net spt vertex rtentry) (fib, rest) = .ok state := by
  induction keys generalizing fib rest with
  | nil => exact ⟨_, rfl⟩
  | cons key keys inductionHypothesis =>
    obtain ⟨room, next, rfl, succ, entry, found, given, has⟩ := passes [] key keys rfl
    have first : fibSuccessor net spt vertex rtentry (fib, rest) next.vertex =
        .ok (sptInstallFib net fib next.vertex succ (entry.toRtEntry net), ⟨next.vertex, some entry⟩ :: rest) := by
      simp only [fibSuccessor, found, given]
      exact if_pos room
    rw [List.foldlM_cons, first]
    refine inductionHypothesis fun before s after split => ?_
    have later := passes (next.vertex :: before) s after (by rw [split]; rfl)
    simp only [List.length_cons] at later ⊢
    refine ⟨by omega, later.2⟩

theorem clear_iff {above : FibContext I × ℕ} : Clear net order spt above ↔
    HandsAll net order spt above ∧ ∀ next, StackStep net order spt above next → Clear net order spt next := by
  constructor
  · exact fun clear => ⟨clear above .refl, fun next pushes later path => clear later (path.head pushes)⟩
  · rintro ⟨passes, after⟩ later path
    obtain rfl | ⟨next, pushes, path⟩ := path.cases_head
    · exact passes
    · exact after next pushes later path

/-- Nothing fails from any context of a stack on. -/
def AllClear (net : Topology N I S) (order : Traversal) (spt : Spt N I S) : List (FibContext I) → Prop
  | [] => True
  | context :: stack => Clear net order spt (context, stack.length) ∧ AllClear net order spt stack

theorem allClear_pushed {pushed stack : List (FibContext I)} :
    AllClear net order spt (pushed.reverse ++ stack) ↔ AllClear net order spt stack ∧
      ∀ before c after, pushed = before ++ c :: after → Clear net order spt (c, stack.length + before.length) := by
  induction pushed generalizing stack with
  | nil => simp
  | cons first pushed inductionHypothesis =>
    rw [List.reverse_cons, List.append_assoc, inductionHypothesis]
    change (Clear net order spt (first, stack.length) ∧ AllClear net order spt stack) ∧ _ ↔ _
    constructor
    · rintro ⟨⟨here, below⟩, later⟩
      refine ⟨below, fun before c after split => ?_⟩
      cases before with
      | nil =>
        rw [List.nil_append, List.cons.injEq] at split
        exact split.1 ▸ here
      | cons _ before =>
        rw [List.cons_append, List.cons.injEq] at split
        have clear := later before c after split.2
        rwa [List.length_append, List.length_singleton, Nat.add_assoc, Nat.add_comm 1] at clear
    · rintro ⟨below, later⟩
      refine ⟨⟨later [] first pushed rfl, below⟩, fun before c after split => ?_⟩
      have clear := later (first :: before) c after (by rw [split]; rfl)
      rwa [List.length_append, List.length_singleton, Nat.add_assoc, Nat.add_comm 1]

/-- What a vertex pushes. -/
theorem clear_pushed {context : FibContext I} {vertex : SptVertex N I S} {pushed : List (FibContext I)} {below : ℕ}
    (found : spt.lookup context.vertex = some vertex)
    (vertices : pushed.map FibContext.vertex = order.order vertex.succs)
    (handed : ∀ c ∈ pushed, HandedEntry net spt vertex context.rtentry c)
    (fits : ∀ before s after, order.order vertex.succs = before ++ s :: after →
      below + before.length < stackDepth) :
    Clear net order spt (context, below) ↔
      ∀ before c after, pushed = before ++ c :: after → Clear net order spt (c, below + before.length) := by
  have succs : succsOf spt context.vertex = vertex.succs := by rw [succsOf, found]; rfl
  have hands : ∀ c ∈ pushed, Hands net spt context c := by
    intro c member
    refine ⟨vertex, found, order.mem_order.mp ?_, handed c member⟩
    rw [← vertices]
    exact List.mem_map_of_mem member
  rw [clear_iff]
  constructor
  -- What lies below a pushed context is the stack before the turn and those pushed ahead of it.
  · rintro ⟨_, later⟩ before c after rfl
    refine later (c, below + before.length) ⟨before.map FibContext.vertex, after.map FibContext.vertex, ?_, by simp,
      hands c (by simp)⟩
    simp [succs, ← vertices]
  · intro later
    refine ⟨⟨?_, fun before s after split => ?_⟩, fun next pushes => ?_⟩
    · rw [← AList.lookup_isSome, found, Option.isSome_some]
    · rw [succs] at split
      refine ⟨fits before s after split, ?_⟩
      have member : s ∈ pushed.map FibContext.vertex := by simp [vertices, split]
      obtain ⟨c, inside, rfl⟩ := List.mem_map.mp member
      exact ⟨c, rfl, hands c inside⟩
    · obtain ⟨next, depth⟩ := next
      obtain ⟨before, after, split, same, vertex', found', _, handed'⟩ := pushes
      dsimp only at split same found' handed'
      rw [found, Option.some.injEq] at found'
      subst same found'
      rw [succs, ← vertices] at split
      obtain ⟨front, back, rfl, rfl, rest⟩ := List.map_eq_append_iff.mp split
      obtain ⟨c, behind, rfl, named, rfl⟩ := List.map_eq_cons_iff.mp rest
      have same := (handed c (by simp)).unique handed' named
      subst same
      have clear := later front c behind rfl
      rwa [← List.length_map FibContext.vertex] at clear

/-- A walk that ends in a forwarding table has passed everything. -/
theorem fibLoop_clear {fuel : ℕ} {fib fib' : Fib} {stack : List (FibContext I)}
    (ended : fibLoop net order spt fuel (fib, stack) = .ok fib') : AllClear net order spt stack := by
  induction fuel generalizing fib stack with
  | zero =>
    cases stack with
    | nil => trivial
    | cons context stack => cases ended
  | succ fuel inductionHypothesis =>
    cases stack with
    | nil => trivial
    | cons context stack =>
      rw [fibLoop_cons] at ended
      split at ended
      · cases ended
      next vertex found =>
        obtain ⟨⟨fib, stack'⟩, turn, later⟩ := except_bind_eq_ok.mp ended
        obtain ⟨pushed, rfl, vertices, handed, fits⟩ := fibSuccessors_ok turn
        obtain ⟨below, clear⟩ := allClear_pushed.mp (inductionHypothesis later)
        exact ⟨(clear_pushed found vertices handed fits).mpr clear, below⟩

/-- A walk that passes everything does not fail. -/
theorem fibLoop_passes {fuel : ℕ} {fib : Fib} {stack : List (FibContext I)} {fault : IgpFault}
    (clear : AllClear net order spt stack) (failed : fibLoop net order spt fuel (fib, stack) = .error fault) :
    fault = .outOfFuel := by
  induction fuel generalizing fib stack with
  | zero =>
    cases stack with
    | nil => cases failed
    | cons context stack =>
      cases failed
      rfl
  | succ fuel inductionHypothesis =>
    cases stack with
    | nil => cases failed
    | cons context stack =>
      obtain ⟨here, below⟩ := clear
      obtain ⟨present, passes⟩ := (clear_iff.mp here).1
      obtain ⟨vertex, found⟩ := Option.isSome_iff_exists.mp (AList.lookup_isSome.mpr present)
      have succs : succsOf spt context.vertex = vertex.succs := by rw [succsOf, found]; rfl
      rw [succs] at passes
      obtain ⟨⟨fib, stack'⟩, turn⟩ := @fibSuccessors_run _ _ _ _ _ _ net spt vertex context.rtentry
        (order.order vertex.succs) fib stack fun before s after split => by
          obtain ⟨room, next, named, vertex', found', _, handed⟩ := passes before s after split
          rw [found, Option.some.injEq] at found'
          exact ⟨room, next, named, found' ▸ handed⟩
      obtain ⟨pushed, rfl, vertices, handed, fits⟩ := fibSuccessors_ok turn
      rw [fibLoop_cons, found] at failed
      simp only [turn] at failed
      exact inductionHypothesis
        (allClear_pushed.mpr ⟨below, (clear_pushed found vertices handed fits).mp here⟩) failed

/-! ## When the walk ends -/

/-- What a context has been handed when the walk comes to it. -/
inductive Entered (net : Topology N I S) (root : N) (spt : Spt N I S) : FibContext I → Prop where
  | root : Entered net root spt ⟨elemKey net (.node root), none⟩
  | subnet {s : S} {entry : FibEntry I} : elemKey net (.subnet s) ∈ succsOf spt (elemKey net (.node root)) →
      elemOf spt (elemKey net (.subnet s)) = some (.subnet s) →
      Entered net root spt ⟨elemKey net (.subnet s), some entry⟩
  | found {key : Pfx} {entry : FibEntry I} : ¬OntoSubnet net entry → Entered net root spt ⟨key, some entry⟩
  | last {key : Pfx} {entry : FibEntry I} : succsOf spt key = [] → Entered net root spt ⟨key, some entry⟩

omit [DecidableEq N] [DecidableEq I] [DecidableEq S] in
theorem lookup_elem {key : Pfx} {elem : NetElem N I S} (atKey : elemOf spt key = some elem) {vertex : SptVertex N I S}
    (found : spt.lookup key = some vertex) : vertex.elem = elem := by
  rwa [elemOf, found, Option.map_some, Option.some.injEq] at atKey

theorem Entered.hands (rooted : Rooted net root spt) (gateways : GatewaysNamed net root spt)
    {context next : FibContext I} (entered : Entered net root spt context) (hands : Hands net spt context next) :
    Entered net root spt next := by
  obtain ⟨vertex, found, member, succ, entry, foundNext, given, has⟩ := hands
  have isSucc : next.vertex ∈ succsOf spt context.vertex := by rwa [succsOf, found]
  have atNext : elemOf spt next.vertex = some succ.elem := by rw [elemOf, foundNext]; rfl
  obtain ⟨key, rtentry⟩ := next
  dsimp only at has isSucc atNext
  subst has
  cases entered with
  | root =>
    -- the first entry has no gateway; one is still to be found behind a subnet
    obtain ⟨i, leads, rfl⟩ := (nextEntry_none (lookup_elem rooted.elem found)).mp given
    by_cases onto : OntoSubnet net ⟨i, netAddrAny⟩
    · have matched := List.find?_some leads
      cases kind : succ.elem with
      | node m => simp [kind, onto.1] at matched
      | link j => simp [kind, onto.1] at matched
      | subnet s =>
        rw [kind] at atNext
        cases rooted.keyed atNext
        exact .subnet isSucc atNext
    · exact .found onto
  | @subnet s rtentry isFirst atSubnet =>
    -- the gateway is the router on the other side, and its address may be 0.0.0.0
    obtain ⟨notOnto, rfl⟩ | ⟨onto, s', k, isSubnet, leads, rfl⟩ := nextEntry_some.mp given
    · exact .found notOnto
    · rw [lookup_elem atSubnet found] at isSubnet
      cases isSubnet
      obtain ⟨m, atM, rfl, _⟩ := rooted.across atSubnet isSucc
      rw [atM, Option.some.injEq] at atNext
      rw [← atNext] at leads
      by_cases unnamed : (net.iface k).addr = netAddrAny
      · exact .last (gateways s m k isFirst atSubnet isSucc leads unnamed)
      · exact .found fun onto' => unnamed onto'.2
  | found notOnto =>
    obtain ⟨_, rfl⟩ | ⟨onto, _⟩ := nextEntry_some.mp given
    · exact .found notOnto
    · exact absurd onto notOnto
  | last none =>
    rw [none] at isSucc
    cases isSucc

theorem Entered.next (rooted : Rooted net root spt) {context : FibContext I} (entered : Entered net root spt context)
    {s : Pfx} (isSucc : s ∈ succsOf spt context.vertex) :
    ∃ next, next.vertex = s ∧ Hands net spt context next := by
  obtain ⟨vertex, found, member⟩ : ∃ vertex, spt.lookup context.vertex = some vertex ∧ s ∈ vertex.succs := by
    cases found : spt.lookup context.vertex with
    | none => simp [succsOf, found] at isSucc
    | some vertex => exact ⟨vertex, rfl, by rwa [succsOf, found] at isSucc⟩
  obtain ⟨succ, atS⟩ : ∃ succ, spt.lookup s = some succ := by
    have higher := rooted.rising.succ found member
    cases atS : spt.lookup s with
    | none => simp [rankAt, atS] at higher
    | some succ => exact ⟨succ, rfl⟩
  have elemS : elemOf spt s = some succ.elem := by rw [elemOf, atS]; rfl
  have entry : ∃ entry, nextEntry net vertex context.rtentry succ.elem = .ok entry := by
    cases entered with
    | root =>
      obtain ⟨elem, atElem, leads⟩ := rooted.first s isSucc
      rw [elemS, Option.some.injEq] at atElem
      obtain ⟨i, leads⟩ := Option.isSome_iff_exists.mp leads
      exact ⟨_, (nextEntry_none (lookup_elem rooted.elem found)).mpr ⟨i, atElem ▸ leads, rfl⟩⟩
    | @subnet s' rtentry _ atSubnet =>
      by_cases onto : OntoSubnet net rtentry
      · obtain ⟨m, atM, _, leads⟩ := rooted.across atSubnet isSucc
        rw [elemS, Option.some.injEq] at atM
        obtain ⟨k, leads⟩ := Option.isSome_iff_exists.mp leads
        exact ⟨_, nextEntry_some.mpr (.inr ⟨onto, s', k, lookup_elem atSubnet found, atM ▸ leads, rfl⟩)⟩
      · exact ⟨_, nextEntry_some.mpr (.inl ⟨onto, rfl⟩)⟩
    | found notOnto => exact ⟨_, nextEntry_some.mpr (.inl ⟨notOnto, rfl⟩)⟩
    | last none =>
      rw [none] at isSucc
      cases isSucc
  obtain ⟨entry, given⟩ := entry
  exact ⟨⟨s, some entry⟩, rfl, vertex, found, member, succ, entry, atS, given, rfl⟩

/-- What the walk comes to, when it passes everything. -/
theorem Stacked.reached (clear : Clear net order spt (⟨elemKey net (.node root), none⟩, 0)) {key : Pfx}
    {below : ℕ} (stacked : Stacked order spt (elemKey net (.node root)) key below) :
    below < stackDepth ∧ ∃ rtentry, ReflTransGen (StackStep net order spt) (⟨elemKey net (.node root), none⟩, 0)
      (⟨key, rtentry⟩, below) := by
  induction stacked with
  | start => exact ⟨by decide, none, .refl⟩
  | @succ key s below before after _ split inductionHypothesis =>
    obtain ⟨_, rtentry, path⟩ := inductionHypothesis
    obtain ⟨room, ⟨_, rtentry'⟩, rfl, hands⟩ := (clear _ path).2 before s after split
    exact ⟨room, rtentry', path.tail ⟨before, after, split, rfl, hands⟩⟩

/-- A router that stands behind the address 0.0.0.0 cannot hand anything on. -/
theorem Clear.gateways (rooted : Rooted net root spt)
    (clear : Clear net order spt (⟨elemKey net (.node root), none⟩, 0)) : GatewaysNamed net root spt := by
  intro s m k isFirst atSubnet isSecond across unnamed
  -- the walk from the root over the subnet to the router
  have pushes {context : FibContext I} {below : ℕ} {key : Pfx}
      (path : ReflTransGen (StackStep net order spt) (⟨elemKey net (.node root), none⟩, 0) (context, below))
      (isSucc : key ∈ succsOf spt context.vertex) : ∃ rtentry below', Hands net spt context ⟨key, rtentry⟩ ∧
        ReflTransGen (StackStep net order spt) (⟨elemKey net (.node root), none⟩, 0) (⟨key, rtentry⟩, below') := by
    obtain ⟨before, after, split⟩ := List.append_of_mem (order.mem_order.mpr isSucc)
    obtain ⟨_, ⟨_, rtentry⟩, rfl, hands⟩ := (clear _ path).2 before key after split
    exact ⟨rtentry, _, hands, path.tail ⟨before, after, split, rfl, hands⟩⟩
  obtain ⟨first, below, handsFirst, path⟩ := pushes .refl isFirst
  obtain ⟨second, below', handsSecond, path'⟩ := pushes path isSecond
  obtain ⟨vertex, found, _, succ, entry, foundSubnet, given, rfl⟩ := handsFirst
  rw [lookup_elem atSubnet foundSubnet] at given
  obtain ⟨i, leads, rfl⟩ := (nextEntry_none (lookup_elem rooted.elem found)).mp given
  have onto : OntoSubnet net ⟨i, netAddrAny⟩ := by
    have matched := List.find?_some leads
    simp only [Bool.and_eq_true, decide_eq_true_eq] at matched
    exact ⟨matched.2.1, rfl⟩
  obtain ⟨vertex', found', _, succ', entry', foundRouter, given', rfl⟩ := handsSecond
  obtain ⟨m', atRouter, same, _⟩ := rooted.across atSubnet isSecond
  cases elemKey_node_inj same
  rw [lookup_elem atRouter foundRouter] at given'
  obtain ⟨notOnto, _⟩ | ⟨_, s', k', isSubnet, across', rfl⟩ := nextEntry_some.mp given'
  · exact absurd onto notOnto
  rw [lookup_elem atSubnet found'] at isSubnet
  cases isSubnet
  rw [across, Option.some.injEq] at across'
  subst across'
  -- its successors find no subnet to cross
  refine List.eq_nil_iff_forall_not_mem.mpr fun key isThird => ?_
  obtain ⟨_, _, handsThird, _⟩ := pushes path' isThird
  obtain ⟨vertex'', found'', _, succ'', entry'', _, given'', _⟩ := handsThird
  obtain ⟨notOnto, _⟩ | ⟨_, s', _, isSubnet, _⟩ := nextEntry_some.mp given''
  · exact notOnto ⟨onto.1, unnamed⟩
  · rw [lookup_elem atRouter found''] at isSubnet
    cases isSubnet

/-- When the stack has room and the gateways have addresses, nothing fails. -/
theorem Rooted.clear (rooted : Rooted net root spt) (fits : WalkFits net order root spt)
    (gateways : GatewaysNamed net root spt) : Clear net order spt (⟨elemKey net (.node root), none⟩, 0) := by
  intro later path
  have reached : later.1.vertex ∈ spt ∧ Stacked order spt (elemKey net (.node root)) later.1.vertex later.2 ∧
      Entered net root spt later.1 := by
    induction path with
    | refl => exact ⟨elemOf_isSome.mp ⟨_, rooted.elem⟩, .start, .root⟩
    | tail _ pushes inductionHypothesis =>
      obtain ⟨_, stacked, entered⟩ := inductionHypothesis
      obtain ⟨before, after, split, depth, hands⟩ := pushes
      refine ⟨?_, depth ▸ stacked.succ split, entered.hands rooted gateways hands⟩
      obtain ⟨_, _, _, succ, _, found, _⟩ := hands
      rw [← AList.lookup_isSome, found, Option.isSome_some]
  obtain ⟨present, stacked, entered⟩ := reached
  refine ⟨present, fun before s after split => ⟨fits s _ (stacked.succ split), entered.next rooted ?_⟩⟩
  rw [← order.mem_order, split]
  simp

/-- The walk over the tree of a search ends in a forwarding table exactly when the stack has room and the routers
behind a subnet that go on have an address there. -/
theorem sptComputeFib_ok_iff (rooted : Rooted net root spt) :
    (∃ fuel fib, ∀ more, fuel ≤ more → sptComputeFib net order root spt more = .ok fib) ↔
      WalkFits net order root spt ∧ GatewaysNamed net root spt := by
  constructor
  · rintro ⟨fuel, fib, ended⟩
    have clear : Clear net order spt (⟨elemKey net (.node root), none⟩, 0) :=
      (fibLoop_clear (ended fuel (Nat.le_refl _))).1
    exact ⟨fun key below stacked => (stacked.reached clear).1, clear.gateways rooted⟩
  · rintro ⟨fits, gateways⟩
    obtain ⟨fuel, result, stable, ended⟩ := sptComputeFib_settles net order rooted.rising root
    cases result with
    | ok fib => exact ⟨fuel, fib, stable⟩
    | error fault =>
      have clear : AllClear net order spt [⟨elemKey net (.node root), none⟩] :=
        ⟨rooted.clear fits gateways, trivial⟩
      exact absurd (congrArg Except.error (fibLoop_passes clear (stable fuel (Nat.le_refl _)))) ended

end Walk

end Cbgp.Verified
