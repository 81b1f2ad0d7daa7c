import Cbgp.Verified.SptSearch

/-! # The search finds the shortest paths

The labels of the tree satisfy the invariant of a label-correcting search (`Relaxation.Sound`),
where the edges still to be relaxed are those out of the vertices in the queue.  Which element stands
under a key is fixed when its vertex is created; the argument `elemAt` says which it is, so that the
edges do not change while the search runs.

A link back to where a vertex was reached from is not traversed.  This loses nothing: the last
context of a vertex in the queue was pushed with the weight the vertex still has, so the end of that
link is nearer than the vertex (`Harmless`).

On a domain of routers, router-to-router links and subnets the tree is the shortest-path tree
(`sptBfs_shortest_paths`).
-/

namespace Cbgp.Verified

open Cbgp.Lib Cbgp.Net

variable {N I S : Type} [DecidableEq I]

/-! ## The labels of a search -/

section Labels

variable (net : Topology N I S) (domain : List N) (root : N) (elemAt : Pfx → Option (NetElem N I S))

/-- An edge between two keys. -/
def Edge (a b : Pfx) (cost : ℕ) : Prop :=
  ∃ src link next, elemAt a = some src ∧ link ∈ linksOf net src ∧
    hop net domain src link = some (next, cost) ∧ elemKey net next = b

/-- The element of each vertex is the one expected under its key. -/
def Agrees (spt : Spt N I S) : Prop :=
  ∀ k e, elemOf spt k = some e → elemAt k = some e

/-- Following a link and then the link back leads home, at some cost. -/
def Homeward : Prop :=
  ∀ {k src link next cost dst link' next' cost'},
    elemAt k = some src → link ∈ linksOf net src → hop net domain src link = some (next, cost) →
    elemAt (elemKey net next) = some dst → link' ∈ linksOf net dst →
    net.destIface link = some link' → hop net domain dst link' = some (next', cost') →
    elemKey net next' = k ∧ 0 < cost + cost'

/-- The link back from a context leads to a vertex that is nearer. -/
def Harmless (spt : Spt N I S) (context : SptContext I) : Prop :=
  ∀ src link next cost d, elemAt context.vertex = some src → link ∈ linksOf net src →
    context.iif.bind net.destIface = some link → hop net domain src link = some (next, cost) →
    distOf spt context.vertex = some d →
    ∃ d', distOf spt (elemKey net next) = some d' ∧ d' < d + cost

/-- A search whose labels are sound up to the edges `todo`, and whose queue ends, for each vertex,
with a context whose link back is harmless. -/
structure Labelled (todo : Pfx → Pfx → ℕ → Prop) (comp : SptComp N I S) : Prop where
  sound : Relaxation.Sound (Edge net domain elemAt) (elemKey net (.node root)) maxCost
    (distOf comp.spt) (fun b a => a ∈ predsOf comp.spt b) todo
  latest : ∀ before context after, comp.fifo = before ++ context :: after →
    (∀ c ∈ after, c.vertex ≠ context.vertex) → Harmless net domain elemAt comp.spt context

/-- The edges out of the vertices in the queue. -/
def Queued (fifo : List (SptContext I)) (a _b : Pfx) (_cost : ℕ) : Prop :=
  ∃ c ∈ fifo, c.vertex = a

/-- The edges left while a vertex is visited: those of the queue and those along `links`. -/
def Pending (fifo : List (SptContext I)) (vertex : Pfx) (src : NetElem N I S) (links : List I)
    (a b : Pfx) (cost : ℕ) : Prop :=
  Queued fifo a b cost ∨ a = vertex ∧
    ∃ link ∈ links, ∃ next, hop net domain src link = some (next, cost) ∧ elemKey net next = b

/-- A search that visits the vertex of a context and has `links` left to traverse. -/
structure Visiting (context : SptContext I) (src : NetElem N I S) (links : List I)
    (comp : SptComp N I S) : Prop
    extends Labelled net domain root elemAt
      (Pending net domain comp.fifo context.vertex src links) comp where
  current : (∀ c ∈ comp.fifo, c.vertex ≠ context.vertex) →
    Harmless net domain elemAt comp.spt context

variable {net domain root elemAt}

omit [DecidableEq I] in
/-- A link that leads nowhere leaves nothing to do. -/
theorem pending_filtered {fifo : List (SptContext I)} {vertex : Pfx} {src : NetElem N I S}
    {link : I} {links : List I} (closed : hop net domain src link = none) {a b : Pfx} {cost : ℕ}
    (pending : Pending net domain fifo vertex src (link :: links) a b cost) :
    Pending net domain fifo vertex src links a b cost := by
  rcases pending with queued | ⟨same, link', member, next, passes, key⟩
  · exact .inl queued
  · rcases List.mem_cons.mp member with rfl | member
    · rw [closed] at passes
      cases passes
    · exact .inr ⟨same, link', member, next, passes, key⟩

omit [DecidableEq I] in
/-- Apart from the edge of a link, what the link leaves is left by the links after it. -/
theorem pending_tail {fifo : List (SptContext I)} {vertex : Pfx} {src next : NetElem N I S}
    {link : I} {links : List I} {cost : ℕ} (passes : hop net domain src link = some (next, cost))
    {a b : Pfx} {c : ℕ} (pending : Pending net domain fifo vertex src (link :: links) a b c)
    (other : ¬ (a = vertex ∧ b = elemKey net next ∧ c = cost)) :
    Pending net domain fifo vertex src links a b c := by
  rcases pending with queued | ⟨same, link', member, next', passes', key⟩
  · exact .inl queued
  · rcases List.mem_cons.mp member with rfl | member
    · rw [passes, Option.some.injEq, Prod.mk.injEq] at passes'
      obtain ⟨rfl, rfl⟩ := passes'
      exact absurd ⟨same, key.symm, rfl⟩ other
    · exact .inr ⟨same, link', member, next', passes', key⟩

omit [DecidableEq I] in
/-- What is harmless stays harmless when another vertex comes nearer. -/
theorem Harmless.improved {spt spt' : Spt N I S} {context : SptContext I} {next : NetElem N I S}
    {prev : Pfx} {w : UInt32} (harmless : Harmless net domain elemAt spt context)
    (better : ∀ w', weightOf spt (elemKey net next) = some w' → w < w')
    (improved : Improved net next prev w spt spt') (other : context.vertex ≠ elemKey net next) :
    Harmless net domain elemAt spt' context := by
  intro src link next' cost d atElem out back passes labelled
  rw [distOf_improved improved] at labelled ⊢
  rw [Function.update_of_ne other] at labelled
  obtain ⟨d', nearer, less⟩ := harmless src link next' cost d atElem out back passes labelled
  by_cases same : elemKey net next' = elemKey net next
  · rw [same, Function.update_self]
    rw [same] at nearer
    obtain ⟨w', known, rfl⟩ := distOf_eq_some.mp nearer
    have lower : w.toNat < w'.toNat := better w' known
    exact ⟨_, rfl, by omega⟩
  · rw [Function.update_of_ne same]
    exact ⟨d', nearer, less⟩

omit [DecidableEq I] in
theorem Harmless.joined {spt spt' : Spt N I S} {context : SptContext I} {next : NetElem N I S}
    {prev : Pfx} (harmless : Harmless net domain elemAt spt context)
    (joined : Joined net next prev spt spt') : Harmless net domain elemAt spt' context := by
  intro src link next' cost d
  rw [distOf_joined joined]
  exact harmless src link next' cost d

omit [DecidableEq I] in
/-- Where an element stands in a list that has just got one more at its end. -/
theorem last_of_append {fifo before after : List (SptContext I)} {new c : SptContext I}
    (split : fifo ++ [new] = before ++ c :: after) :
    c = new ∨ ∃ front, after = front ++ [new] ∧ fifo = before ++ c :: front := by
  rcases List.eq_nil_or_concat after with rfl | ⟨front, final, rfl⟩
  · obtain ⟨_, same⟩ := List.append_inj' split rfl
    exact .inl (List.singleton_inj.mp same).symm
  · rw [List.concat_eq_append, ← List.cons_append, ← List.append_assoc] at split
    obtain ⟨queue, same⟩ := List.append_inj' split rfl
    exact .inr ⟨front, by rw [List.singleton_inj.mp same, List.concat_eq_append], queue⟩

/-! ## Traversing a link -/

variable {comp comp' : SptComp N I S} {context : SptContext I} {src : NetElem N I S} {link : I}
  {links : List I}

omit [DecidableEq I] in
/-- An edge that need not be relaxed is dropped. -/
theorem Visiting.skip (visiting : Visiting net domain root elemAt context src (link :: links) comp)
    {next : NetElem N I S} {cost : ℕ} (passes : hop net domain src link = some (next, cost))
    (dominated : ∀ d, distOf comp.spt context.vertex = some d → d + cost < maxCost →
      ∃ e, distOf comp.spt (elemKey net next) = some e ∧ e < d + cost) :
    Visiting net domain root elemAt context src links comp where
  sound := (visiting.sound.skip dominated).mono fun _ left => pending_tail passes left.1 left.2
  latest := visiting.latest
  current := visiting.current

theorem linkTraverse_visiting (homeward : Homeward net domain elemAt)
    (shape : Shape net domain root comp) (agrees : Agrees elemAt comp.spt)
    (agrees' : Agrees elemAt comp'.spt) (atElem : elemOf comp.spt context.vertex = some src)
    (out : link ∈ linksOf net src)
    (visiting : Visiting net domain root elemAt context src (link :: links) comp)
    (stepped : linkTraverse net domain context comp link = .ok comp') :
    Visiting net domain root elemAt context src links comp' := by
  have atKey := agrees _ _ atElem
  obtain ⟨weight, atWeight⟩ := weightOf_isSome.mpr (elemOf_isSome.mp ⟨src, atElem⟩)
  have atDist : distOf comp.spt context.vertex = some weight.toNat := by
    rw [distOf, atWeight, Option.map_some]
  have traversed : Traversed net domain context comp src weight link
      (linkTraverse net domain context comp link) :=
    linkTraverse_traversed link shape.linked atElem atWeight (shape.light atWeight)
  rw [stepped] at traversed
  cases traversed with
  | filtered closed =>
    exact { sound := visiting.sound.mono fun _ => pending_filtered closed
            latest := visiting.latest
            current := visiting.current }
  | @back next cost passes home =>
    by_cases again : ∃ c ∈ comp.fifo, c.vertex = context.vertex
    · -- the vertex will be visited once more
      refine { sound := visiting.sound.mono fun {a b c} _ pending => ?_
               latest := visiting.latest
               current := visiting.current }
      by_cases same : a = context.vertex ∧ b = elemKey net next ∧ c = cost
      · exact .inl (same.1 ▸ again)
      · exact pending_tail passes pending same
    · push Not at again
      refine visiting.skip passes fun d labelled _ => ?_
      exact visiting.current again src link next cost d atKey out home passes labelled
  | @saturated next cost passes full =>
    refine visiting.skip passes fun d labelled below => ?_
    rw [atDist, Option.some.injEq] at labelled
    omega
  | @worse next cost w passes known less =>
    refine visiting.skip passes fun d labelled _ => ?_
    rw [atDist, Option.some.injEq] at labelled
    subst labelled
    exact ⟨w.toNat, distOf_eq_some.mpr ⟨w, known, rfl⟩, less⟩
  | @equal next cost w spt' passes known sum joined =>
    have isEdge : Edge net domain elemAt context.vertex (elemKey net next) cost :=
      ⟨src, link, next, atKey, out, passes, rfl⟩
    have atNext : distOf comp.spt (elemKey net next) = some (weight.toNat + cost) :=
      distOf_eq_some.mpr ⟨w, known, sum⟩
    have tied := visiting.sound.tie atDist isEdge atNext
    refine { sound := ?_, latest := ?_, current := ?_ }
    · have same : (fun b a => a ∈ predsOf spt' b) =
          fun b a => a ∈ predsOf comp.spt b ∨ b = elemKey net next ∧ a = context.vertex := by
        funext b a
        exact propext (joined.preds b a)
      dsimp only
      rw [distOf_joined joined, same]
      exact tied.mono fun _ left => pending_tail passes left.1 left.2
    · intro before c after split last
      exact (visiting.latest before c after split last).joined joined
    · intro alone
      exact (visiting.current alone).joined joined
  | @improved next cost w spt' passes sum below better improved =>
    have isEdge : Edge net domain elemAt context.vertex (elemKey net next) cost :=
      ⟨src, link, next, atKey, out, passes, rfl⟩
    have limit : weight.toNat + cost < maxCost := sum ▸ below
    have nearer : ∀ e, distOf comp.spt (elemKey net next) = some e → weight.toNat + cost < e := by
      intro e atNext
      obtain ⟨w', known, rfl⟩ := distOf_eq_some.mp atNext
      exact sum ▸ better w' known
    have lowered := visiting.sound.improve atDist isEdge limit nearer
    have notSelf : context.vertex ≠ elemKey net next := by
      intro same
      have := nearer weight.toNat (same ▸ atDist)
      omega
    -- the new context: its link back leads to the vertex that is being visited
    have fresh : Harmless net domain elemAt spt' ⟨some link, elemKey net next⟩ := by
      intro dst link' next' cost' d atNext out' back passes' labelled
      obtain ⟨home, positive⟩ := homeward atKey out passes atNext out' back passes'
      rw [distOf_improved improved] at labelled ⊢
      rw [Function.update_self, Option.some.injEq] at labelled
      rw [home, Function.update_of_ne notSelf, atDist]
      exact ⟨_, rfl, by omega⟩
    refine { sound := ?_, latest := ?_, current := ?_ }
    · have same : (fun b a => a ∈ predsOf spt' b) = fun b a =>
          if b = elemKey net next then a = context.vertex else a ∈ predsOf comp.spt b := by
        funext b a
        exact propext (improved.preds b a)
      dsimp only
      rw [distOf_improved improved, same, sum]
      refine lowered.mono fun {a b c} _ left => ?_
      rcases left with ⟨pending, other⟩ | rfl
      · rcases pending_tail passes pending other with ⟨c, member, key⟩ | tail
        · exact .inl ⟨c, List.mem_append_left _ member, key⟩
        · exact .inr tail
      · exact .inl ⟨_, List.mem_append_right _ (List.mem_singleton_self _), rfl⟩
    · intro before c after split last
      dsimp only at split
      rcases last_of_append split with rfl | ⟨front, rfl, queue⟩
      · exact fresh
      · have earlier : ∀ x ∈ front, x.vertex ≠ c.vertex := fun x member =>
          last x (List.mem_append_left _ member)
        have other : c.vertex ≠ elemKey net next :=
          (last _ (List.mem_append_right _ (List.mem_singleton_self _))).symm
        exact (visiting.latest before c front queue earlier).improved better improved other
    · intro alone
      have other : context.vertex ≠ elemKey net next := notSelf
      refine (visiting.current fun c member => ?_).improved better improved other
      exact alone c (List.mem_append_left _ member)

/-! ## Visiting vertices -/

theorem visiting_loop (homeward : Homeward net domain elemAt) (shape : Shape net domain root comp)
    (agrees' : Agrees elemAt comp'.spt) (atElem : elemOf comp.spt context.vertex = some src)
    (out : ∀ link ∈ links, link ∈ linksOf net src)
    (visiting : Visiting net domain root elemAt context src links comp)
    (stepped : links.foldlM (linkTraverse net domain context) comp = .ok comp') :
    Visiting net domain root elemAt context src [] comp' := by
  induction links generalizing comp with
  | nil =>
    cases stepped
    exact visiting
  | cons link links inductionHypothesis =>
    rw [List.foldlM_cons, except_bind_eq_ok] at stepped
    obtain ⟨mid, first, rest⟩ := stepped
    have here := out link List.mem_cons_self
    have later : ∀ link ∈ links, link ∈ linksOf net src := fun link member =>
      out link (List.mem_cons_of_mem _ member)
    obtain ⟨shapeMid, toMid⟩ := (linkTraverse_shape shape atElem here).value first
    have atElemMid := toMid.grows atElem
    obtain ⟨_, toEnd⟩ := (linkTraverse_loop shapeMid atElemMid later).value rest
    have agreesMid : Agrees elemAt mid.spt := fun k e atK => agrees' k e (toEnd.grows atK)
    have agrees : Agrees elemAt comp.spt := fun k e atK => agreesMid k e (toMid.grows atK)
    exact inductionHypothesis shapeMid atElemMid later
      (linkTraverse_visiting homeward shape agrees agreesMid atElem here visiting first) rest

/-- A turn of the main loop keeps the labels sound up to the queue. -/
theorem sptTurn_labelled (homeward : Homeward net domain elemAt)
    (shape : Shape net domain root comp) (agrees' : Agrees elemAt comp'.spt)
    {rest : List (SptContext I)} (queue : comp.fifo = context :: rest)
    (labelled : Labelled net domain root elemAt (Queued comp.fifo) comp)
    (stepped : sptTurn net domain comp context rest = .ok comp') :
    Labelled net domain root elemAt (Queued comp'.fifo) comp' := by
  obtain ⟨_, advance⟩ := (sptTurn_shape shape queue).value stepped
  obtain ⟨src, atElem⟩ := elemOf_isSome.mpr (shape.queued context (by simp [queue]))
  have atKey := agrees' _ _ (advance.grows atElem)
  obtain ⟨vertex, found, rfl⟩ := Option.map_eq_some_iff.mp atElem
  simp only [sptTurn, found] at stepped
  rw [except_bind_eq_ok] at stepped
  obtain ⟨list, links, loop⟩ := stepped
  have listed : linksOf net vertex.elem = list := by rw [linksOf, links]
  have start : Visiting net domain root elemAt context vertex.elem list { comp with fifo := rest } := by
    refine { sound := labelled.sound.mono fun {a b c} isEdge pending => ?_
             latest := ?_
             current := ?_ }
    · obtain ⟨x, member, key⟩ := pending
      rw [queue, List.mem_cons] at member
      rcases member with rfl | member
      · -- the edges of the vertex that is taken from the queue
        obtain ⟨src, link, next, atA, out, passes, head⟩ := isEdge
        rw [← key, atKey, Option.some.injEq] at atA
        subst atA
        exact .inr ⟨key.symm, link, listed ▸ out, next, passes, head⟩
      · exact .inl ⟨x, member, key⟩
    · intro before c after split last
      dsimp only at split
      refine labelled.latest (context :: before) c after ?_ last
      rw [queue, split, List.cons_append]
    · intro alone
      exact labelled.latest [] context rest queue alone
  have final := visiting_loop homeward (shape.pop queue) agrees' atElem
    (fun link member => listed ▸ member) start loop
  refine { sound := final.sound.mono fun _ pending => ?_, latest := final.latest }
  rcases pending with queued | ⟨_, _, member, _⟩
  · exact queued
  · cases member

/-- The first turn of a search that has ended. -/
theorem sptLoop_cases {fuel : ℕ} {spt : Spt N I S} (ended : sptLoop net domain fuel comp = .ok spt) :
    comp.fifo = [] ∧ comp.spt = spt ∨
      ∃ context rest comp' fuel', comp.fifo = context :: rest ∧ fuel = fuel' + 1 ∧
        sptTurn net domain comp context rest = .ok comp' ∧
        sptLoop net domain fuel' comp' = .ok spt := by
  unfold sptLoop at ended
  split at ended
  next queue =>
    cases ended
    exact .inl ⟨queue, rfl⟩
  next context rest queue =>
    cases fuel with
    | zero => cases ended
    | succ fuel =>
      obtain ⟨comp', turn, later⟩ := except_bind_eq_ok.mp ended
      exact .inr ⟨context, rest, comp', fuel, queue, rfl, turn, later⟩

theorem sptLoop_shape {fuel : ℕ} {spt : Spt N I S} (shape : Shape net domain root comp)
    (ended : sptLoop net domain fuel comp = .ok spt) :
    Shape net domain root { spt := spt, fifo := [] } ∧
      ∀ {k e}, elemOf comp.spt k = some e → elemOf spt k = some e := by
  induction fuel generalizing comp with
  | zero =>
    rcases sptLoop_cases ended with ⟨queue, rfl⟩ | ⟨_, _, _, _, _, none, _⟩
    · exact ⟨{ shape with queued := by simp }, id⟩
    · cases none
  | succ fuel inductionHypothesis =>
    rcases sptLoop_cases ended with ⟨queue, rfl⟩ | ⟨_, _, comp', _, queue, same, turn, later⟩
    · exact ⟨{ shape with queued := by simp }, id⟩
    · cases same
      obtain ⟨shape', advance⟩ := (sptTurn_shape shape queue).value turn
      obtain ⟨final, grows⟩ := inductionHypothesis shape' later
      exact ⟨final, fun atK => grows (advance.grows atK)⟩

omit [DecidableEq I] in
theorem Labelled.finished (labelled : Labelled net domain root elemAt (Queued comp.fifo) comp)
    (queue : comp.fifo = []) :
    Relaxation.Sound (Edge net domain elemAt) (elemKey net (.node root)) maxCost (distOf comp.spt)
      (fun b a => a ∈ predsOf comp.spt b) fun _ _ _ => False := by
  refine labelled.sound.mono fun _ pending => ?_
  rw [queue] at pending
  obtain ⟨_, member, _⟩ := pending
  cases member

/-- A search that has ended: every label is final. -/
theorem sptLoop_labelled (homeward : Homeward net domain elemAt)
    (shape : Shape net domain root comp) {fuel : ℕ} {spt : Spt N I S} (agrees : Agrees elemAt spt)
    (labelled : Labelled net domain root elemAt (Queued comp.fifo) comp)
    (ended : sptLoop net domain fuel comp = .ok spt) :
    Relaxation.Sound (Edge net domain elemAt) (elemKey net (.node root)) maxCost (distOf spt)
      (fun b a => a ∈ predsOf spt b) fun _ _ _ => False := by
  induction fuel generalizing comp with
  | zero =>
    rcases sptLoop_cases ended with ⟨queue, rfl⟩ | ⟨_, _, _, _, _, none, _⟩
    · exact labelled.finished queue
    · cases none
  | succ fuel inductionHypothesis =>
    rcases sptLoop_cases ended with ⟨queue, rfl⟩ | ⟨_, _, comp', _, queue, same, turn, later⟩
    · exact labelled.finished queue
    · cases same
      obtain ⟨shape', _⟩ := (sptTurn_shape shape queue).value turn
      obtain ⟨_, grows⟩ := sptLoop_shape shape' later
      have agrees' : Agrees elemAt comp'.spt := fun k e atK => agrees k e (grows atK)
      exact inductionHypothesis shape'
        (sptTurn_labelled homeward shape agrees' queue labelled turn) later

omit [DecidableEq I] in
/-- The start of a search. -/
theorem sptStart_labelled :
    Labelled net domain root elemAt (Queued (sptStart net root).fifo) (sptStart net root) where
  sound := by
    have atRoot : distOf (sptStart net root).spt (elemKey net (.node root)) = some 0 := by
      rw [distOf, weightOf, sptStart, AList.lookup_insert]
      rfl
    have only : ∀ {k d}, distOf (sptStart net root).spt k = some d →
        k = elemKey net (.node root) ∧ d = 0 := by
      intro k d labelled
      by_cases same : k = elemKey net (.node root)
      · rw [same, atRoot, Option.some.injEq] at labelled
        exact ⟨same, labelled.symm⟩
      · rw [distOf, weightOf, sptStart, AList.lookup_insert_ne same] at labelled
        simp at labelled
    have noPreds : ∀ {b a}, a ∉ predsOf (sptStart net root).spt b := by
      intro b a
      by_cases same : b = elemKey net (.node root)
      · rw [predsOf, same, sptStart, AList.lookup_insert]
        simp
      · rw [predsOf, sptStart, AList.lookup_insert_ne same]
        simp
    refine (Relaxation.Sound.start only atRoot noPreds).mono ?_
    rintro a b c _ rfl
    exact ⟨_, List.mem_singleton_self _, rfl⟩
  latest := by
    intro before context after split _ src link next cost d _ _ back
    -- the first context has no incoming interface
    have only : context ∈ (sptStart net root).fifo := by rw [split]; simp
    rw [sptStart, List.mem_singleton] at only
    subst only
    cases back

end Labels

/-! ## Domains of routers and subnets -/

section Domain

/-- An interface that a path may go through. -/
def Usable (net : Topology N I S) (i : I) : Prop :=
  (net.iface i).enabled = true ∧ (net.iface i).connected = true ∧
    (net.iface i).metric ≠ 0 ∧ (net.iface i).metric ≠ igpMaxWeight

/-- One hop of a path in a domain, with its cost: along a router-to-router link, onto a subnet, or
from a transit subnet to a router, which is free. -/
inductive Hop (net : Topology N I S) (domain : List N) :
    NetElem N I S → NetElem N I S → ℕ → Prop where
  | router {n : N} {i j : I} : i ∈ net.ifaces n → (net.iface i).type = .rtr → Usable net i →
      net.destIface i = some j → (net.iface j).owner ∈ domain →
      Hop net domain (.node n) (.node (net.iface j).owner) (net.iface i).metric.toNat
  | enter {n : N} {i : I} {s : S} : i ∈ net.ifaces n → (net.iface i).type = .ptmp → Usable net i →
      net.destSubnet i = some s →
      Hop net domain (.node n) (.subnet s) (net.iface i).metric.toNat
  | leave {s : S} {i : I} : net.subnetTransit s = true → i ∈ net.subnetIfaces s → Usable net i →
      (net.iface i).owner ∈ domain → Hop net domain (.subnet s) (.node (net.iface i).owner) 0

/-- The paths from a router, with their cost, which stays below `IGP_MAX_WEIGHT`. -/
def Path (net : Topology N I S) (domain : List N) (root : N) : NetElem N I S → ℕ → Prop :=
  Relaxation.Walk (Hop net domain) (.node root) maxCost

/-- A domain, seen from a router, whose links are router-to-router links connected both ways and
links to subnets. -/
structure RouterSubnetDomain (net : Topology N I S) (domain : List N) (root : N) : Prop where
  linked : ∀ n, n = root ∨ n ∈ domain → ∀ i ∈ net.ifaces n, (net.iface i).type = .rtr →
    ∃ j, net.destIface i = some j ∧ net.destIface j = some i
  noPtp : ∀ n, n = root ∨ n ∈ domain → ∀ i ∈ net.ifaces n, (net.iface i).type ≠ .ptp

/-- What a shortest-path tree is: it has a vertex for each element that a path reaches, under the key
of the element; the weight of a vertex is the least cost of a path, and its predecessors are the
vertices of the tree from which a hop of the right cost leads to it. -/
structure ShortestPathTree (net : Topology N I S) (domain : List N) (root : N) (spt : Spt N I S) :
    Prop where
  keyed : ∀ k x, spt.lookup k = some x → elemKey net x.elem = k
  vertex_iff : ∀ elem, (∃ x, spt.lookup (elemKey net elem) = some x ∧ x.elem = elem) ↔
    ∃ cost, Path net domain root elem cost
  weight : ∀ k x, spt.lookup k = some x → Path net domain root x.elem x.weight.toNat ∧
    ∀ cost, Path net domain root x.elem cost → x.weight.toNat ≤ cost
  preds : ∀ k x, spt.lookup k = some x → ∀ p, p ∈ x.preds ↔
    ∃ y cost, spt.lookup p = some y ∧ Hop net domain y.elem x.elem cost ∧
      y.weight.toNat + cost = x.weight.toNat

variable {net : Topology N I S} {domain : List N} {root : N}

omit [DecidableEq I]

/-! ### Keys -/

/-- Routers have keys of their own. -/
theorem elemKey_node_inj {n m : N} (same : elemKey net (.node n) = elemKey net (.node m)) : n = m := by
  have all : ipAddressMask 32 = 0xffffffff := by decide
  have network := congrArg Pfx.network same
  simp only [elemKey, netElemPrefix, ipPrefixMask, all] at network
  apply net.rid_injective
  have neutral : ∀ x : UInt32, x &&& 0xffffffff = x := by
    intro x
    exact UInt32.and_neg_one
  rwa [neutral, neutral] at network

theorem elemKey_node_ne_subnet {n : N} {s : S} :
    elemKey net (.node n) ≠ elemKey net (.subnet s) := by
  intro same
  have masks := congrArg Pfx.mask same
  have short := net.subnet_mask s
  simp only [elemKey, netElemPrefix, ipPrefixMask] at masks
  omega

theorem elemKey_subnet_inj {s t : S} (same : elemKey net (.subnet s) = elemKey net (.subnet t)) :
    s = t :=
  net.subnet_injective same

/-- The element under a key, among those a search can meet. -/
def knownAt (net : Topology N I S) (domain : List N) (root : N) (k : Pfx) : Option (NetElem N I S) :=
  (knownElems net domain root).find? fun e => elemKey net e = k

section Plain

variable (plain : RouterSubnetDomain net domain root)

include plain

theorem RouterSubnetDomain.no_link {i : I} : .link i ∉ knownElems net domain root := by
  intro known
  obtain ⟨n, j, member, owned, type, _⟩ := link_known.mp known
  exact plain.noPtp n member j owned type

theorem RouterSubnetDomain.wired : Wired net domain root := by
  intro n member i owned type
  rcases type with rtr | ptp
  · exact plain.linked n member i owned rtr
  · exact absurd ptp (plain.noPtp n member i owned)

theorem RouterSubnetDomain.key_inj {e e' : NetElem N I S} (known : e ∈ knownElems net domain root)
    (known' : e' ∈ knownElems net domain root) (same : elemKey net e = elemKey net e') : e = e' := by
  cases e with
  | link i => exact absurd known plain.no_link
  | node n =>
    cases e' with
    | link i => exact absurd known' plain.no_link
    | node m => rw [elemKey_node_inj same]
    | subnet s => exact absurd same elemKey_node_ne_subnet
  | subnet s =>
    cases e' with
    | link i => exact absurd known' plain.no_link
    | node m => exact absurd same.symm elemKey_node_ne_subnet
    | subnet t => rw [elemKey_subnet_inj same]

theorem RouterSubnetDomain.knownAt_iff {k : Pfx} {e : NetElem N I S} :
    knownAt net domain root k = some e ↔ e ∈ knownElems net domain root ∧ elemKey net e = k := by
  constructor
  · intro found
    exact ⟨List.mem_of_find?_eq_some found, by simpa using List.find?_some found⟩
  · rintro ⟨known, key⟩
    have some : (knownAt net domain root k).isSome := by
      rw [knownAt, List.find?_isSome]
      exact ⟨e, known, by simpa using key⟩
    obtain ⟨e', found⟩ := Option.isSome_iff_exists.mp some
    have key' : elemKey net e' = k := by simpa using List.find?_some found
    rw [found, plain.key_inj (List.mem_of_find?_eq_some found) known (key'.trans key.symm)]

/-! ### Hops of the code and hops of the paths -/

theorem RouterSubnetDomain.hop_iff {src next : NetElem N I S} {cost : ℕ}
    (known : src ∈ knownElems net domain root) :
    (∃ link ∈ linksOf net src, hop net domain src link = some (next, cost)) ↔
      Hop net domain src next cost := by
  constructor
  · rintro ⟨link, out, passes⟩
    obtain ⟨leads, unfiltered, rfl⟩ := hop_next passes
    obtain ⟨inside, enabled, connected, weighted⟩ := linkFiltered_eq_false.mp unfiltered
    cases leads with
    | router type dest =>
      exact .router out type ⟨enabled, connected, weighted (by simp)⟩ dest (inside _ rfl)
    | subnet type dest => exact .enter out type ⟨enabled, connected, weighted (by simp)⟩ dest
    -- The domain has no point-to-point links, the only ones whose own vertex would be passed.
    | link type _ => exact absurd type (plain.noPtp _ (node_known.mp known) link out)
    | @leaveSubnet s =>
      simp only [linksOf, outboundLinks] at out
      by_cases transit : net.subnetTransit s = true
      · rw [if_pos transit] at out
        exact .leave transit out ⟨enabled, connected, weighted (by simp)⟩ (inside _ rfl)
      · rw [if_neg transit] at out
        cases out
    | leaveLink _ => exact absurd known plain.no_link
  · intro isHop
    have found : ∀ {link}, LeadsTo net src link next → (∀ n, next = .node n → n ∈ domain) →
        Usable net link → hop net domain src link = some (next, linkCost net src link) := by
      intro link leads inside usable
      have unfiltered : linkFiltered net domain src link next = false :=
        linkFiltered_eq_false.mpr ⟨inside, usable.1, usable.2.1, fun _ => usable.2.2⟩
      rw [hop, linkGetNextElem_some.mpr leads]
      simp only [unfiltered, Bool.false_eq_true, if_false]
    cases isHop with
    | router owned type usable dest inside =>
      exact ⟨_, owned, found (.router type dest) (by rintro _ ⟨⟩; exact inside) usable⟩
    | enter owned type usable dest =>
      exact ⟨_, owned, found (.subnet type dest) (by rintro _ ⟨⟩) usable⟩
    | leave transit attached usable inside =>
      refine ⟨_, by simpa [linksOf, outboundLinks, transit] using attached, ?_⟩
      exact found .leaveSubnet (by rintro _ ⟨⟩; exact inside) usable

theorem RouterSubnetDomain.edge_iff {src : NetElem N I S} {b : Pfx} {cost : ℕ}
    (known : src ∈ knownElems net domain root) :
    Edge net domain (knownAt net domain root) (elemKey net src) b cost ↔
      ∃ next, next ∈ knownElems net domain root ∧ elemKey net next = b ∧
        Hop net domain src next cost := by
  have atKey := plain.knownAt_iff.mpr ⟨known, rfl⟩
  constructor
  · rintro ⟨src', link, next, atKey', out, passes, key⟩
    rw [atKey, Option.some.injEq] at atKey'
    subst atKey'
    exact ⟨next, hop_known known out passes, key, (plain.hop_iff known).mp ⟨link, out, passes⟩⟩
  · rintro ⟨next, _, key, isHop⟩
    obtain ⟨link, out, passes⟩ := (plain.hop_iff known).mpr isHop
    exact ⟨src, link, next, atKey, out, passes, key⟩

/-- The walks of the search are the paths of the domain. -/
theorem RouterSubnetDomain.walk_iff {k : Pfx} {cost : ℕ} :
    Relaxation.Walk (Edge net domain (knownAt net domain root)) (elemKey net (.node root)) maxCost
        k cost ↔
      ∃ elem, elem ∈ knownElems net domain root ∧ elemKey net elem = k ∧
        Path net domain root elem cost := by
  constructor
  · intro walk
    induction walk with
    | start => exact ⟨.node root, node_known.mpr (.inl rfl), rfl, .start⟩
    | step _ isEdge below inductionHypothesis =>
      obtain ⟨elem, known, rfl, path⟩ := inductionHypothesis
      obtain ⟨next, known', key, isHop⟩ := (plain.edge_iff known).mp isEdge
      exact ⟨next, known', key, path.step isHop below⟩
  · rintro ⟨elem, known, rfl, path⟩
    clear known
    suffices both : elem ∈ knownElems net domain root ∧
        Relaxation.Walk (Edge net domain (knownAt net domain root)) (elemKey net (.node root))
          maxCost (elemKey net elem) cost from both.2
    induction path with
    | start => exact ⟨node_known.mpr (.inl rfl), .start⟩
    | @step elem next d c _ isHop below inductionHypothesis =>
      obtain ⟨known, walk⟩ := inductionHypothesis
      obtain ⟨link, out, passes⟩ := (plain.hop_iff known).mpr isHop
      have known' := hop_known known out passes
      exact ⟨known', walk.step ((plain.edge_iff known).mpr ⟨next, known', rfl, isHop⟩) below⟩

theorem RouterSubnetDomain.path_known {elem : NetElem N I S} {cost : ℕ}
    (path : Path net domain root elem cost) : elem ∈ knownElems net domain root := by
  induction path with
  | start => exact node_known.mpr (.inl rfl)
  | step _ isHop _ inductionHypothesis =>
    obtain ⟨link, out, passes⟩ := (plain.hop_iff inductionHypothesis).mpr isHop
    exact hop_known inductionHypothesis out passes

theorem RouterSubnetDomain.homeward : Homeward net domain (knownAt net domain root) := by
  intro k src link next cost dst link' next' cost' atSrc out passes atDst out' back passes'
  obtain ⟨known, key⟩ := plain.knownAt_iff.mp atSrc
  obtain ⟨known', key'⟩ := plain.knownAt_iff.mp atDst
  obtain ⟨leads, _, _⟩ := hop_next passes
  cases leads with
  | @router n _ j type dest =>
    -- the other end of the link belongs to the next router and leads back
    rw [dest, Option.some.injEq] at back
    subst back
    have same := plain.key_inj known' (hop_known known out passes) key'
    subst same
    obtain ⟨_, dest', home⟩ := plain.linked n (node_known.mp known) link out type
    rw [dest, Option.some.injEq] at dest'
    subst dest'
    obtain ⟨leads', _, _⟩ := hop_next passes'
    cases leads' with
    | router _ dest' =>
      rw [home, Option.some.injEq] at dest'
      subst dest'
      rw [net.ifaces_owner n link out]
      refine ⟨key, ?_⟩
      have := hop_cost_pos passes
      omega
    | subnet type' _ =>
      rw [(net.destIface_matches dest).2.1, type] at type'
      cases type'
    | link type' _ =>
      rw [(net.destIface_matches dest).2.1, type] at type'
      cases type'
  | subnet type _ =>
    rcases (net.destIface_matches back).1 with rtr | ptp
    · rw [type] at rtr
      cases rtr
    · rw [type] at ptp
      cases ptp
  | link type _ => exact absurd type (plain.noPtp _ (node_known.mp known) link out)
  | @leaveSubnet s =>
    have attached : link ∈ net.subnetIfaces s := by
      simp only [linksOf, outboundLinks] at out
      split at out
      · exact out
      · cases out
    rw [Topology.destIface, (net.subnet_dest s link attached).2] at back
    cases back
  | leaveLink _ => exact absurd known plain.no_link

end Plain

/-- On a domain of routers, router-to-router links and subnets the search ends, and unless the queue
overflows it returns the shortest-path tree of the root. -/
theorem sptBfs_shortest_paths [DecidableEq I] (net : Topology N I S) (domain : List N) (root : N)
    (plain : RouterSubnetDomain net domain root) :
    ∃ fuel result, (∀ more, fuel ≤ more → sptBfs net domain root more = result) ∧
      (result = .error .fifoFull ∨
        ∃ spt, result = .ok spt ∧ ShortestPathTree net domain root spt) := by
  have shape : Shape net domain root (sptStart net root) := sptStart_shape
  obtain ⟨fuel, result, stable, kind⟩ := sptLoop_ends shape
  refine ⟨fuel, result, stable, ?_⟩
  cases ended : result with
  -- The interfaces are all wired, so the one fault left is a full FIFO.
  | error fault =>
    subst ended
    exact .inl (by rw [kind.2 plain.wired])
  | ok spt =>
    subst ended
    refine .inr ⟨spt, rfl, ?_⟩
    have ended : sptLoop net domain fuel (sptStart net root) = .ok spt := stable fuel (Nat.le_refl _)
    obtain ⟨final, _⟩ := sptLoop_shape shape ended
    have elems : ∀ {k x}, spt.lookup k = some x →
        elemKey net x.elem = k ∧ x.elem ∈ knownElems net domain root := by
      intro k x found
      exact final.elems (by rw [elemOf, found, Option.map_some])
    have agrees : Agrees (knownAt net domain root) spt := fun k e atK =>
      plain.knownAt_iff.mpr (final.elems atK).symm
    -- The relaxation invariant, read at the end of the loop over the vertex keys.
    have sound := sptLoop_labelled plain.homeward shape agrees sptStart_labelled ended
    have labelled : ∀ {k x}, spt.lookup k = some x → distOf spt k = some x.weight.toNat := by
      intro k x found
      rw [distOf, weightOf, found]
      rfl
    have vertex : ∀ {k d}, distOf spt k = some d → ∃ x, spt.lookup k = some x ∧ x.weight.toNat = d := by
      intro k d atK
      obtain ⟨w, weight, rfl⟩ := distOf_eq_some.mp atK
      obtain ⟨x, found, rfl⟩ := Option.map_eq_some_iff.mp weight
      exact ⟨x, found, rfl⟩
    exact {
      keyed := fun k x found => (elems found).1
      vertex_iff := by
        intro elem
        constructor
        · rintro ⟨x, found, rfl⟩
          obtain ⟨elem, known, key, path⟩ := plain.walk_iff.mp (sound.walk (labelled found))
          rw [plain.key_inj (elems found).2 known key.symm]
          exact ⟨_, path⟩
        · rintro ⟨cost, path⟩
          have known := plain.path_known path
          obtain ⟨d, atK, _⟩ := sound.le_walk (plain.walk_iff.mpr ⟨elem, known, rfl, path⟩)
          obtain ⟨x, found, _⟩ := vertex atK
          exact ⟨x, found, plain.key_inj (elems found).2 known (elems found).1⟩
      weight := by
        intro k x found
        obtain ⟨walk, least⟩ := sound.dist_eq.mp (labelled found)
        obtain ⟨elem, known, key, path⟩ := plain.walk_iff.mp walk
        have same := plain.key_inj (elems found).2 known ((elems found).1.trans key.symm)
        rw [same]
        refine ⟨path, fun cost path' => least cost (plain.walk_iff.mpr ⟨elem, known, key, path'⟩)⟩
      -- An edge between keys is a hop between the elements they stand for, both ways.
      preds := by
        intro k x found p
        have listed : p ∈ x.preds ↔ p ∈ predsOf spt k := by
          rw [predsOf, found]
          rfl
        rw [listed, sound.pred_iff (by decide)]
        constructor
        · rintro ⟨d, cost, atP, isEdge, atK⟩
          obtain ⟨y, foundP, rfl⟩ := vertex atP
          rw [labelled found, Option.some.injEq] at atK
          rw [← (elems foundP).1] at isEdge
          obtain ⟨next, known, key, isHop⟩ := (plain.edge_iff (elems foundP).2).mp isEdge
          have same := plain.key_inj known (elems found).2 (key.trans (elems found).1.symm)
          exact ⟨y, cost, foundP, same ▸ isHop, atK.symm⟩
        · rintro ⟨y, cost, foundP, isHop, sum⟩
          refine ⟨_, cost, labelled foundP, ?_, by rw [labelled found, sum]⟩
          rw [← (elems foundP).1]
          exact (plain.edge_iff (elems foundP).2).mpr
            ⟨x.elem, (elems found).2, (elems found).1, isHop⟩ }

end Domain

theorem subnetPair_rid (a b : Bool) :
    (if a then 0x01000002 else 0x01000001 : NetAddr) = (if b then 0x01000002 else 0x01000001) → a = b := by
  revert a b
  decide

/-- Two routers that share a transit subnet and a router-to-router link.  An interface is named by its
router and by whether it is the one on the subnet. -/
def subnetPair : Topology Bool (Bool × Bool) Unit where
  rid b := if b then 0x01000002 else 0x01000001
  ifaces b := [(b, false), (b, true)]
  iface i :=
    { owner := i.1
      addr :=
        if i.2 then if i.1 then 0x0a000002 else 0x0a000001
        else if i.1 then 0x01000001 else 0x01000002
      mask := if i.2 then 24 else 32
      short := by split <;> decide
      connected := true
      type := if i.2 then .ptmp else .rtr
      dest := if i.2 then some (.subnet ()) else some (.iface (!i.1, false))
      enabled := true
      metric := if i.2 then 1 else 5 }
  subnetPrefix _ := { network := 0x0a000000, mask := 24, short := short24 }
  subnetTransit _ := true
  subnetIfaces _ := [(false, true), (true, true)]
  dest_matches i dest h := by
    obtain ⟨b, onSubnet⟩ := i
    cases onSubnet
    · cases h
      cases b <;> decide
    · cases h
      rfl
  connected_dest i _ := by
    obtain ⟨b, onSubnet⟩ := i
    cases onSubnet <;> simp
  iface_mask i h := by
    obtain ⟨b, onSubnet⟩ := i
    cases onSubnet
    · simp at h
    · simp
  rid_injective := subnetPair_rid
  ifaces_owner := by decide
  ifaces_sorted := by decide
  subnet_mask := by decide
  subnet_injective := fun _ _ _ => rfl
  subnet_dest := by decide
  subnet_sorted := by decide

/-- The tree of the first router holds the second at cost 1, through the subnet. -/
theorem sptBfs_subnet_pair :
    RouterSubnetDomain subnetPair [false, true] false ∧
      okAnd (sptBfs subnetPair [false, true] false 10) (fun spt =>
        decide (weightOf spt (elemKey subnetPair (.node true)) = some 1)) = true ∧
      ∃ fuel result, (∀ more, fuel ≤ more → sptBfs subnetPair [false, true] false more = result) ∧
        (result = .error .fifoFull ∨
          ∃ spt, result = .ok spt ∧ ShortestPathTree subnetPair [false, true] false spt) := by
  have plain : RouterSubnetDomain subnetPair [false, true] false :=
    { linked := by decide
      noPtp := by decide }
  exact ⟨plain, by decide +kernel, sptBfs_shortest_paths _ _ _ plain⟩

end Cbgp.Verified
