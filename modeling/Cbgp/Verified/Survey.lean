import Cbgp.Verified.SptSearch

/-! # What a search comes to

A survey is what `spt_bfs` knows of the topology while it runs, and no more: under each vertex key the
element that was found there first, with a weight, and the contexts that wait.  It keeps no predecessors,
computes in natural numbers, and passes over an interface that leads nowhere, which the search reads
through (`ReadsThrough`).  Until it does, the search and the survey go together (`sptTurn_surveyed`): a search
reads through such an interface exactly when the survey comes to one (`sptBfs_null_iff`), and it ends in a
tree when the survey comes to none and its queue has room (`sptBfs_ok_iff`).
-/

namespace Cbgp.Verified

open Cbgp.Lib Cbgp.Net

variable {N I S : Type} [DecidableEq I]

/-! ## Surveys -/

/-- The elements found so far, by their keys, with their weights; and the contexts that wait. -/
structure Survey (N I S : Type) where
  label : Pfx → Option (NetElem N I S × ℕ)
  queue : List (SptContext I)

namespace Survey

variable (net : Topology N I S) (domain : List N) (root : N) (context : SptContext I)

def start : Survey N I S where
  label := Function.update (fun _ => none) (elemKey net (.node root)) (some (.node root, 0))
  queue := [⟨none, elemKey net (.node root)⟩]

/-- An element gets a weight, and its vertex waits for a visit, if the queue has room. -/
def enter (survey : Survey N I S) (key : Pfx) (elem : NetElem N I S) (weight : ℕ) (link : I) :
    Option (Survey N I S) :=
  if survey.queue.length < fifoDepth then
    some
      { label := Function.update survey.label key (some (elem, weight))
        queue := survey.queue ++ [⟨some link, key⟩] }
  else none

/-- A link is followed, unless it is the one back along the interface the visit came by, or the weight
gets too high.  The element found first under a key stands for the others. -/
def follow (survey : Survey N I S) (link : I) : Option (Survey N I S) :=
  match survey.label context.vertex with
  | none => some survey
  | some (src, weight) =>
    match hop net domain src link with
    | none => some survey
    | some (next, cost) =>
      if context.iif.bind net.destIface = some link ∨ maxCost ≤ weight + cost then some survey
      else
        match survey.label (elemKey net next) with
        | none => survey.enter (elemKey net next) next (weight + cost) link
        | some (known, weight') =>
          if weight + cost < weight' then survey.enter (elemKey net next) known (weight + cost) link
          else some survey

end Survey

section Surveyed

variable (net : Topology N I S) (domain : List N) (root : N)

/-- A visit is due: the context at the head of the queue, and the element of its vertex. -/
structure Due (survey : Survey N I S) (context : SptContext I) (rest : List (SptContext I))
    (src : NetElem N I S) : Prop where
  queue : survey.queue = context :: rest
  label : ∃ weight, survey.label context.vertex = some (src, weight)

/-- The surveys from the root on, one visit after the other. -/
inductive Surveyed : Survey N I S → Prop where
  | start : Surveyed (Survey.start net root)
  | visit {survey survey' : Survey N I S} {context : SptContext I} {rest : List (SptContext I)}
      {src : NetElem N I S} : Surveyed survey → Due survey context rest src →
      (linksOf net src).foldlM (Survey.follow net domain context) { survey with queue := rest } =
        some survey' → Surveyed survey'

/-- A link out of an element leads through an end that was never connected: a router-to-router
interface, or the far end of a point-to-point link. -/
def EndMissing : NetElem N I S → I → Prop
  | .node _, link => (net.iface link).type = .rtr ∧ net.destIface link = none
  | .subnet _, _ => False
  | .link _, link => net.destIface link = none

/-- A visit reads through such an end: the element is a point-to-point link without a far end, or there
is a link to it after the links that are followed without the queue getting full. -/
inductive ReadsThrough (context : SptContext I) (survey : Survey N I S) : NetElem N I S → Prop where
  | near {j : I} : net.destIface j = none → ReadsThrough context survey (.link j)
  | far {src : NetElem N I S} {before after : List I} {link : I} {survey' : Survey N I S} :
      linksOf net src = before ++ link :: after →
      before.foldlM (Survey.follow net domain context) survey = some survey' →
      EndMissing net src link → ReadsThrough context survey src

/-- No visit reads through an end that was never connected. -/
def EndsMet : Prop :=
  ∀ survey context rest src, Surveyed net domain root survey → Due survey context rest src →
    ¬ ReadsThrough net domain context { survey with queue := rest } src

/-- The queue has room for all that waits in it. -/
def QueueFits : Prop :=
  ∀ survey context rest src, Surveyed net domain root survey → Due survey context rest src →
    (linksOf net src).foldlM (Survey.follow net domain context) { survey with queue := rest } ≠ none

end Surveyed

/-! ## The survey of a search -/

variable {net : Topology N I S} {domain : List N} {root : N} {comp comp' : SptComp N I S}
  {context : SptContext I} {rest : List (SptContext I)} {src : NetElem N I S} {link : I}

/-- What a search knows. -/
def surveyOf (comp : SptComp N I S) : Survey N I S where
  label key := (comp.spt.lookup key).map fun vertex => (vertex.elem, vertex.weight.toNat)
  queue := comp.fifo

omit [DecidableEq I] in
theorem surveyOf_label {key : Pfx} {elem : NetElem N I S} {weight : UInt32}
    (atElem : elemOf comp.spt key = some elem) (atWeight : weightOf comp.spt key = some weight) :
    (surveyOf comp).label key = some (elem, weight.toNat) := by
  obtain ⟨vertex, found, rfl⟩ := Option.map_eq_some_iff.mp atElem
  rw [weightOf, found, Option.map_some, Option.some.injEq] at atWeight
  exact Option.map_eq_some_iff.mpr ⟨vertex, found, by rw [atWeight]⟩

omit [DecidableEq I] in
theorem surveyOf_label_none {key : Pfx} (absent : weightOf comp.spt key = none) :
    (surveyOf comp).label key = none :=
  Option.map_eq_none_iff.mpr (Option.map_eq_none_iff.mp absent)

omit [DecidableEq I] in
theorem surveyOf_elem {key : Pfx} {elem : NetElem N I S} {weight : ℕ}
    (labelled : (surveyOf comp).label key = some (elem, weight)) : elemOf comp.spt key = some elem := by
  obtain ⟨vertex, found, same⟩ := Option.map_eq_some_iff.mp labelled
  cases same
  rw [elemOf, found, Option.map_some]

omit [DecidableEq I] in
/-- Trees with the same elements and weights have the same labels. -/
theorem surveyOf_congr {spt : Spt N I S} {key : Pfx} {found : Option (NetElem N I S × ℕ)}
    (elems : elemOf spt key = found.map (·.1)) (weights : distOf spt key = found.map (·.2)) :
    (spt.lookup key).map (fun vertex => (vertex.elem, vertex.weight.toNat)) = found := by
  cases vertex : spt.lookup key with
  | none =>
    rw [elemOf, vertex] at elems
    cases found with
    | none => rfl
    | some found => cases elems
  | some vertex' =>
    rw [elemOf, vertex] at elems
    rw [distOf, weightOf, vertex] at weights
    cases found with
    | none => cases elems
    | some found =>
      simp only [Option.map_some, Option.some.injEq] at elems weights ⊢
      exact Prod.ext elems weights

omit [DecidableEq I] in
theorem surveyOf_elems (comp : SptComp N I S) (key : Pfx) :
    ((surveyOf comp).label key).map (·.1) = elemOf comp.spt key :=
  Option.map_map ..

omit [DecidableEq I] in
theorem surveyOf_dists (comp : SptComp N I S) (key : Pfx) :
    ((surveyOf comp).label key).map (·.2) = distOf comp.spt key := by
  rw [distOf, weightOf, Option.map_map]
  exact Option.map_map ..

omit [DecidableEq I] in
theorem surveyOf_start : surveyOf (sptStart net root) = Survey.start net root := by
  have label : (surveyOf (sptStart net root)).label = (Survey.start net root).label := by
    funext key
    by_cases same : key = elemKey net (.node root)
    · subst same
      simp only [surveyOf, sptStart, AList.lookup_insert, Survey.start, Function.update_self,
        Option.map_some]
      rfl
    · simp only [surveyOf, sptStart, AList.lookup_insert_ne same, Survey.start,
        Function.update_of_ne same]
      simp
  exact congrArg (fun label => (⟨label, (sptStart net root).fifo⟩ : Survey N I S)) label

omit [DecidableEq I] in
/-- The far end is read before anything else. -/
theorem endMissing_iff :
    EndMissing net src link ↔ linkGetNextElem net src link = .error .nullPointer := by
  cases src with
  | node n =>
    simp only [EndMissing, linkGetNextElem]
    cases (net.iface link).type <;> cases net.destIface link <;> simp
  | subnet s => simp [EndMissing, linkGetNextElem]
  | link j =>
    simp only [EndMissing, linkGetNextElem]
    cases net.destIface link <;> simp

/-- What a search does, beside what its survey does. -/
inductive Together (surveyed : Option (Survey N I S)) (reads : Prop) :
    Except IgpFault (SptComp N I S) → Prop where
  | goes {comp' : SptComp N I S} : surveyed = some (surveyOf comp') → Together surveyed reads (.ok comp')
  | full : surveyed = none → Together surveyed reads (.error .fifoFull)
  | null : reads → Together surveyed reads (.error .nullPointer)

/-- A link that is followed with an improvement. -/
theorem follow_improves {weight w : UInt32} {next : NetElem N I S} {cost : ℕ}
    (label : (surveyOf comp).label context.vertex = some (src, weight.toNat))
    (passes : hop net domain src link = some (next, cost)) (sum : w.toNat = weight.toNat + cost)
    (below : w < igpMaxWeight) (better : ∀ w', weightOf comp.spt (elemKey net next) = some w' → w < w')
    (away : context.iif.bind net.destIface ≠ some link) :
    Survey.follow net domain context (surveyOf comp) link =
      (surveyOf comp).enter (elemKey net next) ((elemOf comp.spt (elemKey net next)).getD next) w.toNat link := by
  have light : ¬ (context.iif.bind net.destIface = some link ∨ maxCost ≤ weight.toNat + cost) := by
    have limit : w.toNat < maxCost := below
    rw [not_or]
    exact ⟨away, by omega⟩
  simp only [Survey.follow, label, passes, if_neg light]
  cases atWeight : weightOf comp.spt (elemKey net next) with
  | none =>
    have absent : elemOf comp.spt (elemKey net next) = none :=
      Option.map_eq_none_iff.mpr (Option.map_eq_none_iff.mp atWeight)
    simp only [surveyOf_label_none atWeight, absent, Option.getD_none, sum]
  | some w' =>
    obtain ⟨known, atElem⟩ := elemOf_isSome.mpr (weightOf_isSome.mp ⟨w', atWeight⟩)
    have less : weight.toNat + cost < w'.toNat := by
      have less : w.toNat < w'.toNat := better w' atWeight
      omega
    simp only [surveyOf_label atElem atWeight, if_pos less, atElem, Option.getD_some, sum]

theorem linkTraverse_together (shape : Shape net domain root comp)
    (atElem : elemOf comp.spt context.vertex = some src) :
    Together (Survey.follow net domain context (surveyOf comp) link) (EndMissing net src link)
      (linkTraverse net domain context comp link) := by
  obtain ⟨weight, atWeight⟩ := weightOf_isSome.mpr (elemOf_isSome.mp ⟨src, atElem⟩)
  have label := surveyOf_label atElem atWeight
  have traversed : Traversed net domain context comp src weight link
      (linkTraverse net domain context comp link) :=
    linkTraverse_traversed link shape.linked atElem atWeight (shape.light atWeight)
  generalize linkTraverse net domain context comp link = result at traversed
  -- an element at least as near as it could get by the link stays as it is
  have stays {next : NetElem N I S} {cost : ℕ} {w : UInt32} (passes : hop net domain src link = some (next, cost))
      (known : weightOf comp.spt (elemKey net next) = some w) (near : w.toNat ≤ weight.toNat + cost) :
      Survey.follow net domain context (surveyOf comp) link = some (surveyOf comp) := by
    obtain ⟨elem, atNext⟩ := elemOf_isSome.mpr (weightOf_isSome.mp ⟨w, known⟩)
    simp only [Survey.follow, label, passes, surveyOf_label atNext known, if_neg (Nat.not_lt.mpr near), ite_self]
  cases traversed with
  | fault null => exact .null (endMissing_iff.mpr null)
  | filtered closed => exact .goes (by simp only [Survey.follow, label, closed])
  | back passes home => exact .goes (by simp only [Survey.follow, label, passes, if_pos (Or.inl home)])
  | saturated passes heavy => exact .goes (by simp only [Survey.follow, label, passes, if_pos (Or.inr heavy)])
  | worse passes known less => exact .goes (stays passes known (Nat.le_of_lt less))
  | @equal next cost w spt' passes known sum joined =>
    -- the tree gets one more predecessor, which no label shows
    refine .goes ((stays passes known (Nat.le_of_eq sum)).trans ?_)
    refine congrArg (fun label => some (⟨label, comp.fifo⟩ : Survey N I S)) (funext fun key => ?_)
    exact (surveyOf_congr ((joined.elems key).trans (surveyOf_elems comp key).symm)
      ((congrFun (distOf_joined joined) key).trans (surveyOf_dists comp key).symm)).symm
  | @improved next cost w spt' passes sum below better improved away room =>
    refine .goes ((follow_improves label passes sum below better away).trans ?_)
    have room' : (surveyOf comp).queue.length < fifoDepth := room
    rw [Survey.enter, if_pos room']
    refine congrArg (fun label => some (⟨label, comp.fifo ++ [⟨some link, elemKey net next⟩]⟩ : Survey N I S))
      (funext fun key => (surveyOf_congr ?_ ?_).symm)
    · -- the element found first stays under its key
      rw [improved.elems]
      by_cases same : key = elemKey net next
      · subst same
        rw [Function.update_self, Option.map_some]
        cases atNext : elemOf comp.spt (elemKey net next) with
        | none =>
          have absent : elemKey net next ∉ comp.spt := fun known => by
            obtain ⟨elem, atNext'⟩ := elemOf_isSome.mpr known
            rw [atNext] at atNext'
            cases atNext'
          rw [if_pos ⟨rfl, absent⟩]
          rfl
        | some elem =>
          have known := elemOf_isSome.mp ⟨elem, atNext⟩
          rw [if_neg fun created => created.2 known]
          rfl
      · rw [if_neg fun created => same created.1, Function.update_of_ne same, surveyOf_elems]
    · rw [distOf_improved improved]
      by_cases same : key = elemKey net next
      · subst same
        rw [Function.update_self, Function.update_self, Option.map_some]
      · rw [Function.update_of_ne same, Function.update_of_ne same, surveyOf_dists]
  | @full next cost w passes sum below better away full =>
    refine .full ((follow_improves label passes sum below better away).trans ?_)
    have full' : ¬ (surveyOf comp).queue.length < fifoDepth := full
    rw [Survey.enter, if_neg full']

/-! ## Visits -/

theorem linkTraverse_missing (atElem : elemOf comp.spt context.vertex = some src)
    (missing : EndMissing net src link) :
    linkTraverse net domain context comp link = .error .nullPointer := by
  obtain ⟨vertex, found, rfl⟩ := Option.map_eq_some_iff.mp atElem
  unfold linkTraverse
  simp only [found, endMissing_iff.mp missing]
  rfl

/-- Following links one after the other. -/
theorem traverse_together {links : List I} (shape : Shape net domain root comp)
    (atElem : elemOf comp.spt context.vertex = some src) (out : ∀ link ∈ links, link ∈ linksOf net src) :
    Together (links.foldlM (Survey.follow net domain context) (surveyOf comp))
      (∃ before link after survey', links = before ++ link :: after ∧
        before.foldlM (Survey.follow net domain context) (surveyOf comp) = some survey' ∧ EndMissing net src link)
      (links.foldlM (linkTraverse net domain context) comp) := by
  induction links generalizing comp with
  | nil => exact .goes rfl
  | cons link links inductionHypothesis =>
    have here : Together (Survey.follow net domain context (surveyOf comp) link) (EndMissing net src link)
        (linkTraverse net domain context comp link) := linkTraverse_together shape atElem
    have next := linkTraverse_shape shape atElem (out link List.mem_cons_self)
    rw [List.foldlM_cons, List.foldlM_cons]
    cases result : linkTraverse net domain context comp link with
    | error fault =>
      rw [result] at here
      cases here with
      | full none =>
        rw [none]
        exact .full rfl
      | null missing => exact .null ⟨[], link, links, surveyOf comp, rfl, rfl, missing⟩
    | ok mid =>
      -- the links after this one start from the state it leaves, in the search and in the survey
      rw [result] at here
      obtain ⟨shape', advance⟩ := next.value result
      cases here with
      | goes followed =>
        rw [followed]
        have later := inductionHypothesis shape' (advance.grows atElem) fun link' member =>
          out link' (List.mem_cons_of_mem _ member)
        change Together (links.foldlM (Survey.follow net domain context) (surveyOf mid)) _
          (links.foldlM (linkTraverse net domain context) mid)
        generalize links.foldlM (linkTraverse net domain context) mid = final at later
        cases later with
        | goes same => exact .goes same
        | full none => exact .full none
        | null reads =>
          obtain ⟨before, link', after, survey', split, ran, missing⟩ := reads
          refine .null ⟨link :: before, link', after, survey', by rw [split]; rfl, ?_, missing⟩
          rw [List.foldlM_cons, followed]
          exact ran

/-- A missing end that the survey comes to is read. -/
theorem traverse_missing {before after : List I} (shape : Shape net domain root comp)
    (atElem : elemOf comp.spt context.vertex = some src)
    (out : ∀ link ∈ before, link ∈ linksOf net src) {survey' : Survey N I S}
    (ran : before.foldlM (Survey.follow net domain context) (surveyOf comp) = some survey')
    (missing : EndMissing net src link) :
    (before ++ link :: after).foldlM (linkTraverse net domain context) comp = .error .nullPointer := by
  induction before generalizing comp with
  | nil =>
    rw [List.nil_append, List.foldlM_cons, linkTraverse_missing atElem missing]
    rfl
  | cons first before inductionHypothesis =>
    have here : Together (Survey.follow net domain context (surveyOf comp) first) (EndMissing net src first)
        (linkTraverse net domain context comp first) := linkTraverse_together shape atElem
    have next := linkTraverse_shape shape atElem (out first List.mem_cons_self)
    rw [List.cons_append, List.foldlM_cons]
    rw [List.foldlM_cons] at ran
    cases result : linkTraverse net domain context comp first with
    | error fault =>
      rw [result] at here
      cases here with
      | full none =>
        rw [none] at ran
        cases ran
      | null => rfl
    | ok mid =>
      rw [result] at here
      obtain ⟨shape', advance⟩ := next.value result
      cases here with
      | goes followed =>
        rw [followed] at ran
        exact inductionHypothesis shape' (advance.grows atElem)
          (fun link' member => out link' (List.mem_cons_of_mem _ member)) ran

omit [DecidableEq I] in
/-- What is due in a search. -/
theorem due_surveyOf (queue : comp.fifo = context :: rest) (atElem : elemOf comp.spt context.vertex = some src) :
    Due (surveyOf comp) context rest src := by
  obtain ⟨weight, atWeight⟩ := weightOf_isSome.mpr (elemOf_isSome.mp ⟨src, atElem⟩)
  exact ⟨queue, _, surveyOf_label atElem atWeight⟩

/-- One visit of a search, and of its survey. -/
theorem sptTurn_surveyed (shape : Shape net domain root comp) (queue : comp.fifo = context :: rest)
    (atElem : elemOf comp.spt context.vertex = some src) :
    Together ((linksOf net src).foldlM (Survey.follow net domain context) { surveyOf comp with queue := rest })
      (ReadsThrough net domain context { surveyOf comp with queue := rest } src)
      (sptTurn net domain comp context rest) := by
  obtain ⟨vertex, found, rfl⟩ := Option.map_eq_some_iff.mp atElem
  simp only [sptTurn, found]
  cases links : outboundLinks net vertex.elem with
  | error fault =>
    -- only a point-to-point link is asked for its far end before its links are followed
    cases kind : vertex.elem with
    | node n => simp [kind, outboundLinks] at links
    | subnet s => simp [kind, outboundLinks] at links
    | link j =>
      simp only [kind, outboundLinks] at links
      split at links
      next near =>
        cases links
        exact .null (.near near)
      next => cases links
  | ok list =>
    have listed : linksOf net vertex.elem = list := by rw [linksOf, links]
    have together := traverse_together (shape.pop queue) atElem fun link member => listed ▸ member
    rw [listed]
    change Together (list.foldlM (Survey.follow net domain context) (surveyOf { comp with fifo := rest })) _
      (list.foldlM (linkTraverse net domain context) { comp with fifo := rest })
    generalize list.foldlM (linkTraverse net domain context) { comp with fifo := rest } = result at together
    cases together with
    | goes same => exact .goes same
    | full none => exact .full none
    | null reads =>
      obtain ⟨before, link, after, survey', split, ran, missing⟩ := reads
      exact .null (.far (listed.trans split) ran missing)

/-- A visit that comes to a missing end reads it. -/
theorem sptTurn_reads (shape : Shape net domain root comp) (queue : comp.fifo = context :: rest)
    (atElem : elemOf comp.spt context.vertex = some src)
    (reads : ReadsThrough net domain context { surveyOf comp with queue := rest } src) :
    sptTurn net domain comp context rest = .error .nullPointer := by
  obtain ⟨vertex, found, rfl⟩ := Option.map_eq_some_iff.mp atElem
  simp only [sptTurn, found]
  generalize kind : vertex.elem = elem at reads
  cases reads with
  | near none =>
    simp only [outboundLinks, none]
    rfl
  | @far _ before after link survey' split ran missing =>
    cases links : outboundLinks net elem with
    | error fault => simp [linksOf, links] at split
    | ok list =>
      have listed : linksOf net elem = list := by rw [linksOf, links]
      rw [← listed, split]
      refine traverse_missing (shape.pop queue) (atElem.trans (congrArg some kind)) (fun link member => ?_) ran missing
      rw [split]
      exact List.mem_append_left _ member

/-! ## Whole searches -/

theorem sptLoop_turn (fuel : ℕ) (queue : comp.fifo = context :: rest) :
    sptLoop net domain (fuel + 1) comp = sptTurn net domain comp context rest >>= sptLoop net domain fuel := by
  conv_lhs => unfold sptLoop
  rw [queue]

omit [DecidableEq I] in
theorem Due.elem (due : Due (surveyOf comp) context rest src) :
    elemOf comp.spt context.vertex = some src := by
  obtain ⟨weight, labelled⟩ := due.label
  exact surveyOf_elem labelled

/-- A survey is that of a state of the search, unless the search has read a missing end before. -/
theorem Surveyed.reached {survey : Survey N I S} (surveyed : Surveyed net domain root survey) :
    (∃ turns, ∀ fuel, sptBfs net domain root (fuel + turns) = .error .nullPointer) ∨
    ∃ comp turns, surveyOf comp = survey ∧ Shape net domain root comp ∧
      ∀ fuel, sptBfs net domain root (fuel + turns) = sptLoop net domain fuel comp := by
  induction surveyed with
  | start => exact .inr ⟨sptStart net root, 0, surveyOf_start, sptStart_shape, fun fuel => rfl⟩
  | @visit survey survey' context rest src _ due ran inductionHypothesis =>
    obtain stopped | ⟨comp, turns, rfl, shape, reached⟩ := inductionHypothesis
    · exact .inl stopped
    -- the visit is one more turn of the search
    have queue : comp.fifo = context :: rest := due.queue
    have together := sptTurn_surveyed shape queue due.elem
    have next := sptTurn_shape shape queue
    have after : ∀ fuel, sptBfs net domain root (fuel + (turns + 1)) =
        (sptTurn net domain comp context rest >>= sptLoop net domain fuel) := by
      intro fuel
      rw [← Nat.add_assoc, Nat.add_right_comm, reached, sptLoop_turn fuel queue]
    cases result : sptTurn net domain comp context rest with
    | error fault =>
      rw [result] at together
      cases together with
      | full none =>
        rw [ran] at none
        cases none
      | null => exact .inl ⟨turns + 1, fun fuel => by rw [after, result]; rfl⟩
    | ok comp' =>
      rw [result] at together
      cases together with
      | goes same =>
        rw [ran, Option.some.injEq] at same
        exact .inr ⟨comp', turns + 1, same.symm, (next.value result).1, fun fuel => by rw [after, result]; rfl⟩

/-- What a search of which all visits can be made ends in. -/
theorem sptLoop_together (fuel : ℕ) (shape : Shape net domain root comp)
    (surveyed : Surveyed net domain root (surveyOf comp)) :
    Ends (fun _ => True) (fun fault => fault = .nullPointer ∧ ¬ EndsMet net domain root ∨
      fault = .fifoFull ∧ ¬ QueueFits net domain root ∨ fault = .outOfFuel) (sptLoop net domain fuel comp) := by
  induction fuel generalizing comp with
  | zero =>
    unfold sptLoop
    cases comp.fifo with
    | nil => trivial
    | cons context rest => exact .inr (.inr rfl)
  | succ fuel inductionHypothesis =>
    cases queue : comp.fifo with
    | nil =>
      unfold sptLoop
      rw [queue]
      trivial
    | cons context rest =>
      rw [sptLoop_turn fuel queue]
      obtain ⟨src, atElem⟩ := elemOf_isSome.mpr (shape.queued context (by simp [queue]))
      have due := due_surveyOf queue atElem
      have together := sptTurn_surveyed shape queue atElem
      have next := sptTurn_shape shape queue
      cases result : sptTurn net domain comp context rest with
      | error fault =>
        rw [result] at together
        cases together with
        | full none => exact .inr (.inl ⟨rfl, fun fits => fits _ _ _ _ surveyed due none⟩)
        | null reads => exact .inl ⟨rfl, fun ends => ends _ _ _ _ surveyed due reads⟩
      | ok comp' =>
        rw [result] at together
        cases together with
        | goes same => exact inductionHypothesis (next.value result).1 (.visit surveyed due same)

theorem sptStart_surveyed : Surveyed net domain root (surveyOf (sptStart net root)) := by
  rw [surveyOf_start]
  exact .start

/-- A search reads a missing end exactly when its survey comes to one. -/
theorem sptBfs_null_iff :
    (∃ fuel, sptBfs net domain root fuel = .error .nullPointer) ↔ ¬ EndsMet net domain root := by
  constructor
  · rintro ⟨fuel, null⟩
    obtain ⟨-, missing⟩ | ⟨full, -⟩ | none :=
      (sptLoop_together fuel (@sptStart_shape _ _ _ net domain root) sptStart_surveyed).error null
    · exact missing
    · cases full
    · cases none
  · intro missing
    simp only [EndsMet, not_forall, not_not] at missing
    obtain ⟨survey, context, rest, src, surveyed, due, reads⟩ := missing
    obtain ⟨turns, stopped⟩ | ⟨comp, turns, rfl, shape, reached⟩ := surveyed.reached
    · exact ⟨0 + turns, stopped 0⟩
    · have queue : comp.fifo = context :: rest := due.queue
      refine ⟨1 + turns, ?_⟩
      rw [reached, sptLoop_turn 0 queue, sptTurn_reads shape queue due.elem reads]
      rfl

/-- The result of a search does not change with more fuel. -/
theorem sptLoop_more {fuel : ℕ} {result : Except IgpFault (Spt N I S)} (ended : sptLoop net domain fuel comp = result)
    (done : result ≠ .error .outOfFuel) (more : ℕ) : sptLoop net domain (fuel + more) comp = result := by
  induction fuel generalizing comp with
  | zero =>
    cases queue : comp.fifo with
    | nil =>
      unfold sptLoop at ended ⊢
      rw [queue] at ended ⊢
      exact ended
    | cons context rest =>
      unfold sptLoop at ended
      rw [queue] at ended
      exact absurd ended.symm done
  | succ fuel inductionHypothesis =>
    cases queue : comp.fifo with
    | nil =>
      unfold sptLoop at ended ⊢
      rw [queue] at ended ⊢
      exact ended
    | cons context rest =>
      rw [sptLoop_turn fuel queue] at ended
      rw [Nat.add_right_comm, sptLoop_turn (fuel + more) queue]
      cases turn : sptTurn net domain comp context rest with
      | error fault =>
        rw [turn] at ended
        exact ended
      | ok comp' =>
        rw [turn] at ended
        exact inductionHypothesis ended

/-- A search ends in a tree exactly when its survey comes to no missing end and its queue has room. -/
theorem sptBfs_ok_iff : (∃ fuel spt, sptBfs net domain root fuel = .ok spt) ↔
    EndsMet net domain root ∧ QueueFits net domain root := by
  constructor
  · rintro ⟨fuel, spt, ended⟩
    have always : ∀ more, sptBfs net domain root (fuel + more) = .ok spt := sptLoop_more ended nofun
    refine ⟨?_, fun survey context rest src surveyed due none => ?_⟩
    · -- with more fuel the search would end in both ways
      by_contra missing
      obtain ⟨fuel', null⟩ := sptBfs_null_iff.mpr missing
      have still : sptBfs net domain root (fuel' + fuel) = .error .nullPointer := sptLoop_more null nofun fuel
      rw [Nat.add_comm, always] at still
      cases still
    · obtain ⟨turns, stopped⟩ | ⟨comp, turns, rfl, shape, reached⟩ := surveyed.reached
      · have still := stopped fuel
        rw [always] at still
        cases still
      · have queue : comp.fifo = context :: rest := due.queue
        have together := sptTurn_surveyed shape queue due.elem
        have still := reached (fuel + 1)
        rw [Nat.add_assoc, always, sptLoop_turn fuel queue] at still
        cases result : sptTurn net domain comp context rest with
        | error fault =>
          rw [result] at still
          cases still
        | ok comp' =>
          rw [result] at together
          cases together with
          | goes same =>
            change (linksOf net src).foldlM (Survey.follow net domain context) _ = _ at none
            rw [same] at none
            cases none
  · rintro ⟨ends, fits⟩
    obtain ⟨fuel, result, stable, kind⟩ := sptLoop_ends (@sptStart_shape _ _ _ net domain root)
    have ended : sptBfs net domain root fuel = result := stable fuel (Nat.le_refl _)
    cases result with
    | ok spt => exact ⟨fuel, spt, ended⟩
    | error fault =>
      obtain ⟨-, missing⟩ | ⟨-, full⟩ | rfl :=
        (sptLoop_together fuel (@sptStart_shape _ _ _ net domain root) sptStart_surveyed).error ended
      · exact absurd ends missing
      · exact absurd fits full
      · exact absurd rfl kind.1

end Cbgp.Verified
