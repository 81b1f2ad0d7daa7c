import Cbgp.Lib.Relaxation
import Cbgp.Verified.SptTree

/-! # The breadth-first search

One traversal of a link (`linkTraverse_traversed`) and what it keeps: the shape of the tree and of
the queue (`Shape`).  Every vertex that enters the queue has just been created or has just got a
smaller weight, so the search ends (`sptLoop_ends`).
-/

namespace Cbgp.Verified

open Cbgp.Lib Cbgp.Net

variable {N I S : Type}

/-! ## Hops -/

/-- `IGP_MAX_WEIGHT` as a number. -/
def maxCost : ℕ := igpMaxWeight.toNat

/-- What a link adds to the weight: its metric on the way out of a node, nothing on the way out of a
subnet or of a point-to-point link. -/
def linkCost (net : Topology N I S) (src : NetElem N I S) (link : I) : ℕ :=
  match src with
  | .node _ => (net.iface link).metric.toNat
  | _ => 0

/-- The element a link leads to and what it adds to the weight, if the link can be used. -/
def hop (net : Topology N I S) (domain : List N) (src : NetElem N I S) (link : I) :
    Option (NetElem N I S × ℕ) :=
  match linkGetNextElem net src link with
  | .ok (some next) =>
    if linkFiltered net domain src link next then none else some (next, linkCost net src link)
  | _ => none

/-- Where a link leads, by the kind of element it leaves and by its type. -/
inductive LeadsTo (net : Topology N I S) : NetElem N I S → I → NetElem N I S → Prop where
  | router {n : N} {link dst : I} : (net.iface link).type = .rtr → net.destIface link = some dst →
      LeadsTo net (.node n) link (.node (net.iface dst).owner)
  | subnet {n : N} {link : I} {s : S} : (net.iface link).type = .ptmp →
      net.destSubnet link = some s → LeadsTo net (.node n) link (.subnet s)
  | link {n : N} {link dst : I} : (net.iface link).type = .ptp → net.destIface link = some dst →
      LeadsTo net (.node n) link (.link dst)
  | leaveSubnet {s : S} {link : I} :
      LeadsTo net (.subnet s) link (.node (net.iface link).owner)
  | leaveLink {i link dst : I} : net.destIface link = some dst →
      LeadsTo net (.link i) link (.node (net.iface dst).owner)

theorem linkGetNextElem_some {net : Topology N I S} {src next : NetElem N I S} {link : I} :
    linkGetNextElem net src link = .ok (some next) ↔ LeadsTo net src link next := by
  constructor
  · intro got
    cases src with
    -- From a node the type of the interface says what its destination is.
    | node n =>
      simp only [linkGetNextElem] at got
      split at got
      next => cases got
      next => cases got
      next type =>
        simp only [Except.ok.injEq, Option.map_eq_some_iff] at got
        obtain ⟨s, dest, rfl⟩ := got
        exact .subnet type dest
      next type =>
        split at got
        next => cases got
        next dst dest =>
          cases got
          exact .router type dest
      next type =>
        simp only [Except.ok.injEq, Option.map_eq_some_iff] at got
        obtain ⟨dst, dest, rfl⟩ := got
        exact .link type dest
    | subnet s =>
      cases got
      exact .leaveSubnet
    | link i =>
      simp only [linkGetNextElem] at got
      split at got
      next => cases got
      next dst dest =>
        cases got
        exact .leaveLink dest
  · intro leads
    cases leads with
    | router type dest => simp only [linkGetNextElem, type, dest]
    | subnet type dest => simp only [linkGetNextElem, type, dest, Option.map_some]
    | link type dest => simp only [linkGetNextElem, type, dest, Option.map_some]
    | leaveSubnet => rfl
    | leaveLink dest => simp only [linkGetNextElem, dest]

/-- The cost of reaching a vertex. -/
def distOf (spt : Spt N I S) (key : Pfx) : Option ℕ :=
  (weightOf spt key).map UInt32.toNat

theorem distOf_eq_some {spt : Spt N I S} {key : Pfx} {d : ℕ} :
    distOf spt key = some d ↔ ∃ w, weightOf spt key = some w ∧ w.toNat = d :=
  Option.map_eq_some_iff

theorem netIgpAddWeights_toNat (w1 w2 : UInt32) :
    (netIgpAddWeights w1 w2).toNat = min (w1.toNat + w2.toNat) maxCost := by
  have limit : maxCost = 4294967295 := by decide
  have first := w1.toNat_lt
  have second := w2.toNat_lt
  unfold netIgpAddWeights
  split
  next beyond =>
    change maxCost < _ at beyond
    change maxCost = _
    omega
  next within =>
    change ¬ maxCost < _ at within
    rw [UInt32.toNat_add]
    omega

/-- The weight through a link is the sum, unless the sum saturates. -/
theorem linkWeight_toNat (net : Topology N I S) (src : NetElem N I S) {weight : UInt32}
    (bounded : weight < igpMaxWeight) (link : I) :
    (linkWeight net src weight link).toNat = min (weight.toNat + linkCost net src link) maxCost := by
  have below : weight.toNat < maxCost := bounded
  cases src with
  | node n => exact netIgpAddWeights_toNat _ _
  | subnet s =>
    simp only [linkWeight, linkCost, Nat.add_zero]
    omega
  | link i => exact netIgpAddWeights_toNat _ _

theorem linkSaturated_iff (net : Topology N I S) (src : NetElem N I S) {weight : UInt32}
    (bounded : weight < igpMaxWeight) (link : I) :
    linkSaturated src (linkWeight net src weight link) = true ↔
      maxCost ≤ weight.toNat + linkCost net src link := by
  have below : weight.toNat < maxCost := bounded
  have sum := linkWeight_toNat net src bounded link
  have saturated : linkWeight net src weight link = igpMaxWeight ↔
      maxCost ≤ weight.toNat + linkCost net src link := by
    rw [← UInt32.toNat_inj, sum]
    change min _ _ = maxCost ↔ _
    omega
  cases src with
  | node n => simpa [linkSaturated] using saturated
  | subnet s => simpa [linkSaturated, linkCost] using below
  | link i => simpa [linkSaturated] using saturated

/-! ## Traversing a link -/

variable [DecidableEq I]

/-- What `_link_traverse` does with a link out of the vertex of a context, whose element is `src` and
whose weight is `weight`. -/
inductive Traversed (net : Topology N I S) (domain : List N) (context : SptContext I)
    (comp : SptComp N I S) (src : NetElem N I S) (weight : UInt32) (link : I) :
    Except IgpFault (SptComp N I S) → Prop where
  | fault : linkGetNextElem net src link = .error .nullPointer →
      Traversed net domain context comp src weight link (.error .nullPointer)
  | filtered : hop net domain src link = none →
      Traversed net domain context comp src weight link (.ok comp)
  | back {next : NetElem N I S} {cost : ℕ} : hop net domain src link = some (next, cost) →
      context.iif.bind net.destIface = some link →
      Traversed net domain context comp src weight link (.ok comp)
  | saturated {next : NetElem N I S} {cost : ℕ} : hop net domain src link = some (next, cost) →
      maxCost ≤ weight.toNat + cost →
      Traversed net domain context comp src weight link (.ok comp)
  | worse {next : NetElem N I S} {cost : ℕ} {w : UInt32} :
      hop net domain src link = some (next, cost) →
      weightOf comp.spt (elemKey net next) = some w → w.toNat < weight.toNat + cost →
      Traversed net domain context comp src weight link (.ok comp)
  | equal {next : NetElem N I S} {cost : ℕ} {w : UInt32} {spt' : Spt N I S} :
      hop net domain src link = some (next, cost) →
      weightOf comp.spt (elemKey net next) = some w → w.toNat = weight.toNat + cost →
      Joined net next context.vertex comp.spt spt' →
      Traversed net domain context comp src weight link (.ok { comp with spt := spt' })
  | improved {next : NetElem N I S} {cost : ℕ} {w : UInt32} {spt' : Spt N I S} :
      hop net domain src link = some (next, cost) → w.toNat = weight.toNat + cost →
      w < igpMaxWeight → (∀ w', weightOf comp.spt (elemKey net next) = some w' → w < w') →
      Improved net next context.vertex w comp.spt spt' →
      context.iif.bind net.destIface ≠ some link → comp.fifo.length < fifoDepth →
      Traversed net domain context comp src weight link
        (.ok { spt := spt', fifo := comp.fifo ++ [⟨some link, elemKey net next⟩] })
  | full {next : NetElem N I S} {cost : ℕ} {w : UInt32} :
      hop net domain src link = some (next, cost) → w.toNat = weight.toNat + cost →
      w < igpMaxWeight → (∀ w', weightOf comp.spt (elemKey net next) = some w' → w < w') →
      context.iif.bind net.destIface ≠ some link → ¬ comp.fifo.length < fifoDepth →
      Traversed net domain context comp src weight link (.error .fifoFull)

theorem linkTraverse_traversed {net : Topology N I S} {domain : List N} {context : SptContext I}
    {comp : SptComp N I S} {src : NetElem N I S} {weight : UInt32} (link : I)
    (linked : Linked comp.spt) (atElem : elemOf comp.spt context.vertex = some src)
    (atWeight : weightOf comp.spt context.vertex = some weight) (bounded : weight < igpMaxWeight) :
    Traversed net domain context comp src weight link
      (linkTraverse net domain context comp link) := by
  obtain ⟨vertex, found, rfl⟩ := Option.map_eq_some_iff.mp atElem
  rw [weightOf, found, Option.map_some, Option.some.injEq] at atWeight
  subst atWeight
  have present : context.vertex ∈ comp.spt := by
    rw [← AList.lookup_isSome, found, Option.isSome_some]
  unfold linkTraverse
  simp only [found]
  cases got : linkGetNextElem net vertex.elem link with
  | error e =>
    have null : e = .nullPointer := by
      unfold linkGetNextElem at got
      grind
    subst null
    exact .fault got
  | ok result =>
    simp only [bind, Except.bind]
    cases result with
    | none => exact .filtered (by simp [hop, got])
    | some next =>
      dsimp only
      by_cases stopped : linkFiltered net domain vertex.elem link next = true
      · rw [if_pos (by simp [stopped])]
        exact .filtered (by simp [hop, got, stopped])
      · have passes : hop net domain vertex.elem link =
            some (next, linkCost net vertex.elem link) := by
          simp [hop, got, stopped]
        by_cases home : context.iif.bind net.destIface = some link
        · rw [if_pos (by simp [home])]
          exact .back passes home
        · rw [if_neg (by simp [stopped, home])]
          have sum := linkWeight_toNat net vertex.elem bounded link
          by_cases full : maxCost ≤ vertex.weight.toNat + linkCost net vertex.elem link
          · rw [if_pos ((linkSaturated_iff net vertex.elem bounded link).mpr full)]
            exact .saturated passes full
          · rw [if_neg (fun h => full ((linkSaturated_iff net vertex.elem bounded link).mp h))]
            generalize linkWeight net vertex.elem vertex.weight link = w at sum
            have sum : w.toNat = vertex.weight.toNat + linkCost net vertex.elem link := by omega
            have below : w < igpMaxWeight := by
              change w.toNat < maxCost
              omega
            -- the four outcomes of the update
            have improves : (∃ spt', sptUpdateNode net comp.spt next context.vertex w =
                .ok (spt', some (elemKey net next)) ∧
                Improved net next context.vertex w comp.spt spt') →
                (∀ w', weightOf comp.spt (elemKey net next) = some w' → w < w') →
                Traversed net domain context comp vertex.elem vertex.weight link
                  (updateAndPush net context comp link next w) := by
              rintro ⟨spt', updated, improved⟩ better
              simp only [updateAndPush, updated, sptPush]
              split
              next room => exact .improved passes sum below better improved home room
              next full => exact .full passes sum below better home full
            cases known : weightOf comp.spt (elemKey net next) with
            | none =>
              refine improves (sptUpdateNode_new linked present ?_) (by simp [known])
              intro there
              rw [← weightOf_isSome, known] at there
              obtain ⟨_, h⟩ := there
              cases h
            | some w' =>
              by_cases better : w < w'
              · refine improves (sptUpdateNode_better linked present known better) ?_
                intro w'' known'
                rw [known, Option.some.injEq] at known'
                exact known' ▸ better
              · by_cases same : w' = w
                · subst same
                  obtain ⟨spt', updated, joined⟩ := sptUpdateNode_equal linked present known
                  simp only [updateAndPush, updated]
                  exact .equal passes known sum joined
                · have worse : w < w' ∨ w' < w := by
                    rw [UInt32.lt_iff_toNat_lt, UInt32.lt_iff_toNat_lt]
                    rw [← UInt32.toNat_inj] at same
                    omega
                  have worse := worse.resolve_left better
                  simp only [updateAndPush, sptUpdateNode_worse known worse]
                  exact .worse passes known (by rw [← sum]; exact worse)

/-! ## The vertices a search can meet -/

omit [DecidableEq I] in
/-- A router is found in a domain exactly when it belongs to it. -/
theorem igpDomainContainsRouter_iff {net : Topology N I S} {domain : List N} {n : N} :
    igpDomainContainsRouter net domain n = true ↔ n ∈ domain := by
  simp only [igpDomainContainsRouter, List.any_eq_true, decide_eq_true_eq]
  constructor
  · rintro ⟨m, member, same⟩
    exact net.rid_injective same ▸ member
  · intro member
    exact ⟨n, member, rfl⟩

omit [DecidableEq I] in
/-- What a link needs to pass the filters; its metric is not read on the way out of a point-to-point
link. -/
theorem linkFiltered_eq_false {net : Topology N I S} {domain : List N} {src next : NetElem N I S}
    {link : I} : linkFiltered net domain src link next = false ↔
      (∀ n, next = .node n → n ∈ domain) ∧
      (net.iface link).enabled = true ∧ (net.iface link).connected = true ∧
      ((∀ i, src ≠ .link i) →
        (net.iface link).metric ≠ 0 ∧ (net.iface link).metric ≠ igpMaxWeight) := by
  simp only [linkFiltered, Bool.or_eq_false_iff, Bool.not_eq_false']
  cases next with
  | node n => cases src <;> simp [igpDomainContainsRouter_iff] <;> tauto
  | subnet s => cases src <;> simp <;> tauto
  | link i => cases src <;> simp <;> tauto

/-- The elements a search can meet: the root, the routers of the domain, and what their interfaces
lead to. -/
def knownElems (net : Topology N I S) (domain : List N) (root : N) : List (NetElem N I S) :=
  (root :: domain).flatMap fun n =>
    .node n :: ((net.ifaces n).filterMap fun i => (net.destSubnet i).map .subnet) ++
      (net.ifaces n).filterMap fun i =>
        if (net.iface i).type = .ptp then (net.destIface i).map .link else none

section Known

omit [DecidableEq I]

variable {net : Topology N I S} {domain : List N} {root : N}

theorem node_known {n : N} :
    .node n ∈ knownElems net domain root ↔ n = root ∨ n ∈ domain := by
  simp [knownElems, eq_comm]

theorem subnet_known {s : S} : .subnet s ∈ knownElems net domain root ↔
    ∃ n i, (n = root ∨ n ∈ domain) ∧ i ∈ net.ifaces n ∧ net.destSubnet i = some s := by
  simp [knownElems, eq_comm]

theorem link_known {j : I} : .link j ∈ knownElems net domain root ↔
    ∃ n i, (n = root ∨ n ∈ domain) ∧ i ∈ net.ifaces n ∧ (net.iface i).type = .ptp ∧
      net.destIface i = some j := by
  simp [knownElems, eq_comm]

/-- The links out of an element, those of an element whose links cannot be read left out. -/
def linksOf (net : Topology N I S) (elem : NetElem N I S) : List I :=
  match outboundLinks net elem with
  | .ok links => links
  | .error _ => []

theorem hop_next {src next : NetElem N I S} {link : I} {cost : ℕ}
    (passes : hop net domain src link = some (next, cost)) :
    LeadsTo net src link next ∧
      linkFiltered net domain src link next = false ∧ cost = linkCost net src link := by
  unfold hop at passes
  split at passes
  next got =>
    split at passes
    · cases passes
    next unfiltered =>
      cases passes
      exact ⟨linkGetNextElem_some.mp got, by simpa using unfiltered, rfl⟩
  next => cases passes

/-- A hop out of a known element leads to a known element. -/
theorem hop_known {src next : NetElem N I S} {link : I} {cost : ℕ}
    (known : src ∈ knownElems net domain root) (out : link ∈ linksOf net src)
    (passes : hop net domain src link = some (next, cost)) : next ∈ knownElems net domain root := by
  obtain ⟨leads, unfiltered, _⟩ := hop_next passes
  -- a router outside the domain is filtered
  have inside : ∀ n, next = .node n → .node n ∈ knownElems net domain root := by
    intro n same
    exact node_known.mpr (.inr ((linkFiltered_eq_false.mp unfiltered).1 n same))
  cases leads with
  | router _ _ => exact inside _ rfl
  | leaveSubnet => exact inside _ rfl
  | leaveLink _ => exact inside _ rfl
  | subnet _ dest => exact subnet_known.mpr ⟨_, link, node_known.mp known, out, dest⟩
  | link type dest => exact link_known.mpr ⟨_, link, node_known.mp known, out, type, dest⟩

/-- Only routers stand under the key of a router. -/
theorem isNode_of_key {elem : NetElem N I S} {n : N} (known : elem ∈ knownElems net domain root)
    (same : elemKey net elem = elemKey net (.node n)) : ∃ m, elem = .node m := by
  have masks := congrArg Pfx.mask same
  simp only [elemKey, netElemPrefix, ipPrefixMask] at masks
  cases elem with
  | node m => exact ⟨m, rfl⟩
  | subnet s =>
    have short : (net.subnetPrefix s).mask = 32 := masks
    have := net.subnet_mask s
    omega
  | link j =>
    obtain ⟨_, i, _, _, type, dest⟩ := link_known.mp known
    have short : (net.iface j).mask = 32 := masks
    have := net.iface_mask j (.inl ((net.destIface_matches dest).2.1.trans type))
    omega

/-- The way out of a router costs something. -/
theorem hop_cost_pos {n : N} {next : NetElem N I S} {link : I} {cost : ℕ}
    (passes : hop net domain (.node n) link = some (next, cost)) : 0 < cost := by
  obtain ⟨_, unfiltered, rfl⟩ := hop_next passes
  have weighted := ((linkFiltered_eq_false.mp unfiltered).2.2.2 (by simp)).1
  have nonzero : (net.iface link).metric.toNat ≠ 0 := fun zero =>
    weighted (UInt32.toNat_inj.mp zero)
  simp only [linkCost]
  omega

/-- The way out of a subnet or link leads to a router. -/
theorem hop_node {src next : NetElem N I S} {link : I} {cost : ℕ}
    (passes : hop net domain src link = some (next, cost)) :
    (∃ n, src = .node n) ∨ ∃ n, next = .node n := by
  obtain ⟨leads, _, _⟩ := hop_next passes
  cases leads with
  | router _ _ => exact .inl ⟨_, rfl⟩
  | subnet _ _ => exact .inl ⟨_, rfl⟩
  | link _ _ => exact .inl ⟨_, rfl⟩
  | leaveSubnet => exact .inr ⟨_, rfl⟩
  | leaveLink _ => exact .inr ⟨_, rfl⟩

end Known

/-! ## What a search keeps -/

section Search

variable (net : Topology N I S) (domain : List N) (root : N)

/-- A number that grows along every hop: the weight, and whether the element is a router. -/
def rank (elem : NetElem N I S) (weight : UInt32) : ℕ :=
  match elem with
  | .node _ => 2 * weight.toNat + 1
  | _ => 2 * weight.toNat

/-- The rank of a vertex of the tree is above that of its predecessor. -/
def Above (spt : Spt N I S) (b a : Pfx) : Prop :=
  ∃ elemA weightA elemB weightB, elemOf spt a = some elemA ∧ weightOf spt a = some weightA ∧
    elemOf spt b = some elemB ∧ weightOf spt b = some weightB ∧
    rank elemA weightA < rank elemB weightB

/-- The tree and the queue of a search: vertices stand under the keys of known elements, no weight
is saturated, ranks grow from predecessor to successor, and every vertex in the queue is in the
tree. -/
structure Shape (comp : SptComp N I S) : Prop where
  linked : Linked comp.spt
  elems : ∀ {k e}, elemOf comp.spt k = some e →
    elemKey net e = k ∧ e ∈ knownElems net domain root
  light : ∀ {k w}, weightOf comp.spt k = some w → w < igpMaxWeight
  rising : ∀ {b a}, a ∈ predsOf comp.spt b → Above comp.spt b a
  queued : ∀ c ∈ comp.fifo, c.vertex ∈ comp.spt

/-- The two ends of every point-to-point interface of a router that can be met point at each
other. -/
def Wired : Prop :=
  ∀ n, n = root ∨ n ∈ domain → ∀ i ∈ net.ifaces n,
    (net.iface i).type = .rtr ∨ (net.iface i).type = .ptp →
    ∃ j, net.destIface i = some j ∧ net.destIface j = some i

/-- The keys of the elements a search can meet. -/
def vertexKeys : Finset Pfx :=
  ((knownElems net domain root).map (elemKey net)).toFinset

/-- What every improvement lowers. -/
def searchPotential (spt : Spt N I S) : ℕ :=
  Relaxation.potential maxCost (vertexKeys net domain root) (distOf spt)

/-- What lies between two states of a search: elements stay, and a vertex is pushed only when the
potential goes down. -/
structure Advance (comp comp' : SptComp N I S) : Prop where
  grows : ∀ {k e}, elemOf comp.spt k = some e → elemOf comp'.spt k = some e
  measure : searchPotential net domain root comp'.spt < searchPotential net domain root comp.spt ∨
    searchPotential net domain root comp'.spt = searchPotential net domain root comp.spt ∧
      comp'.fifo = comp.fifo

/-- The faults of a search: the queue overflows, or, in a network that is not wired, an interface
that leads nowhere is read through. -/
def SearchFault (fault : IgpFault) : Prop :=
  fault ≠ .outOfFuel ∧ (Wired net domain root → fault = .fifoFull)

variable {net domain root} {comp comp' comp'' : SptComp N I S}

omit [DecidableEq I] in
theorem Advance.refl : Advance net domain root comp comp where
  grows := id
  measure := .inr ⟨rfl, rfl⟩

omit [DecidableEq I] in
theorem Advance.trans (first : Advance net domain root comp comp')
    (second : Advance net domain root comp' comp'') : Advance net domain root comp comp'' where
  grows h := second.grows (first.grows h)
  measure := by
    rcases first.measure with less | ⟨equal, fifo⟩ <;>
      rcases second.measure with less' | ⟨equal', fifo'⟩
    · exact .inl (less'.trans less)
    · exact .inl (equal' ▸ less)
    · exact .inl (equal ▸ less')
    · exact .inr ⟨equal'.trans equal, fifo'.trans fifo⟩

omit [DecidableEq I] in
theorem distOf_improved {spt spt' : Spt N I S} {next : NetElem N I S} {prev : Pfx} {w : UInt32}
    (improved : Improved net next prev w spt spt') :
    distOf spt' = Function.update (distOf spt) (elemKey net next) (some w.toNat) := by
  funext k
  rw [distOf, improved.weights]
  split
  next same =>
    subst same
    rw [Function.update_self, Option.map_some]
  next other =>
    rw [Function.update_of_ne other]
    rfl

omit [DecidableEq I] in
theorem distOf_joined {spt spt' : Spt N I S} {next : NetElem N I S} {prev : Pfx}
    (joined : Joined net next prev spt spt') : distOf spt' = distOf spt := by
  funext k
  rw [distOf, joined.weights]
  rfl

omit [DecidableEq I] in
theorem Wired.link_back (wired : Wired net domain root) {i : I}
    (known : .link i ∈ knownElems net domain root) :
    ∃ j, net.destIface j = some i ∧ net.destIface i = some j := by
  obtain ⟨n, j, member, owned, type, dest⟩ := link_known.mp known
  obtain ⟨k, forth, back⟩ := wired n member j owned (.inr type)
  rw [dest, Option.some.injEq] at forth
  subst forth
  exact ⟨j, dest, back⟩

omit [DecidableEq I] in
/-- In a wired network no known element leads nowhere. -/
theorem Wired.no_null (wired : Wired net domain root) {src : NetElem N I S} {link : I}
    (known : src ∈ knownElems net domain root) (out : link ∈ linksOf net src) :
    linkGetNextElem net src link ≠ .error .nullPointer := by
  cases src with
  | node n =>
    simp only [linkGetNextElem]
    split
    next => simp
    next => simp
    next => simp
    next type =>
      obtain ⟨j, dest, _⟩ := wired n (node_known.mp known) link out (.inl type)
      simp [dest]
    next => simp
  | subnet s => simp [linkGetNextElem]
  | link i =>
    obtain ⟨j, dest, back⟩ := wired.link_back known
    simp only [linksOf, outboundLinks, back, List.mem_singleton] at out
    subst out
    simp [linkGetNextElem, dest]

omit [DecidableEq I] in
/-- Ranks grow along a hop. -/
theorem rank_hop {src next elem : NetElem N I S} {link : I} {cost : ℕ} {weight w : UInt32}
    (passes : hop net domain src link = some (next, cost))
    (known : elem ∈ knownElems net domain root) (key : elemKey net elem = elemKey net next)
    (sum : w.toNat = weight.toNat + cost) : rank src weight < rank elem w := by
  have lower : 2 * w.toNat ≤ rank elem w := by
    cases elem <;> simp [rank]
  rcases hop_node passes with ⟨n, rfl⟩ | ⟨n, rfl⟩
  · have := hop_cost_pos passes
    have here : rank (.node n : NetElem N I S) weight = 2 * weight.toNat + 1 := rfl
    omega
  · obtain ⟨m, rfl⟩ := isNode_of_key known key
    cases src with
    | node k =>
      have := hop_cost_pos passes
      simp only [rank]
      omega
    | subnet s =>
      simp only [rank]
      omega
    | link i =>
      simp only [rank]
      omega

/-- Traversing one link. -/
theorem linkTraverse_shape {context : SptContext I} {src : NetElem N I S} {link : I}
    (shape : Shape net domain root comp) (atElem : elemOf comp.spt context.vertex = some src)
    (out : link ∈ linksOf net src) :
    Ends (fun comp' => Shape net domain root comp' ∧ Advance net domain root comp comp')
      (SearchFault net domain root) (linkTraverse net domain context comp link) := by
  obtain ⟨srcKey, known⟩ := shape.elems atElem
  obtain ⟨weight, atWeight⟩ := weightOf_isSome.mpr (elemOf_isSome.mp ⟨src, atElem⟩)
  have traversed : Traversed net domain context comp src weight link
      (linkTraverse net domain context comp link) :=
    linkTraverse_traversed link shape.linked atElem atWeight (shape.light atWeight)
  generalize linkTraverse net domain context comp link = result at traversed
  cases traversed with
  | fault null => exact ⟨by simp, fun wired => absurd null (wired.no_null known out)⟩
  | filtered _ => exact ⟨shape, .refl⟩
  | back _ _ => exact ⟨shape, .refl⟩
  | saturated _ _ => exact ⟨shape, .refl⟩
  | worse _ _ _ => exact ⟨shape, .refl⟩
  | full => exact ⟨by simp, fun _ => rfl⟩
  | @equal next cost w spt' passes atNext sum joined =>
    refine ⟨{ linked := joined.linked, elems := ?_, light := ?_, rising := ?_, queued := ?_ },
      { grows := ?_, measure := .inr ⟨?_, rfl⟩ }⟩
    · intro k e atK
      exact shape.elems ((joined.elems k).symm.trans atK)
    · intro k w atK
      exact shape.light ((joined.weights k).symm.trans atK)
    · intro b a isPred
      have above : Above comp.spt b a := by
        rcases (joined.preds b a).mp isPred with old | ⟨rfl, rfl⟩
        · exact shape.rising old
        · obtain ⟨elem, atNext'⟩ := elemOf_isSome.mpr (weightOf_isSome.mp ⟨w, atNext⟩)
          exact ⟨src, weight, elem, w, atElem, atWeight, atNext', atNext,
            rank_hop passes (shape.elems atNext').2 (shape.elems atNext').1 sum⟩
      simpa only [Above, joined.elems, joined.weights] using above
    · intro c member
      rw [← elemOf_isSome]
      simp only [joined.elems]
      exact elemOf_isSome.mpr (shape.queued c member)
    · intro k e atK
      exact (joined.elems k).trans atK
    · rw [searchPotential, searchPotential, distOf_joined joined]
  | @improved next cost w spt' passes sum below better improved =>
    have nextKnown := hop_known known out passes
    have grows : ∀ {k e}, elemOf comp.spt k = some e → elemOf spt' k = some e := by
      intro k e atK
      rw [improved.elems, if_neg]
      · exact atK
      · rintro ⟨rfl, absent⟩
        exact absent (elemOf_isSome.mp ⟨e, atK⟩)
    have nextIn : elemKey net next ∈ spt' := by
      rw [← weightOf_isSome]
      exact ⟨w, by rw [improved.weights, if_pos rfl]⟩
    have elems : ∀ {k e}, elemOf spt' k = some e →
        elemKey net e = k ∧ e ∈ knownElems net domain root := by
      intro k e atK
      rw [improved.elems] at atK
      split at atK
      next created =>
        cases atK
        exact ⟨created.1.symm, nextKnown⟩
      next => exact shape.elems atK
    have weightNext : weightOf spt' (elemKey net next) = some w := by
      rw [improved.weights, if_pos rfl]
    have weightOther : ∀ {k}, k ≠ elemKey net next → weightOf spt' k = weightOf comp.spt k := by
      intro k other
      rw [improved.weights, if_neg other]
    refine ⟨{ linked := improved.linked, elems := elems, light := ?_, rising := ?_, queued := ?_ },
      { grows := grows, measure := .inl ?_ }⟩
    · intro k w' atK
      dsimp only at atK
      rw [improved.weights] at atK
      split at atK
      · cases atK
        exact below
      · exact shape.light atK
    · intro b a isPred
      dsimp only at isPred ⊢
      rw [improved.preds] at isPred
      split at isPred
      next same =>
        subst same
        subst isPred
        obtain ⟨elem, atNext⟩ := elemOf_isSome.mpr nextIn
        have notSelf : context.vertex ≠ elemKey net next := by
          intro same
          have lower : w.toNat < weight.toNat := better weight (same ▸ atWeight)
          omega
        exact ⟨src, weight, elem, w, grows atElem, by rw [weightOther notSelf, atWeight], atNext,
          weightNext, rank_hop passes (elems atNext).2 (elems atNext).1 sum⟩
      next other =>
        obtain ⟨elemA, weightA, elemB, weightB, atA, weighsA, atB, weighsB, less⟩ :=
          shape.rising isPred
        by_cases same : a = elemKey net next
        · -- the predecessor has just come nearer
          subst same
          have lower : w.toNat < weightA.toNat := better weightA weighsA
          refine ⟨elemA, w, elemB, weightB, grows atA, weightNext, grows atB,
            by rw [weightOther other, weighsB], Nat.lt_trans ?_ less⟩
          cases elemA <;> simp only [rank] <;> omega
        · exact ⟨elemA, weightA, elemB, weightB, grows atA, by rw [weightOther same, weighsA],
            grows atB, by rw [weightOther other, weighsB], less⟩
    · intro c member
      rcases List.mem_append.mp member with old | new
      · obtain ⟨e, atC⟩ := elemOf_isSome.mpr (shape.queued c old)
        exact elemOf_isSome.mp ⟨e, grows atC⟩
      · rw [List.mem_singleton.mp new]
        exact nextIn
    · rw [searchPotential, searchPotential, distOf_improved improved]
      refine Relaxation.potential_update_lt ?_ below ?_
      · rw [vertexKeys, List.mem_toFinset]
        exact List.mem_map_of_mem nextKnown
      · intro e atNext
        obtain ⟨w', known', rfl⟩ := distOf_eq_some.mp atNext
        exact better w' known'

omit [DecidableEq I] in
/-- The search with the first context taken out of its queue. -/
theorem Shape.pop {context : SptContext I} {rest : List (SptContext I)}
    (shape : Shape net domain root comp) (queue : comp.fifo = context :: rest) :
    Shape net domain root { comp with fifo := rest } :=
  { shape with queued := fun c member => shape.queued c (by simp [queue, member]) }

/-- Traversing links out of one vertex. -/
theorem linkTraverse_loop {context : SptContext I} {src : NetElem N I S} {links : List I}
    (shape : Shape net domain root comp) (atElem : elemOf comp.spt context.vertex = some src)
    (out : ∀ link ∈ links, link ∈ linksOf net src) :
    Ends (fun comp' => Shape net domain root comp' ∧ Advance net domain root comp comp')
      (SearchFault net domain root) (links.foldlM (linkTraverse net domain context) comp) := by
  refine Ends.loop (fun comp' link member holds => ?_) ⟨shape, .refl⟩
  refine (linkTraverse_shape holds.1 (holds.2.grows atElem) (out link (loopStates_snd member))).mono
    (fun final after => ?_) fun _ => id
  exact ⟨after.1, holds.2.trans after.2⟩

/-- One turn of the main loop. -/
theorem sptTurn_shape {context : SptContext I} {rest : List (SptContext I)}
    (shape : Shape net domain root comp) (queue : comp.fifo = context :: rest) :
    Ends (fun comp' => Shape net domain root comp' ∧
        Advance net domain root { comp with fifo := rest } comp')
      (SearchFault net domain root) (sptTurn net domain comp context rest) := by
  obtain ⟨src, atElem⟩ := elemOf_isSome.mpr (shape.queued context (by simp [queue]))
  obtain ⟨vertex, found, rfl⟩ := Option.map_eq_some_iff.mp atElem
  simp only [sptTurn, found]
  cases links : outboundLinks net vertex.elem with
  | error e =>
    -- only the far end of a point-to-point link can be missing
    cases kind : vertex.elem with
    | node n => simp [kind, outboundLinks] at links
    | subnet s => simp [kind, outboundLinks] at links
    | link i =>
      have missing : net.destIface i = none ∧ e = .nullPointer := by
        simp only [kind, outboundLinks] at links
        split at links
        next none => exact ⟨none, by cases links; rfl⟩
        next => cases links
      refine ⟨by simp [missing.2], fun wired => ?_⟩
      obtain ⟨j, _, back⟩ := wired.link_back (kind ▸ (shape.elems atElem).2)
      rw [missing.1] at back
      cases back
  | ok list =>
    have listed : linksOf net vertex.elem = list := by rw [linksOf, links]
    exact linkTraverse_loop (shape.pop queue) atElem fun link member => listed ▸ member

omit [DecidableEq I] in
/-- The start of a search. -/
theorem sptStart_shape : Shape net domain root (sptStart net root) where
  linked := by
    have empty : Linked (∅ : Spt N I S) :=
      { mirror := by simp [predsOf, succsOf]
        preds_nodup := by simp [predsOf]
        succs_nodup := by simp [succsOf] }
    exact (linked_insert empty (AList.notMem_empty _) _ _).1
  -- The tree is the root alone, without predecessors, and the queue holds the root's context.
  elems := by
    intro k e atK
    simp only [elemOf, sptStart] at atK
    by_cases same : k = elemKey net (.node root)
    · rw [same, AList.lookup_insert, Option.map_some, Option.some.injEq] at atK
      subst atK
      exact ⟨same.symm, node_known.mpr (.inl rfl)⟩
    · rw [AList.lookup_insert_ne same] at atK
      simp at atK
  light := by
    intro k w atK
    simp only [weightOf, sptStart] at atK
    by_cases same : k = elemKey net (.node root)
    · rw [same, AList.lookup_insert, Option.map_some, Option.some.injEq] at atK
      subst atK
      show (0 : UInt32) < igpMaxWeight
      decide
    · rw [AList.lookup_insert_ne same] at atK
      simp at atK
  rising := by
    intro b a isPred
    by_cases same : b = elemKey net (.node root)
    · rw [predsOf, same, sptStart, AList.lookup_insert] at isPred
      simp at isPred
    · rw [predsOf, sptStart, AList.lookup_insert_ne same] at isPred
      simp at isPred
  queued := by
    intro c member
    rw [sptStart, List.mem_singleton] at member
    subst member
    exact (AList.mem_insert _).mpr (.inl rfl)

/-- With enough fuel a search ends in a tree or in one of its faults, and more fuel changes
nothing. -/
theorem sptLoop_ends (shape : Shape net domain root comp) :
    ∃ fuel result, (∀ more, fuel ≤ more → sptLoop net domain more comp = result) ∧
      Ends (fun _ => True) (SearchFault net domain root) result := by
  -- the potential goes down, or it stays and the queue gets shorter
  induction size : searchPotential net domain root comp.spt using Nat.strong_induction_on
    generalizing comp with
  | _ n smaller =>
    induction length : comp.fifo.length using Nat.strong_induction_on generalizing comp with
    | _ m shorter =>
      cases queue : comp.fifo with
      | nil =>
        refine ⟨0, .ok comp.spt, fun more _ => ?_, trivial⟩
        unfold sptLoop
        rw [queue]
      | cons context rest =>
        have turn := sptTurn_shape shape queue
        have unfolded : ∀ more, sptLoop net domain (more + 1) comp =
            (sptTurn net domain comp context rest >>= sptLoop net domain more) := by
          intro more
          conv_lhs => unfold sptLoop
          rw [queue]
        cases result : sptTurn net domain comp context rest with
        | error fault =>
          refine ⟨1, .error fault, fun more enough => ?_, turn.error result⟩
          obtain ⟨more, rfl⟩ := Nat.exists_eq_add_of_le' enough
          rw [unfolded, result]
          rfl
        | ok comp' =>
          obtain ⟨shape', advance⟩ := turn.value result
          have ends : ∃ fuel result, (∀ more, fuel ≤ more → sptLoop net domain more comp' = result) ∧
              Ends (fun _ => True) (SearchFault net domain root) result := by
            rcases advance.measure with less | ⟨equal, fifo⟩
            · exact smaller _ (size ▸ less) shape' rfl
            · refine shorter _ ?_ shape' (equal.trans size) rfl
              rw [fifo, ← length, queue]
              simp
          obtain ⟨fuel, final, stable, kind⟩ := ends
          refine ⟨fuel + 1, final, fun more enough => ?_, kind⟩
          obtain ⟨more, rfl⟩ := Nat.exists_eq_add_of_le' (Nat.le_of_add_left_le enough)
          rw [unfolded, result]
          exact stable more (by omega)

end Search

end Cbgp.Verified
