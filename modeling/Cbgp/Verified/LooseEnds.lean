import Cbgp.Verified.ShortestPaths
import Cbgp.Verified.Survey

/-! # Interfaces without a far end

An interface that is not connected is passed over by the search, but only after its far end has been
read: `_link_get_next_elem` runs before the filters of `_link_traverse`, and reads through the
destination of a router-to-router interface and of both ends of a point-to-point link.

Until a survey of the topology comes to such an end, the search does what it does with the unconnected
interfaces taken out (`sptLoop_unplugged`).  So it ignores them exactly when the survey comes to none
(`ignores_loose_iff`).
-/

namespace Cbgp.Verified

open Cbgp.Lib Cbgp.Net

variable {N I S : Type} [DecidableEq I]

/-! ## The topology without the unconnected interfaces -/

/-- An interface of the kinds the search traverses that is not connected. -/
def loose (net : Topology N I S) (i : I) : Bool :=
  !(net.iface i).connected && decide ((net.iface i).type = .rtr ∨ (net.iface i).type = .ptp ∨
    (net.iface i).type = .ptmp)

/-- The topology with the unconnected interfaces taken out of the lists of its routers and
subnets. -/
def unplugged (net : Topology N I S) : Topology N I S :=
  { net with
    ifaces := fun n => (net.ifaces n).filter fun i => !loose net i
    subnetIfaces := fun s => (net.subnetIfaces s).filter fun i => !loose net i
    ifaces_owner := fun n i member => net.ifaces_owner n i (List.mem_of_mem_filter member)
    ifaces_sorted := fun n => (net.ifaces_sorted n).filter _
    subnet_dest := fun s i member => net.subnet_dest s i (List.mem_of_mem_filter member)
    subnet_sorted := fun s => (net.subnet_sorted s).filter _ }

/-! ## The same search without the unconnected interfaces -/

section Unplugged

variable {net : Topology N I S} {domain : List N} {root : N} {comp : SptComp N I S}
  {context : SptContext I} {src : NetElem N I S} {link : I}

/-- An unconnected interface is passed over, once its far end has been read. -/
theorem linkTraverse_loose (loosened : loose net link = true)
    (atElem : elemOf comp.spt context.vertex = some src) (ends : ¬ EndMissing net src link) :
    linkTraverse net domain context comp link = .ok comp := by
  obtain ⟨vertex, found, rfl⟩ := Option.map_eq_some_iff.mp atElem
  have down : (net.iface link).connected = false := by
    simp only [loose, Bool.and_eq_true, Bool.not_eq_true'] at loosened
    exact loosened.1
  unfold linkTraverse
  simp only [found]
  cases got : linkGetNextElem net vertex.elem link with
  | error fault =>
    have null : fault = .nullPointer := by
      unfold linkGetNextElem at got
      grind
    exact absurd (endMissing_iff.mpr (null ▸ got)) ends
  | ok next =>
    cases next with
    | none => rfl
    | some next =>
      have filtered : linkFiltered net domain vertex.elem link next = true := by
        simp [linkFiltered, down]
      show (if _ then _ else _) = _
      rw [if_pos (by rw [filtered, Bool.true_or])]

/-- Taking the unconnected interfaces out of a list of links changes nothing. -/
theorem traverse_unplugged (context : SptContext I) (links : List I) (shape : Shape net domain root comp)
    (atElem : elemOf comp.spt context.vertex = some src) (out : ∀ link ∈ links, link ∈ linksOf net src)
    (ends : ∀ before link after survey', links = before ++ link :: after →
      before.foldlM (Survey.follow net domain context) (surveyOf comp) = some survey' →
      ¬ EndMissing net src link) :
    (links.filter fun i => !loose net i).foldlM (linkTraverse net domain context) comp =
      links.foldlM (linkTraverse net domain context) comp := by
  induction links generalizing comp with
  | nil => rfl
  | cons link links inductionHypothesis =>
    have later := fun link' member => out link' (List.mem_cons_of_mem link member)
    have here : Together (Survey.follow net domain context (surveyOf comp) link) (EndMissing net src link)
        (linkTraverse net domain context comp link) := linkTraverse_together shape atElem
    -- the ends after the link are those that the survey comes to once it has followed the link
    have rest {mid : SptComp N I S}
        (followed : Survey.follow net domain context (surveyOf comp) link = some (surveyOf mid))
        (before : List I) (link' : I) (after : List I) (survey' : Survey N I S)
        (split : links = before ++ link' :: after)
        (ran : before.foldlM (Survey.follow net domain context) (surveyOf mid) = some survey') :
        ¬ EndMissing net src link' := by
      refine ends (link :: before) link' after survey' (by rw [split]; rfl) ?_
      rw [List.foldlM_cons, followed]
      exact ran
    cases loosened : loose net link with
    | true =>
      have passed : linkTraverse net domain context comp link = .ok comp :=
        linkTraverse_loose loosened atElem (ends [] link links _ rfl rfl)
      rw [List.filter_cons_of_neg (by simp [loosened]), List.foldlM_cons, passed]
      rw [passed] at here
      cases here with
      | goes followed => exact inductionHypothesis shape atElem later (rest followed)
    | false =>
      rw [List.filter_cons_of_pos (by simp [loosened]), List.foldlM_cons, List.foldlM_cons]
      have next := linkTraverse_shape shape atElem (out link (by simp))
      cases result : linkTraverse net domain context comp link with
      | error fault => rfl
      | ok mid =>
        rw [result] at here
        obtain ⟨shape', advance⟩ := next.value result
        cases here with
        | goes followed => exact inductionHypothesis shape' (advance.grows atElem) later (rest followed)

theorem sptTurn_unplugged {rest : List (SptContext I)} (shape : Shape net domain root comp)
    (queue : comp.fifo = context :: rest) (atElem : elemOf comp.spt context.vertex = some src)
    (ends : ¬ ReadsThrough net domain context { surveyOf comp with queue := rest } src) :
    sptTurn (unplugged net) domain comp context rest = sptTurn net domain comp context rest := by
  obtain ⟨vertex, found, rfl⟩ := Option.map_eq_some_iff.mp atElem
  have same := traverse_unplugged context (linksOf net vertex.elem) (shape.pop queue) atElem (fun _ => id)
    fun before link after survey' split ran missing => ends (.far split ran missing)
  simp only [sptTurn, found]
  cases kind : vertex.elem with
  | node n =>
    rw [kind] at same
    exact same
  | subnet s =>
    rw [kind] at same
    cases transit : net.subnetTransit s with
    | true =>
      have lists : outboundLinks net (.subnet s : NetElem N I S) = .ok (net.subnetIfaces s) := by
        simp [outboundLinks, transit]
      have lists' : outboundLinks (unplugged net) (.subnet s : NetElem N I S) =
          .ok ((net.subnetIfaces s).filter fun i => !loose net i) := by
        simp [outboundLinks, unplugged, transit]
      rw [linksOf, lists] at same
      rw [lists, lists']
      exact same
    | false =>
      simp only [outboundLinks, unplugged, transit]
      rfl
  | link j => rfl

/-- A search that comes to no missing end does what it does without the unconnected interfaces. -/
theorem sptLoop_unplugged (endsMet : EndsMet net domain root) (fuel : ℕ)
    (shape : Shape net domain root comp) (surveyed : Surveyed net domain root (surveyOf comp)) :
    sptLoop (unplugged net) domain fuel comp = sptLoop net domain fuel comp := by
  induction fuel generalizing comp with
  | zero =>
    unfold sptLoop
    cases comp.fifo <;> rfl
  | succ fuel inductionHypothesis =>
    cases queue : comp.fifo with
    | nil =>
      unfold sptLoop
      rw [queue]
    | cons context rest =>
      obtain ⟨src, atElem⟩ := elemOf_isSome.mpr (shape.queued context (by simp [queue]))
      have due := due_surveyOf queue atElem
      have together := sptTurn_surveyed shape queue atElem
      have next := sptTurn_shape shape queue
      rw [sptLoop_turn fuel queue, sptLoop_turn fuel queue,
        sptTurn_unplugged shape queue atElem (endsMet _ _ _ _ surveyed due)]
      cases result : sptTurn net domain comp context rest with
      | error fault => rfl
      | ok comp' =>
        rw [result] at together
        cases together with
        | goes same => exact inductionHypothesis (next.value result).1 (.visit surveyed due same)

end Unplugged

/-! ## When unconnected interfaces are ignored -/

/-- The search never reads through an interface that leads nowhere, and it does what it does on the
topology without the unconnected interfaces. -/
def IgnoresLoose (net : Topology N I S) (domain : List N) (root : N) : Prop :=
  ∀ fuel, sptBfs net domain root fuel ≠ .error .nullPointer ∧
    sptBfs net domain root fuel = sptBfs (unplugged net) domain root fuel

/-- Unconnected interfaces are ignored exactly when no visit reads through an end that is missing. -/
theorem ignores_loose_iff (net : Topology N I S) (domain : List N) (root : N) :
    IgnoresLoose net domain root ↔ EndsMet net domain root := by
  constructor
  · intro ignores
    by_contra missing
    obtain ⟨fuel, null⟩ := sptBfs_null_iff.mpr missing
    exact (ignores fuel).1 null
  · intro endsMet fuel
    refine ⟨fun null => sptBfs_null_iff.mp ⟨fuel, null⟩ endsMet, ?_⟩
    exact (sptLoop_unplugged endsMet fuel sptStart_shape sptStart_surveyed).symm

theorem oneSubnet_mask (_ : Unit) : 24 < 32 := by decide

theorem oneSubnet_injective :
    Function.Injective fun _ : Unit => ipPrefixMask { network := 0x0a000000, mask := 24, short := short24 } :=
  fun _ _ _ => rfl

/-- A router-to-router link that was created in one direction only: the interface of the second
router has no far end. -/
def oneWayLink : Topology Bool Bool Unit where
  rid b := if b then 0x01000002 else 0x01000001
  ifaces b := [b]
  iface b :=
    { owner := b
      addr := if b then 0x01000001 else 0x01000002
      mask := 32
      short := short32
      connected := !b
      type := .rtr
      dest := if b then none else some (.iface true)
      enabled := true
      metric := 10 }
  subnetPrefix _ := { network := 0x0a000000, mask := 24, short := short24 }
  subnetTransit _ := true
  subnetIfaces _ := []
  dest_matches b dest h := by
    cases b
    · cases h
      decide
    · cases h
  connected_dest := by decide
  iface_mask := by decide
  rid_injective := subnetPair_rid
  ifaces_owner := by decide
  ifaces_sorted := by decide
  subnet_mask := oneSubnet_mask
  subnet_injective := oneSubnet_injective
  subnet_dest := by decide
  subnet_sorted := by decide

/-- The search comes to the second router and reads through its interface; without that interface it
ends in a tree. -/
theorem oneWayLink_not_ignored :
    Ends (fun _ => False) (· = .nullPointer) (sptBfs oneWayLink [false, true] false 3) ∧
      okAnd (sptBfs (unplugged oneWayLink) [false, true] false 3) (fun spt =>
        decide (weightOf spt (elemKey oneWayLink (.node true)) = some 10)) = true ∧
      ¬ IgnoresLoose oneWayLink [false, true] false := by
  have null : Ends (fun _ => False) (· = .nullPointer)
      (sptBfs oneWayLink [false, true] false 3) := by
    decide +kernel
  refine ⟨null, by decide +kernel, fun ignores => (ignores 3).1 ?_⟩
  cases result : sptBfs oneWayLink [false, true] false 3 with
  | error fault => rw [null.error result]
  | ok spt => exact absurd (null.value result) not_false

end Cbgp.Verified
