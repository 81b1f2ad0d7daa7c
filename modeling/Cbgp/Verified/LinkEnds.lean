import Cbgp.Verified.LinkAtomicity

/-! # The two ends of a link

Connecting an interface in one direction leaves the other one free to be connected elsewhere, so the
destinations of connected interfaces need not be mutual.  They stay mutual in a run of calls none of
which connects an interface that a third one leads to (`createAll_mutual`); one call keeps them mutual
exactly when it does not (`create_mutual_iff`).
-/

namespace Cbgp.Verified

open Cbgp.Net Cbgp.Net.Wires

/-! ## Partial matchings -/

section Matching

variable {α : Type} {R R' : α → α → Prop} {s d : α}

/-- The successors of a relation point back, and no element is the successor of two. -/
structure PairedEnds (R : α → α → Prop) : Prop where
  back : ∀ a b c, R a b → R b c → c = a
  sole : ∀ a a' b, R a b → R a' b → a = a'

/-- A pair is added to a relation, in one direction or in both: the relation stays paired when nothing
else leads to the two, and only then. -/
theorem paired_join (paired : PairedEnds R) (idle : ∀ b, ¬ R s b) (dst : ∀ b, R d b → b = s)
    (forth : R' s d) (keeps : ∀ a b, R a b → R' a b)
    (only : ∀ a b, R' a b → R a b ∨ (a = s ∧ b = d) ∨ (a = d ∧ b = s)) (differ : s ≠ d) :
    PairedEnds R' ↔ (∀ a, R a s → a = d) ∧ ∀ a, ¬ R a d := by
  constructor
  · intro paired'
    refine ⟨fun a leads => (paired'.back a s d (keeps a s leads) forth).symm, fun a leads => ?_⟩
    have same := paired'.sole a s d (keeps a d leads) forth
    exact idle d (same ▸ leads)
  · rintro ⟨source, destination⟩
    -- Each of the two facts may use an old connection or one of the new pair: nine cases each.
    refine { back := fun a b c first second => ?_, sole := fun a a' b first second => ?_ }
    · rcases only a b first with first | ⟨rfl, rfl⟩ | ⟨rfl, rfl⟩
      · rcases only b c second with second | ⟨rfl, rfl⟩ | ⟨rfl, rfl⟩
        · exact paired.back a b c first second
        · exact (source a first).symm
        · exact absurd first (destination a)
      · rcases only _ c second with second | ⟨same, _⟩ | ⟨_, rfl⟩
        · exact dst c second
        · exact absurd same.symm differ
        · rfl
      · rcases only _ c second with second | ⟨_, rfl⟩ | ⟨same, _⟩
        · exact absurd second (idle c)
        · rfl
        · exact absurd same differ
    · rcases only a b first with first | ⟨rfl, rfl⟩ | ⟨rfl, rfl⟩
      · rcases only a' b second with second | ⟨rfl, rfl⟩ | ⟨rfl, rfl⟩
        · exact paired.sole a a' b first second
        · exact absurd first (destination a)
        · exact source a first
      · rcases only a' _ second with second | ⟨rfl, _⟩ | ⟨_, same⟩
        · exact absurd second (destination a')
        · rfl
        · exact absurd same.symm differ
      · rcases only a' _ second with second | ⟨_, same⟩ | ⟨rfl, _⟩
        · exact (source a' second).symm
        · exact absurd same differ
        · rfl

theorem PairedEnds.congr (same : ∀ a b, R' a b ↔ R a b) : PairedEnds R' ↔ PairedEnds R := by
  have eq : R' = R := by
    funext a b
    exact propext (same a b)
  rw [eq]

end Matching

variable {N S : Type} [DecidableEq N] [DecidableEq S]

/-! ## Misjoined ends -/

/-- The ends of connected interfaces are mutual, and no interface is the destination of two. -/
def MutualEnds (net : Wires N S) : Prop :=
  PairedEnds (Connected net)

/-- A link between two routers gets as far as connecting its first interface to the second. -/
def Joins (net : Wires N S) (srcNode : N) (srcId : Pfx) (dstNode : N) (dstId : Pfx)
    (type : IfaceType) : Prop :=
  (∀ src, net.nodeFindIface srcNode srcId = some src →
    (net.iface src).type = type ∧ (net.iface src).connected = false) ∧
  (∀ dst, net.nodeFindIface dstNode dstId = some dst → (net.iface dst).type = type ∧
    ((net.iface dst).connected = true →
      ∃ src, net.nodeFindIface srcNode srcId = some src ∧ (net.iface dst).dest = some (.iface src))) ∧
  (net.nodeFindIface srcNode srcId = none ∨ net.nodeFindIface dstNode dstId = none →
    fits srcId type = true)

/-- Another interface leads to the first interface of a link, or one leads to the second. -/
def ThirdEnd (net : Wires N S) (srcNode : N) (srcId : Pfx) (dstNode : N) (dstId : Pfx) : Prop :=
  (∃ src a, net.nodeFindIface srcNode srcId = some src ∧ Connected net a src ∧
    net.nodeFindIface dstNode dstId ≠ some a) ∨
  ∃ dst a, net.nodeFindIface dstNode dstId = some dst ∧ Connected net a dst

/-- A call connects an interface that a third one leads to. -/
def Misjoins (net : Wires N S) : LinkCall N S → Prop
  | .rtr srcNode dstNode _ => srcNode ≠ dstNode ∧
      Joins net srcNode (netIfaceIdAddr (net.rid dstNode)) dstNode
        (netIfaceIdAddr (net.rid srcNode)) .rtr ∧
      ThirdEnd net srcNode (netIfaceIdAddr (net.rid dstNode)) dstNode
        (netIfaceIdAddr (net.rid srcNode))
  | .ptp srcNode srcId dstNode dstId _ => ptpChecked srcNode srcId dstNode dstId = true ∧
      Joins net srcNode srcId dstNode dstId .ptp ∧ ThirdEnd net srcNode srcId dstNode dstId
  | .ptmp _ _ _ => False

variable {net net' : Wires N S} {node : N} {i : ℕ} {id : Pfx} {type : IfaceType}
  {srcNode dstNode : N} {srcId dstId : Pfx} {dir : IfaceDir}

omit [DecidableEq S] in
theorem connected_attach (valid : Valid net) {a b : ℕ} :
    Connected (net.attach node (netIfaceNew node type id)) a b ↔ Connected net a b := by
  by_cases new : a = net.next
  · subst new
    refine iff_of_false ((attach_idle _ _ _ valid).2 b).2 fun old => ?_
    exact absurd (valid.connected_next _ old.1) (Nat.lt_irrefl _)
  · rw [Connected, attach_iface new]
    rfl

omit [DecidableEq S] in
/-- Obtaining an interface connects nothing. -/
theorem netLinkCreateIface_connected (valid : Valid net)
    (obtained : net.netLinkCreateIface node id type = .ok (i, net')) (a b : ℕ) :
    Connected net' a b ↔ Connected net a b := by
  have cases := netLinkCreateIface_obtained net node id type
  rw [obtained] at cases
  cases cases with
  | found _ _ => exact Iff.rfl
  | made _ _ => exact connected_attach valid

omit [DecidableEq N] [DecidableEq S] in
theorem connected_plug {dst a b : ℕ} : Connected (net.plug i (.iface dst)) a b ↔
    if a = i then b = dst else Connected net a b := by
  split
  next same =>
    subst same
    simp [Connected, plug_iface_self, eq_comm]
  next other => rw [Connected, plug_iface_other other]; rfl

omit [DecidableEq N] [DecidableEq S] in
/-- What connecting the ends does to the connections. -/
theorem EndsConnected.paired_iff {src dst : ℕ} {result : Except NetError ℕ × Wires N S}
    (connected : EndsConnected net src dst dir result) (paired : MutualEnds net) (differ : src ≠ dst) :
    MutualEnds result.2 ↔ ((net.iface src).connected = false →
      ((net.iface dst).connected = true → (net.iface dst).dest = some (.iface src)) →
      (∀ a, Connected net a src → a = dst) ∧ ∀ a, ¬ Connected net a dst) := by
  have join : ∀ {net'' : Wires N S}, (net.iface src).connected = false →
      ((net.iface dst).connected = true → (net.iface dst).dest = some (.iface src)) →
      Connected net'' src dst → (∀ a b, Connected net a b → Connected net'' a b) →
      (∀ a b, Connected net'' a b →
        Connected net a b ∨ (a = src ∧ b = dst) ∨ (a = dst ∧ b = src)) →
      (MutualEnds net'' ↔ ((net.iface src).connected = false →
        ((net.iface dst).connected = true → (net.iface dst).dest = some (.iface src)) →
        (∀ a, Connected net a src → a = dst) ∧ ∀ a, ¬ Connected net a dst)) := by
    intro net'' idle back forth keeps only
    rw [MutualEnds, paired_join paired (fun b up => Bool.noConfusion (idle.symm.trans up.1)) ?_ forth
      keeps only differ]
    · exact ⟨fun free _ _ => free, fun free => free idle back⟩
    · intro b leads
      have same := leads.2.symm.trans (back leads.1)
      cases same
      rfl
  -- the first connection
  have kept : (net.iface src).connected = false → ∀ a b, Connected net a b →
      Connected (net.plug src (.iface dst)) a b := by
    intro idle a b leads
    refine connected_plug.mpr ?_
    rw [if_neg]
    · exact leads
    · rintro rfl
      exact Bool.noConfusion (idle.symm.trans leads.1)
  have added : ∀ a b, Connected (net.plug src (.iface dst)) a b →
      Connected net a b ∨ (a = src ∧ b = dst) := by
    intro a b leads
    have cases := connected_plug.mp leads
    split at cases
    next same => exact .inr ⟨same, cases⟩
    next => exact .inl cases
  have first : Connected (net.plug src (.iface dst)) src dst := connected_plug.mpr (by simp)
  cases connected with
  | refused busy =>
    refine ⟨fun _ idle back => ?_, fun _ => paired⟩
    rcases busy with busy | ⟨up, elsewhere⟩
    · simp [idle] at busy
    · exact absurd (back up) elsewhere
  | oneWay idle back _ =>
    exact join idle back first (kept idle) fun a b leads => (added a b leads).imp_right .inl
  | halfway idle _ back _ =>
    exact join idle (fun _ => back) first (kept idle) fun a b leads =>
      (added a b leads).imp_right .inl
  | bothWays idle idle' _ =>
    refine join idle (fun up => Bool.noConfusion (idle'.symm.trans up)) ?_ (fun a b leads => ?_)
      fun a b leads => ?_
    · refine connected_plug.mpr ?_
      rw [if_neg differ]
      exact first
    · refine connected_plug.mpr ?_
      rw [if_neg]
      · exact kept idle a b leads
      · rintro rfl
        exact Bool.noConfusion (idle'.symm.trans leads.1)
    · have cases := connected_plug.mp leads
      split at cases
      next same => exact .inr (.inr ⟨same, cases⟩)
      next => exact (added a b cases).imp_right .inl

/-! ## Calls -/

omit [DecidableEq S] in
/-- The interface obtained is the one found; if none was found it is new. -/
theorem obtained_facts (obtained : net.netLinkCreateIface node id type = .ok (i, net')) :
    (∀ j, net.nodeFindIface node id = some j → j = i ∧ (net.iface j).type = type) ∧
      (net.nodeFindIface node id = none →
        fits id type = true ∧ net.next ≤ i ∧ (net'.iface i).connected = false) := by
  have cases := netLinkCreateIface_obtained net node id type
  rw [obtained] at cases
  cases cases with
  | found found same =>
    refine ⟨fun j found' => ?_, fun absent => ?_⟩
    · rw [found, Option.some.injEq] at found'
      subst found'
      exact ⟨rfl, same⟩
    · simp [found] at absent
  | made absent fit =>
    refine ⟨fun j found => ?_, fun _ => ⟨fit, Nat.le_refl _, ?_⟩⟩
    · simp [absent] at found
    · rw [attach_iface_next]
      rfl

omit [DecidableEq S] in
/-- Obtaining an interface of one node changes nothing about what is found on another. -/
theorem obtained_find (valid : Valid net) {n : N} (id' : Pfx) (other : n ≠ node)
    (obtained : net.netLinkCreateIface node id type = .ok (i, net')) :
    net'.nodeFindIface n id' = net.nodeFindIface n id' := by
  have cases := netLinkCreateIface_obtained net node id type
  rw [obtained] at cases
  cases cases with
  | found _ _ => rfl
  | made _ _ => exact nodeFindIface_attach valid other

/-- A link between two routers keeps the ends mutual exactly when it connects no interface that a
third one leads to. -/
theorem ends_mutual_iff (valid : Valid net) (asked : EndsAsked srcNode srcId dstNode dstId type)
    (paired : MutualEnds net) :
    MutualEnds (net.netLinkCreateEnds srcNode srcId dstNode dstId type dir).2 ↔
      ¬ (Joins net srcNode srcId dstNode dstId type ∧
        ThirdEnd net srcNode srcId dstNode dstId) := by
  have created := netLinkCreateEnds_created dir valid asked
  generalize net.netLinkCreateEnds srcNode srcId dstNode dstId type dir = result at created
  cases created with
  | failSrc first =>
    refine ⟨fun _ => ?_, fun _ => paired⟩
    rintro ⟨⟨source, _, fit⟩, _⟩
    cases found : net.nodeFindIface srcNode srcId with
    | none =>
      rw [netLinkCreateIface_absent _ found, if_pos (fit (.inl found))] at first
      cases first
    | some src =>
      rw [netLinkCreateIface_found _ found, if_pos (source src found).1] at first
      cases first
  | failDst first second =>
    refine ⟨fun _ => ?_, fun _ => (PairedEnds.congr (netLinkCreateIface_connected valid first)).mpr paired⟩
    rintro ⟨⟨_, destination, fit⟩, _⟩
    have sameFind := obtained_find valid dstId asked.nodes.symm first
    cases found : net.nodeFindIface dstNode dstId with
    | none =>
      rw [netLinkCreateIface_absent _ (sameFind.trans found), if_pos (asked.fit ▸ fit (.inr found))]
        at second
      cases second
    | some dst =>
      have old := valid.ifaces_next dstNode dst (nodeFindIface_some found).1
      rw [netLinkCreateIface_found _ (sameFind.trans found),
        (netLinkCreateIface_frame first).2 dst old, if_pos (destination dst found).1] at second
      cases second
  | @ends src dst net' net'' _ first second valid'' matching connected =>
    have valid' := (netLinkCreateIface_valid valid first).1
    have sameFind := obtained_find valid dstId asked.nodes.symm first
    obtain ⟨srcFound, srcNew⟩ := obtained_facts first
    obtain ⟨dstFound, dstNew⟩ := obtained_facts second
    rw [sameFind] at dstFound dstNew
    obtain ⟨grows, frame⟩ := netLinkCreateIface_frame first
    obtain ⟨grows', frame'⟩ := netLinkCreateIface_frame second
    have kept : ∀ k, k < net.next → net''.iface k = net.iface k := fun k old =>
      (frame' k (Nat.lt_of_lt_of_le old grows)).trans (frame k old)
    have same : ∀ a b, Connected net'' a b ↔ Connected net a b := fun a b =>
      (netLinkCreateIface_connected valid' second a b).trans
        (netLinkCreateIface_connected valid first a b)
    have differ : src ≠ dst := by
      rintro rfl
      exact matching.owners rfl
    have oldSrc : ∀ {s}, net.nodeFindIface srcNode srcId = some s → s < net.next := fun found =>
      valid.ifaces_next srcNode _ (nodeFindIface_some found).1
    have oldDst : ∀ {d}, net.nodeFindIface dstNode dstId = some d → d < net.next := fun found =>
      valid.ifaces_next dstNode _ (nodeFindIface_some found).1
    -- an interface that is led to was found
    have srcLed : src < net.next → net.nodeFindIface srcNode srcId = some src := by
      intro old
      cases found : net.nodeFindIface srcNode srcId with
      | none => exact absurd old (Nat.not_lt.mpr (srcNew found).2.1)
      | some s => rw [(srcFound s found).1]
    have dstLed : dst < net.next → net.nodeFindIface dstNode dstId = some dst := by
      intro old
      cases found : net.nodeFindIface dstNode dstId with
      | none => exact absurd (Nat.lt_of_lt_of_le old grows) (Nat.not_lt.mpr (dstNew found).2.1)
      | some d => rw [(dstFound d found).1]
    rw [connected.paired_iff ((PairedEnds.congr same).mpr paired) differ]
    simp only [same]
    constructor
    · rintro free ⟨⟨source, destination, _⟩, third⟩
      have idle : (net''.iface src).connected = false := by
        cases found : net.nodeFindIface srcNode srcId with
        | none =>
          rw [frame' src (netLinkCreateIface_valid valid first).2.old]
          exact (srcNew found).2.2
        | some s =>
          obtain ⟨rfl, _⟩ := srcFound s found
          rw [kept s (oldSrc found)]
          exact (source s found).2
      have back : (net''.iface dst).connected = true →
          (net''.iface dst).dest = some (.iface src) := by
        intro up
        cases found : net.nodeFindIface dstNode dstId with
        | none => exact Bool.noConfusion ((dstNew found).2.2.symm.trans up)
        | some d =>
          obtain ⟨rfl, type⟩ := dstFound d found
          rw [kept d (oldDst found)] at up ⊢
          obtain ⟨s, found', leads⟩ := (destination d found).2 up
          rw [leads, (srcFound s found').1]
      obtain ⟨source', destination'⟩ := free idle back
      rcases third with ⟨s, a, found, leads, other⟩ | ⟨d, a, found, leads⟩
      · obtain ⟨rfl, _⟩ := srcFound s found
        refine other ?_
        rw [source' a leads]
        exact dstLed (source' a leads ▸ valid.connected_next a leads.1)
      · obtain ⟨rfl, _⟩ := dstFound d found
        exact destination' a leads
    · intro careful idle back
      have joins : Joins net srcNode srcId dstNode dstId type := by
        refine ⟨fun s found => ?_, fun d found => ?_, fun absent => ?_⟩
        · obtain ⟨rfl, type⟩ := srcFound s found
          rw [kept s (oldSrc found)] at idle
          exact ⟨type, idle⟩
        · obtain ⟨rfl, _⟩ := dstFound d found
          have old := oldDst found
          rw [kept d old] at back
          refine ⟨?_, fun up => ⟨src, srcLed (valid.dest_next d src (back up)), back up⟩⟩
          rw [← frame d old]
          exact (dstFound d found).2
        · rcases absent with absent | absent
          · exact (srcNew absent).1
          · exact asked.fit.trans (dstNew absent).1
      have free : ¬ ThirdEnd net srcNode srcId dstNode dstId := fun third => careful ⟨joins, third⟩
      refine ⟨fun a leads => ?_, fun a leads => ?_⟩
      · by_contra other
        refine free (.inl ⟨src, a, srcLed (valid.dest_next a src leads.2), leads, fun found => ?_⟩)
        exact other (dstFound a found).1
      · exact free (.inr ⟨dst, a, dstLed (valid.dest_next a dst leads.2), leads⟩)

omit [DecidableEq S] in
theorem connected_ontoSubnet (valid : Valid net) {subnet : S} {addr : NetAddr} {a b : ℕ} :
    Connected (ontoSubnet net node subnet addr) a b ↔ Connected net a b := by
  by_cases new : a = net.next
  · subst new
    refine iff_of_false (fun leads => ?_) fun old => ?_
    · have dest := leads.2
      rw [ontoSubnet_iface_next] at dest
      cases dest
    · exact absurd (valid.connected_next _ old.1) (Nat.lt_irrefl _)
  · rw [Connected, ontoSubnet_iface new]
    rfl

/-- A call keeps the ends mutual exactly when it connects no interface that a third one leads to. -/
theorem create_mutual_iff (net : Wiring N S) (paired : MutualEnds net.toWires) (call : LinkCall N S) :
    MutualEnds (net.create call).toWires ↔ ¬ Misjoins net.toWires call := by
  cases call with
  | rtr srcNode dstNode dir =>
    by_cases same : srcNode = dstNode
    · simp only [Wiring.create, Wires.create, netLinkCreateRtr, if_pos same]
      simp [Misjoins, same, paired]
    · simp only [Wiring.create, Wires.create, netLinkCreateRtr_eq same]
      rw [ends_mutual_iff net.valid (asked_rtr same) paired]
      simp [Misjoins, same]
  | ptp srcNode srcId dstNode dstId dir =>
    cases checked : ptpChecked srcNode srcId dstNode dstId with
    | true =>
      obtain ⟨asked, eq⟩ := netLinkCreatePtp_checked net.toWires dir checked
      simp only [Wiring.create, Wires.create, eq]
      rw [ends_mutual_iff net.valid asked paired]
      simp [Misjoins, checked]
    | false =>
      obtain ⟨error, eq⟩ := netLinkCreatePtp_unchecked net.toWires dir checked
      simp only [Wiring.create, Wires.create, eq]
      simp [Misjoins, checked, paired]
  | ptmp srcNode subnet addr =>
    refine iff_of_true ?_ not_false
    have created : PtmpCreated net.toWires srcNode subnet addr
        (net.toWires.netLinkCreatePtmp srcNode subnet addr) := netLinkCreatePtmp_created net.valid
    simp only [Wiring.create, Wires.create]
    generalize net.toWires.netLinkCreatePtmp srcNode subnet addr = result at created
    cases created with
    | taken _ => exact paired
    | listed _ _ => exact (PairedEnds.congr fun _ _ => connected_ontoSubnet net.valid).mpr paired
    | joined _ _ => exact (PairedEnds.congr fun _ _ => connected_ontoSubnet net.valid).mpr paired

/-- No call of a run connects an interface that a third one leads to. -/
def Careful (net : Wiring N S) : List (LinkCall N S) → Prop
  | [] => True
  | call :: calls => ¬ Misjoins net.toWires call ∧ Careful (net.create call) calls

/-- In a run of such calls, some of which may fail, the ends are mutual in every state reached. -/
theorem createAll_mutual (start : Wiring N S) (paired : MutualEnds start.toWires)
    (before after : List (LinkCall N S)) (careful : Careful start (before ++ after)) :
    MutualEnds (start.createAll before).toWires := by
  induction before generalizing start with
  | nil => exact paired
  | cons call calls inductionHypothesis =>
    obtain ⟨joins, later⟩ := careful
    exact inductionHypothesis (start.create call) ((create_mutual_iff start paired call).mpr joins)
      later

/-! ## Runs -/

theorem sixteenBits (_ : Unit) : 16 < 32 := by decide

/-- Three routers. -/
def threeRouters : Wiring (Fin 3) Unit :=
  Wiring.bare (fun n => if n = 0 then 0x01000000 else if n = 1 then 0x02000000 else 0x03000000)
    (fun _ => { network := 0xc0a80000, mask := 16, short := short16 })
    (show ∀ a b : Fin 3, _ = _ → a = b by decide) sixteenBits (fun _ _ _ => rfl) 0

/-- The identifiers of the three ends. -/
def endId (n : Fin 3) : Pfx where
  network := if n = 0 then 0x0a000001 else if n = 1 then 0x0a000002 else 0x0a000003
  mask := 24
  short := short24

/-- Nothing leads anywhere in a network without interfaces. -/
theorem threeRouters_mutual : MutualEnds threeRouters.toWires where
  back _ _ _ leads := Bool.noConfusion (show false = true from leads.1)
  sole _ _ _ leads := Bool.noConfusion (show false = true from leads.1)

/-- A link that is connected in one direction and then in the other, a link in both directions, and one to the
subnet. -/
def carefulCalls : List (LinkCall (Fin 3) Unit) :=
  [.ptp 0 (endId 0) 1 (endId 1) .unidir, .ptp 1 (endId 1) 0 (endId 0) .unidir, .rtr 1 2 .bidir,
    .ptmp 2 () 0xc0a80001]

/-- After the first call only the first interface leads to another one. -/
theorem firstCall_connected {a b : ℕ}
    (leads : Connected (threeRouters.create (.ptp 0 (endId 0) 1 (endId 1) .unidir)).toWires a b) :
    a = 0 ∧ b = 1 := by
  have bound : a < 2 := (threeRouters.create (.ptp 0 (endId 0) 1 (endId 1) .unidir)).valid.connected_next a leads.1
  obtain ⟨up, dest⟩ := leads
  obtain rfl | rfl : a = 0 ∨ a = 1 := by omega
  · have same : (some (.iface 1) : Option (IfaceDest ℕ Unit)) = some (.iface b) := dest
    cases same
    exact ⟨rfl, rfl⟩
  · exact Bool.noConfusion (show false = true from up)

theorem carefulCalls_careful : Careful threeRouters (carefulCalls ++ []) := by
  refine ⟨?_, ?_, ?_, not_false, trivial⟩
  · rintro ⟨_, _, ⟨_, _, found, _⟩ | ⟨_, _, found, _⟩⟩
    · cases found
    · cases found
  · rintro ⟨_, _, ⟨_, _, found, leads, other⟩ | ⟨_, _, found, leads⟩⟩
    · -- the interface at the other end is the one that leads here
      obtain ⟨rfl, _⟩ := firstCall_connected leads
      exact other rfl
    · obtain ⟨_, rfl⟩ := firstCall_connected leads
      cases found
  · rintro ⟨_, _, ⟨_, _, found, _⟩ | ⟨_, _, found, _⟩⟩
    · cases found
    · cases found

theorem createAll_mutual_calls : MutualEnds (threeRouters.createAll carefulCalls).toWires :=
  createAll_mutual threeRouters threeRouters_mutual carefulCalls [] carefulCalls_careful

/-- A link from the first router to the second, and then one from the second to the third: the
interface of the second router is led to by the first and leads to the third. -/
theorem oneWay_links_not_mutual :
    ¬ MutualEnds (threeRouters.createAll [.ptp 0 (endId 0) 1 (endId 1) .unidir,
      .ptp 1 (endId 1) 2 (endId 2) .unidir]).toWires := by
  intro paired
  have first : Connected (threeRouters.createAll [.ptp 0 (endId 0) 1 (endId 1) .unidir,
      .ptp 1 (endId 1) 2 (endId 2) .unidir]).toWires 0 1 := ⟨rfl, rfl⟩
  have second : Connected (threeRouters.createAll [.ptp 0 (endId 0) 1 (endId 1) .unidir,
      .ptp 1 (endId 1) 2 (endId 2) .unidir]).toWires 1 2 := ⟨rfl, rfl⟩
  exact absurd (paired.back 0 1 2 first second) (by decide)

end Cbgp.Verified
