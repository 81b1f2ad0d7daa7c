import Mathlib.Data.List.Find
import Cbgp.Verified.LinkCreation

/-! # Failed link creations

A call that fails after it has created or connected an interface leaves its work behind.  `Spoils` says
from the interfaces found at the start when this happens, and `create_all_or_nothing_iff` that it
happens then only.
-/

namespace Cbgp.Verified

open Cbgp.Net Cbgp.Net.Wires

variable {N S : Type} [DecidableEq N] [DecidableEq S]

/-- The lists of interfaces and the connections of the interfaces that were there are as before. -/
structure Unchanged (net net' : Wires N S) : Prop where
  ifaces : net'.ifaces = net.ifaces
  subnetIfaces : net'.subnetIfaces = net.subnetIfaces
  connections : ∀ i, i < net.next →
    (net'.iface i).connected = (net.iface i).connected ∧ (net'.iface i).dest = (net.iface i).dest

/-- A link between two routers fails halfway: one of its interfaces is new and the other one is of
another type or connected already; or both are there and only the way back is taken. -/
def SpoilsEnds (net : Wires N S) (srcNode : N) (srcId : Pfx) (dstNode : N) (dstId : Pfx)
    (type : IfaceType) (dir : IfaceDir) : Prop :=
  match net.nodeFindIface srcNode srcId, net.nodeFindIface dstNode dstId with
  | none, none => False
  | none, some dst => fits srcId type = true ∧
      ((net.iface dst).type ≠ type ∨ (net.iface dst).connected = true)
  | some src, none => fits dstId type = true ∧
      (net.iface src).type = type ∧ (net.iface src).connected = true
  | some src, some dst => (net.iface src).type = type ∧ (net.iface dst).type = type ∧
      (net.iface src).connected = false ∧ Connected net dst src ∧ dir = .bidir

/-- A call fails after it has changed the network. -/
def Spoils (net : Wires N S) : LinkCall N S → Prop
  | .rtr srcNode dstNode dir => srcNode ≠ dstNode ∧
      SpoilsEnds net srcNode (netIfaceIdAddr (net.rid dstNode)) dstNode
        (netIfaceIdAddr (net.rid srcNode)) .rtr dir
  | .ptp srcNode srcId dstNode dstId dir => ptpChecked srcNode srcId dstNode dstId = true ∧
      SpoilsEnds net srcNode srcId dstNode dstId .ptp dir
  | .ptmp srcNode subnet addr =>
      net.nodeFindIface srcNode (net.netIfaceIdPfx subnet addr) = none ∧
        net.taken (net.subnetIfaces subnet) addr = true

/-- If the call fails the network is as before. -/
def AllOrNothing (net : Wires N S) (result : Except NetError ℕ × Wires N S) : Prop :=
  ∀ error, result.1 = .error error → Unchanged net result.2

variable {net net' : Wires N S} {node : N} {new : Iface N ℕ S} {i : ℕ} {id : Pfx} {type : IfaceType}
  {srcNode dstNode : N} {srcId dstId : Pfx} {dir : IfaceDir}

omit [DecidableEq N] [DecidableEq S] in
theorem Unchanged.refl : Unchanged net net where
  ifaces := rfl
  subnetIfaces := rfl
  connections _ _ := ⟨rfl, rfl⟩

omit [DecidableEq N] [DecidableEq S] in
/-- A new interface in a list is a change. -/
theorem not_unchanged (valid : Valid net) (listed : net.next ∈ net'.ifaces node) :
    ¬ Unchanged net net' := fun same =>
  absurd (valid.ifaces_next node net.next (same.ifaces ▸ listed)) (Nat.lt_irrefl _)

omit [DecidableEq S] in
theorem attach_listed : net.next ∈ (net.attach node new).ifaces node :=
  mem_attach_ifaces.mpr (.inl ⟨rfl, rfl⟩)

omit [DecidableEq S] in
/-- A new interface of another node is not found. -/
theorem nodeFindIface_attach {n : N} (valid : Valid net) (other : n ≠ node) :
    (net.attach node new).nodeFindIface n id = net.nodeFindIface n id := by
  rw [nodeFindIface, nodeFindIface, attach_ifaces_other other]
  refine List.find?_congr fun i member => ?_
  rw [attach_iface_old (valid.ifaces_next n i member)]

variable (type) in
omit [DecidableEq S] in
/-- What is obtained, by what is found. -/
theorem netLinkCreateIface_found (found : net.nodeFindIface node id = some i) :
    net.netLinkCreateIface node id type =
      if (net.iface i).type = type then .ok (i, net) else .error .ifaceIncompatible := by
  unfold netLinkCreateIface
  simp only [found]
  split <;> simp_all

variable (type) in
omit [DecidableEq S] in
theorem netLinkCreateIface_absent (absent : net.nodeFindIface node id = none) :
    net.netLinkCreateIface node id type =
      if fits id type then .ok (net.next, net.attach node (netIfaceNew node type id))
      else .error .ifaceInvalidId := by
  unfold netLinkCreateIface
  simp only [absent, nodeAddIface_eq, Option.isSome_none, Bool.false_eq_true, if_false]

omit [DecidableEq N] [DecidableEq S] in
/-- A successful call is all or nothing. -/
theorem allOrNothing_ok {src : ℕ} : AllOrNothing net (.ok src, net') := by
  intro error failed
  cases failed

omit [DecidableEq N] [DecidableEq S] in
theorem allOrNothing_error {error : NetError} :
    AllOrNothing net (.error error, net') ↔ Unchanged net net' :=
  ⟨fun holds => holds error rfl, fun same _ _ => same⟩

omit [DecidableEq N] [DecidableEq S] in
/-- Connecting the ends spoils the network when only the way back is taken. -/
theorem EndsConnected.allOrNothing_iff {src dst : ℕ} {result : Except NetError ℕ × Wires N S}
    (connected : EndsConnected net src dst dir result) (matching : Matching net src dst) :
    AllOrNothing net result ↔
      ¬ ((net.iface src).connected = false ∧ Connected net dst src ∧ dir = .bidir) := by
  cases connected with
  | refused busy =>
    rw [allOrNothing_error]
    refine ⟨fun _ => ?_, fun _ => .refl⟩
    rintro ⟨idle, ⟨up, back⟩, _⟩
    rcases busy with busy | ⟨_, elsewhere⟩
    · simp [idle] at busy
    · exact elsewhere back
  | oneWay _ _ unidir =>
    refine ⟨fun _ => ?_, fun _ => allOrNothing_ok⟩
    rintro ⟨_, _, bidir⟩
    rw [unidir] at bidir
    cases bidir
  | halfway idle up back bidir =>
    rw [allOrNothing_error]
    refine ⟨fun same => ?_, fun not => absurd ⟨idle, ⟨up, back⟩, bidir⟩ not⟩
    have changed := (same.connections src matching.old.1).1
    rw [plug_iface_self, idle] at changed
    cases changed
  | bothWays _ idle' _ =>
    refine ⟨fun _ => ?_, fun _ => allOrNothing_ok⟩
    rintro ⟨_, ⟨up, _⟩, _⟩
    simp [idle'] at up

omit [DecidableEq N] [DecidableEq S] in
/-- Connecting ends of which one is new. -/
theorem EndsConnected.allOrNothing_new {base : Wires N S} {src dst : ℕ}
    {result : Except NetError ℕ × Wires N S} (connected : EndsConnected net src dst dir result)
    (valid : Valid base) (listed : base.next ∈ net.ifaces node)
    (apart : ¬ Connected net dst src) : AllOrNothing base result ↔
      (net.iface src).connected = false ∧ (net.iface dst).connected = false := by
  cases connected with
  | refused busy =>
    rw [allOrNothing_error]
    refine ⟨fun same => absurd same (not_unchanged valid listed), ?_⟩
    rintro ⟨idle, idle'⟩
    simp [idle, idle'] at busy
  | oneWay idle back _ =>
    refine ⟨fun _ => ⟨idle, ?_⟩, fun _ => allOrNothing_ok⟩
    cases up : (net.iface dst).connected with
    | false => rfl
    | true => exact absurd ⟨up, back up⟩ apart
  | halfway _ up back _ => exact absurd ⟨up, back⟩ apart
  | bothWays idle idle' _ => exact ⟨fun _ => ⟨idle, idle'⟩, fun _ => allOrNothing_ok⟩

omit [DecidableEq S] in
/-- A new interface is idle and nothing leads to it. -/
theorem attach_idle (node : N) (id : Pfx) (t : IfaceType) (valid : Valid net) :
    ((net.attach node (netIfaceNew node t id)).iface net.next).connected = false ∧
      ∀ k, ¬ Connected (net.attach node (netIfaceNew node t id)) k net.next ∧
        ¬ Connected (net.attach node (netIfaceNew node t id)) net.next k := by
  have idle : ((net.attach node (netIfaceNew node t id)).iface net.next).connected = false := by
    rw [attach_iface_next]
    rfl
  refine ⟨idle, fun k => ⟨?_, fun up => Bool.noConfusion (idle.symm.trans up.1)⟩⟩
  rintro ⟨up, leads⟩
  have old : k ≠ net.next := by
    rintro rfl
    exact Bool.noConfusion (idle.symm.trans up)
  rw [attach_iface old] at leads
  exact absurd (valid.dest_next k net.next leads) (Nat.lt_irrefl _)

/-- The first interface of a link is new. -/
theorem ends_allOrNothing_new (valid : Valid net)
    (asked : EndsAsked srcNode srcId dstNode dstId type)
    (absent : net.nodeFindIface srcNode srcId = none) (fit : fits srcId type = true) :
    AllOrNothing net (net.netLinkCreateEnds srcNode srcId dstNode dstId type dir) ↔
      ∀ dst, net.nodeFindIface dstNode dstId = some dst →
        (net.iface dst).type = type ∧ (net.iface dst).connected = false := by
  have made := netLinkCreateIface_absent type absent
  rw [if_pos fit] at made
  have created := netLinkCreateEnds_created dir valid asked
  generalize net.netLinkCreateEnds srcNode srcId dstNode dstId type dir = result at created
  have sameFind : ∀ new, (net.attach srcNode new).nodeFindIface dstNode dstId =
      net.nodeFindIface dstNode dstId := fun new => nodeFindIface_attach valid asked.nodes.symm
  obtain ⟨idle, nowhere⟩ := attach_idle srcNode srcId type valid
  cases created with
  | failSrc first => simp [made] at first
  -- The first interface is already attached when the second is refused: the call leaves it behind.
  | failDst first second =>
    rw [made] at first
    cases first
    rw [allOrNothing_error]
    refine ⟨fun same => absurd same (not_unchanged valid attach_listed), fun suits => ?_⟩
    cases found : net.nodeFindIface dstNode dstId with
    | none =>
      rw [netLinkCreateIface_absent _ ((sameFind _).trans found), if_pos (asked.fit ▸ fit)] at second
      cases second
    | some dst =>
      have old := valid.ifaces_next dstNode dst (nodeFindIface_some found).1
      rw [netLinkCreateIface_found _ ((sameFind _).trans found), attach_iface_old old,
        if_pos (suits dst found).1] at second
      cases second
  -- Both ends were there or made; what is left depends on whether they could be connected.
  | ends first second _ matching connected =>
    rw [made] at first
    cases first
    cases found : net.nodeFindIface dstNode dstId with
    | none =>
      rw [netLinkCreateIface_absent _ ((sameFind _).trans found), if_pos (asked.fit ▸ fit)] at second
      cases second
      have valid' := valid.made absent fit
      obtain ⟨idle', nowhere'⟩ := attach_idle dstNode dstId type valid'
      have listed : net.next ∈ ((net.attach srcNode (netIfaceNew srcNode type srcId)).attach dstNode
          (netIfaceNew dstNode type dstId)).ifaces srcNode :=
        mem_attach_ifaces.mpr (.inr attach_listed)
      rw [connected.allOrNothing_new valid listed (nowhere' _).2]
      refine ⟨fun _ _ none => (by cases none), fun _ => ⟨?_, idle'⟩⟩
      rw [attach_iface_old (Nat.lt_succ_self _)]
      exact idle
    | some dst =>
      have old := valid.ifaces_next dstNode dst (nodeFindIface_some found).1
      rw [netLinkCreateIface_found _ ((sameFind _).trans found), attach_iface_old old] at second
      split at second
      next same =>
        cases second
        rw [connected.allOrNothing_new valid attach_listed (nowhere _).1, attach_iface_old old]
        simp only [idle, true_and, Option.some.injEq, forall_eq', same]
      next => cases second

/-- The first interface of a link is there. -/
theorem ends_allOrNothing_found (valid : Valid net)
    (asked : EndsAsked srcNode srcId dstNode dstId type) {src : ℕ}
    (srcFound : net.nodeFindIface srcNode srcId = some src) (same : (net.iface src).type = type) :
    AllOrNothing net (net.netLinkCreateEnds srcNode srcId dstNode dstId type dir) ↔
      (net.nodeFindIface dstNode dstId = none → fits dstId type = true →
        (net.iface src).connected = false) ∧
      ∀ dst, net.nodeFindIface dstNode dstId = some dst → (net.iface dst).type = type →
        ¬ ((net.iface src).connected = false ∧ Connected net dst src ∧ dir = .bidir) := by
  have got := netLinkCreateIface_found type srcFound
  rw [if_pos same] at got
  have created := netLinkCreateEnds_created dir valid asked
  generalize net.netLinkCreateEnds srcNode srcId dstNode dstId type dir = result at created
  cases created with
  | failSrc first => simp [got] at first
  -- The first interface was there before, so a refusal of the second leaves nothing behind.
  | failDst first second =>
    rw [got] at first
    cases first
    rw [allOrNothing_error]
    refine ⟨fun _ => ⟨fun absent fit => ?_, fun dst found suits => ?_⟩, fun _ => .refl⟩
    · rw [netLinkCreateIface_absent _ absent, if_pos fit] at second
      cases second
    · rw [netLinkCreateIface_found _ found, if_pos suits] at second
      cases second
  | ends first second _ matching connected =>
    rw [got] at first
    cases first
    cases found : net.nodeFindIface dstNode dstId with
    | none =>
      rw [netLinkCreateIface_absent _ found] at second
      split at second
      next fit =>
        cases second
        obtain ⟨idle', nowhere⟩ := attach_idle dstNode dstId type valid
        have old := valid.ifaces_next srcNode _ (nodeFindIface_some srcFound).1
        rw [connected.allOrNothing_new valid attach_listed (nowhere _).2, attach_iface_old old, idle']
        simp [fit]
      next => cases second
    | some dst =>
      rw [netLinkCreateIface_found _ found] at second
      split at second
      next suits =>
        cases second
        rw [connected.allOrNothing_iff matching]
        simp [suits]
      next => cases second

/-- A link between two routers is all or nothing unless it fails halfway. -/
theorem ends_allOrNothing_iff (valid : Valid net)
    (asked : EndsAsked srcNode srcId dstNode dstId type) :
    AllOrNothing net (net.netLinkCreateEnds srcNode srcId dstNode dstId type dir) ↔
      ¬ SpoilsEnds net srcNode srcId dstNode dstId type dir := by
  unfold SpoilsEnds
  cases srcFound : net.nodeFindIface srcNode srcId with
  | none =>
    cases fit : fits srcId type with
    | false =>
      -- nothing is created
      have unfit := netLinkCreateIface_absent type srcFound
      rw [fit] at unfit
      have result : net.netLinkCreateEnds srcNode srcId dstNode dstId type dir =
          (.error .ifaceInvalidId, net) := by
        simp [netLinkCreateEnds, unfit]
      rw [result, allOrNothing_error]
      cases net.nodeFindIface dstNode dstId <;> simp [Unchanged.refl]
    | true =>
      rw [ends_allOrNothing_new valid asked srcFound fit]
      cases net.nodeFindIface dstNode dstId <;> simp
  | some src =>
    by_cases same : (net.iface src).type = type
    · rw [ends_allOrNothing_found valid asked srcFound same]
      cases net.nodeFindIface dstNode dstId <;> simp [same]
    · have mismatch := netLinkCreateIface_found type srcFound
      rw [if_neg same] at mismatch
      have result : net.netLinkCreateEnds srcNode srcId dstNode dstId type dir =
          (.error .ifaceIncompatible, net) := by
        simp [netLinkCreateEnds, mismatch]
      rw [result, allOrNothing_error]
      cases net.nodeFindIface dstNode dstId <;> simp [same, Unchanged.refl]

omit [DecidableEq S] in
/-- A link to a subnet is all or nothing unless the subnet has the address already. -/
theorem PtmpCreated.allOrNothing_iff [DecidableEq S] {subnet : S} {addr : NetAddr}
    {result : Except NetError ℕ × Wires N S} (valid : Valid net)
    (created : PtmpCreated net node subnet addr result) : AllOrNothing net result ↔
      ¬ (net.nodeFindIface node (net.netIfaceIdPfx subnet addr) = none ∧
        net.taken (net.subnetIfaces subnet) addr = true) := by
  cases created with
  | taken found =>
    rw [allOrNothing_error]
    refine ⟨fun _ => ?_, fun _ => .refl⟩
    rintro ⟨none, _⟩
    simp [none] at found
  | listed none taken =>
    rw [allOrNothing_error]
    refine ⟨fun same => absurd same (not_unchanged valid
      (show net.next ∈ (ontoSubnet net node subnet addr).ifaces node from ?_)), ?_⟩
    · rw [ontoSubnet, plug_ifaces]
      exact attach_listed
    · exact fun not => absurd ⟨none, taken⟩ not
  | joined none untaken =>
    refine ⟨fun _ => ?_, fun _ => allOrNothing_ok⟩
    simp [untaken]

/-- A call is all or nothing exactly when it does not fail halfway. -/
theorem create_all_or_nothing_iff (net : Wiring N S) (call : LinkCall N S) :
    AllOrNothing net.toWires (net.toWires.create call) ↔ ¬ Spoils net.toWires call := by
  cases call with
  | rtr srcNode dstNode dir =>
    by_cases same : srcNode = dstNode
    · simp only [Wires.create, netLinkCreateRtr, if_pos same, allOrNothing_error]
      simp [Spoils, same, Unchanged.refl]
    · simp only [Wires.create, netLinkCreateRtr_eq same]
      rw [ends_allOrNothing_iff net.valid (asked_rtr same)]
      simp [Spoils, same]
  | ptp srcNode srcId dstNode dstId dir =>
    cases checked : ptpChecked srcNode srcId dstNode dstId with
    | true =>
      obtain ⟨asked, eq⟩ := netLinkCreatePtp_checked net.toWires dir checked
      simp only [Wires.create, eq]
      rw [ends_allOrNothing_iff net.valid asked]
      simp [Spoils, checked]
    | false =>
      obtain ⟨error, eq⟩ := netLinkCreatePtp_unchecked net.toWires dir checked
      simp only [Wires.create, eq, allOrNothing_error]
      simp [Spoils, checked, Unchanged.refl]
  | ptmp srcNode subnet addr => exact (netLinkCreatePtmp_created net.valid).allOrNothing_iff net.valid

/-- Two routers and a subnet. -/
def routersAndSubnet : Wiring Bool Unit :=
  Wiring.bare (fun b => if b then 0x02000000 else 0x01000000)
    (fun _ => { network := 0xc0a80000, mask := 16, short := by decide })
    (show ∀ a b : Bool, _ = _ → a = b by decide) (fun _ => by decide) (fun _ _ _ => rfl) false

/-- The first router takes an address on the subnet. -/
def addressTaken : Wiring Bool Unit :=
  routersAndSubnet.create (.ptmp false () 0xc0a80000)

/-- The second router asks for the same address, is refused, and keeps a connected interface that the
subnet does not list. -/
theorem duplicate_address_left_behind :
    ¬ AllOrNothing addressTaken.toWires (addressTaken.toWires.create (.ptmp true () 0xc0a80000)) := by
  have refused : (addressTaken.toWires.create (.ptmp true () 0xc0a80000)).1 =
      .error .linkDuplicate := rfl
  intro holds
  have same := congrFun (holds .linkDuplicate refused).ifaces true
  have before : addressTaken.ifaces true = [] := rfl
  have after : (addressTaken.toWires.create (.ptmp true () 0xc0a80000)).2.ifaces true = [1] := rfl
  rw [before, after] at same
  cases same

end Cbgp.Verified
