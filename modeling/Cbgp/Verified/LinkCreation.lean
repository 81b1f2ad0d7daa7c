import Mathlib.Tactic.TypeStar
import Cbgp.Lib.SortedArray
import Cbgp.Net.Links

/-! # What the creation of links keeps

Every call leaves a network that is valid, also when it fails (`create_valid`), so a `Wiring` carries
its validity along, and what a `Topology` asks of a network holds of every network that was wired by
such calls (`Wiring.topology`).
-/

namespace Cbgp.Verified

open Cbgp.Lib Cbgp.Net Cbgp.Net.Wires

variable {N S : Type} [DecidableEq N] [DecidableEq S]

/-! ## Valid networks -/

/-- What holds of a network between two calls.  The lists hold allocated interfaces of their node or
subnet in the order of their addresses, and destinations are allocated. -/
structure Valid (net : Wires N S) : Prop where
  dest_matches : ∀ i dest, (net.iface i).dest = some dest →
    match dest with
    | .iface j => ((net.iface i).type = .rtr ∨ (net.iface i).type = .ptp) ∧
        (net.iface j).type = (net.iface i).type ∧ (net.iface j).owner ≠ (net.iface i).owner
    | .subnet _ => (net.iface i).type = .ptmp
    | .endPoint _ => (net.iface i).type = .virtual
  connected_dest : ∀ i, (net.iface i).connected = true → (net.iface i).dest ≠ none
  iface_mask : ∀ i, (net.iface i).type = .ptp ∨ (net.iface i).type = .ptmp → (net.iface i).mask < 32
  ifaces_owner : ∀ n, ∀ i ∈ net.ifaces n, (net.iface i).owner = n
  ifaces_sorted : ∀ n, (net.ifaces n).Pairwise fun i j => (net.iface i).addr < (net.iface j).addr
  subnet_dest : ∀ s, ∀ i ∈ net.subnetIfaces s,
    (net.iface i).type = .ptmp ∧ (net.iface i).dest = some (.subnet s)
  subnet_sorted : ∀ s,
    (net.subnetIfaces s).Pairwise fun i j => (net.iface i).addr < (net.iface j).addr
  ifaces_next : ∀ n, ∀ i ∈ net.ifaces n, i < net.next
  dest_next : ∀ i j, (net.iface i).dest = some (.iface j) → j < net.next
  connected_next : ∀ i, (net.iface i).connected = true → i < net.next
  subnet_connected : ∀ s, ∀ i ∈ net.subnetIfaces s, (net.iface i).connected = true

variable {net : Wires N S} {node : N} {new : Iface N ℕ S} {i j dst : ℕ} {id : Pfx} {type : IfaceType}

omit [DecidableEq N] [DecidableEq S] in
theorem taken_eq_false {list : List ℕ} {addr : NetAddr} :
    net.taken list addr = false ↔ ∀ j ∈ list, (net.iface j).addr ≠ addr := by
  simp [taken]

omit [DecidableEq N] [DecidableEq S] in
/-- An insertion at the place of an address that is not taken keeps the order. -/
theorem insert_sorted {iface : ℕ → Iface N ℕ S} {list : List ℕ}
    (sorted : list.Pairwise fun i j => (iface i).addr < (iface j).addr)
    (free : ∀ j ∈ list, (iface j).addr ≠ (iface i).addr) :
    (list.orderedInsert (below iface) i).Pairwise fun i j => (iface i).addr < (iface j).addr := by
  have inserted := @SortedArray.orderedInsert_sorted ℕ ℕ _ (fun j => (iface j).addr.toNat) i list
    (sorted.imp fun less => UInt32.lt_iff_toNat_lt.mp less)
    (fun j member same => free j member (UInt32.toNat_inj.mp same))
  exact inserted.imp fun less => UInt32.lt_iff_toNat_lt.mpr less

/-! ## Allocation -/

omit [DecidableEq S] in
@[simp] theorem attach_iface_next : (net.attach node new).iface net.next = new :=
  Function.update_self _ _ _

omit [DecidableEq S] in
theorem attach_iface (other : i ≠ net.next) : (net.attach node new).iface i = net.iface i :=
  Function.update_of_ne other _ _

omit [DecidableEq S] in
theorem attach_iface_old (old : i < net.next) : (net.attach node new).iface i = net.iface i :=
  attach_iface (Nat.ne_of_lt old)

omit [DecidableEq S] in
@[simp] theorem attach_next : (net.attach node new).next = net.next + 1 := rfl

omit [DecidableEq S] in
@[simp] theorem attach_subnetIfaces : (net.attach node new).subnetIfaces = net.subnetIfaces := rfl

omit [DecidableEq S] in
theorem attach_ifaces_other {n : N} (other : n ≠ node) :
    (net.attach node new).ifaces n = net.ifaces n :=
  Function.update_of_ne other _ _

omit [DecidableEq S] in
theorem mem_attach_ifaces {n : N} :
    i ∈ (net.attach node new).ifaces n ↔ (n = node ∧ i = net.next) ∨ i ∈ net.ifaces n := by
  by_cases same : n = node
  · subst same
    simp [attach]
  · rw [attach_ifaces_other same]
    simp [same]

omit [DecidableEq S] in
/-- A new interface without a destination is put in the list of its owner. -/
theorem Valid.attach (valid : Valid net) (owner : new.owner = node) (idle : new.connected = false)
    (nowhere : new.dest = none) (fits : new.type = .ptp ∨ new.type = .ptmp → new.mask < 32)
    (free : ∀ j ∈ net.ifaces node, (net.iface j).addr ≠ new.addr) : Valid (net.attach node new) where
  -- In every field the new interface is treated apart: it is idle and leads nowhere.
  dest_matches i dest leads := by
    by_cases same : i = net.next
    · subst same
      rw [attach_iface_next, nowhere] at leads
      cases leads
    · rw [attach_iface same] at leads ⊢
      have before := valid.dest_matches i dest leads
      cases dest with
      | iface j =>
        dsimp only at before ⊢
        rw [attach_iface_old (valid.dest_next i j leads)]
        exact before
      | subnet s => exact before
      | endPoint a => exact before
  connected_dest i := by
    by_cases same : i = net.next
    · subst same
      simp [idle]
    · rw [attach_iface same]
      exact valid.connected_dest i
  iface_mask i := by
    by_cases same : i = net.next
    · subst same
      rw [attach_iface_next]
      exact fits
    · rw [attach_iface same]
      exact valid.iface_mask i
  ifaces_owner n i member := by
    rcases mem_attach_ifaces.mp member with ⟨rfl, rfl⟩ | old
    · rw [attach_iface_next, owner]
    · rw [attach_iface_old (valid.ifaces_next n i old)]
      exact valid.ifaces_owner n i old
  ifaces_sorted n := by
    -- The old interfaces keep their addresses, so only the place of the new one is open.
    have still : (net.ifaces n).Pairwise fun i j =>
        ((net.attach node new).iface i).addr < ((net.attach node new).iface j).addr := by
      refine (valid.ifaces_sorted n).imp_of_mem fun memberI memberJ less => ?_
      rw [attach_iface_old (valid.ifaces_next n _ memberI),
        attach_iface_old (valid.ifaces_next n _ memberJ)]
      exact less
    by_cases same : n = node
    · subst same
      have list : (net.attach n new).ifaces n =
          (net.ifaces n).orderedInsert (below (net.attach n new).iface) net.next :=
        Function.update_self _ _ _
      rw [list]
      refine insert_sorted still fun j member => ?_
      rw [attach_iface_next, attach_iface_old (valid.ifaces_next n j member)]
      exact free j member
    · rw [attach_ifaces_other same]
      exact still
  subnet_dest s i member := by
    rw [attach_iface_old (valid.connected_next i (valid.subnet_connected s i member))]
    exact valid.subnet_dest s i member
  subnet_sorted s := by
    refine (valid.subnet_sorted s).imp_of_mem fun memberI memberJ less => ?_
    rw [attach_iface_old (valid.connected_next _ (valid.subnet_connected s _ memberI)),
      attach_iface_old (valid.connected_next _ (valid.subnet_connected s _ memberJ))]
    exact less
  ifaces_next n i member := by
    rcases mem_attach_ifaces.mp member with ⟨_, rfl⟩ | old
    · exact Nat.lt_succ_self _
    · exact Nat.lt_succ_of_lt (valid.ifaces_next n i old)
  dest_next i j leads := by
    by_cases same : i = net.next
    · subst same
      rw [attach_iface_next, nowhere] at leads
      cases leads
    · rw [attach_iface same] at leads
      exact Nat.lt_succ_of_lt (valid.dest_next i j leads)
  connected_next i up := by
    by_cases same : i = net.next
    · subst same
      exact Nat.lt_succ_self _
    · rw [attach_iface same] at up
      exact Nat.lt_succ_of_lt (valid.connected_next i up)
  subnet_connected s i member := by
    rw [attach_iface_old (valid.connected_next i (valid.subnet_connected s i member))]
    exact valid.subnet_connected s i member

/-! ## Connection -/

omit [DecidableEq N] [DecidableEq S] in
theorem plug_iface_self {dest : IfaceDest ℕ S} : (net.plug i dest).iface i =
    { net.iface i with dest := some dest, connected := true } :=
  Function.update_self _ _ _

omit [DecidableEq N] [DecidableEq S] in
theorem plug_iface_other {dest : IfaceDest ℕ S} (other : j ≠ i) :
    (net.plug i dest).iface j = net.iface j :=
  Function.update_of_ne other _ _

omit [DecidableEq N] [DecidableEq S] in
/-- Connecting an interface changes nothing but its destination. -/
@[simp] theorem plug_owner {dest : IfaceDest ℕ S} :
    ((net.plug i dest).iface j).owner = (net.iface j).owner := by
  by_cases same : j = i
  · subst same
    rw [plug_iface_self]
  · rw [plug_iface_other same]

omit [DecidableEq N] [DecidableEq S] in
@[simp] theorem plug_addr {dest : IfaceDest ℕ S} :
    ((net.plug i dest).iface j).addr = (net.iface j).addr := by
  by_cases same : j = i
  · subst same
    rw [plug_iface_self]
  · rw [plug_iface_other same]

omit [DecidableEq N] [DecidableEq S] in
@[simp] theorem plug_type {dest : IfaceDest ℕ S} :
    ((net.plug i dest).iface j).type = (net.iface j).type := by
  by_cases same : j = i
  · subst same
    rw [plug_iface_self]
  · rw [plug_iface_other same]

omit [DecidableEq N] [DecidableEq S] in
@[simp] theorem plug_mask {dest : IfaceDest ℕ S} :
    ((net.plug i dest).iface j).mask = (net.iface j).mask := by
  by_cases same : j = i
  · subst same
    rw [plug_iface_self]
  · rw [plug_iface_other same]

omit [DecidableEq N] [DecidableEq S] in
@[simp] theorem plug_next {dest : IfaceDest ℕ S} : (net.plug i dest).next = net.next := rfl

omit [DecidableEq N] [DecidableEq S] in
@[simp] theorem plug_ifaces {dest : IfaceDest ℕ S} : (net.plug i dest).ifaces = net.ifaces := rfl

omit [DecidableEq N] [DecidableEq S] in
@[simp] theorem plug_subnetIfaces {dest : IfaceDest ℕ S} :
    (net.plug i dest).subnetIfaces = net.subnetIfaces := rfl

omit [DecidableEq N] [DecidableEq S] in
/-- An idle interface is connected to a destination that its type asks for. -/
theorem Valid.plug {dest : IfaceDest ℕ S} (valid : Valid net) (old : i < net.next)
    (idle : (net.iface i).connected = false)
    (suits : match dest with
      | .iface j => ((net.iface i).type = .rtr ∨ (net.iface i).type = .ptp) ∧
          (net.iface j).type = (net.iface i).type ∧ (net.iface j).owner ≠ (net.iface i).owner
      | .subnet _ => (net.iface i).type = .ptmp
      | .endPoint _ => (net.iface i).type = .virtual)
    (known : ∀ j, dest = .iface j → j < net.next) : Valid (net.plug i dest) where
  dest_matches k dest' leads := by
    by_cases same : k = i
    · subst same
      rw [plug_iface_self] at leads
      cases leads
      simpa using suits
    · rw [plug_iface_other same] at leads
      simpa using valid.dest_matches k dest' leads
  connected_dest k up := by
    by_cases same : k = i
    · subst same
      simp [plug_iface_self]
    · rw [plug_iface_other same] at up ⊢
      exact valid.connected_dest k up
  iface_mask k := by simpa using valid.iface_mask k
  ifaces_owner n k member := by simpa using valid.ifaces_owner n k member
  ifaces_sorted n := by simpa using valid.ifaces_sorted n
  subnet_dest s k member := by
    -- the members of a subnet are connected already
    have other : k ≠ i := by
      rintro rfl
      exact absurd (valid.subnet_connected s k member) (by simp [idle])
    rw [plug_iface_other other]
    exact valid.subnet_dest s k member
  subnet_sorted s := by simpa using valid.subnet_sorted s
  ifaces_next := valid.ifaces_next
  dest_next k j leads := by
    by_cases same : k = i
    · subst same
      rw [plug_iface_self] at leads
      exact known j (Option.some.inj leads)
    · rw [plug_iface_other same] at leads
      exact valid.dest_next k j leads
  connected_next k up := by
    by_cases same : k = i
    · exact same ▸ old
    · rw [plug_iface_other same] at up
      exact valid.connected_next k up
  subnet_connected s k member := by
    by_cases same : k = i
    · subst same
      simp [plug_iface_self]
    · rw [plug_iface_other same]
      exact valid.subnet_connected s k member

omit [DecidableEq N] in
theorem mem_enlist_subnetIfaces {s t : S} :
    j ∈ (net.enlist s i).subnetIfaces t ↔ (t = s ∧ j = i) ∨ j ∈ net.subnetIfaces t := by
  by_cases same : t = s
  · subst same
    simp [enlist]
  · simp [enlist, same]

omit [DecidableEq N] in
/-- An interface that is connected to a subnet is put in its list. -/
theorem Valid.enlist {s : S} (valid : Valid net) (up : (net.iface i).connected = true)
    (leads : (net.iface i).dest = some (.subnet s))
    (free : ∀ j ∈ net.subnetIfaces s, (net.iface j).addr ≠ (net.iface i).addr) :
    Valid (net.enlist s i) := by
  exact {
    valid with
    subnet_dest := fun t k member => by
      rcases mem_enlist_subnetIfaces.mp member with ⟨rfl, rfl⟩ | old
      · exact ⟨valid.dest_matches k _ leads, leads⟩
      · exact valid.subnet_dest t k old
    subnet_sorted := fun t => by
      by_cases same : t = s
      · subst same
        have list : (net.enlist t i).subnetIfaces t =
            (net.subnetIfaces t).orderedInsert (below net.iface) i := Function.update_self _ _ _
        rw [list]
        exact insert_sorted (valid.subnet_sorted t) free
      · have list : (net.enlist s i).subnetIfaces t = net.subnetIfaces t :=
          Function.update_of_ne same _ _
        rw [list]
        exact valid.subnet_sorted t
    subnet_connected := fun t k member => by
      rcases mem_enlist_subnetIfaces.mp member with ⟨_, rfl⟩ | old
      · exact up
      · exact valid.subnet_connected t k old }

/-! ## Obtaining an interface -/

/-- `net_iface_factory` takes the identifier for an interface of the type. -/
def fits (id : Pfx) : IfaceType → Bool
  | .loopback | .rtr | .virtual => id.mask = 32
  | .ptp | .ptmp => id.mask < 32

omit [DecidableEq N] [DecidableEq S] in
theorem netIfaceFactory_eq : (netIfaceFactory node id type : Except NetError (Iface N ℕ S)) =
    if fits id type then .ok (netIfaceNew node type id) else .error .ifaceInvalidId := by
  cases type <;> simp only [netIfaceFactory, fits, decide_eq_true_eq] <;> split <;> grind

omit [DecidableEq N] [DecidableEq S] in
theorem nodeFindIface_some (found : net.nodeFindIface node id = some i) :
    i ∈ net.ifaces node ∧ (net.iface i).addr = id.network := by
  refine ⟨List.mem_of_find?_eq_some found, ?_⟩
  simpa using List.find?_some found

omit [DecidableEq N] [DecidableEq S] in
theorem nodeFindIface_none :
    net.nodeFindIface node id = none ↔ ∀ j ∈ net.ifaces node, (net.iface j).addr ≠ id.network := by
  simp [nodeFindIface]

omit [DecidableEq S] in
theorem nodeAddIface_eq : net.nodeAddIface node id type =
    if fits id type then
      if (net.nodeFindIface node id).isSome then .error .ifaceDuplicate
      else .ok (net.next, net.attach node (netIfaceNew node type id))
    else .error .ifaceInvalidId := by
  rw [nodeAddIface, netIfaceFactory_eq]
  split
  next =>
    have same : net.taken (net.ifaces node) id.network = (net.nodeFindIface node id).isSome := by
      rw [Bool.eq_iff_iff, nodeFindIface, List.find?_isSome, taken, List.any_eq_true]
    show net.nodeAddIface2 node (netIfaceNew node type id) = _
    rw [nodeAddIface2]
    exact same ▸ rfl
  next => rfl

/-- What becomes of an interface that a link asks for. -/
inductive Obtained (net : Wires N S) (node : N) (id : Pfx) (type : IfaceType) :
    Except NetError (ℕ × Wires N S) → Prop where
  | found {i : ℕ} : net.nodeFindIface node id = some i → (net.iface i).type = type →
      Obtained net node id type (.ok (i, net))
  | mismatch {i : ℕ} : net.nodeFindIface node id = some i → (net.iface i).type ≠ type →
      Obtained net node id type (.error .ifaceIncompatible)
  | made : net.nodeFindIface node id = none → fits id type = true →
      Obtained net node id type (.ok (net.next, net.attach node (netIfaceNew node type id)))
  | unfit : net.nodeFindIface node id = none → fits id type = false →
      Obtained net node id type (.error .ifaceInvalidId)

variable (net node id type) in
omit [DecidableEq S] in
theorem netLinkCreateIface_obtained :
    Obtained net node id type (net.netLinkCreateIface node id type) := by
  unfold netLinkCreateIface
  split
  next none =>
    rw [nodeAddIface_eq]
    split
    next fit =>
      rw [none]
      exact .made none fit
    next unfit => exact .unfit none (by simpa using unfit)
  next i found =>
    split
    next differ => exact .mismatch found differ
    next same => exact .found found (not_not.mp same)

/-- An interface of a node that a link may use. -/
structure LinkEnd (net : Wires N S) (node : N) (id : Pfx) (type : IfaceType) (i : ℕ) : Prop where
  old : i < net.next
  owner : (net.iface i).owner = node
  type : (net.iface i).type = type
  addr : (net.iface i).addr = id.network

omit [DecidableEq S] in
theorem Valid.made (valid : Valid net) (none : net.nodeFindIface node id = none)
    (fit : fits id type = true) : Valid (net.attach node (netIfaceNew node type id)) := by
  refine valid.attach rfl rfl rfl ?_ (nodeFindIface_none.mp none)
  intro net
  have short : id.mask < 32 := by
    rcases net with rfl | rfl
    · exact of_decide_eq_true fit
    · exact of_decide_eq_true fit
  exact short

omit [DecidableEq S] in
/-- The interface obtained is usable in a valid network. -/
theorem netLinkCreateIface_valid (valid : Valid net) {net' : Wires N S}
    (obtained : net.netLinkCreateIface node id type = .ok (i, net')) :
    Valid net' ∧ LinkEnd net' node id type i := by
  have cases := netLinkCreateIface_obtained net node id type
  rw [obtained] at cases
  cases cases with
  | found found same =>
    obtain ⟨member, addr⟩ := nodeFindIface_some found
    exact ⟨valid, { old := valid.ifaces_next node i member
                    owner := valid.ifaces_owner node i member
                    type := same
                    addr := addr }⟩
  | made none fit =>
    exact ⟨valid.made none fit, { old := Nat.lt_succ_self _
                                  owner := by rw [attach_iface_next]; rfl
                                  type := by rw [attach_iface_next]; rfl
                                  addr := by rw [attach_iface_next]; rfl }⟩

/-! ## Connecting two interfaces -/

/-- The interface is connected, and to that destination. -/
def Connected (net : Wires N S) (i dst : ℕ) : Prop :=
  (net.iface i).connected = true ∧ (net.iface i).dest = some (.iface dst)

/-- Two interfaces of one kind, of different routers and with different addresses. -/
structure Matching (net : Wires N S) (i dst : ℕ) : Prop where
  old : i < net.next ∧ dst < net.next
  kind : (net.iface i).type = .rtr ∨ (net.iface i).type = .ptp
  types : (net.iface dst).type = (net.iface i).type
  owners : (net.iface dst).owner ≠ (net.iface i).owner
  addrs : (net.iface dst).addr ≠ (net.iface i).addr

/-- Between matching interfaces only a connection stands in the way of a connection. -/
theorem Matching.connect (matching : Matching net i dst) : net.netIfaceConnectIface i dst =
    if (net.iface i).connected = true ∨
        ((net.iface dst).connected = true ∧ (net.iface dst).dest ≠ some (.iface i)) then
      .error .ifaceConnected
    else .ok (net.plug i (.iface dst)) := by
  have kinds : ¬ ((net.iface i).type ≠ .rtr ∧ (net.iface i).type ≠ .ptp) := by
    rcases matching.kind with rtr | ptp
    · simp [rtr]
    · simp [ptp]
  have apart : ¬ ((net.iface i).addr = (net.iface dst).addr ∨
      (net.iface i).owner = (net.iface dst).owner) := by
    rintro (same | same)
    · exact matching.addrs same.symm
    · exact matching.owners same.symm
  unfold netIfaceConnectIface
  rw [if_neg (not_not.mpr matching.types.symm), if_neg kinds, if_neg apart]
  grind

omit [DecidableEq N] [DecidableEq S] in
theorem Matching.valid_plug (matching : Matching net i dst) (valid : Valid net)
    (idle : (net.iface i).connected = false) : Valid (net.plug i (.iface dst)) := by
  refine valid.plug matching.old.1 idle ⟨matching.kind, matching.types, matching.owners⟩ ?_
  intro j same
  cases same
  exact matching.old.2

omit [DecidableEq N] [DecidableEq S] in
theorem Matching.plugged (matching : Matching net i dst) {dest : IfaceDest ℕ S} (k : ℕ) :
    Matching (net.plug k dest) i dst where
  old := matching.old
  kind := by simpa using matching.kind
  types := by simpa using matching.types
  owners := by simpa using matching.owners
  addrs := by simpa using matching.addrs

omit [DecidableEq N] [DecidableEq S] in
theorem Matching.symm (matching : Matching net i dst) : Matching net dst i where
  old := matching.old.symm
  kind := matching.types ▸ matching.kind
  types := matching.types.symm
  owners := matching.owners.symm
  addrs := matching.addrs.symm

/-- What becomes of the connections of two matching interfaces. -/
inductive EndsConnected (net : Wires N S) (src dst : ℕ) (dir : IfaceDir) :
    Except NetError ℕ × Wires N S → Prop where
  | refused : (net.iface src).connected = true ∨
      ((net.iface dst).connected = true ∧ (net.iface dst).dest ≠ some (.iface src)) →
      EndsConnected net src dst dir (.error .ifaceConnected, net)
  | oneWay : (net.iface src).connected = false →
      ((net.iface dst).connected = true → (net.iface dst).dest = some (.iface src)) →
      dir = .unidir → EndsConnected net src dst dir (.ok src, net.plug src (.iface dst))
  | halfway : (net.iface src).connected = false → (net.iface dst).connected = true →
      (net.iface dst).dest = some (.iface src) → dir = .bidir →
      EndsConnected net src dst dir (.error .ifaceConnected, net.plug src (.iface dst))
  | bothWays : (net.iface src).connected = false → (net.iface dst).connected = false →
      dir = .bidir → EndsConnected net src dst dir
        (.ok src, (net.plug src (.iface dst)).plug dst (.iface src))

theorem connectEnds_cases {src : ℕ} {dir : IfaceDir} (matching : Matching net src dst) :
    EndsConnected net src dst dir (net.connectEnds src dst dir) := by
  have differ : dst ≠ src := by
    rintro rfl
    exact matching.owners rfl
  unfold connectEnds
  rw [matching.connect]
  split
  next error eq =>
    split at eq
    next busy =>
      cases eq
      exact .refused busy
    next => cases eq
  next net' eq =>
    split at eq
    next => cases eq
    next free =>
      cases eq
      obtain ⟨idle, back⟩ := not_or.mp free
      have idle' : (net.iface src).connected = false := by simpa using idle
      have back' : (net.iface dst).connected = true →
          (net.iface dst).dest = some (.iface src) := by
        intro up
        by_contra other
        exact back ⟨up, other⟩
      cases dir with
      | unidir => exact .oneWay idle' back' rfl
      | bidir =>
        dsimp only
        rw [(matching.symm.plugged src).connect, plug_iface_other differ, plug_iface_self]
        cases up : (net.iface dst).connected with
        | true => simpa using EndsConnected.halfway idle' up (back' up) rfl
        | false => simpa using EndsConnected.bothWays idle' up rfl

omit [DecidableEq S] in
/-- Obtaining another interface leaves the ends of a link in place. -/
theorem netLinkCreateIface_frame {net' : Wires N S} {node' : N} {id' : Pfx}
    (obtained : net.netLinkCreateIface node' id' type = .ok (j, net')) :
    net.next ≤ net'.next ∧ ∀ i, i < net.next → net'.iface i = net.iface i := by
  have cases := netLinkCreateIface_obtained net node' id' type
  rw [obtained] at cases
  cases cases with
  | found _ _ => exact ⟨Nat.le_refl _, fun _ _ => rfl⟩
  | made _ _ => exact ⟨Nat.le_succ _, fun i old => attach_iface_old old⟩

/-- What a link between two routers may ask for. -/
structure EndsAsked (srcNode : N) (srcId : Pfx) (dstNode : N) (dstId : Pfx) (type : IfaceType) :
    Prop where
  nodes : srcNode ≠ dstNode
  addrs : srcId.network ≠ dstId.network
  kind : type = .rtr ∨ type = .ptp
  fit : fits srcId type = fits dstId type

/-- What becomes of a link that is asked for. -/
inductive EndsCreated (net : Wires N S) (srcNode : N) (srcId : Pfx) (dstNode : N) (dstId : Pfx)
    (type : IfaceType) (dir : IfaceDir) : Except NetError ℕ × Wires N S → Prop where
  | failSrc {error : NetError} : net.netLinkCreateIface srcNode srcId type = .error error →
      EndsCreated net srcNode srcId dstNode dstId type dir (.error error, net)
  | failDst {src : ℕ} {net' : Wires N S} {error : NetError} :
      net.netLinkCreateIface srcNode srcId type = .ok (src, net') →
      net'.netLinkCreateIface dstNode dstId type = .error error →
      EndsCreated net srcNode srcId dstNode dstId type dir (.error error, net')
  | ends {src dst : ℕ} {net' net'' : Wires N S} {result : Except NetError ℕ × Wires N S} :
      net.netLinkCreateIface srcNode srcId type = .ok (src, net') →
      net'.netLinkCreateIface dstNode dstId type = .ok (dst, net'') →
      Valid net'' → Matching net'' src dst → EndsConnected net'' src dst dir result →
      EndsCreated net srcNode srcId dstNode dstId type dir result

variable {srcNode dstNode : N} {srcId dstId : Pfx} {dir : IfaceDir}

variable (dir) in
theorem netLinkCreateEnds_created (valid : Valid net)
    (asked : EndsAsked srcNode srcId dstNode dstId type) :
    EndsCreated net srcNode srcId dstNode dstId type dir
      (net.netLinkCreateEnds srcNode srcId dstNode dstId type dir) := by
  unfold netLinkCreateEnds
  cases first : net.netLinkCreateIface srcNode srcId type with
  | error error => exact .failSrc first
  | ok got =>
    obtain ⟨src, net'⟩ := got
    dsimp only
    obtain ⟨valid', srcEnd⟩ := netLinkCreateIface_valid valid first
    cases second : net'.netLinkCreateIface dstNode dstId type with
    | error error => exact .failDst first second
    | ok got =>
      obtain ⟨dst, net''⟩ := got
      dsimp only
      obtain ⟨valid'', dstEnd⟩ := netLinkCreateIface_valid valid' second
      obtain ⟨grows, same⟩ := netLinkCreateIface_frame second
      have kept := same src srcEnd.old
      have matching : Matching net'' src dst :=
        { old := ⟨Nat.lt_of_lt_of_le srcEnd.old grows, dstEnd.old⟩
          kind := by rw [kept, srcEnd.type]; exact asked.kind
          types := by rw [kept, srcEnd.type, dstEnd.type]
          owners := by rw [kept, srcEnd.owner, dstEnd.owner]; exact asked.nodes.symm
          addrs := by rw [kept, srcEnd.addr, dstEnd.addr]; exact asked.addrs.symm }
      exact .ends first second valid'' matching (connectEnds_cases matching)

omit [DecidableEq N] [DecidableEq S] in
/-- Connecting matching interfaces keeps a network valid, whether or not it fails. -/
theorem EndsConnected.valid {src : ℕ} {result : Except NetError ℕ × Wires N S}
    (connected : EndsConnected net src dst dir result) (matching : Matching net src dst)
    (valid : Valid net) : Valid result.2 := by
  have differ : dst ≠ src := by
    rintro rfl
    exact matching.owners rfl
  cases connected with
  | refused _ => exact valid
  | oneWay idle _ _ => exact matching.valid_plug valid idle
  | halfway idle _ _ _ => exact matching.valid_plug valid idle
  | bothWays idle idle' _ =>
    refine (matching.symm.plugged src).valid_plug (matching.valid_plug valid idle) ?_
    rw [plug_iface_other differ]
    exact idle'

omit [DecidableEq S] in
theorem EndsCreated.valid {result : Except NetError ℕ × Wires N S} (valid : Valid net)
    (created : EndsCreated net srcNode srcId dstNode dstId type dir result) : Valid result.2 := by
  cases created with
  | failSrc _ => exact valid
  | failDst first _ => exact (netLinkCreateIface_valid valid first).1
  | ends _ _ valid'' matching connected => exact connected.valid matching valid''

omit [DecidableEq N] [DecidableEq S] in
theorem asked_rtr (differ : srcNode ≠ dstNode) :
    EndsAsked srcNode (netIfaceIdAddr (net.rid dstNode)) dstNode
      (netIfaceIdAddr (net.rid srcNode)) .rtr where
  nodes := differ
  addrs same := differ (net.rid_injective same).symm
  kind := .inl rfl
  fit := rfl

/-- The calls that create a link between two routers, once their arguments are checked. -/
theorem netLinkCreateRtr_eq (differ : srcNode ≠ dstNode) :
    net.netLinkCreateRtr srcNode dstNode dir = net.netLinkCreateEnds srcNode
      (netIfaceIdAddr (net.rid dstNode)) dstNode (netIfaceIdAddr (net.rid srcNode)) .rtr dir :=
  if_neg differ

/-- The checks of `net_link_create_ptp`. -/
def ptpChecked (srcNode : N) (srcId : Pfx) (dstNode : N) (dstId : Pfx) : Bool :=
  srcNode ≠ dstNode ∧ srcId.mask = dstId.mask ∧ ipPrefixCmp srcId dstId = 0 ∧
    srcId.network ≠ dstId.network

variable (net dir) in
theorem netLinkCreatePtp_checked (checked : ptpChecked srcNode srcId dstNode dstId = true) :
    EndsAsked srcNode srcId dstNode dstId .ptp ∧
      net.netLinkCreatePtp srcNode srcId dstNode dstId dir =
        net.netLinkCreateEnds srcNode srcId dstNode dstId .ptp dir := by
  obtain ⟨nodes, masks, prefixes, addrs⟩ := of_decide_eq_true checked
  refine ⟨{ nodes := nodes, addrs := addrs, kind := .inr rfl, fit := by simp [fits, masks] }, ?_⟩
  rw [netLinkCreatePtp, if_neg nodes, if_neg (not_not.mpr masks), if_neg (not_not.mpr prefixes),
    if_neg addrs]

variable (net dir) in
theorem netLinkCreatePtp_unchecked (unchecked : ptpChecked srcNode srcId dstNode dstId = false) :
    ∃ error, net.netLinkCreatePtp srcNode srcId dstNode dstId dir = (.error error, net) := by
  have failed := of_decide_eq_false unchecked
  unfold netLinkCreatePtp
  split
  next => exact ⟨_, rfl⟩
  next nodes =>
    split
    next => exact ⟨_, rfl⟩
    next masks =>
      split
      next => exact ⟨_, rfl⟩
      next prefixes =>
        split
        next => exact ⟨_, rfl⟩
        next addrs =>
          exact absurd ⟨nodes, not_not.mp masks, not_not.mp prefixes, addrs⟩ failed

/-- The network once the new interface of a node is connected to a subnet. -/
def ontoSubnet (net : Wires N S) (node : N) (subnet : S) (addr : NetAddr) : Wires N S :=
  (net.attach node (netIfaceNew node .ptmp (net.netIfaceIdPfx subnet addr))).plug net.next
    (.subnet subnet)

/-- What becomes of a link to a subnet. -/
inductive PtmpCreated (net : Wires N S) (node : N) (subnet : S) (addr : NetAddr) :
    Except NetError ℕ × Wires N S → Prop where
  | taken : (net.nodeFindIface node (net.netIfaceIdPfx subnet addr)).isSome = true →
      PtmpCreated net node subnet addr (.error .ifaceDuplicate, net)
  | listed : net.nodeFindIface node (net.netIfaceIdPfx subnet addr) = none →
      net.taken (net.subnetIfaces subnet) addr = true →
      PtmpCreated net node subnet addr (.error .linkDuplicate, ontoSubnet net node subnet addr)
  | joined : net.nodeFindIface node (net.netIfaceIdPfx subnet addr) = none →
      net.taken (net.subnetIfaces subnet) addr = false →
      PtmpCreated net node subnet addr
        (.ok net.next, (ontoSubnet net node subnet addr).enlist subnet net.next)

variable {subnet : S} {addr : NetAddr}

omit [DecidableEq S] in
theorem ontoSubnet_iface_next : (ontoSubnet net node subnet addr).iface net.next =
    { (netIfaceNew node .ptmp (net.netIfaceIdPfx subnet addr) : Iface N ℕ S) with
      dest := some (.subnet subnet), connected := true } := by
  rw [ontoSubnet, plug_iface_self, attach_iface_next]

omit [DecidableEq S] in
theorem ontoSubnet_iface (other : i ≠ net.next) :
    (ontoSubnet net node subnet addr).iface i = net.iface i := by
  rw [ontoSubnet, plug_iface_other other, attach_iface other]

omit [DecidableEq S] in
theorem Valid.onto (valid : Valid net)
    (free : net.nodeFindIface node (net.netIfaceIdPfx subnet addr) = none) :
    Valid (ontoSubnet net node subnet addr) := by
  have fit : fits (net.netIfaceIdPfx subnet addr) .ptmp = true :=
    decide_eq_true (net.subnet_mask subnet)
  refine (valid.made free fit).plug (Nat.lt_succ_self _) ?_ ?_ ?_
  · rw [attach_iface_next]
    rfl
  · show (_ : Iface N ℕ S).type = _
    rw [attach_iface_next]
    rfl
  · intro j same
    cases same

omit [DecidableEq S] in
/-- In a valid network the addresses taken on a subnet stay the same while an interface is made. -/
theorem Valid.taken_ontoSubnet (valid : Valid net) :
    (ontoSubnet net node subnet addr).taken (net.subnetIfaces subnet) addr =
      net.taken (net.subnetIfaces subnet) addr := by
  rw [Bool.eq_iff_iff]
  simp only [taken, List.any_eq_true, decide_eq_true_eq]
  refine exists_congr fun k => and_congr_right fun member => ?_
  have old := valid.connected_next k (valid.subnet_connected subnet k member)
  rw [ontoSubnet_iface (Nat.ne_of_lt old)]

theorem netLinkCreatePtmp_created (valid : Valid net) :
    PtmpCreated net node subnet addr (net.netLinkCreatePtmp node subnet addr) := by
  have fit : fits (net.netIfaceIdPfx subnet addr) .ptmp = true :=
    decide_eq_true (net.subnet_mask subnet)
  unfold netLinkCreatePtmp
  rw [nodeAddIface_eq, if_pos fit]
  cases found : net.nodeFindIface node (net.netIfaceIdPfx subnet addr) with
  | some i => exact .taken (by rw [found]; rfl)
  | none =>
    have connects : (net.attach node (netIfaceNew node .ptmp
        (net.netIfaceIdPfx subnet addr))).netIfaceConnectSubnet net.next subnet =
        .ok (ontoSubnet net node subnet addr) := by
      simp only [netIfaceConnectSubnet, attach_iface_next]
      rfl
    simp only [Option.isSome_none, Bool.false_eq_true, if_false, connects]
    have address : ((ontoSubnet net node subnet addr).iface net.next).addr = addr := by
      rw [ontoSubnet_iface_next]
      rfl
    have list : (ontoSubnet net node subnet addr).subnetIfaces = net.subnetIfaces := rfl
    rw [subnetAddLink, address, list, valid.taken_ontoSubnet]
    cases taken : net.taken (net.subnetIfaces subnet) addr with
    | true => exact .listed found taken
    | false => exact .joined found taken

theorem PtmpCreated.valid {result : Except NetError ℕ × Wires N S} (valid : Valid net)
    (created : PtmpCreated net node subnet addr result) : Valid result.2 := by
  cases created with
  | taken _ => exact valid
  | listed free _ => exact valid.onto free
  | joined free untaken =>
    have address : ((ontoSubnet net node subnet addr).iface net.next).addr = addr := by
      rw [ontoSubnet_iface_next]
      rfl
    refine (valid.onto free).enlist ?_ ?_ ?_
    · rw [ontoSubnet_iface_next]
    · rw [ontoSubnet_iface_next]
    · rw [address, ← taken_eq_false]
      exact valid.taken_ontoSubnet.trans untaken

/-! ## Networks that carry their validity -/

/-- A call leaves a valid network behind. -/
theorem create_valid (valid : Valid net) (call : LinkCall N S) : Valid (net.create call).2 := by
  cases call with
  | rtr srcNode dstNode dir =>
    by_cases same : srcNode = dstNode
    · simp only [create, netLinkCreateRtr, if_pos same]
      exact valid
    · simp only [create, netLinkCreateRtr_eq same]
      exact (netLinkCreateEnds_created _ valid (asked_rtr same)).valid valid
  | ptp srcNode srcId dstNode dstId dir =>
    cases checked : ptpChecked srcNode srcId dstNode dstId with
    | true =>
      obtain ⟨asked, eq⟩ := netLinkCreatePtp_checked net dir checked
      simp only [create, eq]
      exact (netLinkCreateEnds_created _ valid asked).valid valid
    | false =>
      obtain ⟨error, eq⟩ := netLinkCreatePtp_unchecked net dir checked
      simp only [create, eq]
      exact valid
  | ptmp srcNode subnet addr => exact (netLinkCreatePtmp_created valid).valid valid

/-- A valid network. -/
structure Wiring (N S : Type) extends Wires N S where
  valid : Valid toWires

namespace Wiring

/-- The network after a call. -/
def create (net : Wiring N S) (call : LinkCall N S) : Wiring N S where
  toWires := (net.toWires.create call).2
  valid := create_valid net.valid call

/-- The network after a sequence of calls, whether they succeed or fail. -/
def createAll (net : Wiring N S) (calls : List (LinkCall N S)) : Wiring N S :=
  calls.foldl create net

omit [DecidableEq N] [DecidableEq S] in
/-- The topology that routing reads. -/
def topology (net : Wiring N S) (subnetTransit : S → Bool) : Topology N ℕ S where
  rid := net.rid
  ifaces := net.ifaces
  iface := net.iface
  subnetPrefix := net.subnetPrefix
  subnetTransit := subnetTransit
  subnetIfaces := net.subnetIfaces
  dest_matches i dest leads := by
    have suits := net.valid.dest_matches i dest leads
    cases dest <;> exact suits
  connected_dest := net.valid.connected_dest
  iface_mask := net.valid.iface_mask
  rid_injective := net.rid_injective
  ifaces_owner := net.valid.ifaces_owner
  ifaces_sorted := net.valid.ifaces_sorted
  subnet_mask := net.subnet_mask
  subnet_injective := net.subnet_injective
  subnet_dest := net.valid.subnet_dest
  subnet_sorted := net.valid.subnet_sorted

/-- A network of nodes and subnets without interfaces. -/
def bare (rid : N → NetAddr) (subnetPrefix : S → Pfx) (ridInjective : Function.Injective rid)
    (subnetMask : ∀ s, (subnetPrefix s).mask < 32)
    (subnetInjective : Function.Injective fun s => ipPrefixMask (subnetPrefix s)) (node : N) :
    Wiring N S where
  rid := rid
  subnetPrefix := subnetPrefix
  rid_injective := ridInjective
  subnet_mask := subnetMask
  subnet_injective := subnetInjective
  iface _ := netIfaceNew node .loopback (netIfaceIdAddr (rid node))
  next := 0
  ifaces _ := []
  subnetIfaces _ := []
  valid :=
    { dest_matches := by simp [netIfaceNew]
      connected_dest := by simp [netIfaceNew]
      iface_mask := by simp [netIfaceNew]
      ifaces_owner := by simp
      ifaces_sorted := by simp
      subnet_dest := by simp
      subnet_sorted := by simp
      ifaces_next := by simp
      dest_next := by simp [netIfaceNew]
      connected_next := by simp [netIfaceNew]
      subnet_connected := by simp }

end Wiring

end Cbgp.Verified
