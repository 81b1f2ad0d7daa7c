import Cbgp.Verified.FibEntries

/-! # First hops

The entries that `_spt_compute_fib` hands down the shortest-path tree start the paths of least cost (`FirstHop`).
The forwarding table of a router holds, under the prefixes of each element that a path reaches, the entries that
start its shortest paths and no others (`routerFib_first_hops`).
-/

namespace Cbgp.Verified

open Cbgp.Lib Cbgp.Net Relation

variable {N I S : Type}

/-! ## Paths of least cost -/

section Costs

variable (net : Topology N I S) (domain : List N) (root : N)

/-- The least cost of a path from the root to an element. -/
def LeastCost (elem : NetElem N I S) (cost : ℕ) : Prop :=
  Path net domain root elem cost ∧ ∀ other, Path net domain root elem other → cost ≤ other

/-- A hop at the end of a path of least cost. -/
def TightHop (elem next : NetElem N I S) : Prop :=
  ∃ cost hopCost, LeastCost net domain root elem cost ∧ Hop net domain elem next hopCost ∧
    LeastCost net domain root next (cost + hopCost)

variable {net domain root}

theorem LeastCost.unique {elem : NetElem N I S} {cost cost' : ℕ} (least : LeastCost net domain root elem cost)
    (least' : LeastCost net domain root elem cost') : cost = cost' :=
  Nat.le_antisymm (least.2 cost' least'.1) (least'.2 cost least.1)

theorem leastCost_root : LeastCost net domain root (.node root) 0 :=
  ⟨.start, fun _ _ => Nat.zero_le _⟩

/-- The beginning of a path of least cost is one. -/
theorem LeastCost.before {elem next : NetElem N I S} {cost hopCost : ℕ} (path : Path net domain root elem cost)
    (hop : Hop net domain elem next hopCost) (least : LeastCost net domain root next (cost + hopCost)) :
    LeastCost net domain root elem cost := by
  refine ⟨path, fun other path' => ?_⟩
  by_contra nearer
  have below : cost + hopCost < maxCost := least.1.cost_lt (by decide)
  -- a cheaper way to the element would make a cheaper path
  have := least.2 (other + hopCost) (path'.step hop (by omega))
  omega

end Costs

/-! ## The tree -/

section Tree

variable [DecidableEq I] {net : Topology N I S} {domain : List N} {root : N} {spt : Spt N I S} {fuel : ℕ}

/-- What the search leaves. -/
structure FinalTree (net : Topology N I S) (domain : List N) (root : N) (spt : Spt N I S) : Prop where
  keyed : ∀ {k x}, spt.lookup k = some x → elemKey net x.elem = k
  least_iff : ∀ {elem cost}, LeastCost net domain root elem cost ↔
    ∃ x, spt.lookup (elemKey net elem) = some x ∧ x.elem = elem ∧ x.weight.toNat = cost
  succ_iff : ∀ {a b x}, spt.lookup a = some x →
    (b ∈ x.succs ↔ ∃ y, spt.lookup b = some y ∧ TightHop net domain root x.elem y.elem)

theorem sptBfs_finalTree (plain : RouterSubnetDomain net domain root)
    (computed : sptBfs net domain root fuel = .ok spt) : FinalTree net domain root spt := by
  have shape : Shape net domain root { spt := spt, fifo := [] } := (sptLoop_shape sptStart_shape computed).1
  have elems {k : Pfx} {x : SptVertex N I S} (found : spt.lookup k = some x) :
      elemKey net x.elem = k ∧ x.elem ∈ knownElems net domain root :=
    shape.elems (by rw [elemOf, found, Option.map_some])
  have agrees : Agrees (knownAt net domain root) spt := fun k e atK => plain.knownAt_iff.mpr (shape.elems atK).symm
  have sound := sptLoop_labelled plain.homeward sptStart_shape agrees sptStart_labelled computed
  have labelled {k : Pfx} {x : SptVertex N I S} (found : spt.lookup k = some x) :
      distOf spt k = some x.weight.toNat := by
    rw [distOf, weightOf, found]
    rfl
  have vertex {k : Pfx} {d : ℕ} (label : distOf spt k = some d) :
      ∃ x, spt.lookup k = some x ∧ x.weight.toNat = d := by
    obtain ⟨w, weight, rfl⟩ := distOf_eq_some.mp label
    obtain ⟨x, found, rfl⟩ := Option.map_eq_some_iff.mp weight
    exact ⟨x, found, rfl⟩
  -- the walks to the key of a known element are the paths to the element
  have walks {elem : NetElem N I S} (known : elem ∈ knownElems net domain root) {cost : ℕ} :
      Relaxation.Walk (Edge net domain (knownAt net domain root)) (elemKey net (.node root)) maxCost
        (elemKey net elem) cost ↔ Path net domain root elem cost := by
    rw [plain.walk_iff]
    constructor
    · intro walk
      obtain ⟨elem', known', same, path⟩ := walk
      rwa [plain.key_inj known' known same] at path
    · exact fun path => ⟨elem, known, rfl, path⟩
  have least {elem : NetElem N I S} (known : elem ∈ knownElems net domain root) {cost : ℕ} :
      distOf spt (elemKey net elem) = some cost ↔ LeastCost net domain root elem cost := by
    rw [sound.dist_eq]
    simp only [walks known, LeastCost]
  refine ⟨fun found => (elems found).1, fun {elem cost} => ⟨fun isLeast => ?_, fun stored => ?_⟩,
    fun {a b x} found => ?_⟩
  · have known := plain.path_known isLeast.1
    obtain ⟨x, found, weight⟩ := vertex ((least known).mpr isLeast)
    exact ⟨x, found, plain.key_inj (elems found).2 known (elems found).1, weight⟩
  · obtain ⟨x, found, rfl, rfl⟩ := stored
    exact (least (elems found).2).mp (labelled found)
  · have leastA := (least (elems found).2).mp ((elems found).1.symm ▸ labelled found)
    have mirrored : b ∈ x.succs ↔ a ∈ predsOf spt b := by
      rw [shape.linked.mirror, succsOf, found]
      rfl
    rw [mirrored, sound.pred_iff (by decide)]
    constructor
    · intro pred
      obtain ⟨d, c, labelA, isEdge, labelB⟩ := pred
      rw [labelled found, Option.some.injEq] at labelA
      subst labelA
      rw [← (elems found).1] at isEdge
      obtain ⟨next, known, rfl, isHop⟩ := (plain.edge_iff (elems found).2).mp isEdge
      obtain ⟨y, foundB, _⟩ := vertex labelB
      have same := plain.key_inj (elems foundB).2 known (elems foundB).1
      refine ⟨y, foundB, _, c, leastA, ?_, ?_⟩
      · rwa [same]
      · rw [same]
        exact (least known).mp labelB
    · intro next
      obtain ⟨y, foundB, cost, c, leastA', isHop, leastB⟩ := next
      have same := leastA.unique leastA'
      subst same
      refine ⟨_, c, labelled found, ?_, ?_⟩
      · rw [← (elems found).1]
        exact (plain.edge_iff (elems found).2).mpr ⟨y.elem, (elems foundB).2, (elems foundB).1, isHop⟩
      · rw [← (elems foundB).1]
        exact (least (elems foundB).2).mpr leastB

end Tree

/-! ## Entries -/

section Entries

variable [DecidableEq N] [DecidableEq I] [DecidableEq S] {net : Topology N I S} {domain : List N} {root : N}

/-- The entry leaves onto a subnet, and the router that comes next is not known yet. -/
def OntoSubnet (net : Topology N I S) (entry : FibEntry I) : Prop :=
  (net.iface entry.oif).type = .ptmp ∧ entry.gateway = netAddrAny

/-- The entries that start the paths of least cost to an element, as the program computes them. -/
inductive FirstHop (net : Topology N I S) (domain : List N) (root : N) : NetElem N I S → FibEntry I → Prop where
  | leaves {elem : NetElem N I S} {i : I} : TightHop net domain root (.node root) elem →
      nodeFindIfaceTo net root elem = some i → FirstHop net domain root elem ⟨i, netAddrAny⟩
  | across {s : S} {elem : NetElem N I S} {entry : FibEntry I} {k : I} :
      FirstHop net domain root (.subnet s) entry → OntoSubnet net entry →
      TightHop net domain root (.subnet s) elem → subnetFindIfaceTo net s elem = some k →
      FirstHop net domain root elem ⟨entry.oif, (net.iface k).addr⟩
  | beyond {elem next : NetElem N I S} {entry : FibEntry I} : FirstHop net domain root elem entry →
      ¬OntoSubnet net entry → TightHop net domain root elem next → FirstHop net domain root next entry

theorem FirstHop.least {elem : NetElem N I S} {entry : FibEntry I} (first : FirstHop net domain root elem entry) :
    ∃ cost, LeastCost net domain root elem cost := by
  cases first with
  | leaves tight _ =>
    obtain ⟨_, _, _, _, least⟩ := tight
    exact ⟨_, least⟩
  | across _ _ tight _ =>
    obtain ⟨_, _, _, _, least⟩ := tight
    exact ⟨_, least⟩
  | beyond _ _ tight =>
    obtain ⟨_, _, _, _, least⟩ := tight
    exact ⟨_, least⟩

/-- The entry of a successor. -/
theorem nextEntry_none {vertex : SptVertex N I S} {n : N} (here : vertex.elem = .node n) {succ : NetElem N I S}
    {entry : FibEntry I} :
    nextEntry net vertex none succ = .ok entry ↔
      ∃ i, nodeFindIfaceTo net n succ = some i ∧ entry = ⟨i, netAddrAny⟩ := by
  rw [nextEntry, here]
  dsimp only
  cases nodeFindIfaceTo net n succ with
  | none => simp
  | some i =>
    simp only [Except.ok.injEq, Option.some.injEq, exists_eq_left']
    exact eq_comm

theorem nextEntry_some {vertex : SptVertex N I S} {rtentry entry : FibEntry I} {succ : NetElem N I S} :
    nextEntry net vertex (some rtentry) succ = .ok entry ↔
      (¬OntoSubnet net rtentry ∧ entry = rtentry) ∨
        OntoSubnet net rtentry ∧ ∃ s k, vertex.elem = .subnet s ∧ subnetFindIfaceTo net s succ = some k ∧
          entry = ⟨rtentry.oif, (net.iface k).addr⟩ := by
  rw [nextEntry]
  by_cases pending : (net.iface rtentry.oif).type = .ptmp ∧ rtentry.gateway = netAddrAny
  · rw [if_pos pending]
    have here : OntoSubnet net rtentry := pending
    cases vertex.elem with
    | node n => simp [here]
    | link i => simp [here]
    | subnet s =>
      dsimp only
      cases known : subnetFindIfaceTo net s succ with
      | none => simp [here, known]
      | some k =>
        constructor
        · intro ok
          cases ok
          exact .inr ⟨here, s, k, rfl, known, rfl⟩
        · intro either
          obtain ⟨other, _⟩ | ⟨_, s', k', same, known', rfl⟩ := either
          · exact absurd here other
          · cases same
            rw [known, Option.some.injEq] at known'
            rw [known']
  · rw [if_neg pending]
    have elsewhere : ¬OntoSubnet net rtentry := pending
    simp only [Except.ok.injEq, elsewhere, not_false_eq_true, true_and, false_and, or_false]
    exact eq_comm

variable {spt : Spt N I S}

/-- The contexts that the walk down the tree records: the entries of each element are those that start its
shortest paths. -/
theorem FinalTree.hands_iff (tree : FinalTree net domain root spt) {context : FibContext I} :
    TransGen (Hands net spt) ⟨elemKey net (.node root), none⟩ context ↔
      ∃ x entry, spt.lookup context.vertex = some x ∧ context.rtentry = some entry ∧
        FirstHop net domain root x.elem entry := by
  constructor
  · intro path
    induction path with
    | single hands =>
      obtain ⟨x, atRoot, member, y, entry, found, next, handed⟩ := hands
      obtain ⟨r, atRoot', isRoot, _⟩ := tree.least_iff.mp leastCost_root
      rw [atRoot, Option.some.injEq] at atRoot'
      subst atRoot'
      obtain ⟨y', found', tight⟩ := (tree.succ_iff atRoot).mp member
      rw [found, Option.some.injEq] at found'
      subst found'
      obtain ⟨i, known, rfl⟩ := (nextEntry_none isRoot).mp next
      rw [isRoot] at tight
      exact ⟨y, _, found, handed, .leaves tight known⟩
    | tail _ hands inductionHypothesis =>
      obtain ⟨x, rtentry, atX, has, first⟩ := inductionHypothesis
      obtain ⟨x', atX', member, y, entry, found, next, handed⟩ := hands
      rw [atX, Option.some.injEq] at atX'
      subst atX'
      obtain ⟨y', found', tight⟩ := (tree.succ_iff atX).mp member
      rw [found, Option.some.injEq] at found'
      subst found'
      rw [has] at next
      refine ⟨y, entry, found, handed, ?_⟩
      obtain ⟨notPending, rfl⟩ | ⟨pending, s, k, onSubnet, known, rfl⟩ := nextEntry_some.mp next
      · exact .beyond first notPending tight
      · rw [onSubnet] at first tight
        exact .across first pending tight known
  · intro recorded
    obtain ⟨x, entry, found, has, first⟩ := recorded
    obtain ⟨vertex, rtentry⟩ := context
    dsimp only at found has
    subst has
    -- the walk hands the entry along the hops of the path
    have walked {elem : NetElem N I S} {entry : FibEntry I} (first : FirstHop net domain root elem entry) :
        TransGen (Hands net spt) ⟨elemKey net (.node root), none⟩ ⟨elemKey net elem, some entry⟩ := by
      have at_ {elem : NetElem N I S} {cost : ℕ} (least : LeastCost net domain root elem cost) :=
        tree.least_iff.mp least
      have step {src next : NetElem N I S} (tight : TightHop net domain root src next) :
          ∃ x y, spt.lookup (elemKey net src) = some x ∧ x.elem = src ∧
            spt.lookup (elemKey net next) = some y ∧ y.elem = next ∧ elemKey net next ∈ x.succs := by
        obtain ⟨cost, hopCost, leastSrc, hop, leastNext⟩ := tight
        obtain ⟨x, atX, rfl, _⟩ := at_ leastSrc
        obtain ⟨y, atY, rfl, _⟩ := at_ leastNext
        exact ⟨x, y, atX, rfl, atY, rfl,
          (tree.succ_iff atX).mpr ⟨y, atY, cost, hopCost, leastSrc, hop, leastNext⟩⟩
      induction first with
      | leaves tight known =>
        obtain ⟨x, y, atX, here, atY, there, member⟩ := step tight
        refine .single ⟨x, atX, member, y, _, atY, ?_, rfl⟩
        rw [there]
        exact (nextEntry_none here).mpr ⟨_, known, rfl⟩
      | across _ pending tight known inductionHypothesis =>
        obtain ⟨x, y, atX, here, atY, there, member⟩ := step tight
        refine inductionHypothesis.tail ⟨x, atX, member, y, _, atY, ?_, rfl⟩
        rw [there]
        exact nextEntry_some.mpr (.inr ⟨pending, _, _, here, known, rfl⟩)
      | beyond _ notPending tight inductionHypothesis =>
        obtain ⟨x, y, atX, here, atY, there, member⟩ := step tight
        refine inductionHypothesis.tail ⟨x, atX, member, y, _, atY, ?_, rfl⟩
        exact nextEntry_some.mpr (.inl ⟨notPending, rfl⟩)
    rw [← tree.keyed found]
    exact walked first

/-! ## Forwarding tables -/

/-- The prefixes that belong to an element at some cost from the root, with the metric of their routes: those of
the loopback and virtual interfaces of a node, the one of a subnet or link. -/
def Belongs (net : Topology N I S) (elem : NetElem N I S) (cost : ℕ) (pfx : Pfx) (metric : UInt32) : Prop :=
  match elem with
  | .node n => ∃ i ∈ net.ifaces n, ((net.iface i).type = .loopback ∨ (net.iface i).type = .virtual) ∧
      pfx = ipPrefixMask (netIfaceId (net.iface i)) ∧
      metric.toNat = min (cost + (net.iface i).metric.toNat) maxCost
  | .subnet s => pfx = elemKey net (.subnet s) ∧ metric.toNat = cost
  | .link i => pfx = elemKey net (.link i) ∧ metric.toNat = cost

omit [DecidableEq N] [DecidableEq I] [DecidableEq S] in
/-- What is installed for a vertex belongs to its element. -/
theorem advertises_iff {key pfx : Pfx} {x : SptVertex N I S} (keyed : elemKey net x.elem = key) {weight : UInt32} :
    Advertises net key x pfx weight ↔ Belongs net x.elem x.weight.toNat pfx weight := by
  have masked : ipPrefixMask key = key := by rw [← keyed, elemKey, ipPrefixMask_idem]
  have sum (w w' : UInt32) : weight = netIgpAddWeights w w' ↔ weight.toNat = min (w.toNat + w'.toNat) maxCost := by
    rw [← UInt32.toNat_inj, netIgpAddWeights_toNat]
  unfold Advertises Belongs
  rw [masked, ← keyed]
  cases x.elem with
  | node n => simp only [sum]
  | subnet s => simp only [UInt32.toNat_inj]
  | link i => simp only [UInt32.toNat_inj]

section Table

variable {order : Traversal} {fuel : ℕ} {fib : Fib}

/-- The entries under a prefix are those that start the shortest paths to the elements that it belongs to. -/
theorem routerFib_entries (plain : RouterSubnetDomain net domain root)
    (computed : routerFib net order domain fuel root = .ok fib) {pfx : Pfx} {other : RtEntry} :
    other ∈ entriesAt fib pfx ↔ ∃ elem cost metric entry, LeastCost net domain root elem cost ∧
      Belongs net elem cost pfx metric ∧ FirstHop net domain root elem entry ∧ other = entry.toRtEntry net := by
  obtain ⟨spt, searched, walked⟩ := except_bind_eq_ok.mp computed
  have tree := sptBfs_finalTree plain searched
  rw [(sptComputeFib_records walked).entries]
  constructor
  · intro recorded
    obtain ⟨context, x, entry, weight, recorded, found, has, given, rfl⟩ := recorded
    obtain ⟨x', entry', found', has', first⟩ := tree.hands_iff.mp recorded
    rw [found, Option.some.injEq] at found'
    subst found'
    rw [has, Option.some.injEq] at has'
    subst has'
    have keyed := tree.keyed found
    exact ⟨x.elem, x.weight.toNat, _, entry, tree.least_iff.mpr ⟨x, keyed.symm ▸ found, rfl, rfl⟩,
      (advertises_iff keyed).mp given, first, rfl⟩
  · intro starts
    obtain ⟨elem, cost, metric, entry, least, belongs, first, rfl⟩ := starts
    obtain ⟨x, found, rfl, rfl⟩ := tree.least_iff.mp least
    exact ⟨⟨elemKey net x.elem, some entry⟩, x, entry, metric, tree.hands_iff.mpr ⟨x, entry, found, rfl, first⟩,
      found, rfl, (advertises_iff rfl).mpr belongs, rfl⟩

/-- The metric under a prefix is that of one of the elements that it belongs to. -/
theorem routerFib_metric (plain : RouterSubnetDomain net domain root)
    (computed : routerFib net order domain fuel root = .ok fib) {pfx : Pfx} {metric : UInt32}
    (stored : metricAt fib pfx = some metric) :
    ∃ elem cost entry, LeastCost net domain root elem cost ∧ Belongs net elem cost pfx metric ∧
      FirstHop net domain root elem entry := by
  obtain ⟨spt, searched, walked⟩ := except_bind_eq_ok.mp computed
  have tree := sptBfs_finalTree plain searched
  obtain ⟨context, x, recorded, found, given⟩ := (sptComputeFib_records walked).metric pfx metric stored
  obtain ⟨x', entry, found', _, first⟩ := tree.hands_iff.mp recorded
  rw [found, Option.some.injEq] at found'
  subst found'
  have keyed := tree.keyed found
  exact ⟨x.elem, x.weight.toNat, entry, tree.least_iff.mpr ⟨x, keyed.symm ▸ found, rfl, rfl⟩,
    (advertises_iff keyed).mp given, first⟩

/-- The forwarding table of a router, for any costs and any number of parallel links: under each prefix are the
entries that start the paths of least cost to the elements that the prefix belongs to, and no others, with the
metric of one of these elements. -/
theorem routerFib_first_hops (net : Topology N I S) (domain : List N) (root : N) (order : Traversal) (fuel : ℕ)
    (fib : Fib) (plain : RouterSubnetDomain net domain root)
    (computed : routerFib net order domain fuel root = .ok fib) :
    (∀ pfx other, other ∈ entriesAt fib pfx ↔ ∃ elem cost metric entry, LeastCost net domain root elem cost ∧
      Belongs net elem cost pfx metric ∧ FirstHop net domain root elem entry ∧ other = entry.toRtEntry net) ∧
    ∀ pfx metric, metricAt fib pfx = some metric → ∃ elem cost entry, LeastCost net domain root elem cost ∧
      Belongs net elem cost pfx metric ∧ FirstHop net domain root elem entry :=
  ⟨fun _ _ => routerFib_entries plain computed, fun _ _ => routerFib_metric plain computed⟩

end Table

end Entries

/-! ## Two routers with loopback addresses -/

/-- The interfaces of a router. -/
inductive Port where
  | loopback
  | link
  | subnet
  deriving DecidableEq

theorem loopbackPair_mask : ({ network := 0x0a000000, mask := 24, short := short24 } : Pfx).mask < 32 := by
  decide

/-- Two routers that share a router-to-router link and a transit subnet, of the same metric. -/
def loopbackPair : Topology Bool (Bool × Port) Unit where
  rid b := if b then 0x01000002 else 0x01000001
  ifaces b := if b then [(b, .link), (b, .loopback), (b, .subnet)] else [(b, .loopback), (b, .link), (b, .subnet)]
  iface i :=
    { owner := i.1
      addr :=
        match i.2 with
        | .loopback => if i.1 then 0x01000002 else 0x01000001
        | .link => if i.1 then 0x01000001 else 0x01000002
        | .subnet => if i.1 then 0x0a000002 else 0x0a000001
      mask := if i.2 = .subnet then 24 else 32
      short := by split <;> decide
      connected := i.2 ≠ .loopback
      type :=
        match i.2 with
        | .loopback => .loopback
        | .link => .rtr
        | .subnet => .ptmp
      dest :=
        match i.2 with
        | .loopback => none
        | .link => some (.iface (!i.1, .link))
        | .subnet => some (.subnet ())
      enabled := true
      metric := if i.2 = .loopback then 0 else 1 }
  subnetPrefix _ := { network := 0x0a000000, mask := 24, short := short24 }
  subnetTransit _ := true
  subnetIfaces _ := [(false, .subnet), (true, .subnet)]
  dest_matches i dest h := by
    obtain ⟨b, port⟩ := i
    cases port with
    | loopback => cases h
    | link =>
      cases h
      cases b <;> decide
    | subnet =>
      cases h
      rfl
  connected_dest i connected := by
    obtain ⟨b, port⟩ := i
    cases port <;> simp at connected ⊢
  iface_mask i h := by
    obtain ⟨b, port⟩ := i
    cases port <;> simp at h ⊢
  rid_injective := subnetPair_rid
  ifaces_owner := by decide
  ifaces_sorted := by decide
  subnet_mask := fun _ => loopbackPair_mask
  subnet_injective := fun _ _ _ => rfl
  subnet_dest := by decide
  subnet_sorted := by decide

theorem loopbackPair_plain (root : Bool) : RouterSubnetDomain loopbackPair [false, true] root :=
  { linked := by
      intro _ _ i _ type
      obtain ⟨b, port⟩ := i
      cases port with
      | loopback => cases type
      | subnet => cases type
      | link => exact ⟨(!b, .link), rfl, by cases b <;> rfl⟩
    noPtp := by
      intro _ _ i _ type
      obtain ⟨b, port⟩ := i
      cases port <;> cases type }

/-- The first router reaches the address of the second along the link, and across the subnet. -/
theorem routerFib_first_hops_pair : ∃ fib,
    routerFib loopbackPair ⟨id, fun _ => List.Perm.refl _⟩ [false, true] 20 false = .ok fib ∧
    (entriesAt fib { network := 0x01000002, mask := 32, short := short32 }).length = 2 ∧
    (∀ pfx other, other ∈ entriesAt fib pfx ↔ ∃ elem cost metric entry,
      LeastCost loopbackPair [false, true] false elem cost ∧ Belongs loopbackPair elem cost pfx metric ∧
      FirstHop loopbackPair [false, true] false elem entry ∧ other = entry.toRtEntry loopbackPair) ∧
    ∀ pfx metric, metricAt fib pfx = some metric → ∃ elem cost entry,
      LeastCost loopbackPair [false, true] false elem cost ∧ Belongs loopbackPair elem cost pfx metric ∧
      FirstHop loopbackPair [false, true] false elem entry := by
  have ran : okAnd (routerFib loopbackPair ⟨id, fun _ => List.Perm.refl _⟩ [false, true] 20 false) (fun fib =>
      decide ((entriesAt fib { network := 0x01000002, mask := 32, short := short32 }).length = 2)) = true := by
    decide +kernel
  obtain ⟨fib, computed, parallel⟩ := okAnd_iff.mp ran
  exact ⟨fib, computed, of_decide_eq_true parallel,
    routerFib_first_hops _ _ _ _ _ fib (loopbackPair_plain false) computed⟩

end Cbgp.Verified
