import Cbgp.Verified.BestRoutes
import Cbgp.Verified.FirstHops
import Cbgp.Verified.MessageFates

/-! # Forwarding along shortest paths

Once the IGP routes of a domain are computed, each router forwards by a table of its own, which knows the first
hops of its own shortest paths only.  The routers that the entries for a loopback address lead to are the next
routers on the shortest paths to its owner (`igp_next_routers`), so that a message gets there whichever of the
parallel entries the routers take (`igp_delivers`).
-/

namespace Cbgp.Verified

open Cbgp.Lib Cbgp.Net

variable {N I S : Type}

/-! ## Links -/

/-- What the functions that build links make of the interfaces, and that the interfaces of a router on one subnet
can be used alike. -/
structure WellConnected (net : Topology N I S) : Prop where
  /-- `net_link_create_rtr` names an interface by the router at the other end. -/
  named : ∀ i j, (net.iface i).type = .rtr → net.destIface i = some j →
    (net.iface i).addr = net.rid (net.iface j).owner
  alike : ∀ s i j, net.destSubnet i = some s → net.destSubnet j = some s →
    (net.iface i).owner = (net.iface j).owner → Usable net i → (net.iface j).enabled = true
  addressed : ∀ s, ∀ i ∈ net.subnetIfaces s, (net.iface i).addr ≠ netAddrAny

/-- What a node sends along an entry arrives at an interface. -/
def SendsTo (net : Topology N I S) (node : N) (dst : NetAddr) (entry : RtEntry) (arrived : I) : Prop :=
  ∃ addr oif, entry.oif = some addr ∧ net.nodeFindIface node addr = some oif ∧
    Crosses net oif (if entry.gateway = netAddrAny then dst else entry.gateway) arrived

theorem Crosses.unique {net : Topology N I S} {oif i j : I} {l2Addr : NetAddr} (first : Crosses net oif l2Addr i)
    (second : Crosses net oif l2Addr j) : i = j := by
  obtain ⟨-, -, dest | ⟨s, dest, found, -⟩⟩ := first
  · obtain ⟨-, -, dest' | ⟨s', dest', -, -⟩⟩ := second
    · rw [dest] at dest'
      cases dest'
      rfl
    · rw [dest] at dest'
      cases dest'
  · obtain ⟨-, -, dest' | ⟨s', dest', found', -⟩⟩ := second
    · rw [dest] at dest'
      cases dest'
    · rw [dest] at dest'
      cases dest'
      exact Option.some.inj (found.symm.trans found')

theorem SendsTo.unique {net : Topology N I S} {node : N} {dst : NetAddr} {entry : RtEntry} {i j : I}
    (first : SendsTo net node dst entry i) (second : SendsTo net node dst entry j) : i = j := by
  obtain ⟨addr, oif, has, known, crosses⟩ := first
  obtain ⟨addr', oif', has', known', crosses'⟩ := second
  rw [has, Option.some.injEq] at has'
  subst has'
  rw [known, Option.some.injEq] at known'
  subst known'
  exact crosses.unique crosses'

/-- A hop from a router to the next one, along a link or across a subnet. -/
inductive RouterHop (net : Topology N I S) (domain : List N) (n m : N) (cost : ℕ) : Prop where
  | link : Hop net domain (.node n) (.node m) cost → RouterHop net domain n m cost
  | subnet {s : S} : Hop net domain (.node n) (.subnet s) cost → Hop net domain (.subnet s) (.node m) 0 →
      RouterHop net domain n m cost

section Links

variable {net : Topology N I S} {domain : List N}

theorem RouterHop.mem {n m : N} {cost : ℕ} (hop : RouterHop net domain n m cost) : m ∈ domain := by
  cases hop with
  | link hop =>
    cases hop with
    | router _ _ _ _ inside => exact inside
  | subnet _ hop =>
    cases hop with
    | leave _ _ _ inside => exact inside

theorem RouterHop.positive {n m : N} {cost : ℕ} (hop : RouterHop net domain n m cost) : 0 < cost := by
  have weighted {i : I} (usable : Usable net i) : 0 < (net.iface i).metric.toNat :=
    Nat.pos_of_ne_zero fun zero => usable.2.2.1 (UInt32.toNat_inj.mp zero)
  cases hop with
  | link hop =>
    cases hop with
    | router _ _ usable _ _ => exact weighted usable
  | subnet hop _ =>
    cases hop with
    | enter _ _ usable _ => exact weighted usable

/-- A hop makes a path. -/
theorem RouterHop.path {n m : N} {cost : ℕ} (hop : RouterHop net domain n m cost) (below : cost < maxCost) :
    Path net domain n (.node m) cost := by
  have origin : Path net domain n (.node n) 0 := .start
  cases hop with
  | link hop =>
    have path := origin.step hop (by omega)
    rwa [Nat.zero_add] at path
  | subnet enter leave =>
    have path := (origin.step enter (by omega)).step leave (by omega)
    rwa [Nat.zero_add] at path

/-- The rest of a shortest path is a shortest path. -/
theorem RouterHop.rest_least {r x d : N} {cost rest : ℕ} (hop : RouterHop net domain r x cost)
    (path : Path net domain x (.node d) rest) (least : LeastCost net domain r (.node d) (cost + rest)) :
    LeastCost net domain x (.node d) rest := by
  refine ⟨path, fun other path' => ?_⟩
  by_contra nearer
  have below : cost + rest < maxCost := least.1.cost_lt (by decide)
  have := least.2 (cost + other) ((hop.path (by omega)).append path' (by omega))
  omega

/-- A path to another router starts with a hop to a router. -/
theorem first_router_hop {n m : N} {total : ℕ} (path : Path net domain n (.node m) total) (away : n ≠ m) :
    ∃ x cost rest, RouterHop net domain n x cost ∧ Path net domain x (.node m) rest ∧ cost + rest = total := by
  -- by induction on the path: it is at the root, on a subnet of the root, or behind a first router
  have stage {elem : NetElem N I S} {total : ℕ} (path : Path net domain n elem total) :
      elem = .node n ∧ total = 0 ∨ (∃ s, elem = .subnet s ∧ Hop net domain (.node n) (.subnet s) total) ∨
        ∃ x cost rest, RouterHop net domain n x cost ∧ Path net domain x elem rest ∧ cost + rest = total := by
    induction path with
    | start => exact .inl ⟨rfl, rfl⟩
    | @step a b d c _ isHop below inductionHypothesis =>
      obtain ⟨rfl, rfl⟩ | ⟨s, rfl, enter⟩ | ⟨x, cost, rest, hop, path, rfl⟩ := inductionHypothesis
      · rw [Nat.zero_add]
        cases b with
        | node x => exact .inr (.inr ⟨x, c, 0, .link isHop, .start, rfl⟩)
        | subnet s => exact .inr (.inl ⟨s, rfl, isHop⟩)
        | link j => cases isHop
      · cases isHop with
        | leave transit attached usable inside =>
          exact .inr (.inr ⟨_, d, 0, .subnet enter (.leave transit attached usable inside), .start, rfl⟩)
      · exact .inr (.inr ⟨x, cost, rest + c, hop, path.step isHop (by omega), by omega⟩)
  obtain ⟨same, _⟩ | ⟨s, same, _⟩ | starts := stage path
  · cases same
    exact absurd rfl away
  · cases same
  · exact starts

theorem nodeFindIface_self {node : N} {i : I} (own : i ∈ net.ifaces node) :
    net.nodeFindIface node (net.iface i).addr = some i := by
  have some_ : (net.nodeFindIface node (net.iface i).addr).isSome := by
    rw [Topology.nodeFindIface, List.find?_isSome]
    exact ⟨i, own, by simp⟩
  obtain ⟨j, found⟩ := Option.isSome_iff_exists.mp some_
  obtain ⟨own', same⟩ := net.nodeFindIface_addr found
  rw [found, net.eq_of_sorted (net.ifaces_sorted node) own' own same]

theorem netSubnetFindLink_self {s : S} {i : I} (attached : i ∈ net.subnetIfaces s) :
    net.netSubnetFindLink s (net.iface i).addr = some i := by
  have some_ : (net.netSubnetFindLink s (net.iface i).addr).isSome := by
    rw [Topology.netSubnetFindLink, List.find?_isSome]
    exact ⟨i, attached, by simp⟩
  obtain ⟨j, found⟩ := Option.isSome_iff_exists.mp some_
  have same : (net.iface j).addr = (net.iface i).addr := by simpa using List.find?_some found
  rw [found, net.eq_of_sorted (net.subnet_sorted s) (List.mem_of_find?_eq_some found) attached same]

end Links

section Interfaces

variable [DecidableEq N] [DecidableEq I] [DecidableEq S] {net : Topology N I S} {domain : List N} {root m : N}
  {s : S} {cost : ℕ} {i k : I}

/-- The entry leads to a router, for every destination. -/
def LeadsOn (net : Topology N I S) (root : N) (entry : FibEntry I) (m : N) : Prop :=
  ∀ dst, ∃ arrived, SendsTo net root dst (entry.toRtEntry net) arrived ∧ (net.iface arrived).owner = m

/-- An interface of the root that a message can leave through onto a subnet. -/
structure Onto (net : Topology N I S) (root : N) (s : S) (i : I) : Prop where
  own : i ∈ net.ifaces root
  type : (net.iface i).type = .ptmp
  dest : net.destSubnet i = some s
  connected : (net.iface i).connected = true
  enabled : (net.iface i).enabled = true

/-- `node_find_iface_to` finds the interface of a hop to a router. -/
theorem nodeFindIfaceTo_link (links : WellConnected net) (hop : Hop net domain (.node root) (.node m) cost) :
    ∃ i, nodeFindIfaceTo net root (.node m) = some i ∧ (net.iface i).type = .rtr ∧
      LeadsOn net root ⟨i, netAddrAny⟩ m := by
  cases hop with
  | @router _ i j own type usable dest inside =>
    have some_ : (nodeFindIfaceTo net root (.node (net.iface j).owner)).isSome := by
      rw [nodeFindIfaceTo, List.find?_isSome]
      exact ⟨i, own, by simp [usable.2.1, type, dest]⟩
    obtain ⟨i', found⟩ := Option.isSome_iff_exists.mp some_
    have own' := List.mem_of_find?_eq_some found
    have leads := List.find?_some found
    simp only [Bool.and_eq_true, decide_eq_true_eq, Option.map_eq_some_iff] at leads
    obtain ⟨_, type', j', dest', owner⟩ := leads
    -- both interfaces are named by the router they lead to
    have same : (net.iface i').addr = (net.iface i).addr := by
      rw [links.named i' j' type' dest', links.named i j type dest, owner]
    have only := net.eq_of_sorted (net.ifaces_sorted root) own' own same
    subst only
    refine ⟨i', found, type, fun dst => ⟨j, ⟨_, i', rfl, nodeFindIface_self own, ?_⟩, rfl⟩⟩
    exact ⟨usable.2.1, usable.1, .inl (net.destIface_dest dest)⟩

/-- `node_find_iface_to` finds an interface for a hop onto a subnet. -/
theorem nodeFindIfaceTo_subnet (links : WellConnected net) (hop : Hop net domain (.node root) (.subnet s) cost) :
    ∃ i, nodeFindIfaceTo net root (.subnet s) = some i ∧ Onto net root s i := by
  cases hop with
  | @enter _ i _ own type usable dest =>
    have some_ : (nodeFindIfaceTo net root (.subnet s)).isSome := by
      rw [nodeFindIfaceTo, List.find?_isSome]
      exact ⟨i, own, by simp [usable.2.1, type, dest]⟩
    obtain ⟨i', found⟩ := Option.isSome_iff_exists.mp some_
    have own' := List.mem_of_find?_eq_some found
    have leads := List.find?_some found
    simp only [Bool.and_eq_true, decide_eq_true_eq] at leads
    obtain ⟨connected, type', dest'⟩ := leads
    have owners : (net.iface i).owner = (net.iface i').owner := by
      rw [net.ifaces_owner root i own, net.ifaces_owner root i' own']
    exact ⟨i', found, own', type', dest', connected, links.alike s i i' dest dest' owners usable⟩

omit [DecidableEq I] [DecidableEq S] in
/-- `subnet_find_iface_to` finds an interface for a hop from a subnet, and its address is a gateway. -/
theorem subnetFindIfaceTo_leave (links : WellConnected net) (onto : Onto net root s i)
    (hop : Hop net domain (.subnet s) (.node m) cost) :
    ∃ k, subnetFindIfaceTo net s (.node m) = some k ∧ (net.iface k).addr ≠ netAddrAny ∧
      LeadsOn net root ⟨i, (net.iface k).addr⟩ m := by
  cases hop with
  | @leave _ j transit attached usable inside =>
    have some_ : (subnetFindIfaceTo net s (.node (net.iface j).owner)).isSome := by
      rw [subnetFindIfaceTo, List.find?_isSome]
      exact ⟨j, attached, by simp⟩
    obtain ⟨k, found⟩ := Option.isSome_iff_exists.mp some_
    have attached' := List.mem_of_find?_eq_some found
    have owner : (net.iface k).owner = (net.iface j).owner := by simpa using List.find?_some found
    have onSubnet {i : I} (attached : i ∈ net.subnetIfaces s) : net.destSubnet i = some s := by
      rw [Topology.destSubnet, (net.subnet_dest s i attached).2]
    have enabled := links.alike s j k (onSubnet attached) (onSubnet attached') owner.symm usable
    have addressed := links.addressed s k attached'
    refine ⟨k, found, addressed, fun dst => ⟨k, ⟨_, i, rfl, nodeFindIface_self onto.own, ?_⟩, owner⟩⟩
    refine ⟨onto.connected, onto.enabled, .inr ⟨s, net.destSubnet_dest onto.dest, ?_, enabled⟩⟩
    have gateway : (FibEntry.toRtEntry net ⟨i, (net.iface k).addr⟩).gateway = (net.iface k).addr := rfl
    rw [gateway, if_neg addressed]
    exact netSubnetFindLink_self attached'

/-! ## Where the entries lead -/

/-- The router that an entry leads to, on a shortest path to an element. -/
structure StartsAt (net : Topology N I S) (domain : List N) (root : N) (elem : NetElem N I S) (entry : FibEntry I)
    (x : N) (cost rest : ℕ) : Prop where
  hop : RouterHop net domain root x cost
  path : Path net domain x elem rest
  least : LeastCost net domain root elem (cost + rest)
  leads : LeadsOn net root entry x

/-- An entry for a subnet of the root waits for its gateway; any other leads to the next router of a shortest
path. -/
theorem FirstHop.starts (links : WellConnected net) {elem : NetElem N I S} {entry : FibEntry I}
    (first : FirstHop net domain root elem entry) :
    (OntoSubnet net entry ∧ ∃ s cost, elem = .subnet s ∧ Onto net root s entry.oif ∧
      Hop net domain (.node root) (.subnet s) cost ∧ LeastCost net domain root (.subnet s) cost) ∨
    ¬OntoSubnet net entry ∧ ∃ x cost rest, StartsAt net domain root elem entry x cost rest := by
  -- The induction is on the tree from the root down, and an entry is inherited from a predecessor.
  induction first with
  | @leaves elem i tight known =>
    obtain ⟨before, cost, leastRoot, hop, least⟩ := tight
    have same := leastRoot.unique leastCost_root
    subst same
    rw [Nat.zero_add] at least
    cases elem with
    | node m =>
      obtain ⟨i', known', type, leads⟩ := nodeFindIfaceTo_link links hop
      rw [known, Option.some.injEq] at known'
      subst known'
      refine .inr ⟨fun onto => ?_, m, cost, 0, .link hop, .start, least, leads⟩
      have ptmp : (net.iface i).type = .ptmp := onto.1
      rw [type] at ptmp
      cases ptmp
    | subnet s =>
      obtain ⟨i', known', onto⟩ := nodeFindIfaceTo_subnet links hop
      rw [known, Option.some.injEq] at known'
      subst known'
      exact .inl ⟨⟨onto.type, rfl⟩, s, cost, rfl, onto, hop, least⟩
    | link j => cases hop
  | @across s elem entry k _ pending tight known inductionHypothesis =>
    -- Across a subnet the entry gets its gateway: the interface of the node on the other side.
    obtain ⟨_, s', cost, same, onto, enter, leastSubnet⟩ | ⟨elsewhere, _⟩ := inductionHypothesis
    · cases same
      obtain ⟨cost', hopCost, leastSubnet', leave, least⟩ := tight
      have same := leastSubnet.unique leastSubnet'
      subst same
      cases leave with
      | @leave _ j transit attached usable inside =>
        have leave : Hop net domain (.subnet s) (.node (net.iface j).owner) 0 :=
          .leave transit attached usable inside
        obtain ⟨k', known', addressed, leads⟩ := subnetFindIfaceTo_leave links onto leave
        rw [known, Option.some.injEq] at known'
        subst known'
        exact .inr ⟨fun again => addressed again.2, _, cost, 0, .subnet enter leave, .start, least, leads⟩
    · exact absurd pending elsewhere
  | @beyond elem next entry _ notPending tight inductionHypothesis =>
    obtain ⟨pending, _⟩ | ⟨_, x, cost, rest, starts⟩ := inductionHypothesis
    · exact absurd pending notPending
    · obtain ⟨total, hopCost, least, hop, leastNext⟩ := tight
      have same := least.unique starts.least
      subst same
      have below : cost + rest + hopCost < maxCost := leastNext.1.cost_lt (by decide)
      refine .inr ⟨notPending, x, cost, rest + hopCost, starts.hop, starts.path.step hop (by omega), ?_, starts.leads⟩
      rwa [← Nat.add_assoc]

/-- Every next router of a shortest path has an entry that leads to it. -/
theorem firstHop_of_path (links : WellConnected net) {x : N} (hop : RouterHop net domain root x cost)
    {elem : NetElem N I S} {rest : ℕ} (path : Path net domain x elem rest)
    (least : LeastCost net domain root elem (cost + rest)) :
    ∃ entry, FirstHop net domain root elem entry ∧ ¬OntoSubnet net entry ∧ LeadsOn net root entry x := by
  induction path with
  | start =>
    rw [Nat.add_zero] at least
    have below : cost < maxCost := least.1.cost_lt (by decide)
    cases hop with
    | link hop =>
      obtain ⟨i, known, type, leads⟩ := nodeFindIfaceTo_link links hop
      have tight : TightHop net domain root (.node root) (.node x) :=
        ⟨0, cost, leastCost_root, hop, by rwa [Nat.zero_add]⟩
      refine ⟨_, .leaves tight known, fun onto => ?_, leads⟩
      have ptmp : (net.iface i).type = .ptmp := onto.1
      rw [type] at ptmp
      cases ptmp
    | @subnet s enter leave =>
      obtain ⟨i, known, onto⟩ := nodeFindIfaceTo_subnet links enter
      obtain ⟨k, known', addressed, leads⟩ := subnetFindIfaceTo_leave links onto leave
      have origin : Path net domain root (.node root) 0 := .start
      have path : Path net domain root (.subnet s) cost := by
        have path := origin.step enter (by omega)
        rwa [Nat.zero_add] at path
      -- the subnet is as near as the router behind it
      have leastSubnet := LeastCost.before path leave least
      have tight : TightHop net domain root (.node root) (.subnet s) :=
        ⟨0, cost, leastCost_root, enter, by rwa [Nat.zero_add]⟩
      exact ⟨_, .across (.leaves tight known) ⟨onto.type, rfl⟩ ⟨cost, 0, leastSubnet, leave, least⟩ known',
        fun again => addressed again.2, leads⟩
  | @step a b d c path isHop below inductionHypothesis =>
    rw [← Nat.add_assoc] at least
    have total : cost + d + c < maxCost := least.1.cost_lt (by decide)
    have before := LeastCost.before ((hop.path (by omega)).append path (by omega)) isHop least
    obtain ⟨entry, first, notPending, leads⟩ := inductionHypothesis before
    exact ⟨entry, .beyond first notPending ⟨cost + d, c, before, isHop, least⟩, notPending, leads⟩

end Interfaces

/-! ## The tables of a domain -/

section Tables

variable [DecidableEq N] [DecidableEq I] [DecidableEq S] {net : Topology N I S} {domain : List N}
  {order : Traversal} {fuel : ℕ} {tables tables' : N → NetRt}

/-- A recomputation that succeeds computed the forwarding table of every router. -/
theorem igpComputeDomain_success
    (computed : igpComputeDomain net order domain fuel tables = .ok (.success, tables')) :
    ∃ fibs : N → Fib, (∀ n ∈ domain, routerFib net order domain fuel n = .ok (fibs n)) ∧
      Recomputed fibs domain tables tables' := by
  have computes : ∀ n ∈ domain, ∃ fib, routerFib net order domain fuel n = .ok fib := by
    intro n member
    by_contra fails
    have failed : ∃ n ∈ domain, ∀ fib, routerFib net order domain fuel n ≠ .ok fib :=
      ⟨n, member, fun fib ok => fails ⟨fib, ok⟩⟩
    obtain ⟨_, _, fault, _, stopped⟩ := igpComputeRouters_fault tables failed
    rw [igpComputeDomain, stopped] at computed
    cases computed
  choose! fibs known using computes
  obtain ⟨tables'', ran, recomputed⟩ := igpComputeRouters_recomputed known tables
  rw [igpComputeDomain, ran] at computed
  cases computed
  exact ⟨fibs, known, recomputed⟩

omit [DecidableEq I] [DecidableEq N] [DecidableEq S] in
theorem addFib_masked {fib : Fib} {rt : NetRt} (masked : MaskedKeys rt) : MaskedKeys (addFib fib rt).2 := by
  have step (state : NetError × NetRt) (e : Sigma fun _ : Pfx => RtInfo) (masked : MaskedKeys state.2) :
      MaskedKeys (igpComputePrefixForEach state e).2 := by
    unfold igpComputePrefixForEach
    split
    next =>
      apply tableStep_masked masked
      show tableStep _ (.add e.1 e.2) = _
      rfl
    next => exact masked
  unfold addFib
  have start : MaskedKeys ((.success, rt) : NetError × NetRt).2 := masked
  generalize ((.success, rt) : NetError × NetRt) = state at start
  induction fib.entries generalizing state with
  | nil => exact start
  | cons e entries inductionHypothesis => exact inductionHypothesis _ (step state e start)

/-- A recomputation leaves the keys of the tables masked. -/
theorem igpComputeDomain_masked (masked : ∀ n, MaskedKeys (tables n)) {error : NetError}
    (computed : igpComputeDomain net order domain fuel tables = .ok (error, tables')) (n : N) :
    MaskedKeys (tables' n) := by
  have loop (routers : List N) {state state' : NetError × (N → NetRt)} (masked : ∀ n, MaskedKeys (state.2 n))
      (ran : routers.foldlM (igpComputeRouter net order domain fuel) state = .ok state') :
      ∀ n, MaskedKeys (state'.2 n) := by
    induction routers generalizing state with
    | nil =>
      cases ran
      exact masked
    | cons node routers inductionHypothesis =>
      rw [List.foldlM_cons, except_bind_eq_ok] at ran
      obtain ⟨mid, first, later⟩ := ran
      refine inductionHypothesis (fun m => ?_) later
      unfold igpComputeRouter at first
      split at first
      next tables =>
        obtain ⟨fib, _, first⟩ := except_bind_eq_ok.mp first
        cases first
        show MaskedKeys (Function.update tables node (addFib fib _).2 m)
        by_cases same : m = node
        · subst same
          rw [Function.update_self]
          apply addFib_masked
          apply tableStep_masked (masked m)
          show tableStep _ (.del { pfx := none, oif := none, gateway := none, type := RouteType.igp.bit }) = _
          rfl
        · rw [Function.update_of_ne same]
          exact masked m
      next =>
        cases first
        exact masked m
  exact loop domain masked computed n

/-! ## Loopback addresses -/

/-- The prefix of an address. -/
def hostPfx (dst : NetAddr) : Pfx where
  network := dst
  mask := 32
  short := short32

theorem ipPrefixMask_host (dst : NetAddr) : ipPrefixMask (hostPfx dst) = hostPfx dst := by
  have all : ipAddressMask 32 = 0xffffffff := by decide
  have network : dst &&& ipAddressMask 32 = dst := by
    rw [all]
    exact UInt32.and_neg_one
  simp only [hostPfx, ipPrefixMask, network]

theorem inPrefix_host (dst : NetAddr) : ipAddressInPrefix dst (hostPfx dst) = true := by
  simp [ipAddressInPrefix, hostPfx]

/-- A router of the domain has the address on a loopback or virtual interface, and no other router of the domain
has it. -/
structure OwnAddress (net : Topology N I S) (domain : List N) (d : N) (dst : NetAddr) : Prop where
  member : d ∈ domain
  own : ∃ i ∈ net.ifaces d, ((net.iface i).type = .loopback ∨ (net.iface i).type = .virtual) ∧
    netIfaceId (net.iface i) = hostPfx dst
  only : ∀ n ∈ domain, ∀ i ∈ net.ifaces n, (net.iface i).type ≠ .rtr → (net.iface i).addr = dst → n = d

/-- The prefix of the address belongs to its owner and to no other element that a path reaches. -/
theorem OwnAddress.belongs_iff {d root : N} {dst : NetAddr} (owner : OwnAddress net domain d dst)
    (plain : RouterSubnetDomain net domain root) (inside : root ∈ domain) {elem : NetElem N I S} {cost : ℕ}
    (least : LeastCost net domain root elem cost) :
    (∃ metric, Belongs net elem cost (hostPfx dst) metric) ↔ elem = .node d := by
  have known := plain.path_known least.1
  constructor
  · intro belongs
    obtain ⟨metric, belongs⟩ := belongs
    cases elem with
    | node n =>
      obtain ⟨i, own, type, pfx, _⟩ := belongs
      have member : n ∈ domain := by
        obtain rfl | member := node_known.mp known
        · exact inside
        · exact member
      -- A host prefix is the identifier of an interface only if that interface has the address itself.
      have mask : (net.iface i).mask = 32 := (congrArg Pfx.mask pfx).symm
      have network := congrArg Pfx.network pfx
      have all : ipAddressMask 32 = 0xffffffff := by decide
      simp only [hostPfx, netIfaceId, ipPrefixMask, mask, all] at network
      have same : (net.iface i).addr = dst := by
        rw [network]
        exact UInt32.and_neg_one.symm
      have notRtr : (net.iface i).type ≠ .rtr := by
        obtain type | type := type <;> rw [type] <;> exact IfaceType.noConfusion
      rw [owner.only n member i own notRtr same]
    | subnet s =>
      have mask : 32 = (net.subnetPrefix s).mask := congrArg Pfx.mask belongs.1
      -- A subnet prefix is shorter than 32 bits.
      have short := net.subnet_mask s
      omega
    | link i => exact absurd known plain.no_link
  · intro same
    subst same
    obtain ⟨i, own, type, id⟩ := owner.own
    refine ⟨(min (cost + (net.iface i).metric.toNat) maxCost).toUInt32, i, own, type, ?_, ?_⟩
    · rw [id, ipPrefixMask_host]
    · have bound : maxCost = 4294967295 := by decide
      rw [Nat.toUInt32_eq, UInt32.toNat_ofNat_of_lt']
      have size : UInt32.size = 4294967296 := rfl
      omega

omit [DecidableEq N] [DecidableEq I] [DecidableEq S] in
theorem OwnAddress.owns {d n : N} {dst : NetAddr} (owner : OwnAddress net domain d dst) (here : n = d)
    {msg : NetMsg} (address : msg.dstAddr = dst) : Owns net n msg.dstAddr := by
  subst here address
  obtain ⟨i, own, type, id⟩ := owner.own
  have addr : (net.iface i).addr = msg.dstAddr := congrArg Pfx.network id
  have notRtr : (net.iface i).type ≠ .rtr := by
    obtain type | type := type <;> rw [type] <;> exact IfaceType.noConfusion
  refine Option.isSome_iff_exists.mp (List.find?_isSome.mpr ⟨i, own, ?_⟩)
  simp [Topology.netIfaceHasAddress, notRtr, addr]

omit [DecidableEq N] [DecidableEq I] [DecidableEq S] in
theorem OwnAddress.not_owns {d n : N} {dst : NetAddr} (owner : OwnAddress net domain d dst) (inside : n ∈ domain)
    (away : n ≠ d) {msg : NetMsg} (address : msg.dstAddr = dst) : ¬Owns net n msg.dstAddr := by
  intro owns
  obtain ⟨i, found⟩ := owns
  have has := List.find?_some found
  simp only [Topology.netIfaceHasAddress, decide_eq_true_eq] at has
  exact away (owner.only n inside i (List.mem_of_find?_eq_some found) has.1 (has.2.trans address))

end Tables

/-! ## Next routers -/

/-- A node forwards to another one along one of the entries of the longest-match route. -/
def NextRouter (net : Topology N I S) (rt : N → NetRt) (dst : NetAddr) (n x : N) : Prop :=
  ∃ rtinfo entry arrived, rtFindBest (rt n) dst netRouteAny = some rtinfo ∧ entry ∈ rtinfo.entries ∧
    SendsTo net n dst entry arrived ∧ (net.iface arrived).owner = x

section Forwarding

variable [DecidableEq N] [DecidableEq I] [DecidableEq S]

/-- A domain of routers and subnets whose IGP routes were computed. -/
structure IgpComputed (net : Topology N I S) (order : Traversal) (domain : List N) (tables tables' : N → NetRt) :
    Prop where
  plain : ∀ r ∈ domain, RouterSubnetDomain net domain r
  links : WellConnected net
  masked : ∀ n, MaskedKeys (tables n)
  computed : ∃ fuel, igpComputeDomain net order domain fuel tables = .ok (.success, tables')

variable {net : Topology N I S} {order : Traversal} {domain : List N} {tables tables' : N → NetRt} {d r : N}
  {dst : NetAddr}

/-- The IGP route of a router towards the address holds the entries that start its shortest paths. -/
theorem IgpComputed.entries (igp : IgpComputed net order domain tables tables')
    (owner : OwnAddress net domain d dst) (inside : r ∈ domain) :
    (∀ rtinfo ∈ igpRoutesTo (tables' r) (hostPfx dst), ∀ other, other ∈ rtinfo.entries ↔
      ∃ entry, FirstHop net domain r (.node d) entry ∧ other = entry.toRtEntry net) ∧
    ((∃ entry, FirstHop net domain r (.node d) entry) ↔ igpRoutesTo (tables' r) (hostPfx dst) ≠ []) := by
  obtain ⟨fuel, computed⟩ := igp.computed
  obtain ⟨fibs, known, recomputed⟩ := igpComputeDomain_success computed
  have plain := igp.plain r inside
  rw [recomputed.igp r inside, ipPrefixMask_host]
  -- The address is the router's own, so its host prefix is recorded at that vertex and no other.
  have listed (other : RtEntry) : other ∈ entriesAt (fibs r) (hostPfx dst) ↔
      ∃ entry, FirstHop net domain r (.node d) entry ∧ other = entry.toRtEntry net := by
    rw [routerFib_entries plain (known r inside)]
    constructor
    · intro starts
      obtain ⟨elem, cost, metric, entry, least, belongs, first, same⟩ := starts
      have here := (owner.belongs_iff plain inside least).mp ⟨metric, belongs⟩
      subst here
      exact ⟨entry, first, same⟩
    · intro starts
      obtain ⟨entry, first, same⟩ := starts
      obtain ⟨cost, least⟩ := first.least
      obtain ⟨metric, belongs⟩ := (owner.belongs_iff plain inside least).mpr rfl
      exact ⟨_, cost, metric, entry, least, belongs, first, same⟩
  cases stored : (fibs r).lookup (hostPfx dst) with
  | none =>
    refine ⟨by simp, fun starts => ?_, by simp⟩
    obtain ⟨entry, first⟩ := starts
    have empty := (listed _).mpr ⟨entry, first, rfl⟩
    rw [entriesAt, stored] at empty
    cases empty
  | some rtinfo =>
    refine ⟨fun rtinfo' member other => ?_, fun _ => by simp, fun _ => ?_⟩
    · have same : rtinfo' = rtinfo := by simpa using member
      rw [same, ← listed, entriesAt, stored]
      rfl
    · have recorded : metricAt (fibs r) (hostPfx dst) = some rtinfo.metric := by
        rw [metricAt, stored]
        rfl
      obtain ⟨elem, cost, entry, least, belongs, first⟩ := routerFib_metric plain (known r inside) recorded
      have here := (owner.belongs_iff plain inside least).mp ⟨_, belongs⟩
      exact ⟨entry, here ▸ first⟩

/-- The longest-match route is the IGP route, where no static or direct route is in its way. -/
theorem IgpComputed.best (igp : IgpComputed net order domain tables tables')
    (free : ∀ rtinfo ∈ otherRoutesTo (tables r) (hostPfx dst), rtinfo.type = .bgp)
    (routed : igpRoutesTo (tables' r) (hostPfx dst) ≠ []) :
    ∃ rtinfo ∈ igpRoutesTo (tables' r) (hostPfx dst), rtFindBest (tables' r) dst netRouteAny = some rtinfo := by
  obtain ⟨fuel, computed⟩ := igp.computed
  obtain ⟨fibs, known, recomputed⟩ := igpComputeDomain_success computed
  have masked := igpComputeDomain_masked igp.masked computed r
  obtain ⟨rtinfo, member⟩ := List.exists_mem_of_ne_nil _ routed
  obtain ⟨listed, type⟩ := List.mem_filter.mp member
  rw [decide_eq_true_eq] at type
  rw [routesTo, ipPrefixMask_host] at listed
  cases stored : (tables' r).lookup (hostPfx dst) with
  | none =>
    rw [stored] at listed
    cases listed
  | some infos =>
    rw [stored] at listed
    have routes : routesTo (tables' r) (hostPfx dst) = infos.list := by
      rw [routesTo, ipPrefixMask_host, stored]
    have any (type : RouteType) : (type.bit &&& netRouteAny != 0) = true := by
      cases type <;> decide
    have some_ : (infos.first netRouteAny).isSome := by
      rw [RtInfos.first, List.find?_isSome]
      exact ⟨rtinfo, listed, any _⟩
    obtain ⟨best, first⟩ := Option.isSome_iff_exists.mp some_
    obtain ⟨member', _, least⟩ := first_eq_some_iff.mp first
    have isIgp : best.type = .igp := by
      by_contra other
      have isBgp : best.type = .bgp := by
        apply free
        rw [← recomputed.other, otherRoutesTo, routes]
        exact List.mem_filter.mpr ⟨member', by simpa using other⟩
      -- an IGP route is before any BGP route
      obtain same | before := least rtinfo listed (any _)
      · rw [← same] at other
        exact other type
      · rw [rtInfoListCmp_eq_lt, type, isBgp] at before
        revert before
        simp [RouteType.bit]
    refine ⟨best, ?_, (rtFindBest_eq_some_iff masked).mpr ⟨hostPfx dst, infos, ?_, stored, first⟩⟩
    · rw [igpRoutesTo, routes]
      exact List.mem_filter.mpr ⟨member', by simpa using isIgp⟩
    · exact ⟨Table.mem_keys_iff.mpr ⟨infos, stored⟩, inPrefix_host dst, fun other _ _ => other.short⟩

/-- What a router away from the owner of the address does with it. -/
structure OnTheWay (net : Topology N I S) (domain : List N) (rt : N → NetRt) (d : N) (dst : NetAddr) (r : N)
    (total : ℕ) : Prop where
  route : ∃ rtinfo, rtFindBest (rt r) dst netRouteAny = some rtinfo ∧ rtinfo.type = .igp ∧
    rtinfo.entries ≠ [] ∧ ∀ entry ∈ rtinfo.entries, ∃ arrived, SendsTo net r dst entry arrived
  next_iff : ∀ x, NextRouter net rt dst r x ↔ ∃ cost rest, RouterHop net domain r x cost ∧
    LeastCost net domain x (.node d) rest ∧ cost + rest = total

theorem IgpComputed.onTheWay (igp : IgpComputed net order domain tables tables')
    (owner : OwnAddress net domain d dst) (inside : r ∈ domain) (away : r ≠ d)
    (free : ∀ rtinfo ∈ otherRoutesTo (tables r) (hostPfx dst), rtinfo.type = .bgp) {total : ℕ}
    (least : LeastCost net domain r (.node d) total) : OnTheWay net domain tables' d dst r total := by
  obtain ⟨entries, routed⟩ := igp.entries owner inside
  have leads {entry : FibEntry I} (first : FirstHop net domain r (.node d) entry) :
      ∃ x cost rest, StartsAt net domain r (.node d) entry x cost rest := by
    obtain ⟨_, _, _, same, _⟩ | ⟨_, starts⟩ := first.starts igp.links
    · cases same
    · exact starts
  -- a path of least cost to another router has a first hop
  have some_ : ∃ entry, FirstHop net domain r (.node d) entry := by
    obtain ⟨x, cost, rest, hop, path, sum⟩ : ∃ x cost rest, RouterHop net domain r x cost ∧
        Path net domain x (.node d) rest ∧ cost + rest = total :=
      first_router_hop least.1 away
    obtain ⟨entry, first, _, _⟩ := firstHop_of_path igp.links hop path (by rwa [sum])
    exact ⟨entry, first⟩
  obtain ⟨rtinfo, member, best⟩ := igp.best free (routed.mp some_)
  have type : rtinfo.type = .igp := by simpa using (List.mem_filter.mp member).2
  refine ⟨⟨rtinfo, best, type, ?_, fun other listed => ?_⟩, fun x => ⟨fun next => ?_, fun shortest => ?_⟩⟩
  · obtain ⟨entry, first⟩ := some_
    exact List.ne_nil_of_mem ((entries rtinfo member _).mpr ⟨entry, first, rfl⟩)
  · obtain ⟨entry, first, rfl⟩ := (entries rtinfo member other).mp listed
    obtain ⟨x, cost, rest, starts⟩ := leads first
    obtain ⟨arrived, sends, _⟩ := starts.leads dst
    exact ⟨arrived, sends⟩
  · obtain ⟨rtinfo', other, arrived, best', listed, sends, rfl⟩ := next
    rw [best, Option.some.injEq] at best'
    subst best'
    obtain ⟨entry, first, rfl⟩ := (entries rtinfo member other).mp listed
    obtain ⟨x, cost, rest, starts⟩ := leads first
    obtain ⟨arrived', sends', rfl⟩ := starts.leads dst
    have same := sends.unique sends'
    subst same
    exact ⟨cost, rest, starts.hop, starts.hop.rest_least starts.path starts.least, starts.least.unique least⟩
  · obtain ⟨cost, rest, hop, leastX, rfl⟩ := shortest
    obtain ⟨entry, first, _, on⟩ := firstHop_of_path igp.links hop leastX.1 least
    obtain ⟨arrived, sends, same⟩ := on dst
    exact ⟨rtinfo, _, arrived, best, (entries rtinfo member _).mpr ⟨entry, first, rfl⟩, sends, same⟩

/-- Once the IGP routes of a domain are computed, a router that a path leads from to the owner of the address
forwards by its IGP route: every entry leads to a router, and the routers that they lead to are exactly the next
routers on the shortest paths.  Without a path there is no IGP route. -/
theorem igp_next_routers (igp : IgpComputed net order domain tables tables')
    (owner : OwnAddress net domain d dst) (inside : r ∈ domain) (away : r ≠ d)
    (free : ∀ rtinfo ∈ otherRoutesTo (tables r) (hostPfx dst), rtinfo.type = .bgp) :
    (∀ total, LeastCost net domain r (.node d) total → OnTheWay net domain tables' d dst r total) ∧
      ((∀ cost, ¬Path net domain r (.node d) cost) → igpRoutesTo (tables' r) (hostPfx dst) = []) := by
  refine ⟨fun total => igp.onTheWay owner inside away free, fun unreachable => ?_⟩
  by_contra routed
  obtain ⟨entry, first⟩ := (igp.entries owner inside).2.mpr routed
  obtain ⟨cost, path, _⟩ := first.least
  exact unreachable cost path

/-! ## Delivery -/

omit [DecidableEq I] [DecidableEq S] in
/-- Where the entries of each router lead nearer to the owner, so does every choice of them. -/
theorem every_choice_arrives {rt : N → NetRt} {route : ℕ → N}
    (ways : ∀ r ∈ domain, r ≠ d → ∀ total, LeastCost net domain r (.node d) total →
      OnTheWay net domain rt d dst r total)
    (follows : ∀ k, route k ≠ d → NextRouter net rt dst (route k) (route (k + 1))) {total k : ℕ}
    (inside : route k ∈ domain) (least : LeastCost net domain (route k) (.node d) total) :
    ∃ later ≤ k + total, route later = d := by
  induction total using Nat.strong_induction_on generalizing k with
  | _ total smaller =>
    by_cases here : route k = d
    · exact ⟨k, by omega, here⟩
    · obtain ⟨cost, rest, hop, leastNext, sum⟩ := ((ways _ inside here total least).next_iff _).mp (follows k here)
      have positive := hop.positive
      obtain ⟨later, bound, there⟩ := smaller rest (by omega) hop.mem leastNext
      exact ⟨later, by omega, there⟩

omit [DecidableEq I] [DecidableEq S] in
/-- The same for a message, which leaves along the first entry of each router. -/
theorem message_arrives {rt : N → NetRt} (owner : OwnAddress net domain d dst)
    (ways : ∀ r ∈ domain, r ≠ d → ∀ total, LeastCost net domain r (.node d) total →
      OnTheWay net domain rt d dst r total)
    {total : ℕ} (inside : r ∈ domain) (away : r ≠ d) (least : LeastCost net domain r (.node d) total) {msg : NetMsg}
    (address : msg.dstAddr = dst) : ∃ between msg', between < total ∧ Reaches net rt r msg between d msg' := by
  induction total using Nat.strong_induction_on generalizing r msg with
  | _ total smaller =>
    have way := ways r inside away total least
    obtain ⟨rtinfo, best, _, some_, sends⟩ := way.route
    obtain ⟨entry, rest, listed⟩ := List.exists_cons_of_ne_nil some_
    have member : entry ∈ rtinfo.entries := by
      rw [listed]
      exact List.mem_cons_self
    obtain ⟨arrived, addr, oif, has, known, crosses⟩ := sends entry member
    have hops : HopsTo net rt r msg arrived { msg with
        srcAddr := if msg.srcAddr = netAddrAny then net.netIfaceSrcAddress oif else msg.srcAddr } := by
      subst address
      exact ⟨rtinfo, entry, addr, oif, best, by rw [listed]; rfl, has, known, crosses, rfl⟩
    have next : NextRouter net rt dst r (net.iface arrived).owner :=
      ⟨rtinfo, entry, arrived, best, member, ⟨addr, oif, has, known, crosses⟩, rfl⟩
    obtain ⟨cost, left, hop, leastNext, sum⟩ := (way.next_iff _).mp next
    have positive := hop.positive
    by_cases there : (net.iface arrived).owner = d
    · have reaches := Reaches.arrives hops (owner.owns there address)
      rw [there] at reaches
      exact ⟨0, _, by omega, reaches⟩
    · obtain ⟨between, msg', bound, reaches⟩ := smaller left (by omega) hop.mem there leastNext
        (hops.dstAddr.trans address)
      exact ⟨between + 1, msg', by omega, .passes hops (owner.not_owns hop.mem there address) reaches⟩

/-- Once the IGP routes of a domain are computed, a message for the owner of the address gets there in no more
hops than its least cost, whichever of the parallel entries the routers take; a message that a router sends is
delivered to the owner, if its time-to-live is not below the least cost. -/
theorem igp_delivers (igp : IgpComputed net order domain tables tables')
    (owner : OwnAddress net domain d dst)
    (free : ∀ r ∈ domain, ∀ rtinfo ∈ otherRoutesTo (tables r) (hostPfx dst), rtinfo.type = .bgp)
    (inside : r ∈ domain) {total : ℕ} (least : LeastCost net domain r (.node d) total) :
    (∀ route : ℕ → N, route 0 = r →
      (∀ k, route k ≠ d → NextRouter net tables' dst (route k) (route (k + 1))) → ∃ k ≤ total, route k = d) ∧
    ∀ ttl msg, msg.dstAddr = dst → total ≤ ttl → ∃ msg', Delivers net tables' ttl r msg d msg' := by
  have ways (r : N) (inside : r ∈ domain) (away : r ≠ d) (total : ℕ)
      (least : LeastCost net domain r (.node d) total) : OnTheWay net domain tables' d dst r total :=
    igp.onTheWay owner inside away (free r inside) least
  constructor
  · intro route starts follows
    subst starts
    obtain ⟨k, bound, there⟩ := every_choice_arrives ways follows inside least
    exact ⟨k, by omega, there⟩
  · intro ttl msg address enough
    by_cases here : r = d
    · subst here
      obtain ⟨lif, has⟩ := owner.owns rfl address
      exact ⟨_, .own has⟩
    · obtain ⟨between, msg', bound, reaches⟩ := message_arrives owner ways inside here least address
      exact ⟨msg', .reached (owner.not_owns inside here address) (by omega) reaches⟩

end Forwarding

/-! ## Two routers -/

theorem loopbackPair_links : WellConnected loopbackPair := by
  refine ⟨fun i j type dest => ?_, fun s i j _ _ _ _ => rfl, by decide⟩
  obtain ⟨b, port⟩ := i
  cases port with
  | loopback => cases type
  | subnet => cases type
  | link =>
    cases dest
    cases b <;> rfl

theorem loopbackPair_owner : OwnAddress loopbackPair [false, true] true 0x01000002 :=
  ⟨by decide, by decide, by decide⟩

/-- The IGP routes of the two routers are computed from empty tables. -/
theorem loopbackPair_computed : ∃ tables', IgpComputed loopbackPair ⟨id, fun _ => List.Perm.refl _⟩ [false, true]
    (fun _ => ∅) tables' := by
  have ran : okAnd (igpComputeDomain loopbackPair ⟨id, fun _ => List.Perm.refl _⟩ [false, true] 20 fun _ => ∅)
      (fun result => decide (result.1 = .success)) = true := by
    decide +kernel
  obtain ⟨⟨error, tables'⟩, computed, success⟩ := okAnd_iff.mp ran
  obtain rfl := of_decide_eq_true success
  refine ⟨tables', fun r _ => loopbackPair_plain r, loopbackPair_links, fun n key known => ?_, 20, computed⟩
  simp at known

theorem loopbackPair_free (r : Bool) :
    ∀ rtinfo ∈ otherRoutesTo ((fun _ => ∅ : Bool → NetRt) r) (hostPfx 0x01000002), rtinfo.type = .bgp := by
  simp [otherRoutesTo, routesTo]

/-- The second router is at cost 1 from the first. -/
theorem loopbackPair_least : LeastCost loopbackPair [false, true] false (.node true) 1 := by
  have hop : RouterHop loopbackPair [false, true] false true 1 :=
    .link (.router (i := (false, Port.link)) (j := (true, Port.link)) (by decide) rfl
      ⟨rfl, rfl, by decide, by decide⟩ rfl (by decide))
  refine ⟨hop.path (by decide), fun other path => ?_⟩
  obtain ⟨x, cost, rest, first, _, rfl⟩ := first_router_hop path (by decide)
  have positive := first.positive
  omega

theorem igp_next_routers_pair : ∃ tables',
    IgpComputed loopbackPair ⟨id, fun _ => List.Perm.refl _⟩ [false, true] (fun _ => ∅) tables' ∧
    (∀ total, LeastCost loopbackPair [false, true] false (.node true) total →
      OnTheWay loopbackPair [false, true] tables' true 0x01000002 false total) ∧
    ((∀ cost, ¬Path loopbackPair [false, true] false (.node true) cost) →
      igpRoutesTo (tables' false) (hostPfx 0x01000002) = []) := by
  obtain ⟨tables', igp⟩ := loopbackPair_computed
  exact ⟨tables', igp, igp_next_routers igp loopbackPair_owner (by decide) (by decide) (loopbackPair_free false)⟩

theorem igp_delivers_pair : ∃ tables',
    IgpComputed loopbackPair ⟨id, fun _ => List.Perm.refl _⟩ [false, true] (fun _ => ∅) tables' ∧
    (∀ route : ℕ → Bool, route 0 = false →
      (∀ k, route k ≠ true → NextRouter loopbackPair tables' 0x01000002 (route k) (route (k + 1))) →
        ∃ k ≤ 1, route k = true) ∧
    ∀ ttl msg, msg.dstAddr = 0x01000002 → 1 ≤ ttl → ∃ msg', Delivers loopbackPair tables' ttl false msg true msg' := by
  obtain ⟨tables', igp⟩ := loopbackPair_computed
  exact ⟨tables', igp, igp_delivers igp loopbackPair_owner (fun r _ => loopbackPair_free r) (by decide)
    loopbackPair_least⟩

end Cbgp.Verified
