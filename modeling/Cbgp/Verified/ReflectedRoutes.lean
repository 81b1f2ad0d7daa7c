import Cbgp.Verified.BestFlag
import Cbgp.Verified.Export
import Cbgp.Verified.Provenance

/-! # Routes on their way through reflectors

A route that a router learned can be followed back to the router that originated it, or to the
outside, along the UPDATEs that were delivered (`Travelled`).  Filters that leave ORIGINATOR-ID and
CLUSTER-LIST alone let a route carry the cluster-id of every reflector on the way since it entered
the AS, and a router does not take a route that carries its own marks (`loops_kept_out`).
-/

namespace Cbgp.Verified

open Cbgp.Lib Cbgp.Net Cbgp.Bgp

/-! ## Marks -/

/-- The filter does not edit ORIGINATOR-ID or CLUSTER-LIST. -/
def KeepsMarks (filter : Filter) : Prop :=
  ∀ asn rt route attr, filter.apply asn rt route = .ok (some attr) →
    attr.originator = route.attr.originator ∧ attr.clusterList = route.attr.clusterList

/-- None of the filters of the router edits ORIGINATOR-ID or CLUSTER-LIST. -/
def MarksKept (r : Router) : Prop :=
  ∀ addr peer, r.peers.lookup addr = some peer → KeepsMarks peer.filterIn ∧ KeepsMarks peer.filterOut

theorem acceptAll_keepsMarks : KeepsMarks Filter.acceptAll := by
  intro asn rt route attr accepted
  cases accepted
  exact ⟨rfl, rfl⟩

theorem MarksKept.addPeer {r : Router} {peer : Peer} (kept : MarksKept r) (addr : NetAddr)
    (filterIn : KeepsMarks peer.filterIn) (filterOut : KeepsMarks peer.filterOut) :
    MarksKept (bgpRouterAddPeer r addr peer) := by
  intro a other held
  simp only [bgpRouterAddPeer] at held
  split at held
  · exact kept a other held
  · by_cases same : a = addr
    · subst same
      rw [AList.lookup_insert] at held
      cases held
      exact ⟨filterIn, filterOut⟩
    · rw [AList.lookup_insert_ne same] at held
      exact kept a other held

/-- The attributes show no sign that the route has been at the router before. -/
structure Unlooped (r : Router) (attr : Attr) : Prop where
  path : pathContains attr.path r.asn = false
  originator : attr.originator ≠ some r.rid
  clusters : r.clusterId ∉ attr.clusterList.getD []

/-- The peer at an address is in the AS of the router. -/
def internalPeer (r : Router) (addr : NetAddr) : Bool :=
  (r.peers.lookup addr).any fun peer => decide (peer.asn = r.asn)

/-! ## One router -/

/-- The import checks of the router make `attr` of `received`. -/
def Accepts (r : Router) (src : NetAddr) (received attr : Attr) : Prop :=
  ∃ s peer route, Configured r s ∧ s.peers.lookup src = some peer ∧ route.attr = received ∧
    bgpPeerRouteEligible s peer (receivedRoute s src peer route) = .ok (some attr)

/-- The router announces `told` for a best route from a peer, or from itself, with `attr`. -/
def Announces (r : Router) (source : Option NetAddr) (attr : Attr) (dst : NetAddr) (told : Attr) :
    Prop :=
  ∃ s peer best announced, Configured r s ∧ s.peers.lookup dst = some peer ∧ best.peer = source ∧
    best.attr = attr ∧ exportRoute s peer best = .ok (some announced) ∧ announced.attr = told

section Router

variable {r s : Router} {addr src dst : NetAddr} {source : Option NetAddr}
  {peer : Peer} {received attr told : Attr}

theorem Configured.internalPeer (configured : Configured r s) (held : s.peers.lookup addr = some peer) :
    Verified.internalPeer r addr = decide (peer.asn = s.asn) := by
  obtain ⟨peer', was, same⟩ := configured.lookup held
  have asn : (peerConfig peer').asn = (peerConfig peer).asn := by rw [same]
  rw [Verified.internalPeer, was, Option.any_some, configured.asn]
  exact congrArg (fun a => decide (a = r.asn)) asn

theorem Configured.marksKept (configured : Configured r s) (kept : MarksKept r) : MarksKept s := by
  intro addr peer held
  obtain ⟨peer', was, same⟩ := configured.lookup held
  have filterIn : (peerConfig peer').filterIn = (peerConfig peer).filterIn := by rw [same]
  have filterOut : (peerConfig peer').filterOut = (peerConfig peer).filterOut := by rw [same]
  exact ⟨filterIn ▸ (kept addr peer' was).1, filterOut ▸ (kept addr peer' was).2⟩

theorem Configured.unlooped (configured : Configured r s) (unlooped : Unlooped s attr) :
    Unlooped r attr :=
  ⟨configured.asn ▸ unlooped.path, configured.rid ▸ unlooped.originator,
    configured.clusterId ▸ unlooped.clusters⟩

/-- A router takes no route that has been there before. -/
theorem Accepts.unlooped (accepts : Accepts r src received attr) : Unlooped r received := by
  obtain ⟨s, peer, route, configured, held, rfl, checked⟩ := accepts
  refine configured.unlooped ?_
  -- the checks read what `receivedRoute` does not touch
  have path : (receivedRoute s src peer route).attr.path = route.attr.path := by
    simp only [receivedRoute]
    split <;> rfl
  have originator : (receivedRoute s src peer route).attr.originator = route.attr.originator := by
    simp only [receivedRoute]
    split <;> rfl
  have clusterList : (receivedRoute s src peer route).attr.clusterList = route.attr.clusterList := by
    simp only [receivedRoute]
    split <;> rfl
  simp only [bgpPeerRouteEligible, path, originator, clusterList] at checked
  split at checked
  · cases checked
  rename_i noPathLoop
  split at checked
  · cases checked
  rename_i notOriginator
  split at checked
  · cases checked
  rename_i noClusterLoop
  exact ⟨by simpa using noPathLoop, notOriginator, by simpa using noClusterLoop⟩

/-- It keeps the marks of those that it takes. -/
theorem Accepts.marks (kept : MarksKept r) (accepts : Accepts r src received attr) :
    attr.originator = received.originator ∧ attr.clusterList = received.clusterList := by
  obtain ⟨s, peer, route, configured, held, rfl, checked⟩ := accepts
  simp only [bgpPeerRouteEligible] at checked
  split at checked
  · cases checked
  split at checked
  · cases checked
  split at checked
  · cases checked
  obtain ⟨verdict, filtered, checked⟩ := except_bind_eq_ok.mp checked
  cases verdict with
  | none => cases checked
  | some attr' =>
    simp only [peerCommProcess, if_true, Except.ok.injEq, Option.some.injEq] at checked
    subst checked
    obtain ⟨originator, clusterList⟩ := (configured.marksKept kept src peer held).1 _ _ _ _ filtered
    simp only [receivedRoute] at originator clusterList
    rw [originator, clusterList]
    split <;> exact ⟨rfl, rfl⟩

/-- What is done to the attributes after the output filter leaves the CLUSTER-LIST alone. -/
theorem updateBeforeAnnounce_clusterList (r : Router) (src : Option Peer) (dst : Peer) (attr : Attr) :
    (updateBeforeAnnounce r src dst attr).clusterList = attr.clusterList := by
  simp only [updateBeforeAnnounce]
  split
  · rw [bgpAttrPathPrepend_path]
  · cases src with
    | none => rfl
    | some src =>
      simp only
      split
      · rfl
      · split
        · rfl
        · split <;> rfl

/-- Inside the AS the CLUSTER-LIST is kept, and reflectors append their cluster-id. -/
theorem redistribute_inside {src : Option Peer} {dst : Peer} {route : Route}
    (inside : dst.asn = r.asn) (matrix : redistribute r src dst route = .ok (some attr)) :
    attr.clusterList.getD [] = route.attr.clusterList.getD [] ++
      if src.any fun src => decide (src.asn = r.asn) then [r.clusterId] else [] := by
  cases src with
  | none =>
    simp only [redistribute, inside, ne_eq, not_true_eq_false, if_false] at matrix
    -- case (6)
    split at matrix
    · split at matrix
      · cases matrix
      · cases matrix
        simp
    · cases matrix
      simp
  | some src =>
    by_cases fromInside : src.asn = r.asn
    · obtain ⟨-, -, -, rfl⟩ := redistribute_reflected inside.symm fromInside.symm matrix
      simp [fromInside]
    · simp only [redistribute, inside, ne_eq, not_true_eq_false, if_false] at matrix
      -- case (4)
      rw [if_pos (Ne.symm fromInside)] at matrix
      cases matrix
      simp [fromInside]

/-- What a router tells a peer in its AS carries the marks that the route had, and the cluster-id
of the router when the route came from a peer in its AS. -/
theorem Announces.clusters (kept : MarksKept r) (announces : Announces r source attr dst told)
    (inside : internalPeer r dst = true) :
    told.clusterList.getD [] = attr.clusterList.getD [] ++
      if source.any (internalPeer r) then [r.clusterId] else [] := by
  obtain ⟨s, peer, best, announced, configured, held, rfl, rfl, fit, rfl⟩ := announces
  obtain ⟨src, attr, attr', attr'', got, -, -, matrix, processed, filtered, rfl⟩ :=
    exportRoute_filtered fit
  have sameAs : peer.asn = s.asn := by
    rw [configured.internalPeer held] at inside
    exact of_decide_eq_true inside
  -- the route's peer, as the matrix sees it
  have learned : best.peer.any (internalPeer r) = src.any fun src => decide (src.asn = s.asn) := by
    simp only [routePeerGet] at got
    split at got
    · rename_i isLocal
      cases got
      simp [isLocal]
    · rename_i addr isPeer
      split at got
      · cases got
      · rename_i known
        cases got
        simp [isPeer, configured.internalPeer known]
  have clusterList := ((configured.marksKept kept dst peer held).2 _ _ _ _ filtered).2
  have red : attr'.clusterList = attr.clusterList := by rw [bgpRouterEcommProcess_some processed]
  simp only [updateBeforeAnnounce_clusterList, clusterList, beforeFilter]
  rw [red, learned, ← configured.clusterId]
  exact redistribute_inside sameAs matrix

end Router

/-! ## The network -/

section Network

variable {ι : Type} [DecidableEq ι] (owner : NetAddr → Option ι) (n₀ n : Network ι)

/-- Steps without a restriction. -/
abbrev RunsTo (n n' : Network ι) : Prop :=
  Reach (netStep owner) (fun _ _ => True) n n'

/-- On the way to `n`, an UPDATE from the outside was handed to a router. -/
def Injected (i : ι) (src : NetAddr) (received : Attr) : Prop :=
  ∃ m m' msg route, RunsTo owner n₀ m ∧ netStep owner m (.act i (.handleMessage src msg)) = .ok m' ∧
    RunsTo owner m' n ∧ msg.body = .update route ∧ route.attr = received

/-- On the way to `n`, an UPDATE that a router sent to an address was delivered. -/
def Delivered (j : ι) (dst : NetAddr) (i : ι) (src : NetAddr) (received : Attr) : Prop :=
  ∃ m m' sent rest route, RunsTo owner n₀ m ∧ netStep owner m (.deliver j dst) = .ok m' ∧
    RunsTo owner m' n ∧ m.inFlight j dst = sent :: rest ∧ owner dst = some i ∧ sent.src = src ∧
    sent.msg.body = .update route ∧ route.attr = received

/-- An UPDATE was handed to a router. -/
def Handed (i : ι) (src : NetAddr) (received : Attr) : Prop :=
  Injected owner n₀ n i src received ∨ ∃ j dst, Delivered owner n₀ n j dst i src received

/-- The reflectors behind a route that a router tells a peer: none once it leaves the AS. -/
def onward (j : ι) (source : Option NetAddr) (dst : NetAddr) (hops : List ι) : List ι :=
  if internalPeer (n₀.router j) dst then
    if source.any (internalPeer (n₀.router j)) then hops ++ [j] else hops
  else []

/-- A route of a router, from a peer or from itself, and the reflectors that it passed since it
entered the AS. -/
inductive Travelled : ι → Option NetAddr → Attr → List ι → Prop where
  | originated {i : ι} {s : Router} {p : Pfx} :
      Configured (n₀.router i) s → Travelled i none (localRoute s p).attr []
  | injected {i : ι} {src : NetAddr} {received attr : Attr} :
      Injected owner n₀ n i src received → Accepts (n₀.router i) src received attr →
      Travelled i (some src) attr []
  | carried {i j : ι} {source : Option NetAddr} {dst src : NetAddr} {attr received attr' : Attr}
      {hops : List ι} :
      Travelled j source attr hops → Announces (n₀.router j) source attr dst received →
      Delivered owner n₀ n j dst i src received → Accepts (n₀.router i) src received attr' →
      Travelled i (some src) attr' (onward n₀ j source dst hops)

/-- The CLUSTER-LIST has the cluster-ids of the routers. -/
def Carries (hops : List ι) (attr : Attr) : Prop :=
  ∀ j ∈ hops, (n₀.router j).clusterId ∈ attr.clusterList.getD []

/-- No router selects a route that has been there before, and all routes and UPDATEs show which
reflectors they passed since they entered the AS. -/
structure LoopsKeptOut : Prop where
  selected : ∀ {i p route}, (n.router i).locRib.findExact p = some route →
    route.flags.internal = false →
    ∃ src received hops, route.peer = some src ∧ Travelled owner n₀ n i (some src) route.attr hops ∧
      Handed owner n₀ n i src received ∧ Accepts (n₀.router i) src received route.attr ∧
      Unlooped (n.router i) received ∧
      route.attr.originator ≠ some (n.router i).rid ∧
      (n.router i).clusterId ∉ route.attr.clusterList.getD []
  learned : ∀ {i a p route}, (n.router i).adjRoute a p = some route →
    ∃ hops, Travelled owner n₀ n i (some a) route.attr hops
  told : ∀ {j sent route}, sent ∈ (n.router j).outbox → sent.msg.body = .update route →
    ∃ source attr hops, Travelled owner n₀ n j source attr hops ∧
      Announces (n₀.router j) source attr sent.dst route.attr
  carries : ∀ {i source attr hops}, Travelled owner n₀ n i source attr hops → Carries n₀ hops attr
  carriesOn : ∀ {j source attr hops dst told}, Travelled owner n₀ n j source attr hops →
    Announces (n₀.router j) source attr dst told → Carries n₀ (onward n₀ j source dst hops) told

variable {owner n₀ n} {n' : Network ι}

theorem Injected.later {i : ι} {src : NetAddr} {received : Attr} (runs : RunsTo owner n n')
    (injected : Injected owner n₀ n i src received) : Injected owner n₀ n' i src received := by
  obtain ⟨m, m', msg, route, before, step, after, rest⟩ := injected
  exact ⟨m, m', msg, route, before, step, after.trans runs, rest⟩

theorem Delivered.later {j i : ι} {dst src : NetAddr} {received : Attr} (runs : RunsTo owner n n')
    (delivered : Delivered owner n₀ n j dst i src received) :
    Delivered owner n₀ n' j dst i src received := by
  obtain ⟨m, m', sent, rest, route, before, step, after, rest⟩ := delivered
  exact ⟨m, m', sent, _, route, before, step, after.trans runs, rest⟩

theorem Travelled.later {i : ι} {source : Option NetAddr} {attr : Attr} {hops : List ι}
    (runs : RunsTo owner n n') (travelled : Travelled owner n₀ n i source attr hops) :
    Travelled owner n₀ n' i source attr hops := by
  induction travelled with
  | originated configured => exact .originated configured
  | injected injected accepts => exact .injected (injected.later runs) accepts
  | carried _ announces delivered accepts inductionHypothesis =>
    exact .carried inductionHypothesis announces (delivered.later runs) accepts

omit [DecidableEq ι] in
/-- An UPDATE carries the marks of the route that it tells of, until it leaves the AS. -/
theorem Announces.carriesOn {j : ι} {source : Option NetAddr} {attr told : Attr} {dst : NetAddr}
    {hops : List ι} (kept : MarksKept (n₀.router j)) (carries : Carries n₀ hops attr)
    (announces : Announces (n₀.router j) source attr dst told) :
    Carries n₀ (onward n₀ j source dst hops) told := by
  intro k member
  rw [onward] at member
  split at member
  · rename_i inside
    rw [announces.clusters kept inside]
    split at member
    · rename_i reflected
      rw [if_pos reflected]
      cases List.mem_append.mp member with
      | inl earlier => exact List.mem_append_left _ (carries k earlier)
      | inr last =>
        rw [List.mem_singleton.mp last]
        exact List.mem_append_right _ List.mem_cons_self
    · exact List.mem_append_left _ (carries k member)
  · cases member

theorem Travelled.carries {i : ι} {source : Option NetAddr} {attr : Attr} {hops : List ι}
    (kept : ∀ i, MarksKept (n₀.router i)) (travelled : Travelled owner n₀ n i source attr hops) :
    Carries n₀ hops attr := by
  induction travelled with
  | originated _ => exact fun _ member => nomatch member
  | injected _ _ => exact fun _ member => nomatch member
  | carried _ announces _ accepts inductionHypothesis =>
    -- the import checks keep what the UPDATE carries
    intro k member
    rw [(accepts.marks (kept _)).2]
    exact announces.carriesOn (kept _) inductionHypothesis k member

variable (owner n₀ n) in
/-- Routes have travelled, and UPDATEs tell of routes that have. -/
abbrev AllTravelled : Network ι → Prop :=
  AllVouched (fun i source attr => ∃ hops, Travelled owner n₀ n i source attr hops)
    fun j dst told => ∃ source attr hops, Travelled owner n₀ n j source attr hops ∧
      Announces (n₀.router j) source attr dst told

theorem AllTravelled.later {m : Network ι} (runs : RunsTo owner n n')
    (all : AllTravelled owner n₀ n m) : AllTravelled owner n₀ n' m := by
  intro i
  have vouched := all i
  refine ⟨vouched.owned, fun held => ?_, fun held => ?_, fun sent member route isUpdate => ?_⟩
  · obtain ⟨hops, travelled⟩ := vouched.adj held
    exact ⟨hops, travelled.later runs⟩
  · obtain ⟨hops, travelled⟩ := vouched.loc held
    exact ⟨hops, travelled.later runs⟩
  · obtain ⟨source, attr, hops, travelled, announces⟩ := vouched.sent sent member route isUpdate
    exact ⟨source, attr, hops, travelled.later runs, announces⟩

/-- The routers are configured as they were, and their routes have travelled. -/
structure Traceable (owner : NetAddr → Option ι) (n₀ n : Network ι) : Prop where
  configured : ∀ i, Configured (n₀.router i) (n.router i)
  runs : RunsTo owner n₀ n
  travelled : AllTravelled owner n₀ n n

theorem exports_travelled {i : ι} (configured : Configured (n₀.router i) (n.router i)) :
    Exports (fun source attr => ∃ hops, Travelled owner n₀ n' i source attr hops)
      (fun dst told => ∃ source attr hops, Travelled owner n₀ n' i source attr hops ∧
        Announces (n₀.router i) source attr dst told) (n.router i) := by
  intro s dst peer best announced site _ held _ travelled fit
  obtain ⟨hops, travelled⟩ := travelled
  exact ⟨best.peer, best.attr, hops, travelled,
    ⟨s, peer, best, announced, configured.trans site.toConfigured, held, rfl, rfl, fit, rfl⟩⟩

theorem Traceable.step {op : NetOp ι} (traceable : Traceable owner n₀ n)
    (h : netStep owner n op = .ok n') : Traceable owner n₀ n' := by
  have here : RunsTo owner n n' := .next .start trivial h
  refine ⟨fun i => (traceable.configured i).trans (netStep_configured h i),
    .next traceable.runs trivial h, ?_⟩
  have before := traceable.travelled.later here
  refine netStep_vouched before (fun i => exports_travelled (traceable.configured i))
    (fun i s p site => ⟨[], .originated ((traceable.configured i).trans site.toConfigured)⟩) ?_ ?_ h
  · rintro i src msg _ rfl _ s peer route attr site held isUpdate checked
    -- from outside
    have accepts : Accepts (n₀.router i) src route.attr attr :=
      ⟨s, peer, route, (traceable.configured i).trans site.toConfigured, held, rfl, checked⟩
    exact ⟨[], .injected ⟨n, n', msg, route, traceable.runs, h, .start, isUpdate, rfl⟩ accepts⟩
  · rintro j i dst sent rest _ rfl head posted rfl addressee _ s peer route attr site held isUpdate
      checked
    -- from a router, which told of a route that has travelled
    have accepts : Accepts (n₀.router i) sent.src route.attr attr :=
      ⟨s, peer, route, (traceable.configured i).trans site.toConfigured, held, rfl, checked⟩
    obtain ⟨source, attr', hops, travelled, announces⟩ :=
      (before j).sent sent posted route isUpdate
    have delivered : Delivered owner n₀ n' j sent.dst i sent.src route.attr :=
      ⟨n, n', sent, rest, route, traceable.runs, h, .start, head, addressee, rfl, isUpdate, rfl⟩
    exact ⟨_, .carried travelled announces delivered accepts⟩

/-- A route from a peer has been accepted in an UPDATE. -/
theorem Travelled.accepted {i : ι} {src : NetAddr} {attr : Attr} {hops : List ι}
    (travelled : Travelled owner n₀ n i (some src) attr hops) :
    ∃ received, Handed owner n₀ n i src received ∧ Accepts (n₀.router i) src received attr := by
  cases travelled with
  | injected injected accepts => exact ⟨_, .inl injected, accepts⟩
  | carried _ _ delivered accepts => exact ⟨_, .inr ⟨_, _, delivered⟩, accepts⟩

/-- In every state of every run of a network whose filters leave the marks alone, loops are kept
out. -/
theorem loops_kept_out (fresh : ∀ i, Fresh (n₀.router i)) (silent : ∀ i, (n₀.router i).outbox = [])
    (kept : ∀ i, MarksKept (n₀.router i)) (reached : RunsTo owner n₀ n) : LoopsKeptOut owner n₀ n := by
  have traceable : Traceable owner n₀ n :=
    reached.invariant
      ⟨fun _ => .refl _, .start, fun i => .of_fresh (fresh i) (silent i)⟩
      fun traceable _ stepped => traceable.step stepped
  have all := traceable.travelled
  refine ⟨fun {i p route} held learned => ?_, fun held => (all _).adj held,
    fun member isUpdate => (all _).sent _ member _ isUpdate, fun travelled => travelled.carries kept,
    fun travelled announces => announces.carriesOn (kept _) (travelled.carries kept)⟩
  obtain ⟨hops, travelled⟩ := (all i).loc held
  -- a route without a peer is INTERNAL
  have isLocal := (all i).owned.loc held
  cases source : route.peer with
  | none => simp [isLocal.mpr source] at learned
  | some src =>
    rw [source] at travelled
    obtain ⟨received, handed, accepts⟩ := travelled.accepted
    have unlooped := accepts.unlooped
    have marks := accepts.marks (kept i)
    have configured := traceable.configured i
    refine ⟨src, received, hops, rfl, travelled, handed, accepts, configured.symm.unlooped unlooped, ?_, ?_⟩
    · rw [marks.1, configured.rid]
      exact unlooped.originator
    · rw [marks.2, configured.clusterId]
      exact unlooped.clusters

end Network

/-! ## A reflector between two clients -/

section Clients

/-- A router of AS 1 at an address: 2 is a reflector and has the clients 1 and 3. -/
def clusterRouter (addr : NetAddr) : Router :=
  let router := bgpRouterCreate 1 addr defaultRt Env.default
  let peer := { bgpPeerCreate 1 with srcAddr := addr }
  if addr = 2 then
    bgpRouterAddPeer (bgpRouterAddPeer { router with reflector := true } 1
      { peer with rrClient := true }) 3 { peer with rrClient := true }
  else bgpRouterAddPeer router 2 peer

def cluster : Network NetAddr where
  router := clusterRouter
  taken _ _ := 0

/-- The sessions are opened, and a network of one client is told to the other. -/
def clusterRun : List (NetOp NetAddr) :=
  [.act 1 (.openSession 2), .act 2 (.openSession 1), .deliver 1 2, .deliver 2 1,
    .act 3 (.openSession 2), .act 2 (.openSession 3), .deliver 3 2, .deliver 2 3,
    .act 1 (.addNetwork tenNet), .deliver 1 2, .deliver 2 3]

theorem cluster_fresh (addr : NetAddr) : Fresh (cluster.router addr) := by
  have created := fresh_create 1 addr defaultRt Env.default
  have reflector : Fresh { bgpRouterCreate 1 addr defaultRt Env.default with reflector := true } :=
    ⟨created.adj, created.loc, created.nets⟩
  simp only [cluster, clusterRouter]
  split
  · exact (reflector.addPeer 1 rfl).addPeer 3 rfl
  · exact created.addPeer 2 rfl

theorem cluster_marksKept (addr : NetAddr) : MarksKept (cluster.router addr) := by
  have created : MarksKept (bgpRouterCreate 1 addr defaultRt Env.default) :=
    fun _ _ held => by cases held
  have reflector : MarksKept { bgpRouterCreate 1 addr defaultRt Env.default with reflector := true } :=
    fun _ _ held => by cases held
  simp only [cluster, clusterRouter]
  split
  · exact (reflector.addPeer 1 acceptAll_keepsMarks acceptAll_keepsMarks).addPeer 3
      acceptAll_keepsMarks acceptAll_keepsMarks
  · exact created.addPeer 2 acceptAll_keepsMarks acceptAll_keepsMarks

theorem cluster_loops_kept_out : ∃ n,
    (((n.router 3).locRib.findExact tenNet).any fun route =>
      decide (route.attr.clusterList = some [2])) = true ∧ LoopsKeptOut some cluster n := by
  have ran : okAnd (clusterRun.foldlM (netStep some) cluster) (fun n =>
      ((n.router 3).locRib.findExact tenNet).any fun route =>
        decide (route.attr.clusterList = some [2])) = true := by
    decide +kernel
  obtain ⟨n, ran, reflected⟩ := okAnd_iff.mp ran
  have silent (addr : NetAddr) : (cluster.router addr).outbox = [] := by
    simp only [cluster, clusterRouter]
    split <;> rfl
  exact ⟨n, reflected, loops_kept_out cluster_fresh silent cluster_marksKept
    (.of_foldlM (fun _ _ => trivial) ran)⟩

end Clients

end Cbgp.Verified
