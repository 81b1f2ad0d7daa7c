import Cbgp.Lib.Stack
import Cbgp.Verified.Forwarding
import Cbgp.Verified.IgpDomain
import Cbgp.Verified.RtEntries

/-! # The entries of a forwarding table

`_spt_compute_fib` walks down the shortest-path tree of a router with a stack, and hands an entry from each vertex
to its successors.  The forwarding table that it returns has, under each prefix, exactly the entries that were
handed to the vertices with the prefix (`sptComputeFib_records`).
-/

namespace Cbgp.Verified

open Cbgp.Lib Cbgp.Net Relation

/-! ## Looking into a forwarding table -/

/-- The entries under a prefix. -/
def entriesAt (fib : Fib) (key : Pfx) : List RtEntry :=
  ((fib.lookup key).map (·.entries)).getD []

/-- The metric of the route under a prefix. -/
def metricAt (fib : Fib) (key : Pfx) : Option UInt32 :=
  (fib.lookup key).map (·.metric)

theorem rtEntriesAdd_mem (entry other : RtEntry) (entries : List RtEntry) :
    other ∈ (rtEntriesAdd entry entries).getD entries ↔ other ∈ entries ∨ other = entry := by
  have refused {list : List RtEntry} (none_ : rtEntriesAdd entry list = none) : entry ∈ list := by
    induction list with
    | nil => cases none_
    | cons first list inductionHypothesis =>
      rw [rtEntriesAdd] at none_
      split at none_
      · cases none_
      next equal =>
        rw [(rtEntryCompare_eq_iff.mp equal).1]
        exact List.mem_cons_self
      · exact List.mem_cons_of_mem _ (inductionHypothesis (Option.map_eq_none_iff.mp none_))
  cases added : rtEntriesAdd entry entries with
  | none =>
    refine ⟨.inl, fun either => ?_⟩
    obtain old | rfl := either
    · exact old
    · exact refused added
  | some list =>
    rw [Option.getD_some, (mem_rtEntriesAdd added).mem_iff, List.mem_cons, or_comm]

/-- What the installation of an entry under some prefixes does to a forwarding table. -/
structure FibInstalls (fib fib' : Fib) (entry : RtEntry) (given : Pfx → UInt32 → Prop) : Prop where
  entries : ∀ key other, other ∈ entriesAt fib' key ↔
    other ∈ entriesAt fib key ∨ (∃ weight, given key weight) ∧ other = entry
  metric : ∀ key weight, metricAt fib' key = some weight → metricAt fib key = some weight ∨ given key weight

theorem FibInstalls.none (fib : Fib) (entry : RtEntry) : FibInstalls fib fib entry fun _ _ => False := by
  refine ⟨fun key other => ?_, fun key weight => .inl⟩
  simp

theorem FibInstalls.trans {fib fib' fib'' : Fib} {entry : RtEntry} {given given' : Pfx → UInt32 → Prop}
    (first : FibInstalls fib fib' entry given) (second : FibInstalls fib' fib'' entry given') :
    FibInstalls fib fib'' entry fun key weight => given key weight ∨ given' key weight := by
  refine ⟨fun key other => ?_, fun key weight stored => ?_⟩
  · rw [second.entries, first.entries, exists_or, or_and_right, or_assoc]
  · obtain old | new := second.metric key weight stored
    · exact (first.metric key weight old).imp_right .inl
    · exact .inr (.inr new)

theorem FibInstalls.congr {fib fib' : Fib} {entry : RtEntry} {given given' : Pfx → UInt32 → Prop}
    (installs : FibInstalls fib fib' entry given) (same : ∀ key weight, given key weight ↔ given' key weight) :
    FibInstalls fib fib' entry given' := by
  have same' : given = given' := funext fun key => funext fun weight => propext (same key weight)
  exact same' ▸ installs

theorem sptInstallFibEntry_fibInstalls (fib : Fib) (pfx : Pfx) (weight : UInt32) (entry : RtEntry) :
    FibInstalls fib (sptInstallFibEntry fib pfx weight entry) entry
      fun key w => key = ipPrefixMask pfx ∧ w = weight := by
  unfold sptInstallFibEntry
  refine ⟨fun key other => ?_, fun key w stored => ?_⟩
  · by_cases same : key = ipPrefixMask pfx
    · subst same
      simp only [entriesAt, AList.lookup_insert, Option.map_some, Option.getD_some]
      cases known : fib.lookup (ipPrefixMask pfx) with
      | none => simpa using rtEntriesAdd_mem entry other []
      | some rtinfo => simpa using rtEntriesAdd_mem entry other rtinfo.entries
    · simp [entriesAt, AList.lookup_insert_ne same, same]
  · by_cases same : key = ipPrefixMask pfx
    · subst same
      simp only [metricAt, AList.lookup_insert, Option.map_some, Option.some.injEq] at stored
      cases known : fib.lookup (ipPrefixMask pfx) with
      | none =>
        rw [known] at stored
        exact .inr ⟨rfl, stored.symm⟩
      | some rtinfo =>
        rw [known] at stored
        refine .inl ?_
        rw [metricAt, known, ← stored]
        rfl
    · rw [metricAt, AList.lookup_insert_ne same] at stored
      exact .inl stored

/-! ## Vertices -/

section Vertices

variable {N I S : Type} {net : Topology N I S} {spt : Spt N I S}

/-- The prefixes that are installed for a vertex, with the metric of the route. -/
def Advertises (net : Topology N I S) (key : Pfx) (vertex : SptVertex N I S) (pfx : Pfx) (weight : UInt32) :
    Prop :=
  match vertex.elem with
  | .node n => ∃ i ∈ net.ifaces n, ((net.iface i).type = .loopback ∨ (net.iface i).type = .virtual) ∧
      pfx = ipPrefixMask (netIfaceId (net.iface i)) ∧
      weight = netIgpAddWeights vertex.weight (net.iface i).metric
  | _ => pfx = ipPrefixMask key ∧ weight = vertex.weight

theorem sptInstallFib_fibInstalls (fib : Fib) (key : Pfx) (vertex : SptVertex N I S) (entry : RtEntry) :
    FibInstalls fib (sptInstallFib net fib key vertex entry) entry (Advertises net key vertex) := by
  unfold sptInstallFib Advertises
  cases vertex.elem with
  | subnet s => exact sptInstallFibEntry_fibInstalls fib key vertex.weight entry
  | link i => exact sptInstallFibEntry_fibInstalls fib key vertex.weight entry
  | node n =>
    dsimp only
    -- the addresses of the node are installed one after the other
    generalize net.ifaces n = ifaces
    induction ifaces generalizing fib with
    | nil => exact (FibInstalls.none fib entry).congr (by simp)
    | cons i ifaces inductionHypothesis =>
      rw [List.foldl_cons]
      refine ((?_ : FibInstalls fib _ entry fun pfx weight =>
        ((net.iface i).type = .loopback ∨ (net.iface i).type = .virtual) ∧
          pfx = ipPrefixMask (netIfaceId (net.iface i)) ∧
          weight = netIgpAddWeights vertex.weight (net.iface i).metric).trans (inductionHypothesis _)).congr
        fun pfx weight => by simp
      have installs := sptInstallFibEntry_fibInstalls fib (netIfaceId (net.iface i))
        (netIgpAddWeights vertex.weight (net.iface i).metric) entry
      split
      next own => exact installs.congr fun pfx weight => by simp [own]
      next own => exact installs.congr fun pfx weight => by simp [own]
      next notLoopback notVirtual =>
        refine (FibInstalls.none fib entry).congr fun pfx weight => ⟨False.elim, fun both => ?_⟩
        obtain type | type := both.1
        · exact notLoopback type
        · exact notVirtual type

end Vertices

/-! ## The traversal -/

section Traversals

variable {N I S : Type} [DecidableEq N] [DecidableEq I] [DecidableEq S] {net : Topology N I S} {spt : Spt N I S}
  {order : Traversal}

/-- A vertex that was handed an entry hands one to a successor. -/
def HandedEntry (net : Topology N I S) (spt : Spt N I S) (vertex : SptVertex N I S) (rtentry : Option (FibEntry I))
    (next : FibContext I) : Prop :=
  ∃ succ entry, spt.lookup next.vertex = some succ ∧ nextEntry net vertex rtentry succ.elem = .ok entry ∧
    next.rtentry = some entry

/-- The same, for the vertex of a context and all of its successors. -/
def Hands (net : Topology N I S) (spt : Spt N I S) (context next : FibContext I) : Prop :=
  ∃ vertex, spt.lookup context.vertex = some vertex ∧ next.vertex ∈ vertex.succs ∧
    HandedEntry net spt vertex context.rtentry next

/-- The forwarding table holds the entries of the contexts that were recorded. -/
structure Records (net : Topology N I S) (spt : Spt N I S) (recorded : FibContext I → Prop) (fib : Fib) :
    Prop where
  entries : ∀ key other, other ∈ entriesAt fib key ↔ ∃ context vertex entry weight, recorded context ∧
    spt.lookup context.vertex = some vertex ∧ context.rtentry = some entry ∧
    Advertises net context.vertex vertex key weight ∧ other = entry.toRtEntry net
  metric : ∀ key weight, metricAt fib key = some weight → ∃ context vertex, recorded context ∧
    spt.lookup context.vertex = some vertex ∧ Advertises net context.vertex vertex key weight

omit [DecidableEq N] [DecidableEq I] [DecidableEq S] in
theorem Records.install {recorded : FibContext I → Prop} {fib fib' : Fib} {key : Pfx} {succ : SptVertex N I S}
    {entry : FibEntry I} (records : Records net spt recorded fib) (found : spt.lookup key = some succ)
    (installs : FibInstalls fib fib' (entry.toRtEntry net) (Advertises net key succ)) :
    Records net spt (fun c => recorded c ∨ c = ⟨key, some entry⟩) fib' := by
  refine ⟨fun pfx other => ?_, fun pfx weight stored => ?_⟩
  · rw [installs.entries, records.entries]
    constructor
    · intro either
      obtain ⟨c, vertex, e, w, known, rest⟩ | ⟨⟨w, given⟩, rfl⟩ := either
      · exact ⟨c, vertex, e, w, .inl known, rest⟩
      · exact ⟨⟨key, some entry⟩, succ, entry, w, .inr rfl, found, rfl, given, rfl⟩
    · intro held
      obtain ⟨c, vertex, e, w, known | rfl, atVertex, handed, given, same⟩ := held
      · exact .inl ⟨c, vertex, e, w, known, atVertex, handed, given, same⟩
      · rw [found] at atVertex
        cases atVertex
        cases handed
        exact .inr ⟨⟨w, given⟩, same⟩
  · obtain old | given := installs.metric pfx weight stored
    · obtain ⟨c, vertex, known, rest⟩ := records.metric pfx weight old
      exact ⟨c, vertex, .inl known, rest⟩
    · exact ⟨⟨key, some entry⟩, succ, .inr rfl, found, given⟩

theorem fibSuccessor_ok {vertex : SptVertex N I S} {rtentry : Option (FibEntry I)}
    {state state' : Fib × List (FibContext I)} {key : Pfx}
    (h : fibSuccessor net spt vertex rtentry state key = .ok state') :
    ∃ succ entry, spt.lookup key = some succ ∧ nextEntry net vertex rtentry succ.elem = .ok entry ∧
      state.2.length < stackDepth ∧
      state' = (sptInstallFib net state.1 key succ (entry.toRtEntry net), ⟨key, some entry⟩ :: state.2) := by
  unfold fibSuccessor at h
  cases found : spt.lookup key with
  | none =>
    rw [found] at h
    cases h
  | some succ =>
    rw [found] at h
    obtain ⟨entry, next, h⟩ := except_bind_eq_ok.mp h
    dsimp only at h
    split at h
    next room =>
      cases h
      exact ⟨succ, entry, rfl, next, room, rfl⟩
    next => cases h

/-- The loop over the successors records the contexts that they are handed, and pushes them. -/
theorem fibSuccessors_record {vertex : SptVertex N I S} {rtentry : Option (FibEntry I)} {keys : List Pfx}
    {state state' : Fib × List (FibContext I)} {recorded : FibContext I → Prop}
    (records : Records net spt recorded state.1)
    (h : keys.foldlM (fibSuccessor net spt vertex rtentry) state = .ok state') :
    Records net spt (fun c => recorded c ∨ c.vertex ∈ keys ∧ HandedEntry net spt vertex rtentry c) state'.1 ∧
      ∀ c, c ∈ state'.2 ↔ c ∈ state.2 ∨ c.vertex ∈ keys ∧ HandedEntry net spt vertex rtentry c := by
  induction keys generalizing state recorded with
  | nil =>
    cases h
    refine ⟨?_, fun c => by simp⟩
    simpa using records
  | cons key keys inductionHypothesis =>
    rw [List.foldlM_cons, except_bind_eq_ok] at h
    obtain ⟨mid, first, rest⟩ := h
    obtain ⟨succ, entry, found, next, _, rfl⟩ := fibSuccessor_ok first
    -- the successor is handed one entry only
    have handed (c : FibContext I) : c = ⟨key, some entry⟩ ↔ c.vertex = key ∧ HandedEntry net spt vertex rtentry c := by
      constructor
      · rintro rfl
        exact ⟨rfl, succ, entry, found, next, rfl⟩
      · intro both
        obtain ⟨rfl, succ', entry', found', next', handed'⟩ := both
        rw [found] at found'
        cases found'
        rw [next] at next'
        cases next'
        rw [← handed']
    obtain ⟨records', pushed⟩ := inductionHypothesis
      (records.install found (sptInstallFib_fibInstalls state.1 key succ (entry.toRtEntry net))) rest
    constructor
    · have same : (fun c => (recorded c ∨ c = ⟨key, some entry⟩) ∨
            c.vertex ∈ keys ∧ HandedEntry net spt vertex rtentry c) =
          fun c => recorded c ∨ c.vertex ∈ key :: keys ∧ HandedEntry net spt vertex rtentry c := by
        funext c
        rw [handed, List.mem_cons, or_and_right, or_assoc]
      exact same ▸ records'
    · intro c
      rw [pushed, List.mem_cons, handed, List.mem_cons, or_and_right]
      tauto

/-- The forwarding table that the loop returns. -/
theorem fibLoop_records {start : FibContext I} {fuel : ℕ} {fib fib' : Fib} {stack : List (FibContext I)}
    {recorded : FibContext I → Prop} (exhausting : Exhausting (Hands net spt) start recorded stack)
    (records : Records net spt recorded fib) (h : fibLoop net order spt fuel (fib, stack) = .ok fib') :
    Records net spt (TransGen (Hands net spt) start) fib' := by
  induction fuel generalizing fib stack recorded with
  | zero =>
    cases stack with
    | nil =>
      cases h
      have same : recorded = TransGen (Hands net spt) start := funext fun c => propext (exhausting.finished c)
      exact same ▸ records
    | cons context stack => cases h
  | succ fuel inductionHypothesis =>
    cases stack with
    | nil =>
      cases h
      have same : recorded = TransGen (Hands net spt) start := funext fun c => propext (exhausting.finished c)
      exact same ▸ records
    | cons context stack =>
      rw [fibLoop] at h
      cases found : spt.lookup context.vertex with
      | none =>
        simp only [found] at h
        cases h
      | some vertex =>
        simp only [found] at h
        obtain ⟨state, visited, h⟩ := except_bind_eq_ok.mp h
        obtain ⟨records', pushed⟩ := fibSuccessors_record records visited
        -- A turn records what the context hands on and pushes it, in the order of the successors.
        have hands (c : FibContext I) : Hands net spt context c ↔
            c.vertex ∈ order.order vertex.succs ∧ HandedEntry net spt vertex context.rtentry c := by
          rw [order.mem_order]
          constructor
          · intro hands
            obtain ⟨vertex', found', rest⟩ := hands
            rw [found] at found'
            cases found'
            exact rest
          · exact fun both => ⟨vertex, found, both⟩
        apply inductionHypothesis (exhausting.turn (fun c => ?_) fun c => ?_) records' h
        · rw [hands]
        · rw [pushed, hands]

/-- The forwarding table of a router has under each prefix the entries that the walk down the tree hands to the
vertices with the prefix, and no others; the metric is that of one of these vertices. -/
theorem sptComputeFib_records {root : N} {fuel : ℕ} {fib : Fib}
    (h : sptComputeFib net order root spt fuel = .ok fib) :
    Records net spt (TransGen (Hands net spt) ⟨elemKey net (.node root), none⟩) fib := by
  refine fibLoop_records (Exhausting.start_ _ _) ⟨fun key other => ?_, fun key weight stored => ?_⟩ h
  · simp [entriesAt]
  · simp [metricAt] at stored

end Traversals

end Cbgp.Verified
