import Cbgp.Verified.IgpRoutes
import Cbgp.Verified.ShortestPaths

/-! # The IGP routes of a domain

`igp_compute_domain` replaces the routes of the routers of a domain, whatever their tables hold.
The walk over the shortest-path tree that builds a forwarding table stops (`sptComputeFib_settles`),
since every step away from the root raises the rank of the vertex.  When it stops in a table, the
router's IGP routes become those of the table and no other route changes
(`igpComputeRouters_recomputed`).
-/

namespace Cbgp.Verified

open Cbgp.Lib Cbgp.Net

variable {N I S : Type}

/-! ## Forwarding tables are sound -/

theorem sptInstallFibEntry_sound {fib : Fib} (sound : SoundFib fib) (pfx : Pfx) (weight : UInt32)
    (rtentry : RtEntry) : SoundFib (sptInstallFibEntry fib pfx weight rtentry) := by
  intro key rtinfo found
  simp only [sptInstallFibEntry] at found
  by_cases same : key = ipPrefixMask pfx
  · subst same
    rw [AList.lookup_insert, Option.some.injEq] at found
    subst found
    refine ⟨ipPrefixMask_idem pfx, ?_⟩
    cases known : fib.lookup (ipPrefixMask pfx) with
    | none => rfl
    | some rtinfo => exact (sound _ _ known).2
  · rw [AList.lookup_insert_ne same] at found
    exact sound key rtinfo found

theorem sptInstallFib_sound (net : Topology N I S) {fib : Fib} (sound : SoundFib fib) (key : Pfx)
    (vertex : SptVertex N I S) (rtentry : RtEntry) :
    SoundFib (sptInstallFib net fib key vertex rtentry) := by
  unfold sptInstallFib
  split
  next n _ =>
    generalize net.ifaces n = ifaces
    induction ifaces generalizing fib with
    | nil => exact sound
    | cons i ifaces inductionHypothesis =>
      rw [List.foldl_cons]
      apply inductionHypothesis
      split
      · exact sptInstallFibEntry_sound sound _ _ _
      · exact sptInstallFibEntry_sound sound _ _ _
      · exact sound
  next => exact sptInstallFibEntry_sound sound _ _ _

variable {net : Topology N I S} {order : Traversal} {spt : Spt N I S}

variable [DecidableEq N] [DecidableEq I] [DecidableEq S]

/-- What is done for one successor: its routes are installed and it is pushed. -/
theorem fibSuccessor_ends {vertex : SptVertex N I S} {rtentry : Option (FibEntry I)}
    {state : Fib × List (FibContext I)} {key : Pfx} (sound : SoundFib state.1) :
    Ends (fun state' => SoundFib state'.1 ∧ ∃ entry, state'.2 = ⟨key, entry⟩ :: state.2)
      (· ≠ .outOfFuel) (fibSuccessor net spt vertex rtentry state key) := by
  unfold fibSuccessor
  split
  · exact IgpFault.noConfusion
  next succ found =>
    have entry : Ends (fun _ => True) (· ≠ .outOfFuel) (nextEntry net vertex rtentry succ.elem) := by
      unfold nextEntry
      repeat' split
      all_goals first | trivial | exact IgpFault.noConfusion
    refine entry.bind fun entry _ => ?_
    split
    · exact ⟨sptInstallFib_sound net sound _ _ _, some entry, rfl⟩
    · exact IgpFault.noConfusion

/-- The loop over the successors of a vertex pushes some of them. -/
theorem fibSuccessors_ends {vertex : SptVertex N I S} {rtentry : Option (FibEntry I)} {keys : List Pfx}
    {fib : Fib} {rest : List (FibContext I)} (sound : SoundFib fib) :
    Ends (fun state => SoundFib state.1 ∧
        ∃ pushed, state.2 = pushed ++ rest ∧ ∀ c ∈ pushed, c.vertex ∈ keys)
      (· ≠ .outOfFuel) (keys.foldlM (fibSuccessor net spt vertex rtentry) (fib, rest)) := by
  refine Ends.loop (fun state key member holds => ?_) ⟨sound, [], rfl, by simp⟩
  obtain ⟨sound', pushed, stack, within⟩ := holds
  refine (fibSuccessor_ends sound').mono (fun state' after => ?_) fun _ => id
  obtain ⟨sound'', entry, stack'⟩ := after
  refine ⟨sound'', ⟨key, entry⟩ :: pushed, by rw [stack', stack]; rfl, fun c inside => ?_⟩
  cases inside with
  | head => exact loopStates_snd member
  | tail _ later => exact within c later

/-! ## The walk ends -/

/-- With enough fuel the computation has a result, the same for all more fuel. -/
def Settles {α : Type} (run : ℕ → Except IgpFault α) : Prop :=
  ∃ fuel result, (∀ more, fuel ≤ more → run more = result) ∧ result ≠ .error .outOfFuel

theorem fibLoop_cons (fuel : ℕ) (fib : Fib) (context : FibContext I) (rest : List (FibContext I)) :
    fibLoop net order spt (fuel + 1) (fib, context :: rest) =
      match spt.lookup context.vertex with
      | none => .error .nullPointer
      | some vertex =>
        (order.order vertex.succs).foldlM (fibSuccessor net spt vertex context.rtentry) (fib, rest) >>=
          fibLoop net order spt fuel := by
  cases found : spt.lookup context.vertex with
  | none => simp only [fibLoop, found]
  | some vertex => simp only [fibLoop, found]

/-- The rank of a vertex of the tree, 0 for what is not in the tree. -/
def rankAt (spt : Spt N I S) (key : Pfx) : ℕ :=
  ((spt.lookup key).map fun vertex => rank vertex.elem vertex.weight).getD 0

/-- A successor has a higher rank, and ranks are bounded. -/
structure Rising (spt : Spt N I S) : Prop where
  succ : ∀ {k vertex s}, spt.lookup k = some vertex → s ∈ vertex.succs → rankAt spt k < rankAt spt s
  bounded : ∀ k, rankAt spt k < 2 * 2 ^ 32

omit [DecidableEq N] [DecidableEq S] [DecidableEq I] in
theorem Shape.rising_ranks {domain : List N} {root : N} {comp : SptComp N I S}
    (shape : Shape net domain root comp) : Rising comp.spt where
  succ := by
    intro k vertex s found member
    have successor : s ∈ succsOf comp.spt k := by
      rw [succsOf, found]
      exact member
    obtain ⟨elemA, weightA, elemB, weightB, atA, weighA, atB, weighB, less⟩ :=
      shape.rising (shape.linked.mirror.mpr successor)
    obtain ⟨a, foundA, rfl⟩ := Option.map_eq_some_iff.mp atA
    obtain ⟨b, foundB, rfl⟩ := Option.map_eq_some_iff.mp atB
    simp only [weightOf, foundA, foundB, Option.map_some, Option.some.injEq] at weighA weighB
    subst weighA weighB
    simpa [rankAt, foundA, foundB] using less
  bounded k := by
    unfold rankAt
    cases comp.spt.lookup k with
    | none => simp
    | some vertex =>
      have bound := vertex.weight.toNat_lt
      simp only [Option.map_some, Option.getD_some]
      cases vertex.elem <;> simp only [rank] <;> omega

/-- If the rest of the stack settles, so does the stack with one more vertex. -/
theorem fibLoop_push (rising : Rising spt) (key : Pfx) :
    ∀ (rtentry : Option (FibEntry I)) (rest : List (FibContext I)),
      (∀ fib, SoundFib fib → Settles fun fuel => fibLoop net order spt fuel (fib, rest)) →
      ∀ fib, SoundFib fib → Settles fun fuel => fibLoop net order spt fuel (fib, ⟨key, rtentry⟩ :: rest) := by
  induction height : 2 * 2 ^ 32 - rankAt spt key using Nat.strong_induction_on generalizing key with
  | _ n smaller =>
    intro rtentry rest below fib sound
    cases found : spt.lookup key with
    | none =>
      refine ⟨1, .error .nullPointer, fun more enough => ?_, by simp⟩
      obtain ⟨more, rfl⟩ := Nat.exists_eq_add_of_le' enough
      simp only [fibLoop_cons, found]
    | some vertex =>
      have turn : Ends _ _ ((order.order vertex.succs).foldlM
          (fibSuccessor net spt vertex rtentry) (fib, rest)) := fibSuccessors_ends sound
      cases result : (order.order vertex.succs).foldlM
          (fibSuccessor net spt vertex rtentry) (fib, rest) with
      | error fault =>
        refine ⟨1, .error fault, fun more enough => ?_, fun ran => ?_⟩
        · obtain ⟨more, rfl⟩ := Nat.exists_eq_add_of_le' enough
          simp only [fibLoop_cons, found, result]
          rfl
        · cases ran
          exact turn.error result rfl
      | ok state =>
        obtain ⟨sound', pushed, stack, within⟩ := turn.value result
        -- the pushed vertices are successors: each of them can be pushed on a stack that settles
        have settles : ∀ contexts : List (FibContext I), (∀ c ∈ contexts, c.vertex ∈ vertex.succs) →
            ∀ fib, SoundFib fib →
              Settles fun fuel => fibLoop net order spt fuel (fib, contexts ++ rest) := by
          intro contexts
          induction contexts with
          | nil => exact fun _ => below
          | cons c contexts inductionHypothesis =>
            intro successors
            have higher := rising.succ found (successors c List.mem_cons_self)
            have bound := rising.bounded c.vertex
            exact smaller _ (by omega) c.vertex rfl c.rtentry (contexts ++ rest)
              (inductionHypothesis fun c member => successors c (List.mem_cons_of_mem _ member))
        obtain ⟨fuel, final, stable, ended⟩ := settles pushed
          (fun c member => order.mem_order.mp (within c member)) state.1 sound'
        refine ⟨fuel + 1, final, fun more enough => ?_, ended⟩
        obtain ⟨more, rfl⟩ := Nat.exists_eq_add_of_le' (Nat.le_of_add_left_le enough)
        simp only [fibLoop_cons, found, result]
        rw [← stable more (by omega), ← stack]
        rfl

theorem sptComputeFib_settles (net : Topology N I S) (order : Traversal) (rising : Rising spt) (root : N) :
    Settles (sptComputeFib net order root spt) := by
  refine fibLoop_push rising _ none [] (fun fib _ => ?_) ∅ ?_
  · refine ⟨0, .ok fib, fun more _ => ?_, by simp⟩
    change fibLoop net order spt more (fib, []) = .ok fib
    rw [fibLoop.eq_def]
  · intro key rtinfo found
    cases found

/-- A forwarding table that is computed is sound. -/
theorem fibLoop_sound {fuel : ℕ} {fib fib' : Fib} {stack : List (FibContext I)} (sound : SoundFib fib)
    (ended : fibLoop net order spt fuel (fib, stack) = .ok fib') : SoundFib fib' := by
  induction fuel generalizing fib stack with
  | zero =>
    cases stack with
    | nil =>
      rw [fibLoop] at ended
      cases ended
      exact sound
    | cons context stack =>
      rw [fibLoop] at ended
      cases ended
  | succ fuel inductionHypothesis =>
    cases stack with
    | nil =>
      rw [fibLoop] at ended
      cases ended
      exact sound
    | cons context stack =>
      rw [fibLoop_cons] at ended
      split at ended
      · cases ended
      · obtain ⟨state, turn, later⟩ := except_bind_eq_ok.mp ended
        exact inductionHypothesis ((fibSuccessors_ends sound).value turn).1 later

/-! ## The recomputation -/

variable {domain : List N}

theorem routerFib_sound {fuel : ℕ} {node : N} {fib : Fib}
    (computed : routerFib net order domain fuel node = .ok fib) : SoundFib fib := by
  obtain ⟨spt, _, walked⟩ := except_bind_eq_ok.mp computed
  refine fibLoop_sound (fun key rtinfo found => ?_) walked
  cases found

/-- What a recomputation does to the tables, for the forwarding tables of the routers of a list. -/
structure Recomputed (fibs : N → Fib) (routers : List N) (tables tables' : N → NetRt) : Prop where
  igp : ∀ n ∈ routers, ∀ q, igpRoutesTo (tables' n) q = ((fibs n).lookup (ipPrefixMask q)).toList
  outside : ∀ n ∉ routers, tables' n = tables n
  other : ∀ n q, otherRoutesTo (tables' n) q = otherRoutesTo (tables n) q

/-- One router. -/
theorem igpComputeRouter_recomputed {fuel : ℕ} (tables : N → NetRt) {node : N} {fib : Fib}
    (computed : routerFib net order domain fuel node = .ok fib) :
    ∃ rt, igpComputeRouter net order domain fuel (.success, tables) node =
        .ok (.success, Function.update tables node rt) ∧
      (∀ q, igpRoutesTo rt q = (fib.lookup (ipPrefixMask q)).toList) ∧
      ∀ q, otherRoutesTo rt q = otherRoutesTo (tables node) q := by
  have cleared := routesTo_rtDelRoute_igp (tables node)
  have fresh : ∀ q,
      igpRoutesTo (rtDelRoute (tables node) none none none RouteType.igp.bit).2 q = [] := by
    intro q
    rw [igpRoutesTo, cleared, otherRoutesTo, List.filter_filter]
    simp
  obtain ⟨rt, added, igp, other⟩ := addFib_spec (routerFib_sound computed) fresh
  refine ⟨rt, ?_, igp, fun q => ?_⟩
  · simp only [igpComputeRouter, computed, added, bind, Except.bind]
  · rw [other, otherRoutesTo, cleared, otherRoutesTo, List.filter_filter]
    simp

/-- All routers of a list, when every forwarding table can be computed. -/
theorem igpComputeRouters_recomputed {fuel : ℕ} {fibs : N → Fib} {routers : List N}
    (computed : ∀ n ∈ routers, routerFib net order domain fuel n = .ok (fibs n)) (tables : N → NetRt) :
    ∃ tables', routers.foldlM (igpComputeRouter net order domain fuel) (.success, tables) =
        .ok (.success, tables') ∧ Recomputed fibs routers tables tables' := by
  induction routers generalizing tables with
  | nil => exact ⟨tables, rfl, by simp, fun _ _ => rfl, fun _ _ => rfl⟩
  | cons node routers inductionHypothesis =>
    obtain ⟨rt, first, igp, other⟩ := igpComputeRouter_recomputed tables
      (computed node List.mem_cons_self)
    obtain ⟨tables', later, rest⟩ := inductionHypothesis
      (fun n member => computed n (List.mem_cons_of_mem _ member)) (Function.update tables node rt)
    refine ⟨tables', ?_, fun n member q => ?_, fun n absent => ?_, fun n q => ?_⟩
    · rw [List.foldlM_cons, first]
      exact later
    · by_cases again : n ∈ routers
      · exact rest.igp n again q
      · rw [rest.outside n again]
        cases member with
        | head => rw [Function.update_self, igp]
        | tail _ member => exact absurd member again
    · rw [List.mem_cons, not_or] at absent
      rw [rest.outside n absent.2, Function.update_of_ne absent.1]
    · rw [rest.other]
      by_cases same : n = node
      · subst same
        rw [Function.update_self, other]
      · rw [Function.update_of_ne same]

/-- A forwarding table that cannot be computed stops the recomputation. -/
theorem igpComputeRouters_fault {fuel : ℕ} {routers : List N} (tables : N → NetRt)
    (failed : ∃ n ∈ routers, ∀ fib, routerFib net order domain fuel n ≠ .ok fib) :
    ∃ n ∈ routers, ∃ fault, routerFib net order domain fuel n = .error fault ∧
      routers.foldlM (igpComputeRouter net order domain fuel) (.success, tables) = .error fault := by
  induction routers generalizing tables with
  | nil => simp at failed
  | cons node routers inductionHypothesis =>
    cases computed : routerFib net order domain fuel node with
    | error fault =>
      refine ⟨node, List.mem_cons_self, fault, computed, ?_⟩
      rw [List.foldlM_cons]
      simp only [igpComputeRouter, computed, bind, Except.bind]
    | ok fib =>
      obtain ⟨rt, first, _, _⟩ := igpComputeRouter_recomputed tables computed
      obtain ⟨n, member, missing⟩ := failed
      have later : ∃ n ∈ routers, ∀ fib, routerFib net order domain fuel n ≠ .ok fib := by
        cases member with
        | head => exact absurd computed (missing fib)
        | tail _ member => exact ⟨n, member, missing⟩
      obtain ⟨n, member, fault, failed, stopped⟩ := inductionHypothesis
        (Function.update tables node rt) later
      refine ⟨n, List.mem_cons_of_mem _ member, fault, failed, ?_⟩
      rw [List.foldlM_cons, first]
      exact stopped

end Cbgp.Verified
