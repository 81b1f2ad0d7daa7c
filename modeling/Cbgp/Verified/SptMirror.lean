import Cbgp.Verified.IgpDomain
import Cbgp.Verified.Survey
import Mathlib.Logic.Relation

/-! # The two lists of neighbours

`spt_vertex_add_pred` and `spt_vertex_clear_preds` assert that a vertex is in the successors of its
predecessors and nowhere else.  The lists mirror each other in every state of `spt_bfs`
(`InSearch.shape`), in the middle of an update too (`Updating.linked`), so no assertion fails; and
a walk along the successors never comes back, since every step raises the rank of the vertex
(`Rising.acyclic`).
-/

namespace Cbgp.Verified

open Cbgp.Lib Cbgp.Net

variable {N I S : Type} [DecidableEq I]

/-! ## The states of a search -/

section States

variable (net : Topology N I S) (domain : List N) (root : N)

/-- The states of `spt_bfs` between two turns of its main loop. -/
inductive BetweenTurns : SptComp N I S → Prop where
  | start : BetweenTurns (sptStart net root)
  | turn {comp comp' : SptComp N I S} {context : SptContext I} {rest : List (SptContext I)} :
      BetweenTurns comp → comp.fifo = context :: rest →
      sptTurn net domain comp context rest = .ok comp' → BetweenTurns comp'

/-- The states of `spt_bfs`: inside a turn, some of the links out of the vertex have been
traversed. -/
inductive InSearch : SptComp N I S → Prop where
  | between {comp : SptComp N I S} : BetweenTurns net domain root comp → InSearch comp
  | inside {comp comp' : SptComp N I S} {context : SptContext I} {rest : List (SptContext I)}
      {vertex : SptVertex N I S} {traversed links : List I} :
      BetweenTurns net domain root comp → comp.fifo = context :: rest →
      comp.spt.lookup context.vertex = some vertex →
      outboundLinks net vertex.elem = .ok (traversed ++ links) →
      traversed.foldlM (linkTraverse net domain context) { comp with fifo := rest } = .ok comp' →
      InSearch comp'

variable {domain root}

/-- The trees `_spt_update_node` passes through before it adds a predecessor to the vertex of
`elem`. -/
inductive Updating (spt : Spt N I S) (elem : NetElem N I S) (weight : UInt32) : Spt N I S → Prop where
  | created : spt.lookup (elemKey net elem) = none →
      Updating spt elem weight (spt.insert (elemKey net elem)
        { elem := elem, weight := weight, preds := [], succs := [] })
  | lowered {vertex : SptVertex N I S} : spt.lookup (elemKey net elem) = some vertex →
      weight < vertex.weight →
      Updating spt elem weight (spt.modify (elemKey net elem) fun v => { v with weight := weight })
  | cleared {vertex : SptVertex N I S} {spt' : Spt N I S} :
      spt.lookup (elemKey net elem) = some vertex → weight < vertex.weight →
      sptVertexClearPreds (spt.modify (elemKey net elem) fun v => { v with weight := weight })
        (elemKey net elem) = .ok spt' →
      Updating spt elem weight spt'

end States

variable {net : Topology N I S} {domain : List N} {root : N} {comp : SptComp N I S}
variable {spt spt' : Spt N I S}

theorem BetweenTurns.shape (reached : BetweenTurns net domain root comp) :
    Shape net domain root comp := by
  induction reached with
  | start => exact sptStart_shape
  | turn _ queue turned shape => exact ((sptTurn_shape shape queue).value turned).1

theorem InSearch.shape (reached : InSearch net domain root comp) : Shape net domain root comp := by
  cases reached with
  | between reached => exact reached.shape
  | @inside start _ context rest vertex traversed links reached queue found outbound loop =>
    have shape := reached.shape.pop queue
    have atElem : elemOf start.spt context.vertex = some vertex.elem := by
      rw [elemOf, found, Option.map_some]
    have out : ∀ link ∈ traversed, link ∈ linksOf net vertex.elem := by
      intro link member
      rw [linksOf, outbound]
      exact List.mem_append_left _ member
    exact ((linkTraverse_loop shape atElem out).value loop).1

omit [DecidableEq I] in
/-- A new weight leaves the neighbours as they are. -/
theorem linked_weight (linked : Linked spt) (key : Pfx) (weight : UInt32) :
    Linked (spt.modify key fun v => { v with weight := weight }) := by
  have preds : ∀ k, predsOf (spt.modify key fun v => { v with weight := weight }) k = predsOf spt k :=
    predsOf_modify fun _ => rfl
  have succs : ∀ k, succsOf (spt.modify key fun v => { v with weight := weight }) k = succsOf spt k :=
    succsOf_modify fun _ => rfl
  exact
    { mirror := by simp only [preds, succs, linked.mirror, implies_true]
      preds_nodup := by simp only [preds, linked.preds_nodup, implies_true]
      succs_nodup := by simp only [succs, linked.succs_nodup, implies_true] }

omit [DecidableEq I] in
theorem Updating.linked {elem : NetElem N I S} {weight : UInt32} (linked : Linked spt)
    (updating : Updating net spt elem weight spt') : Linked spt' := by
  cases updating with
  | created absent => exact (linked_insert linked (AList.lookup_eq_none.mp absent) elem weight).1
  | lowered _ _ => exact linked_weight linked _ _
  | cleared _ _ clears =>
    obtain ⟨cleared, ended, mirrored, _⟩ :=
      sptVertexClearPreds_spec (v := elemKey net elem) (linked_weight linked (elemKey net elem) weight)
    rw [ended] at clears
    cases clears
    exact mirrored

/-! ## Assertions -/

/-- No assertion fails in a search, however long it is. -/
theorem sptBfs_asserts (net : Topology N I S) (domain : List N) (root : N) (fuel : ℕ) :
    sptBfs net domain root fuel ≠ .error .assertion := by
  intro failed
  have ended := (sptLoop_together fuel (@sptStart_shape _ _ _ net domain root) sptStart_surveyed).error failed
  simp at ended

/-! ## Cycles -/

/-- `b` is a successor of `a`. -/
def IsSucc (spt : Spt N I S) (a b : Pfx) : Prop :=
  b ∈ succsOf spt a

omit [DecidableEq I] in
theorem Rising.isSucc (rising : Rising spt) {a b : Pfx} (succ : IsSucc spt a b) :
    rankAt spt a < rankAt spt b := by
  unfold IsSucc succsOf at succ
  cases found : spt.lookup a with
  | none => simp [found] at succ
  | some vertex =>
    rw [found] at succ
    exact rising.succ found succ

omit [DecidableEq I] in
/-- A walk along the successors goes up. -/
theorem Rising.walk (rising : Rising spt) {a b : Pfx} (walk : Relation.TransGen (IsSucc spt) a b) :
    rankAt spt a < rankAt spt b := by
  induction walk with
  | single first => exact rising.isSucc first
  | tail _ last below => exact Nat.lt_trans below (rising.isSucc last)

omit [DecidableEq I] in
theorem Rising.acyclic (rising : Rising spt) (v : Pfx) : ¬ Relation.TransGen (IsSucc spt) v v :=
  fun cycle => Nat.lt_irrefl _ (rising.walk cycle)

/-! ## The result -/

/-- In every state of the search the predecessors and successors are the inverse of each other,
without duplicates, and none of the assertions on them fails.  The search ends; in the tree it
computes no vertex comes after itself, and the traversal of `_spt_compute_fib` ends. -/
theorem sptBfs_mirror [DecidableEq N] [DecidableEq S] (net : Topology N I S) (domain : List N)
    (root : N) :
    (∀ comp, InSearch net domain root comp → Linked comp.spt ∧
      ∀ elem weight spt, Updating net comp.spt elem weight spt → Linked spt) ∧
    (∀ fuel, sptBfs net domain root fuel ≠ .error .assertion) ∧
    Settles (sptBfs net domain root) ∧
    ∀ fuel spt, sptBfs net domain root fuel = .ok spt →
      (∀ v, ¬ Relation.TransGen (IsSucc spt) v v) ∧
        ∀ order, Settles (sptComputeFib net order root spt) := by
  refine ⟨?_, sptBfs_asserts net domain root, ?_, ?_⟩
  · intro comp reached
    have linked := reached.shape.linked
    exact ⟨linked, fun elem weight spt updating => updating.linked linked⟩
  · obtain ⟨fuel, result, stable, kind⟩ := sptLoop_ends (@sptStart_shape _ _ _ net domain root)
    refine ⟨fuel, result, stable, fun ran => ?_⟩
    rw [ran] at kind
    exact kind.1 rfl
  · intro fuel spt ended
    obtain ⟨final, _⟩ := sptLoop_shape sptStart_shape ended
    have rising : Rising spt := final.rising_ranks
    exact ⟨rising.acyclic, fun order => sptComputeFib_settles net order rising root⟩

end Cbgp.Verified
