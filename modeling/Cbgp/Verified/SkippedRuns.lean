import Cbgp.Verified.AdjRibIn
import Cbgp.Verified.SelectedRoute

/-! # Skipping the decision process

`_bgp_peer_process_update` and `_bgp_peer_disable_adjribin` run the decision process only when the
route that goes carries `ROUTE_FLAG_BEST`.  On a network whose next-hops keep their reachability and
costs, the Loc-RIB stays what the decision process would select from scratch as long as no route
comes back when one that was not best goes (`locAgrees_of_reach`): deterministic MED is not a weak
order, so that a route may be eliminated only by one that is not best itself.
-/

namespace Cbgp.Verified

open Cbgp.Lib Cbgp.Net Cbgp.Bgp

/-! ## Routes that go without a decision process -/

/-- The candidates of the other peers. -/
def others (a : NetAddr) (routes : List Cand) : List Cand :=
  routes.filter fun c => decide (c.addr ≠ a)

theorem others_subset (a : NetAddr) (routes : List Cand) : others a routes ⊆ routes :=
  List.filter_sublist.subset

/-- The route of `a` can go without a decision process: no route that its MED eliminates would be
selected without it. -/
structure Dispensable (r : Router) (p : Pfx) (a : NetAddr) : Prop where
  noRevival : NoRevival (lex ((dpOrder r).take 3)) (medDom r.env.medType) (lex ((dpOrder r).drop 4))
    (fun c => decide (c.addr ≠ a)) (bgpRouterGetFeasibleRoutes r p)
  fits : SelectionFits r (others a (bgpRouterGetFeasibleRoutes r p))

/-- `s` is `r` after the candidate of `a` for the prefix has gone. -/
structure Lost (r s : Router) (p : Pfx) (a : NetAddr) : Prop where
  asn : s.asn = r.asn
  env : s.env = r.env
  loc : s.locRib.findExact p = r.locRib.findExact p
  view : ∀ b, b ≠ a → viewAt s p b = viewAt r p b
  best : ∀ b, b ≠ a → bestAt s b p = bestAt r b p
  gone : ∀ net, candAt (onNet net s) p a = none

theorem dpOrder_take_weak (r : Router) : ∀ dom ∈ (dpOrder r).take 3, WeakOrder dom := by
  intro dom member
  simp only [dpOrder, rulePairs, List.map_cons, List.take_succ_cons, List.take_zero,
    List.mem_cons, List.not_mem_nil, or_false] at member
  obtain rfl | rfl | rfl := member
  · exact prefDom_weak
  · exact pathDom_weak
  · exact originDom_weak

theorem dpOrder_drop_weak (r : Router) : ∀ dom ∈ (dpOrder r).drop 4, WeakOrder dom := by
  intro dom member
  simp only [dpOrder, rulePairs, List.map_cons, List.map_nil, List.drop_succ_cons, List.drop_zero,
    List.mem_cons, List.not_mem_nil, or_false] at member
  obtain rfl | rfl | rfl | rfl | rfl := member
  · exact ebgpDom_weak _
  · exact igpDom_weak _
  · exact routerIdDom_weak
  · exact clusterDom_weak
  · exact addrDom_weak

/-- MED is the only rule that is not a weak order: the rules before it, and those behind it, are
one rule each. -/
theorem leftAfter_stages (r : Router) (routes : List Cand) :
    leftAfter r 9 routes = undominated (lex ((dpOrder r).drop 4))
      (undominated (medDom r.env.medType) (undominated (lex ((dpOrder r).take 3)) routes)) := by
  rw [← survivors_eq_lex (dpOrder_take_weak r), ← survivors_eq_lex (dpOrder_drop_weak r)]
  rfl

theorem leftAfter_others {r : Router} {a : NetAddr} {routes : List Cand} {w : Cand}
    (nodup : routes.Nodup) (single : leftAfter r 9 routes = [w]) (other : w.addr ≠ a)
    (noRevival : NoRevival (lex ((dpOrder r).take 3)) (medDom r.env.medType)
      (lex ((dpOrder r).drop 4)) (fun c => decide (c.addr ≠ a)) routes) :
    leftAfter r 9 (others a routes) = [w] := by
  rw [leftAfter_stages] at single ⊢
  refine undominated_filter_single (lex_weak (dpOrder_take_weak r))
    (lex_weak (dpOrder_drop_weak r)).strictRule nodup ?_ single noRevival
  simpa using other

theorem Lost.netCands {r s : Router} {p : Pfx} {a : NetAddr} (lost : Lost r s p a) (net : NetRt) :
    (netCands net s p).Perm (others a (netCands net r p)) := by
  rw [Verified.netCands, Verified.netCands, others, List.perm_ext_iff_of_nodup
    (getFeasibleRoutes_distinct _ p).of_map ((getFeasibleRoutes_distinct _ p).of_map.filter _)]
  intro c
  rw [List.mem_filter, mem_candidates_iff, mem_candidates_iff, decide_eq_true_eq]
  by_cases same : c.addr = a
  · simp [same, lost.gone]
  · have view : candAt (onNet net s) p c.addr = candAt (onNet net r) p c.addr :=
      candAt_of_view rfl (lost.view c.addr same)
    simp [view, same]

/-- A dispensable route that is not marked goes without a trace. -/
theorem SelectedAt.lost {net : NetRt} {r s : Router} {p : Pfx} {a : NetAddr}
    (selected : SelectedAt net r p) (sees : SeesNet net r) (off : bestAt r a p = false)
    (dispensable : Dispensable r p a) (lost : Lost r s p a) : SelectedAt net s p := by
  have candidates : (netCands net s p).Perm (others a (bgpRouterGetFeasibleRoutes r p)) :=
    (lost.netCands net).trans ((sees.candidates p).filter _)
  have left (n : Nat) : (leftAfter (onNet net s) n (netCands net s p)).Perm
      (leftAfter r n (others a (bgpRouterGetFeasibleRoutes r p))) := by
    rw [leftAfter_onNet net lost.asn lost.env, ← sees.leftAfter p n (others_subset a _)]
    exact survivors_perm _ candidates
  have whole : (leftAfter r 9 (bgpRouterGetFeasibleRoutes r p)).Perm
      (leftAfter (onNet net r) 9 (netCands net r p)) := by
    rw [← sees.leftAfter p 9 (List.Subset.refl _)]
    exact survivors_perm _ (sees.candidates p).symm
  -- The route selected is marked, so that it is not the one that goes.
  have winner (route : Route) (held : r.locRib.findExact p = some route) :
      ∃ w, leftAfter r 9 (others a (bgpRouterGetFeasibleRoutes r p)) = [w] ∧
        Attr.Same route.attr w.attr ∧ w.addr ≠ a ∧ bestAt r w.addr p = true := by
    obtain ⟨w, single, attr, marked⟩ := selected.selected route held
    have other : w.addr ≠ a := by
      rintro rfl
      rw [off] at marked
      cases marked
    refine ⟨w, ?_, attr, other, marked⟩
    exact leftAfter_others (getFeasibleRoutes_distinct r p).of_map
      (List.perm_singleton.mp (single ▸ whole)) other dispensable.noRevival
  refine ⟨?_, fun route held => ?_, dispensable.fits.congr (by rw [onNet, lost.env]) left⟩
  · rw [lost.loc]
    constructor
    · intro absent
      have empty : netCands net r p = [] := selected.none_iff.mp absent
      exact List.perm_nil.mp ((lost.netCands net).trans (by rw [empty]; exact List.Perm.refl _))
    · intro empty
      cases held : r.locRib.findExact p with
      | none => rfl
      | some route =>
        obtain ⟨w, single, _⟩ := winner route held
        have member : w ∈ leftAfter (onNet net s) 9 (netCands net s p) :=
          (left 9).mem_iff.mpr (single ▸ List.mem_singleton_self w)
        have inside := leftAfter_subset _ 9 member
        rw [empty] at inside
        cases inside
  · obtain ⟨w, single, attr, other, marked⟩ := winner route (lost.loc ▸ held)
    exact ⟨w, List.perm_singleton.mp (single ▸ left 9), attr, (lost.best _ other).trans marked⟩

/-! ## Steps -/

/-- The invariant of the runs. -/
structure SkipInv (net : NetRt) (r : Router) : Prop where
  owned : Owned r
  noLocal : NoLocal r
  selected : ∀ p, SelectedAt net r p

namespace SkipInv

variable {net : NetRt} {r s r' : Router}

theorem congr (inv : SkipInv net r) (owned : Owned s) (same : ∀ q, SameAt r q s q) :
    SkipInv net s where
  owned := owned
  noLocal p route held := inv.noLocal p route ((same p).loc ▸ held)
  selected p := (inv.selected p).congr (same p)

/-- A decision process needs the invariant for the other prefixes only. -/
theorem decides {p : Pfx} (owned : Owned s) (noLocal : NoLocal s)
    (elsewhere : ∀ q, ipPrefixMask q ≠ ipPrefixMask p → SelectedAt net s q)
    (compares : Compares net s p) (ran : bgpRouterDecisionProcess s p = .ok r') :
    SkipInv net r' := by
  have outcome := (decisionProcess_ends s p).value ran
  refine ⟨owned.outcome outcome, noLocal.outcome owned outcome, fun q => ?_⟩
  by_cases here : ipPrefixMask q = ipPrefixMask p
  · exact (outcome.selectedAt noLocal compares).congr (.of_key r' here)
  · exact (elsewhere q here).congr (outcome.sameAt here)

/-- An unmarked route that is dispensable is dropped. -/
theorem dropped {addr : NetAddr} {p : Pfx} (inv : SkipInv net r) (sees : SeesNet net r)
    (same : ∀ q, SameAt r q s q) (owned : Owned s) (off : bestAt r addr p = false)
    (dispensable : Dispensable r p addr) : SkipInv net (dropped s addr p) := by
  refine ⟨owned.dropped addr p, fun q route held => ?_, fun q => ?_⟩
  · exact inv.noLocal q route ((same q).loc ▸ held)
  · by_cases here : ipPrefixMask q = ipPrefixMask p
    · refine ((inv.selected p).lost sees off dispensable ?_).congr (.of_key _ here)
      refine ⟨(same p).asn, (same p).env, (same p).loc, fun b other => ?_, fun b other => ?_,
        fun net => ?_⟩
      · rw [← (same p).view, viewAt, viewAt, Verified.dropped, modifyPeer_lookup, if_neg other]
      · rw [← (same p).best, bestAt, bestAt, dropped_adjRoute, if_neg fun both => other both.1]
      · have absent : (onNet net (Verified.dropped s addr p)).adjRoute addr p = none :=
          (dropped_adjRoute s addr addr p p).trans (if_pos ⟨rfl, rfl⟩)
        rw [candAt_eq, absent]
        cases sessionAt (onNet net (Verified.dropped s addr p)) addr with
        | none => rfl
        | some session => simp
    · exact (inv.selected q).congr ((same q).trans (dropped_sameAt s addr here))

/-- A route that is not eligible is dropped. -/
theorem dropped_ineligible {addr : NetAddr} {p : Pfx} (inv : SkipInv net r)
    (ineligible : ∀ q route, ipPrefixMask q = ipPrefixMask p → r.adjRoute addr q = some route →
      route.flags.eligible = false) : SkipInv net (Verified.dropped r addr p) := by
  refine ⟨inv.owned.dropped addr p, inv.noLocal, fun q => (inv.selected q).of_perm rfl rfl rfl ?_ ?_⟩
  · refine candidates_perm fun a => ?_
    have session : sessionAt (onNet net (Verified.dropped r addr p)) a = sessionAt (onNet net r) a :=
      sessionAt_modify r addr a fun _ => rfl
    have adj : (onNet net (Verified.dropped r addr p)).adjRoute a q = _ :=
      dropped_adjRoute r addr a p q
    rw [candAt_eq, candAt_eq, session, adj]
    split
    next here =>
      congr 1
      funext session
      split
      · cases held : (onNet net r).adjRoute a q with
        | none => rfl
        | some route =>
          have off := ineligible q route here.2 (here.1 ▸ held)
          simp [off]
      · rfl
    · rfl
  · intro c member marked
    obtain ⟨_, route, _, _, held, eligible, _⟩ := mem_candidates.mp member
    rw [bestAt, dropped_adjRoute, if_neg]
    · exact marked
    · rintro ⟨same, here⟩
      rw [ineligible q route here (same ▸ held)] at eligible
      cases eligible

theorem update {addr : NetAddr} {peer : Peer} {route : Route} (inv : SkipInv net r)
    (sees : SeesNet net r) (same : ∀ q, SameAt r q s q) (owned : Owned s)
    (held : s.peers.lookup addr = some peer)
    (runs : ∀ run ∈ updateRuns s addr peer route, Compares net run.1 run.2)
    (drops : accepts s addr peer route = false → bestAt r addr route.pfx = false →
      Dispensable r route.pfx addr)
    (h : bgpPeerProcessUpdate s addr peer route = .ok r') : SkipInv net r' := by
  have noLocal : NoLocal s := fun p route held => inv.noLocal p route ((same p).loc ▸ held)
  unfold updateRuns at runs
  obtain ⟨attr, checked, ran⟩ | ⟨checked, ⟨best, ran⟩ | ⟨off, rfl⟩⟩ := processUpdate_cases held h
  · simp only [checked] at runs
    refine decides (owned.stored attr rfl rfl) noLocal (fun q elsewhere => ?_)
      (runs _ List.mem_cons_self) ran
    exact (inv.selected q).congr ((same q).trans (stored_sameAt s addr elsewhere))
  · have flag : (peer.adjRibIn.findExact route.pfx).any (·.flags.best) = true := by
      rw [← adjRoute_of_lookup held]
      exact best
    have pfx : (receivedRoute s addr peer route).pfx = route.pfx := rfl
    simp only [checked, pfx, flag, if_true] at runs
    refine decides (owned.dropped addr route.pfx) noLocal (fun q elsewhere => ?_)
      (runs _ List.mem_cons_self) ran
    exact (inv.selected q).congr ((same q).trans (dropped_sameAt s addr elsewhere))
  · split
    · rw [(same _).best] at off
      refine inv.dropped sees same owned off (drops ?_ off)
      rw [accepts, checked]
      rfl
    · exact inv.congr owned same

theorem withdraw {addr : NetAddr} {peer : Peer} {p : Pfx} (inv : SkipInv net s)
    (held : s.peers.lookup addr = some peer)
    (runs : ∀ run ∈ withdrawRuns s addr peer p, Compares net run.1 run.2)
    (h : bgpPeerProcessWithdraw s addr peer p = .ok r') : SkipInv net r' := by
  unfold withdrawRuns at runs
  rw [← adjRoute_of_lookup held] at runs
  obtain ⟨_, rfl⟩ | ⟨old, t, stored, ran, rfl⟩ := processWithdraw_cases held h
  · exact inv
  · simp only [stored] at runs
    have decided : SkipInv net t := by
      refine decides (inv.owned.retired addr p) inv.noLocal (fun q elsewhere => ?_)
        (runs _ List.mem_cons_self) ran
      exact (inv.selected q).congr (retired_sameAt s addr elsewhere)
    have outcome := (decisionProcess_ends _ p).value ran
    exact decided.dropped_ineligible fun _ _ same => retired_ineligible outcome same

end SkipInv

/-! ## Closing a session -/

/-- A session went down. -/
theorem Lost.of_quiet {r s : Router} {a : NetAddr} (quiet : Quiet r s)
    (others : ∀ b, b ≠ a → s.peers.lookup b = r.peers.lookup b)
    (down : ∀ peer, s.peers.lookup a = some peer → peer.sessionState ≠ .established) (q : Pfx) :
    Lost r s q a where
  asn := by rw [quiet.router]
  env := by rw [quiet.router]
  loc := by rw [quiet.locRib]
  view b other := by rw [viewAt, viewAt, others b other]
  best b _ := bestAt_congr (quiet.adjRoute b q)
  gone net := by
    rw [candAt]
    cases held : s.peers.lookup a with
    | none => simp [onNet, held]
    | some peer => simp [onNet, held, candidate, down peer held]

/-- While the Adj-RIB-In of a peer that went down is scanned: a prefix that may not be right yet has
a marked route there. -/
structure Scanning (net : NetRt) (a : NetAddr) (keys : List Pfx) (r : Router) : Prop where
  owned : Owned r
  noLocal : NoLocal r
  selected : ∀ q, SelectedAt net r q ∨ (ipPrefixMask q ∈ keys ∧ bestAt r a q = true)

section Scan

variable {net : NetRt} {a : NetAddr} {r : Router}

/-- One turn of the scan. -/
theorem Scanning.disable {key : Pfx} {keys : List Pfx} (scanning : Scanning net a (key :: keys) r)
    (runs : ∀ route, r.adjRoute a key = some route → route.flags.best = true →
      Compares net r route.pfx) :
    Ends (Scanning net a keys) (fun _ => True) (bgpPeerDisableAdjribin a r key) := by
  -- A key whose route is not marked best needs no decision: it is settled already.
  have rest (off : bestAt r a key = false) : Scanning net a keys r := by
    refine ⟨scanning.owned, scanning.noLocal, fun q => ?_⟩
    cases scanning.selected q with
    | inl selected => exact .inl selected
    | inr waits =>
      obtain ⟨member, marked⟩ := waits
      cases List.mem_cons.mp member with
      | inl same =>
        have key_eq : ipPrefixMask key = ipPrefixMask q := by rw [← same, ipPrefixMask_idem]
        rw [bestAt, adjRoute_congr r a key_eq] at off
        rw [bestAt, off] at marked
        cases marked
      | inr later => exact .inr ⟨later, marked⟩
  unfold bgpPeerDisableAdjribin
  cases held : r.adjRoute a key with
  | none => exact rest (by rw [bestAt, held]; rfl)
  | some route =>
    simp only
    split
    next best =>
      have pfx : ipPrefixMask route.pfx = ipPrefixMask key := adjRoute_pfx held
      refine Ends.intro (fun r' ran => ?_) fun _ _ => trivial
      -- The route marked best is taken out of the choice, and its prefix is decided again.
      have outcome := (decisionProcess_ends r route.pfx).value ran
      refine ⟨scanning.owned.outcome outcome, scanning.noLocal.outcome scanning.owned outcome,
        fun q => ?_⟩
      by_cases here : ipPrefixMask q = ipPrefixMask route.pfx
      · refine .inl ((outcome.selectedAt scanning.noLocal (runs route held best)).congr ?_)
        exact .of_key r' here
      · have same := outcome.sameAt here
        cases scanning.selected q with
        | inl selected => exact .inl (selected.congr same)
        | inr waits =>
          obtain ⟨member, marked⟩ := waits
          refine .inr ⟨(List.mem_cons.mp member).resolve_left fun first => here ?_,
            (same.best a).trans marked⟩
          rw [pfx, ← first, ipPrefixMask_idem]
    next off => exact rest (by rw [bestAt, held]; simpa using off)

/-- The scan of the Adj-RIB-In of a peer that is down. -/
theorem Scanning.rescan (clear : Bool) (owned : Owned r) (noLocal : NoLocal r)
    (selected : ∀ q, SelectedAt net r q ∨ bestAt r a q = true)
    (down : ∀ peer, r.peers.lookup a = some peer → peer.sessionState ≠ .established)
    (runs : ∀ run ∈ rescanRuns r a, Compares net run.1 run.2) :
    Ends (SkipInv net) (fun _ => True) (bgpPeerRescanAdjribin r a clear) := by
  unfold bgpPeerRescanAdjribin
  unfold rescanRuns at runs
  cases held : r.peers.lookup a with
  | none =>
    refine ⟨owned, noLocal, fun q => (selected q).resolve_right ?_⟩
    simp [bestAt, Router.adjRoute, held]
  | some peer =>
    simp only [held, if_neg (down peer held)] at runs ⊢
    refine Ends.bind (P := Scanning net a []) (Ends.loop_rest (fun s key rest member scanning => ?_)
      ⟨owned, noLocal, fun q => ?_⟩) fun s scanned => ?_
    · refine scanning.disable fun route stored best => runs (s, route.pfx) ?_
      exact List.mem_filterMap.mpr ⟨(s, key), member, by simp [stored, best]⟩
    · refine (selected q).imp id fun marked => ⟨?_, marked⟩
      rw [bestAt, adjRoute_of_lookup held] at marked
      cases stored : peer.adjRibIn.findExact q with
      | none => simp [stored] at marked
      | some route => exact Rib.mem_keysInOrder.mpr ⟨route, stored⟩
    · have done : SkipInv net s := by
        refine ⟨scanned.owned, scanned.noLocal, fun q => (scanned.selected q).resolve_right ?_⟩
        rintro ⟨member, _⟩
        cases member
      split
      · have quiet : Quiet s (s.modifyPeer a fun peer => bgpPeerAdjribClear peer (RibDir.ofInt 1)) :=
          (Quiet.refl s).modify fun _ => rfl
        exact done.congr (done.owned.quiet quiet)
          fun q => .of_modify s a q fun _ => ⟨rfl, rfl, rfl, rfl⟩
      · exact done

/-- The session of a peer goes down, and its Adj-RIB-In is scanned. -/
theorem SkipInv.goesDown {s : Router} (clear : Bool) (inv : SkipInv net r) (sees : SeesNet net r)
    (quiet : Quiet r s) (others : ∀ b, b ≠ a → s.peers.lookup b = r.peers.lookup b)
    (down : ∀ peer, s.peers.lookup a = some peer → peer.sessionState ≠ .established)
    (drops : ∀ p, bestAt r a p = false → Dispensable r p a)
    (runs : ∀ run ∈ rescanRuns s a, Compares net run.1 run.2) :
    Ends (SkipInv net) (fun _ => True) (bgpPeerRescanAdjribin s a clear) := by
  refine Scanning.rescan clear (inv.owned.quiet quiet) (fun p route held => ?_) (fun q => ?_) down runs
  · exact inv.noLocal p route (quiet.locRib ▸ held)
  · cases marked : bestAt r a q with
    | true => exact .inr ((bestAt_congr (quiet.adjRoute a q)).trans marked)
    | false =>
      exact .inl ((inv.selected q).lost sees marked (drops q marked) (.of_quiet quiet others down q))

end Scan

/-! ## Runs -/

/-- The steps: an UPDATE or a WITHDRAW from an established peer, or a session that closes. -/
def SkipStep (r : Router) : Op → Prop
  | .handleMessage src ⟨_, .update _⟩ | .handleMessage src ⟨_, .withdraw _⟩ =>
    ∃ peer, r.peers.lookup src = some peer ∧ peer.sessionState = .established
  | .handleMessage _ ⟨_, .close⟩ | .closeSession _ => True
  | _ => False

/-- The network stays as it is, before the step and in each of its decision processes. -/
def KeepsNet (net : NetRt) (r : Router) (op : Op) : Prop :=
  SeesNet net r ∧ ∀ run ∈ dpRuns r op, SeesNet net run.1

/-- The step takes the route of `a` for the prefix away without a decision process. -/
def Skipped (r : Router) (a : NetAddr) (p : Pfx) : Op → Prop
  | .closeSession b | .handleMessage b ⟨_, .close⟩ => b = a ∧ bestAt r a p = false
  | .handleMessage b ⟨_, .update route⟩ => b = a ∧ route.pfx = p ∧ bestAt r a p = false ∧
      ∃ peer, r.peers.lookup a = some peer ∧ accepts r a peer route = false
  | _ => False

/-- The condition on a step: its decision processes compare exactly, and a route that goes without
one is dispensable. -/
structure SkipsOnly (r : Router) (op : Op) : Prop where
  fits : ∀ run ∈ dpRuns r op, SelectionFits run.1 (bgpRouterGetFeasibleRoutes run.1 run.2)
  attr : ∀ run ∈ dpRuns r op, KeepsAttr run.1 run.2
  drops : ∀ a p, Skipped r a p op → Dispensable r p a

/-- The start: the Loc-RIB agrees with the Adj-RIB-Ins, the routes selected are marked, and nothing
is originated locally. -/
structure Settled (r : Router) : Prop where
  agrees : LocAgrees r
  marked : ∀ p w, compareRoutes r (bgpRouterGetFeasibleRoutes r p) = .ok [w] →
    bestAt r w.addr p = true
  noLocal : NoLocal r
  owned : Owned r

theorem Settled.skipInv {r : Router} (settled : Settled r) : SkipInv r.rt r := by
  refine ⟨settled.owned, settled.noLocal, fun p => ?_⟩
  have fits : SelectionFits r (bgpRouterGetFeasibleRoutes r p) := by
    cases held : r.locRib.findExact p with
    | none =>
      rw [(settled.agrees p).none_iff.mp held]
      exact .of_short r (by simp)
    | some route =>
      obtain ⟨w, compared, _⟩ := (settled.agrees p).selected route held
      exact .of_compared (candidates_reachable r p) compared
  refine ⟨(settled.agrees p).none_iff, fun route held => ?_, fits⟩
  obtain ⟨w, compared, attr⟩ := (settled.agrees p).selected route held
  refine ⟨w, ?_, attr, settled.marked p w compared⟩
  rw [compareRoutes_eq (getFeasibleRoutes_distinct r p) (candidates_reachable r p) fits] at compared
  exact Except.ok.inj compared

theorem closed_other {r : Router} {a : NetAddr} {peer : Peer} (b : NetAddr) (other : b ≠ a) :
    (closed r a peer).peers.lookup b = r.peers.lookup b := by
  unfold closed
  rw [modifyPeer_lookup, if_neg other]
  split
  · exact (bgpPeerSend_other other .close).peer
  · rfl

theorem closed_down {r : Router} {a : NetAddr} {peer peer' : Peer}
    (held : (closed r a peer).peers.lookup a = some peer') : peer'.sessionState ≠ .established := by
  unfold closed at held
  rw [modifyPeer_lookup, if_pos rfl] at held
  obtain ⟨_, _, rfl⟩ := Option.map_eq_some_iff.mp held
  simp [Peer.resetSession]

section Exec

variable {net : NetRt} {r r' : Router} {op : Op}

theorem SkipInv.closeSession {a : NetAddr} (inv : SkipInv net r) (sees : SeesNet net r)
    (runs : ∀ run ∈ closeRuns r a, Compares net run.1 run.2)
    (drops : ∀ p, bestAt r a p = false → Dispensable r p a) :
    Ends (fun result => SkipInv net result.2) (fun _ => True) (bgpPeerCloseSession r a) := by
  unfold bgpPeerCloseSession
  unfold closeRuns at runs
  cases held : r.peers.lookup a with
  | none => exact inv
  | some peer =>
    simp only [held] at runs ⊢
    split
    · exact inv
    next up =>
      rw [if_neg up] at runs
      exact Ends.bind (inv.goesDown _ sees (Invariant.closed_quiet r a peer) closed_other
        (fun _ closes => closed_down closes) drops runs) fun _ kept => kept

theorem SkipInv.closeRcvd {a : NetAddr} {peer : Peer} (inv : SkipInv net r) (sees : SeesNet net r)
    (runs : ∀ run ∈ closeRcvdRuns (counted r a) a peer, Compares net run.1 run.2)
    (drops : ∀ p, bestAt r a p = false → Dispensable r p a) :
    Ends (SkipInv net) (fun _ => True) (bgpPeerSessionCloseRcvd (counted r a) a peer) := by
  have quiet : Quiet r (counted r a) := (Quiet.refl r).modify fun _ => rfl
  unfold bgpPeerSessionCloseRcvd
  unfold closeRcvdRuns at runs
  split
  · trivial
  next real =>
    rw [if_neg real] at runs
    cases state : peer.sessionState with
    | established | openWait =>
      simp only [state] at runs ⊢
      refine inv.goesDown _ sees (quiet.modify fun _ => rfl) (fun b other => ?_)
        (fun peer' held' => ?_) drops runs
      · rw [modifyPeer_lookup, if_neg other, counted, modifyPeer_lookup, if_neg other]
      · rw [modifyPeer_lookup, if_pos rfl] at held'
        obtain ⟨_, _, rfl⟩ := Option.map_eq_some_iff.mp held'
        simp [Peer.resetSession]
    | active | idle =>
      exact inv.congr (inv.owned.quiet quiet) fun q => .of_modify r a q fun _ => ⟨rfl, rfl, rfl, rfl⟩

/-- Each step keeps the invariant. -/
theorem SkipInv.exec (inv : SkipInv net r) (step : SkipStep r op) (keeps : KeepsNet net r op)
    (only : SkipsOnly r op) (h : exec r op = .ok r') : SkipInv net r' := by
  obtain ⟨sees, seesRuns⟩ := keeps
  have runs : ∀ run ∈ dpRuns r op, Compares net run.1 run.2 := fun run member =>
    ⟨seesRuns run member, only.fits run member, only.attr run member⟩
  obtain ⟨⟨code, _⟩, stepped, rfl⟩ := except_map_eq_ok.mp h
  -- Only a close and a message occur in such runs; every removal drops dispensable routes.
  cases op with
  | closeSession a =>
    exact (inv.closeSession sees runs fun p off => only.drops a p ⟨rfl, off⟩).value stepped
  | handleMessage a msg =>
    simp only [execCode, bgpRouterHandleMessage] at stepped
    unfold dpRuns at runs
    cases held : r.peers.lookup a with
    | none =>
      simp only [held, Except.ok.injEq, Prod.mk.injEq] at stepped
      exact stepped.2 ▸ inv
    | some peer =>
      simp only [held] at stepped runs
      have received : (counted r a).peers.lookup a =
          some { peer with recvSeqNum := peer.recvSeqNum + 1 } := by
        rw [counted, modifyPeer_lookup, if_pos rfl, held]
        rfl
      have quiet : Quiet r (counted r a) := (Quiet.refl r).modify fun _ => rfl
      have same (q : Pfx) : SameAt r q (counted r a) q :=
        .of_modify r a q fun _ => ⟨rfl, rfl, rfl, rfl⟩
      have owned : Owned (counted r a) := inv.owned.quiet quiet
      unfold bgpPeerHandleMessage at stepped
      unfold messageRuns at runs
      split at stepped
      · cases stepped
        exact inv
      next inOrder =>
        rw [if_neg inOrder] at runs
        obtain ⟨r', processed, same'⟩ := except_map_eq_ok.mp stepped
        cases same'
        obtain ⟨seqNum, body⟩ := msg
        cases body with
        | update route =>
          obtain ⟨peer', held', up⟩ := step
          rw [held] at held'
          cases held'
          simp only [bgpPeerSessionUpdateRcvd, sessionDataRcvd, up] at processed runs
          refine inv.update sees same owned received runs (fun rejected off => ?_) processed
          exact only.drops a route.pfx ⟨rfl, rfl, off, peer, held, rejected⟩
        | withdraw p =>
          obtain ⟨peer', held', up⟩ := step
          rw [held] at held'
          cases held'
          simp only [bgpPeerSessionWithdrawRcvd, sessionDataRcvd, up] at processed runs
          exact (inv.congr owned same).withdraw received runs processed
        | close =>
          exact (inv.closeRcvd sees runs fun p off => only.drops a p ⟨rfl, off⟩).value processed
        | «open» => exact step.elim
  | openSession | sessionRefresh | addNetwork | delNetwork | rerun | clearRib | netChange =>
    exact step.elim

/-- From a settled router on a network that stays, every run whose steps meet `SkipsOnly` stays in
states whose Loc-RIB is what the decision process selects from scratch. -/
theorem locAgrees_of_reach {r₀ r : Router} (settled : Settled r₀)
    (reached : Reach Bgp.exec
      (fun s op => SkipStep s op ∧ KeepsNet r₀.rt s op ∧ SkipsOnly s op) r₀ r)
    (sees : SeesNet r₀.rt r) : LocAgrees r := by
  have inv : SkipInv r₀.rt r := reached.invariant settled.skipInv fun kept allowed stepped =>
    kept.exec allowed.1 allowed.2.1 allowed.2.2 stepped
  exact fun p => (inv.selected p).locAgrees (sees.forPfx p)

end Exec

/-! ## A route that comes back -/

theorem Fresh.settled {r : Router} (fresh : Fresh r) : Settled r where
  agrees := fresh.locAgrees
  marked p w compared := by
    rw [(fresh.locAgrees p).none_iff.mp (fresh.loc p)] at compared
    cases compared
  noLocal p route held := by simp [fresh.loc] at held
  owned := fresh.owned

/-- A test for `SeesNet`. -/
def seesNetTest (net : NetRt) (r : Router) : Bool :=
  r.peers.entries.all fun e => e.2.adjRibIn.routes.entries.all fun entry =>
    decide (nextHopCost r.rt entry.2.attr.nextHop = nextHopCost net entry.2.attr.nextHop)

theorem seesNet_of_test {net : NetRt} {r : Router} (passed : seesNetTest net r = true) :
    SeesNet net r := by
  intro a p route held
  obtain ⟨peer, known, found⟩ := adjRoute_eq_some.mp held
  simp only [seesNetTest, List.all_eq_true, decide_eq_true_eq] at passed
  exact passed ⟨a, peer⟩ (Table.mem_entries_iff.mpr known) ⟨ipPrefixMask p, route⟩
    (Table.mem_entries_iff.mpr found)

/-- A test for the steps that stay on the network, of virtual peers. -/
def skipStepTest (net : NetRt) (r : Router) (op : Op) : Bool :=
  seesNetTest net r && (dpRuns r op).all (fun run => seesNetTest net run.1) &&
    match op with
    | .handleMessage src ⟨_, .update _⟩ | .handleMessage src ⟨_, .withdraw _⟩ =>
      (r.peers.lookup src).any fun peer => decide (peer.sessionState = .established)
    | _ => false

theorem skipStep_of_test {net : NetRt} {r : Router} {op : Op}
    (passed : skipStepTest net r op = true) : SkipStep r op ∧ KeepsNet net r op := by
  simp only [skipStepTest, Bool.and_eq_true, List.all_eq_true] at passed
  obtain ⟨⟨sees, runs⟩, kind⟩ := passed
  refine ⟨?_, seesNet_of_test sees, fun run member => seesNet_of_test (runs run member)⟩
  split at kind
  · simpa [SkipStep, Option.any_eq_true] using kind
  · simpa [SkipStep, Option.any_eq_true] using kind
  · cases kind

/-- A router of AS 1 with three virtual peers, two of them in AS 7. -/
def threePeers : Router :=
  bgpRouterAddPeer twoPeers 4 (virtualPeer 8)

theorem threePeers_fresh : Fresh threePeers := twoPeers_fresh.addPeer 4 rfl

/-- An UPDATE for 10.0.0.0/8 with a MED. -/
def updateMed (addr : NetAddr) (asn : Asn) (med : UInt32) : Op :=
  .handleMessage addr ⟨0, .update
    { routeCreate tenNet none 9 .igp with
      attr := { bgpAttrCreate 9 .igp 0 med with path := some [sequenceOf asn] } }⟩

/-- The route of peer 2 loses by MED against that of peer 4, which loses against that of peer 3; then
peer 4 announces a route through the router's own AS. -/
def medRevival : List Op :=
  [updateMed 2 7 10, updateMed 3 8 0, updateMed 4 7 0, updateMed 4 1 0]

/-- The route that comes back when the one that eliminated it goes is not selected. -/
theorem skipped_med_revival : ¬ ∀ r₀ r : Router, Settled r₀ →
    Reach exec (fun s op => SkipStep s op ∧ KeepsNet r₀.rt s op) r₀ r → SeesNet r₀.rt r →
    LocAgrees r := by
  intro always
  have tested : ((loopStates exec threePeers medRevival).all fun entry =>
      skipStepTest threePeers.rt entry.1 entry.2) = true := by
    decide +kernel
  have ran : okAnd (medRevival.foldlM exec threePeers) (fun r => seesNetTest threePeers.rt r &&
      (r.locRib.findExact tenNet).any (fun route => decide (route.attr.med = 0)) &&
      okAnd (compareRoutes r (bgpRouterGetFeasibleRoutes r tenNet)) (fun left =>
        left.all fun w => decide (w.attr.med = 10))) = true := by
    decide +kernel
  obtain ⟨r, ran, observed⟩ := okAnd_iff.mp ran
  simp only [Bool.and_eq_true] at observed
  obtain ⟨⟨sees, old⟩, selected⟩ := observed
  have reached : Reach exec (fun s op => SkipStep s op ∧ KeepsNet threePeers.rt s op) threePeers r :=
    Reach.of_foldlM (fun entry member => skipStep_of_test (List.all_eq_true.mp tested entry member)) ran
  have agrees := always threePeers r threePeers_fresh.settled reached (seesNet_of_test sees) tenNet
  cases held : r.locRib.findExact tenNet with
  | none => simp [held] at old
  | some route =>
    obtain ⟨w, compared, same⟩ := agrees.selected route held
    rw [compared] at selected
    have med := same.med
    simp only [held, Option.any_some, decide_eq_true_eq, okAnd, List.all_cons, List.all_nil,
      Bool.and_true] at old selected
    rw [old, selected] at med
    cases med

/-! ## A run that meets the condition -/

/-- A test for `WithinBounds`. -/
def withinBoundsTest (c : Cand) : Bool :=
  decide (pathLength c.attr.path ≤ 255) && decide (c.clusterLen ≤ 255) &&
    (c.attr.path.getD []).getLast?.all fun seg =>
      decide (seg.type = .sequence) && !seg.asns.isEmpty

theorem withinBounds_of_test {c : Cand} (passed : withinBoundsTest c = true) : WithinBounds c := by
  simp only [withinBoundsTest, Bool.and_eq_true, decide_eq_true_eq] at passed
  refine ⟨passed.1.1, fun seg last => ?_, passed.1.2⟩
  simpa [last] using passed.2

theorem selectionFits_of_test {r : Router} {routes : List Cand}
    (passed : routes.all withinBoundsTest = true) : SelectionFits r routes :=
  WithinBounds.selectionFits fun c member => withinBounds_of_test (List.all_eq_true.mp passed c member)

/-- A test for `KeepsAttr`. -/
def keepsAttrTest (r : Router) (p : Pfx) : Bool :=
  match r.locRib.findExact p, compareRoutes r (bgpRouterGetFeasibleRoutes r p) with
  | some old, .ok [w] => (r.adjRoute w.addr p).all fun route =>
      !bgpAttrCmp old.attr route.attr || decide (old.attr = route.attr)
  | _, _ => true

theorem keepsAttr_of_test {r : Router} {p : Pfx} (passed : keepsAttrTest r p = true) :
    KeepsAttr r p := by
  intro old w route held compared won equals
  simp only [keepsAttrTest, held, compared, won, Option.all_some, equals, Bool.not_true,
    Bool.false_or, decide_eq_true_eq] at passed
  exact passed ▸ Attr.same_refl _

/-- A test for `Dispensable`: the route eliminates none by MED. -/
def dispensableTest (r : Router) (p : Pfx) (a : NetAddr) : Bool :=
  (bgpRouterGetFeasibleRoutes r p).all withinBoundsTest &&
    (bgpRouterGetFeasibleRoutes r p).all fun c => decide (c.addr ≠ a) ||
      (bgpRouterGetFeasibleRoutes r p).all fun x => !medDom r.env.medType c x

theorem dispensable_of_test {r : Router} {p : Pfx} {a : NetAddr}
    (passed : dispensableTest r p a = true) : Dispensable r p a := by
  rw [dispensableTest, Bool.and_eq_true] at passed
  constructor
  · rintro x memberX _ ⟨c, memberC, gone, eliminates⟩ _
    have inside := (undominated_sublist (lex ((dpOrder r).take 3))
      (bgpRouterGetFeasibleRoutes r p)).subset
    have tested := List.all_eq_true.mp passed.2 c (inside memberC)
    replace gone : decide (c.addr ≠ a) = false := gone
    rw [gone, Bool.false_or] at tested
    have harmless := List.all_eq_true.mp tested x (inside memberX)
    simp [eliminates] at harmless
  · refine selectionFits_of_test (List.all_eq_true.mpr fun c member => ?_)
    exact List.all_eq_true.mp passed.1 c (others_subset a _ member)

/-- A test for `SkipsOnly`. -/
def skipsOnlyTest (r : Router) (op : Op) : Bool :=
  (dpRuns r op).all (fun run =>
    (bgpRouterGetFeasibleRoutes run.1 run.2).all withinBoundsTest && keepsAttrTest run.1 run.2) &&
    match op with
    | .handleMessage a ⟨_, .update route⟩ => (r.peers.lookup a).all fun peer =>
        accepts r a peer route || dispensableTest r route.pfx a
    | .handleMessage _ ⟨_, .withdraw _⟩ => true
    | _ => false

theorem skipsOnly_of_test {r : Router} {op : Op} (passed : skipsOnlyTest r op = true) :
    SkipsOnly r op := by
  simp only [skipsOnlyTest, Bool.and_eq_true] at passed
  obtain ⟨runs, kind⟩ := passed
  have run_ok (run : Router × Pfx) (member : run ∈ dpRuns r op) := by
    simpa only [Bool.and_eq_true] using List.all_eq_true.mp runs run member
  refine ⟨fun run member => selectionFits_of_test (run_ok run member).1,
    fun run member => keepsAttr_of_test (run_ok run member).2, fun a p skipped => ?_⟩
  split at kind
  · obtain ⟨rfl, rfl, _, peer, held, rejected⟩ := skipped
    rw [held, Option.all_some, rejected, Bool.false_or] at kind
    exact dispensable_of_test kind
  · exact skipped.elim
  · cases kind

/-- Two routes, of which the one that is not best is replaced by one through the router's own AS,
and the other is withdrawn. -/
def worseRejected : List Op :=
  [updateFrom 3 [7] oneHop_short, updateFrom 2 [7, 8] twoHops_short, updateFrom 2 [1] (by decide),
    .handleMessage 3 ⟨0, .withdraw tenNet⟩]

theorem locAgrees_of_reach_rejected : ∃ r, Settled twoPeers ∧
    Reach exec (fun s op => SkipStep s op ∧ KeepsNet twoPeers.rt s op ∧ SkipsOnly s op) twoPeers r ∧
    SeesNet twoPeers.rt r ∧ LocAgrees r := by
  have tested : ((loopStates exec twoPeers worseRejected).all fun entry =>
      skipStepTest twoPeers.rt entry.1 entry.2 && skipsOnlyTest entry.1 entry.2) = true := by
    decide +kernel
  have ran : okAnd (worseRejected.foldlM exec twoPeers) (seesNetTest twoPeers.rt) = true := by
    decide +kernel
  obtain ⟨r, ran, sees⟩ := okAnd_iff.mp ran
  have reached : Reach exec
      (fun s op => SkipStep s op ∧ KeepsNet twoPeers.rt s op ∧ SkipsOnly s op) twoPeers r := by
    refine Reach.of_foldlM (fun entry member => ?_) ran
    have passed := List.all_eq_true.mp tested entry member
    rw [Bool.and_eq_true] at passed
    obtain ⟨step, keeps⟩ := skipStep_of_test passed.1
    exact ⟨step, keeps, skipsOnly_of_test passed.2⟩
  exact ⟨r, twoPeers_fresh.settled, reached, seesNet_of_test sees,
    locAgrees_of_reach twoPeers_fresh.settled reached (seesNet_of_test sees)⟩

end Cbgp.Verified
