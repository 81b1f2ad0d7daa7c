import Cbgp.Verified.AdjRibIn
import Cbgp.Verified.BestFlag

/-! # Closing a session

A session that goes down should leave nothing of what was learned over it.  The rescan that both
`bgp_peer_close_session` and a received CLOSE go through clears the Adj-RIB-Out in place of the
Adj-RIB-In, so that everything stays; the session is cleared exactly when there was nothing to clear
(`closes_clears_iff`).
-/

namespace Cbgp.Verified

open Cbgp.Lib Cbgp.Net Cbgp.Bgp

/-! ## The property -/

/-- Closing the session with a peer led from `r` to `r'`. -/
def Closes (r : Router) (a : NetAddr) (r' : Router) : Prop :=
  ∃ peer, r.peers.lookup a = some peer ∧ peer.virtual = false ∧
    (bgpPeerCloseSession r a = .ok (.success, r') ∨
      (peer.sessionState = .established ∨ peer.sessionState = .openWait) ∧
        ∃ seqNum, exec r (.handleMessage a ⟨seqNum, .close⟩) = .ok r')

/-- Nothing learned from the peer is left. -/
structure Forgotten (r : Router) (a : NetAddr) : Prop where
  adj : ∀ q, r.adjRoute a q = none
  loc : ∀ q route, r.locRib.findExact q = some route → route.peer ≠ some a

/-- Steps that neither close the session with the peer nor clear the RIBs. -/
def SessionStep (a : NetAddr) (r : Router) : Op → Prop
  | .clearRib => False
  | .closeSession b => b ≠ a
  | .handleMessage src ⟨_, .close⟩ => src ≠ a
  | .sessionRefresh b => b = a → r.env.sessionOk a = true
  | _ => True

/-- The prefixes announced by the peer, accepted, and not withdrawn in the course of some steps. -/
def heardSince (a : NetAddr) (r : Router) (ops : List Op) : Pfx → Bool :=
  (loopStates exec r ops).foldl (fun known entry => importedBy entry.1 a known entry.2) fun _ => false

/-- The session was cleared: nothing learned over it is left, and whatever happens until the session
closes again, the routes usable from the peer are those it announced since. -/
structure ClearsSession (r : Router) (a : NetAddr) : Prop where
  forgotten : Forgotten r a
  renewed : ∀ ops r', ops.foldlM exec r = .ok r' →
    (∀ entry ∈ loopStates exec r ops, SessionStep a entry.1 entry.2) →
    ∀ q, inKeys r' a q = heardSince a r ops q

/-! ## What closing keeps -/

theorem bgpPeerCloseSession_exec {r r' : Router} {a : NetAddr} {code : NetError}
    (h : bgpPeerCloseSession r a = .ok (code, r')) : exec r (.closeSession a) = .ok r' := by
  simp [exec, execCode, h, Except.map]

/-- Closing keeps the prefixes of every Adj-RIB-In. -/
theorem Closes.inKeys {r r' : Router} {a : NetAddr} (closes : Closes r a r') (b : NetAddr) (q : Pfx) :
    inKeys r' b q = inKeys r b q := by
  obtain ⟨peer, held, _, closed | ⟨_, seqNum, received⟩⟩ := closes
  · exact exec_imports (by simp) (bgpPeerCloseSession_exec closed) b q
  · rw [exec_imports (by simp) received, importedBy]
    split
    · rfl
    · split
      · rfl
      · rfl

/-- An Adj-RIB-In without routes has nothing to rescan. -/
theorem rescanRuns_nil {s : Router} {a : NetAddr} (empty : ∀ q, s.adjRoute a q = none) :
    rescanRuns s a = [] := by
  unfold rescanRuns
  cases held : s.peers.lookup a with
  | none => rfl
  | some peer =>
    have noKeys : peer.adjRibIn.keysInOrder s.env.traversal = [] := by
      refine List.eq_nil_iff_forall_not_mem.mpr fun key member => ?_
      obtain ⟨route, stored⟩ := Rib.mem_keysInOrder.mp member
      -- a key is a masked prefix, so that looking it up finds the route
      have masked : ipPrefixMask key = key := by
        rw [← peer.adjRibIn.keyed key route stored, ipPrefixMask_idem]
      have found := empty key
      rw [adjRoute_of_lookup held, Rib.findExact, masked, stored] at found
      cases found
    simp only [noKeys]
    split
    · rfl
    · rfl

theorem locRib_rules (locRib : Rib) :
    Invariant (fun s => s.locRib = locRib) (fun s _ => s.locRib = locRib) (fun _ _ => False)
      fun _ => True where
  start same := same
  quiet same quiet := quiet.locRib.trans same
  decides _ never := never.elim
  fails _ := trivial

/-- Without routes from the peer, closing leaves the Loc-RIB as it was. -/
theorem Closes.locRib {r r' : Router} {a : NetAddr} (closes : Closes r a r')
    (empty : ∀ q, r.adjRoute a q = none) : r'.locRib = r.locRib := by
  have none_of_quiet {s : Router} (quiet : Quiet r s) : rescanRuns s a = [] :=
    rescanRuns_nil fun q => (quiet.adjRoute a q).trans (empty q)
  obtain ⟨peer, held, real, closed | ⟨up, seqNum, received⟩⟩ := closes
  · have runs : closeRuns r a = [] := by
      simp only [closeRuns, held]
      split
      · rfl
      · exact none_of_quiet (Invariant.closed_quiet r a peer)
    have ends : Ends (fun result => result.2.locRib = r.locRib) (fun _ => True)
        (bgpPeerCloseSession r a) :=
      (locRib_rules r.locRib).closeSession rfl (by simp [runs])
    exact ends.value closed
  · have inOrder : bgpPeerSeqnumCheck peer ⟨seqNum, .close⟩ = true := by simp [bgpPeerSeqnumCheck]
    simp only [exec, execCode, bgpRouterHandleMessage, held, bgpPeerHandleMessage, inOrder,
      Bool.not_true, Bool.false_eq_true, if_false, except_map_eq_ok] at received
    obtain ⟨_, ⟨s, received, rfl⟩, rfl⟩ := received
    have runs : closeRcvdRuns (counted r a) a { peer with recvSeqNum := peer.recvSeqNum + 1 } = [] := by
      have quiet : Quiet r (counted r a) := (Quiet.refl r).modify fun _ => rfl
      simp only [closeRcvdRuns, real, Bool.false_eq_true, if_false]
      split
      · exact none_of_quiet (quiet.modify fun _ => rfl)
      · exact none_of_quiet (quiet.modify fun _ => rfl)
      · rfl
      · rfl
    have ends : Ends (fun s => s.locRib = r.locRib) (fun _ => True)
        (bgpPeerSessionCloseRcvd (counted r a) a { peer with recvSeqNum := peer.recvSeqNum + 1 }) :=
      (locRib_rules r.locRib).closeRcvd rfl (by simp [runs])
    exact ends.value received

/-! ## The next session -/

/-- Whatever a run without clears does, the prefixes held of a peer are those of the start, changed
by the messages taken from it. -/
theorem inKeys_of_run {a : NetAddr} {ops : List Op} {r r' : Router}
    (h : ops.foldlM exec r = .ok r') (kept : ∀ entry ∈ loopStates exec r ops, entry.2 ≠ .clearRib) :
    Verified.inKeys r' a =
      (loopStates exec r ops).foldl (fun known entry => importedBy entry.1 a known entry.2)
        (Verified.inKeys r a) := by
  induction ops generalizing r with
  | nil =>
    cases h
    rfl
  | cons op ops inductionHypothesis =>
    rw [List.foldlM_cons, except_bind_eq_ok] at h
    obtain ⟨mid, first, rest⟩ := h
    rw [loopStates, first] at kept ⊢
    have stepped : Verified.inKeys mid a = importedBy r a (Verified.inKeys r a) op :=
      funext fun q => exec_imports (kept (r, op) List.mem_cons_self) first a q
    rw [List.foldl_cons,
      inductionHypothesis rest fun entry member => kept entry (List.mem_cons_of_mem _ member), stepped]

theorem Forgotten.clears {r : Router} {a : NetAddr} (forgotten : Forgotten r a) :
    ClearsSession r a where
  forgotten := forgotten
  renewed ops r' ran allowed q := by
    have kept : ∀ entry ∈ loopStates exec r ops, entry.2 ≠ .clearRib := by
      intro entry member cleared
      have step := allowed entry member
      rw [cleared] at step
      exact step
    have empty : Verified.inKeys r a = fun _ => false := by
      funext q
      rw [Verified.inKeys, forgotten.adj]
      rfl
    rw [inKeys_of_run ran kept, empty]
    rfl

/-- Closing a session clears it exactly when nothing had been learned over it. -/
theorem closes_clears_iff {r r' : Router} {a : NetAddr} (closes : Closes r a r') :
    ClearsSession r' a ↔ Forgotten r a := by
  have sameKeys (q : Pfx) : r'.adjRoute a q = none ↔ r.adjRoute a q = none := by
    have same := closes.inKeys a q
    rw [Verified.inKeys, Verified.inKeys] at same
    rw [← Option.isNone_iff_eq_none, ← Option.isNone_iff_eq_none, ← Option.not_isSome,
      ← Option.not_isSome, same]
  constructor
  · intro cleared
    have empty (q : Pfx) := (sameKeys q).mp (cleared.forgotten.adj q)
    refine ⟨empty, fun q route held => cleared.forgotten.loc q route ?_⟩
    rw [closes.locRib empty, held]
  · intro forgotten
    refine Forgotten.clears ⟨fun q => (sameKeys q).mpr (forgotten.adj q), fun q route held => ?_⟩
    rw [closes.locRib forgotten.adj] at held
    exact forgotten.loc q route held

/-! ## A session that is not cleared -/

/-- A router of AS 1 with one peer in AS 7. -/
def onePeer : Router :=
  bgpRouterAddPeer (bgpRouterCreate 1 1 defaultRt Env.default) 3 (bgpPeerCreate 7)

theorem onePeer_fresh : Fresh onePeer := (fresh_create _ _ _ _).addPeer 3 rfl

/-- The session with the peer comes up, `ops` happen, and it is closed. -/
def openAndClose (ops : List Op) : Except Abort (Router × NetError × Router) := do
  let r ← (.openSession 3 :: .handleMessage 3 ⟨0, .open 3⟩ :: ops).foldlM exec onePeer
  let (code, r') ← bgpPeerCloseSession r 3
  .ok (r, code, r')

theorem openAndClose_closes {ops : List Op} {r r' : Router}
    (h : openAndClose ops = .ok (r, .success, r'))
    (real : (r.peers.lookup 3).any (!·.virtual) = true) :
    Reach exec (fun _ _ => True) onePeer r ∧ Closes r 3 r' := by
  simp only [openAndClose, except_bind_eq_ok] at h
  obtain ⟨_, ran, ⟨_, _⟩, closed, same⟩ := h
  cases same
  refine ⟨Reach.of_foldlM (fun _ _ => trivial) ran, ?_⟩
  cases held : r.peers.lookup 3 with
  | none => simp [held] at real
  | some peer => exact ⟨peer, held, by simpa [held] using real, .inl closed⟩

/-- A route is learned and the session closed: the route stays in the Adj-RIB-In. -/
theorem close_keeps_routes : ¬ ∀ (r₀ r r' : Router) (a : NetAddr), Fresh r₀ →
    Reach exec (fun _ _ => True) r₀ r → Closes r a r' → ClearsSession r' a := by
  intro always
  have ran : okAnd (openAndClose [.handleMessage 3 ⟨1, .update (tenVia [7] (by decide))⟩]) (fun rs =>
      decide (rs.2.1 = .success) && (rs.1.peers.lookup 3).any (!·.virtual) &&
        inKeys rs.2.2 3 tenNet) = true := by
    decide +kernel
  obtain ⟨⟨r, code, r'⟩, ran, observed⟩ := okAnd_iff.mp ran
  simp only [Bool.and_eq_true, decide_eq_true_eq] at observed
  obtain ⟨⟨rfl, real⟩, stays⟩ := observed
  obtain ⟨reached, closes⟩ := openAndClose_closes ran real
  have cleared := always onePeer r r' 3 onePeer_fresh reached closes
  rw [inKeys, cleared.forgotten.adj] at stays
  cases stays

theorem Rib.findExact_of_isEmpty {rib : Rib} (empty : rib.routes.keys.isEmpty = true) (q : Pfx) :
    rib.findExact q = none := by
  cases found : rib.findExact q with
  | none => rfl
  | some route =>
    have member := Table.mem_keys_iff.mpr ⟨route, found⟩
    simp [List.isEmpty_iff.mp empty] at member

/-- A session that comes up and closes without a route. -/
theorem close_clears_unused : ∃ r r', Closes r 3 r' ∧ ClearsSession r' 3 := by
  have ran : okAnd (openAndClose []) (fun rs =>
      decide (rs.2.1 = .success) && (rs.1.peers.lookup 3).any (!·.virtual) &&
        (rs.1.peers.lookup 3).all (·.adjRibIn.routes.keys.isEmpty) &&
        rs.1.locRib.routes.keys.isEmpty) = true := by
    decide +kernel
  obtain ⟨⟨r, code, r'⟩, ran, observed⟩ := okAnd_iff.mp ran
  simp only [Bool.and_eq_true, decide_eq_true_eq] at observed
  obtain ⟨⟨⟨rfl, real⟩, noAdj⟩, noLoc⟩ := observed
  obtain ⟨_, closes⟩ := openAndClose_closes ran real
  refine ⟨r, r', closes, (closes_clears_iff closes).mpr ⟨fun q => ?_, fun q route held => ?_⟩⟩
  · cases held : r.peers.lookup 3 with
    | none => simp [Router.adjRoute, held]
    | some peer =>
      rw [adjRoute_of_lookup held]
      exact Rib.findExact_of_isEmpty (by simpa [held] using noAdj) q
  · rw [Rib.findExact_of_isEmpty noLoc] at held
    cases held

end Cbgp.Verified
