import Cbgp.Verified.Ownership

/-! # What an Adj-RIB-In holds

What a router holds of a peer changes only with the UPDATEs and WITHDRAWs it takes from that peer
(`exec_heldAttr`): an UPDATE its import checks accept puts in the attributes they leave, one they reject and
a WITHDRAW take the route out.  The prefixes that are held follow (`exec_imports`).
-/

namespace Cbgp.Verified

open Cbgp.Lib Cbgp.Net Cbgp.Bgp

/-- The prefixes held of a peer. -/
def inKeys (r : Router) (b : NetAddr) (q : Pfx) : Bool :=
  (r.adjRoute b q).isSome

/-- The import checks accept the route of an UPDATE. -/
def accepts (r : Router) (addr : NetAddr) (peer : Peer) (route : Route) : Bool :=
  okAnd (bgpPeerRouteEligible r peer (receivedRoute r addr peer route)) Option.isSome

/-- What a message the peer sent in order does to the prefixes held of it. -/
def imported (r : Router) (b : NetAddr) (peer : Peer) (known : Pfx → Bool) : MsgBody → Pfx → Bool
  | .update route, q =>
    if ipPrefixMask q = ipPrefixMask route.pfx then accepts r b peer route else known q
  | .withdraw p, q => !decide (ipPrefixMask q = ipPrefixMask p) && known q
  | _, q => known q

/-- What a step does to the prefixes held of a peer. -/
def importedBy (r : Router) (b : NetAddr) (known : Pfx → Bool) : Op → Pfx → Bool
  | .handleMessage src msg, q =>
    match r.peers.lookup b with
    | none => known q
    | some peer =>
      if src = b ∧ bgpPeerSeqnumCheck peer msg = true then imported r b peer known msg.body q
      else known q
  | _, q => known q

/-- The attributes with which a router holds the route of a peer. -/
def heldAttr (r : Router) (b : NetAddr) (q : Pfx) : Option Attr :=
  (r.adjRoute b q).map Route.attr

/-- What the import checks and the input filter leave of the route of an UPDATE. -/
def importRoute (r : Router) (b : NetAddr) (peer : Peer) (route : Route) : Option Attr :=
  (bgpPeerRouteEligible r peer (receivedRoute r b peer route)).toOption.join

/-- What a message of a peer does to the attributes held of it. -/
def importedAttr (r : Router) (b : NetAddr) (peer : Peer) (known : Pfx → Option Attr) : MsgBody → Pfx → Option Attr
  | .update route, q => if ipPrefixMask q = ipPrefixMask route.pfx then importRoute r b peer route else known q
  | .withdraw p, q => if ipPrefixMask q = ipPrefixMask p then none else known q
  | _, q => known q

/-- What a step does to the attributes held of a peer. -/
def importedAttrBy (r : Router) (b : NetAddr) (known : Pfx → Option Attr) : Op → Pfx → Option Attr
  | .handleMessage src msg, q =>
    match r.peers.lookup b with
    | none => known q
    | some peer =>
      if src = b ∧ bgpPeerSeqnumCheck peer msg = true then importedAttr r b peer known msg.body q
      else known q
  | _, q => known q

/-! ## Decision processes and sessions -/

/-- The attributes held of the peers are given by `known`. -/
def HoldsAttr (known : NetAddr → Pfx → Option Attr) (r : Router) : Prop :=
  ∀ b q, heldAttr r b q = known b q

theorem Outcome.heldAttr {r r' : Router} {p : Pfx} (outcome : Outcome r r' p) (b : NetAddr) (q : Pfx) :
    heldAttr r' b q = heldAttr r b q := by
  cases outcome with
  | shadowed _ _ _ same => rw [same]
  | ran g flagged =>
    rw [Verified.heldAttr, Verified.heldAttr, flagged.adj]
    split
    · rw [Option.map_map]
      rfl
    · rfl

theorem Quiet.heldAttr {r r' : Router} (quiet : Quiet r r') (b : NetAddr) (q : Pfx) :
    heldAttr r' b q = heldAttr r b q := by
  rw [Verified.heldAttr, Verified.heldAttr, quiet.adjRoute]

theorem holdsAttr_rules (known : NetAddr → Pfx → Option Attr) :
    Invariant (HoldsAttr known) (fun r _ => HoldsAttr known r) (fun _ _ => True) fun _ => True where
  start holds := holds
  quiet holds quiet b q := (quiet.heldAttr b q).trans (holds b q)
  decides holds _ :=
    (decisionProcess_ends _ _).mono (fun _ outcome b q => (outcome.heldAttr b q).trans (holds b q))
      fun _ _ => trivial
  fails _ := trivial

/-! ## Received routes -/

section Received

variable {r r' : Router} {addr b : NetAddr} {peer : Peer}

theorem processUpdate_heldAttr {route : Route} (held : r.peers.lookup addr = some peer)
    (h : bgpPeerProcessUpdate r addr peer route = .ok r') (q : Pfx) :
    heldAttr r' b q = if b = addr ∧ ipPrefixMask q = ipPrefixMask route.pfx then
      importRoute r addr peer route else heldAttr r b q := by
  have decided {s : Router} (ran : bgpRouterDecisionProcess s route.pfx = .ok r') :
      heldAttr r' b q = heldAttr s b q :=
    ((decisionProcess_ends s route.pfx).value ran).heldAttr b q
  have gone : heldAttr (dropped r addr route.pfx) b q =
      if b = addr ∧ ipPrefixMask q = ipPrefixMask route.pfx then none else heldAttr r b q := by
    rw [heldAttr, dropped_adjRoute]
    split
    · rfl
    · rfl
  unfold importRoute
  obtain ⟨attr, checked, ran⟩ | ⟨checked, ⟨_, ran⟩ | ⟨_, rfl⟩⟩ := processUpdate_cases held h
  · have pfx : (receivedRoute r addr peer route).pfx = route.pfx := rfl
    rw [decided ran, heldAttr, stored_adjRoute, checked, held, pfx]
    split
    · rfl
    · rfl
  · rw [decided ran, gone, checked]
    rfl
  · rw [checked]
    cases absent : r.adjRoute addr route.pfx with
    | none =>
      rw [if_neg (by simp)]
      split
      next here => rw [heldAttr, here.1, adjRoute_congr r addr here.2, absent]; rfl
      · rfl
    | some old =>
      rw [if_pos (by simp), gone]
      rfl

theorem processWithdraw_heldAttr {p : Pfx} (held : r.peers.lookup addr = some peer)
    (h : bgpPeerProcessWithdraw r addr peer p = .ok r') (q : Pfx) :
    heldAttr r' b q = if b = addr ∧ ipPrefixMask q = ipPrefixMask p then none else heldAttr r b q := by
  obtain ⟨absent, rfl⟩ | ⟨_, s, _, decided, rfl⟩ := processWithdraw_cases held h
  · split
    next here => rw [heldAttr, here.1, adjRoute_congr _ addr here.2, absent]; rfl
    · rfl
  · refine (congrArg (Option.map Route.attr) (dropped_adjRoute s addr b p q)).trans ?_
    split
    · rfl
    · refine (((decisionProcess_ends _ p).value decided).heldAttr b q).trans ?_
      rw [heldAttr, retired, setAdjFlags_adjRoute]
      split
      · rw [Option.map_map]
        rfl
      · rfl

/-- The router in which a data message in order is processed imports in the same way. -/
theorem dataRcvd_import {peer' : Peer} {s : Router} {failure : Abort}
    (state : sessionDataRcvd (counted r addr) addr { peer with recvSeqNum := peer.recvSeqNum + 1 }
      failure = .ok (peer', s)) (route : Route) :
    importRoute s addr peer' route = importRoute r addr peer route := by
  unfold sessionDataRcvd at state
  split at state
  · cases state
    rfl
  · cases state
    rfl
  · cases state

/-- What a message in order changes of the attributes held. -/
theorem message_heldAttr {msg : Msg} (held : r.peers.lookup addr = some peer)
    (inOrder : bgpPeerSeqnumCheck peer msg = true) {code : NetError}
    (h : bgpPeerHandleMessage r addr peer msg = .ok (code, r')) (q : Pfx) :
    heldAttr r' b q =
      if b = addr then importedAttr r b peer (heldAttr r b) msg.body q else heldAttr r b q := by
  have quiet : Quiet r (counted r addr) := (Quiet.refl r).modify fun _ => rfl
  have received : (counted r addr).peers.lookup addr =
      some { peer with recvSeqNum := peer.recvSeqNum + 1 } := by
    rw [counted, modifyPeer_lookup, if_pos rfl, held]
    rfl
  have kept : HoldsAttr (heldAttr r) (counted r addr) := quiet.heldAttr
  simp only [bgpPeerHandleMessage, inOrder, Bool.not_true, Bool.false_eq_true, if_false,
    except_map_eq_ok, Prod.mk.injEq] at h
  obtain ⟨_, h, _, rfl⟩ := h
  -- Counting the message and checking the state leave the tables alone.
  cases body : msg.body with
  | update route =>
    simp only [body, bgpPeerSessionUpdateRcvd, except_bind_eq_ok] at h
    obtain ⟨⟨peer', s⟩, state, h⟩ := h
    obtain ⟨quiet', held'⟩ := DataInvariant.dataRcvd_quiet received state
    rw [processUpdate_heldAttr held' h, quiet'.heldAttr, quiet.heldAttr, dataRcvd_import state]
    by_cases same : b = addr
    · simp [same, importedAttr]
    · simp [same]
  | withdraw p =>
    simp only [body, bgpPeerSessionWithdrawRcvd, except_bind_eq_ok] at h
    obtain ⟨⟨peer', s⟩, state, h⟩ := h
    obtain ⟨quiet', held'⟩ := DataInvariant.dataRcvd_quiet received state
    rw [processWithdraw_heldAttr held' h, quiet'.heldAttr, quiet.heldAttr]
    by_cases same : b = addr
    · simp [same, importedAttr]
    · simp [same]
  | close =>
    simp only [body] at h
    rw [((holdsAttr_rules (heldAttr r)).closeRcvd kept fun _ _ => trivial).value h b q]
    simp [importedAttr]
  | «open» routerId =>
    simp only [body] at h
    rw [((holdsAttr_rules (heldAttr r)).openRcvd routerId kept).value h b q]
    simp [importedAttr]

end Received

/-! ## Steps -/

section Steps

variable {r r' : Router} {op : Op} {b : NetAddr}

/-- The attributes held of a peer change only with the messages taken from it. -/
theorem exec_heldAttr (kept : op ≠ .clearRib) (h : exec r op = .ok r') (q : Pfx) :
    heldAttr r' b q = importedAttrBy r b (heldAttr r b) op q := by
  have rules := holdsAttr_rules (heldAttr r)
  have start : HoldsAttr (heldAttr r) r := fun _ _ => rfl
  cases op with
  -- Only a message in order changes what the table of its sender holds.
  | handleMessage src msg =>
    simp only [exec, execCode, bgpRouterHandleMessage, except_map_eq_ok] at h
    obtain ⟨⟨code, _⟩, h, rfl⟩ := h
    simp only [importedAttrBy]
    cases held : r.peers.lookup src with
    | none =>
      simp only [held, Except.ok.injEq, Prod.mk.injEq] at h
      rw [← h.2]
      split
      · rfl
      next peer known =>
        have differ : src ≠ b := by
          rintro rfl
          simp [held] at known
        simp [differ]
    | some peer =>
      simp only [held] at h
      cases inOrder : bgpPeerSeqnumCheck peer msg with
      | true =>
        rw [message_heldAttr held inOrder h]
        by_cases same : b = src
        · subst same
          simp [held, inOrder]
        · rw [if_neg same]
          split
          · rfl
          · simp [Ne.symm same]
      | false =>
        simp only [bgpPeerHandleMessage, inOrder, Bool.not_false, if_true, Except.ok.injEq,
          Prod.mk.injEq] at h
        rw [← h.2]
        split
        · rfl
        next peer' known =>
          by_cases same : src = b
          · subst same
            rw [held] at known
            cases known
            simp [inOrder]
          · simp [same]
  -- The other operations run no import; the rules say that the attributes stay.
  | openSession addr =>
    exact Ends.value (Ends.map (rules.openSession start fun _ _ => trivial)) h b q
  | closeSession addr =>
    exact Ends.value (Ends.map (rules.closeSession start fun _ _ => trivial)) h b q
  | sessionRefresh addr =>
    exact Ends.value (Ends.map (Ends.map (rules.refresh start fun _ _ => trivial))) h b q
  | addNetwork p => exact (rules.addNetwork start fun _ => start).value h b q
  | delNetwork p => exact (rules.delNetwork start fun _ => start).value h b q
  | rerun p => exact Ends.value (Ends.map (Ends.map (rules.rerun start fun _ _ => trivial))) h b q
  | clearRib => exact absurd rfl kept
  | netChange rt env =>
    cases h
    rfl

/-- What is held of a peer stays in a step that takes no message of it. -/
theorem exec_heldAttr_other (kept : op ≠ .clearRib) (other : ∀ msg, op ≠ .handleMessage b msg)
    (h : exec r op = .ok r') (q : Pfx) : heldAttr r' b q = heldAttr r b q := by
  rw [exec_heldAttr kept h]
  cases op with
  | handleMessage src msg =>
    have fromOther : src ≠ b := fun same => other msg (same ▸ rfl)
    simp only [importedAttrBy, fromOther, false_and, if_false]
    split
    · rfl
    · rfl
  | _ => rfl

/-! ### Prefixes -/

theorem inKeys_eq (r : Router) (b : NetAddr) (q : Pfx) : inKeys r b q = (heldAttr r b q).isSome :=
  Option.isSome_map.symm

theorem accepts_eq (r : Router) (addr : NetAddr) (peer : Peer) (route : Route) :
    accepts r addr peer route = (importRoute r addr peer route).isSome := by
  unfold accepts importRoute
  cases bgpPeerRouteEligible r peer (receivedRoute r addr peer route) with
  | error e => rfl
  | ok verdict => rfl

theorem importedBy_isSome (r : Router) (b : NetAddr) (known : Pfx → Option Attr) (op : Op) (q : Pfx) :
    importedBy r b (fun q => (known q).isSome) op q = (importedAttrBy r b known op q).isSome := by
  cases op with
  | handleMessage src msg =>
    simp only [importedBy, importedAttrBy]
    split
    · rfl
    split
    · cases msg.body with
      | update route =>
        simp only [imported, importedAttr, accepts_eq]
        split
        · rfl
        · rfl
      | withdraw p =>
        simp only [imported, importedAttr]
        split
        next same => simp [same]
        next other => simp [other]
      | _ => rfl
    · rfl
  | _ => rfl

/-- The prefixes held of a peer change only with the messages taken from it. -/
theorem exec_imports (kept : op ≠ .clearRib) (h : exec r op = .ok r') (b : NetAddr) (q : Pfx) :
    inKeys r' b q = importedBy r b (inKeys r b) op q := by
  have keys : inKeys r b = fun q => (heldAttr r b q).isSome := funext (inKeys_eq r b)
  rw [inKeys_eq, exec_heldAttr kept h, keys, importedBy_isSome]

end Steps

end Cbgp.Verified
