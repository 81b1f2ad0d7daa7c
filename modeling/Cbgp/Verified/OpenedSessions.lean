import Cbgp.Verified.DownSessions
import Cbgp.Verified.ExportedRoutes

/-! # What an opening session tells

The OPEN that establishes a session makes the router announce its Loc-RIB to the peer, prefix after prefix
(`disseminateLocRib_tells`).  The peer then knows all exports (`opened_tells`), since nothing is left in the
Adj-RIB-Out of an earlier session, and from there on it is told what changes (`session_told`): what the router
exports to the peer can at any time be read off the messages of the session alone.
-/

namespace Cbgp.Verified

open Cbgp.Lib Cbgp.Net Cbgp.Bgp

/-! ## Known exports -/

/-- What is known of the exports is right, but for some prefixes of which nothing is known yet. -/
def Lacks (a : NetAddr) (r : Router) (missing : List Pfx) (known : Pfx → Option Attr) : Prop :=
  ∀ q, known q = exported r a q ∨ known q = none ∧ ∃ key ∈ missing, ipPrefixMask q = ipPrefixMask key

section Opening

variable {a : NetAddr} {r s r' : Router} {peer : Peer} {known : Pfx → Option Attr}

theorem exported_absent {q : Pfx} (absent : r.locRib.findExact q = none) : exported r a q = none := by
  unfold exported
  cases r.peers.lookup a with
  | none => rfl
  | some peer => rw [Option.bind_some, absent, Option.bind_none]

/-- Nothing is known of the exports, and all prefixes of the Loc-RIB are missing. -/
theorem lacks_locRib (a : NetAddr) (r : Router) :
    Lacks a r (r.locRib.keysInOrder r.env.traversal) fun _ => none := by
  intro q
  cases found : r.locRib.findExact q with
  | none => exact .inl (exported_absent found).symm
  | some route =>
    exact .inr ⟨rfl, ipPrefixMask q, Rib.mem_keysInOrder.mpr ⟨route, found⟩, (ipPrefixMask_idem q).symm⟩

theorem Lacks.done (lacks : Lacks a r [] known) (q : Pfx) : known q = exported r a q := by
  obtain right | ⟨_, _, member, _⟩ := lacks q
  · exact right
  · cases member

/-- One prefix less is missing once it is known. -/
theorem Lacks.next {key : Pfx} {missing : List Pfx} (lacks : Lacks a r (key :: missing) known)
    {known' : Pfx → Option Attr} (same : ∀ q, exported s a q = exported r a q)
    (here : ∀ q, ipPrefixMask q = ipPrefixMask key → known q = none ∨ known q = exported r a q →
      known' q = exported r a q)
    (elsewhere : ∀ q, ipPrefixMask q ≠ ipPrefixMask key → known' q = known q) : Lacks a s missing known' := by
  intro q
  rw [same]
  by_cases at_ : ipPrefixMask q = ipPrefixMask key
  · left
    obtain right | ⟨unknown, _⟩ := lacks q
    · exact here q at_ (.inr right)
    · exact here q at_ (.inl unknown)
  · rw [elsewhere q at_]
    obtain right | ⟨unknown, key', member, alike⟩ := lacks q
    · exact .inl right
    · obtain rfl | later := List.mem_cons.mp member
      · exact absurd alike at_
      · exact .inr ⟨unknown, key', later, alike⟩

/-- One route of the Loc-RIB is announced, if it is exported. -/
theorem disseminateToPeer_hears {key : Pfx} {missing : List Pfx} {route : Route} (hearing : Hearing a r peer known)
    (lacks : Lacks a r (key :: missing) known) (stored : r.locRib.findExact key = some route)
    (h : disseminateToPeer r route.pfx (some route) a = .ok s) :
    ∃ bodies, Tells a r s bodies ∧ Lacks a s missing (replayAttr known bodies) := by
  have sends := (disseminateToPeer_ends r route.pfx (some route) a).value h
  obtain ⟨bodies, told, tells⟩ := disseminateToPeer_told hearing.held h
  have pfx := Rib.findExact_pfx stored
  have replayed := told.replays hearing fun best same => by rw [Option.some.inj same]
  refine ⟨bodies, tells, lacks.next (fun q => ?_) (fun q at_ _ => ?_) fun q away => ?_⟩
  · exact exported_same (.of_sends sends) hearing.held hearing.reads (by rw [sends.locRib])
  · rw [replayed, if_pos (at_.trans pfx.symm), exported, hearing.held, Option.bind_some,
      r.locRib.findExact_congr at_, stored]
    rfl
  · rw [replayed, if_neg (pfx ▸ away)]

/-- The routes of some prefixes are announced one after another. -/
theorem foldlM_hears {step : Router → Pfx → Except Abort Router} {missing : List Pfx}
    (steps : ∀ {s key s'}, step s key = .ok s' → (s.locRib.findExact key = none ∧ s' = s) ∨
      ∃ route, s.locRib.findExact key = some route ∧ disseminateToPeer s route.pfx (some route) a = .ok s')
    (hearing : Hearing a r peer known) (lacks : Lacks a r missing known) (h : missing.foldlM step r = .ok r') :
    ∃ bodies, Tells a r r' bodies ∧ ∀ q, replayAttr known bodies q = exported r' a q := by
  -- what the peer knows grows with each prefix, and what it lacks is among those still to come
  induction missing generalizing r peer known with
  | nil =>
    cases h
    exact ⟨[], Tells.refl a _, lacks.done⟩
  | cons key missing inductionHypothesis =>
    rw [List.foldlM_cons, except_bind_eq_ok] at h
    obtain ⟨mid, stepped, rest⟩ := h
    obtain ⟨absent, rfl⟩ | ⟨route, stored, sent⟩ := steps stepped
    · -- no route under this prefix any more, so nothing is exported for it
      have nothing (q : Pfx) (at_ : ipPrefixMask q = ipPrefixMask key) : exported mid a q = none :=
        exported_absent ((mid.locRib.findExact_congr at_).trans absent)
      refine inductionHypothesis hearing (lacks.next (fun _ => rfl) (fun q at_ sofar => ?_) fun _ _ => rfl) rest
      obtain unknown | right := sofar
      · rw [unknown, nothing q at_]
      · exact right
    · obtain ⟨bodies, tells, lacks'⟩ := disseminateToPeer_hears hearing lacks stored sent
      obtain ⟨_, hearing', _⟩ := hearing.told tells
      obtain ⟨bodies', tells', exports⟩ := inductionHypothesis hearing' lacks' rest
      refine ⟨bodies ++ bodies', tells.trans tells', fun q => ?_⟩
      rw [replayAttr_append, exports]

/-- A peer that knows nothing is told all exports. -/
theorem disseminateLocRib_tells (hearing : Hearing a r peer fun _ => none) (h : disseminateLocRib r a = .ok r') :
    ∃ bodies, Tells a r r' bodies ∧ ∀ q, replayAttr (fun _ => none) bodies q = exported r' a q := by
  refine foldlM_hears (fun {s key s'} stepped => ?_) hearing (lacks_locRib a r) h
  split at stepped
  next absent =>
    cases stepped
    exact .inl ⟨absent, rfl⟩
  next route stored => exact .inr ⟨route, stored, stepped⟩

/-! ## The OPEN of the peer -/

/-- A real peer that was told nothing yet. -/
structure Untold (a : NetAddr) (r : Router) (peer : Peer) : Prop where
  held : r.peers.lookup a = some peer
  real : peer.virtual = false
  reads : ReadsRoute peer.filterOut
  keys : ∀ q, outKeys peer q = false

/-- The Loc-RIB is announced to a peer whose session is up. -/
theorem Hearing.opens (hearing : Hearing a r peer fun _ => none) (line : delivers r.env a peer = true)
    (h : disseminateLocRib r a = .ok r') : ∃ bodies, Tracks a r r' peer (fun _ => none) bodies := by
  obtain ⟨bodies, tells, exports⟩ := disseminateLocRib_tells hearing h
  obtain ⟨peer', hearing', told⟩ := hearing.told tells
  have frame := told.frame
  refine ⟨bodies, ⟨peer', hearing'.upToDate exports, ?_, ?_, ?_⟩, ?_, exports⟩
  · rw [frame]
  · rw [frame]
  · rw [frame]
  · rw [told.sent, line, if_pos rfl]

/-- The router answers with an OPEN before it announces the Loc-RIB. -/
theorem Hearing.answers (hearing : Hearing a r peer fun _ => none) (line : delivers r.env a peer = true)
    (h : disseminateLocRib (bgpPeerSend r a (.open r.rid)).2 a = .ok r') :
    ∃ bodies, Tracks a r r' peer (fun _ => none) bodies := by
  have answered : Hearing a (bgpPeerSend r a (.open r.rid)).2 { peer with sendSeqNum := peer.sendSeqNum + 1 }
      fun _ => none :=
    ⟨bgpPeerSend_lookup hearing.held _, hearing.up, hearing.enabled, hearing.reads, hearing.keys⟩
  have line' : delivers (bgpPeerSend r a (.open r.rid)).2.env a { peer with sendSeqNum := peer.sendSeqNum + 1 } =
      true := by
    rw [(bgpPeerSend_sends r a _).env, ← line]
    rfl
  obtain ⟨bodies, tracks⟩ := answered.opens line' h
  obtain ⟨peer', upToDate, source, kind, sends⟩ := tracks.upToDate
  refine ⟨.open r.rid :: bodies, ⟨peer', upToDate, source, kind, ?_⟩, ?_, tracks.exports⟩
  · rw [sends, List.length_cons, Nat.add_comm bodies.length, Nat.add_assoc]
  · rw [tracks.sent, bgpPeerSend_toward hearing.held, line, if_pos rfl, List.append_assoc]
    rfl

/-- What the router does with an OPEN in order. -/
theorem exec_open {msg : Msg} {routerId : NetAddr} (held : r.peers.lookup a = some peer)
    (body : msg.body = .open routerId) (inOrder : bgpPeerSeqnumCheck peer msg = true)
    (h : exec r (.handleMessage a msg) = .ok s) :
    bgpPeerSessionOpenRcvd (counted r a) a (countedPeer peer) routerId = .ok s := by
  simp only [exec, execCode, bgpRouterHandleMessage, held, bgpPeerHandleMessage, inOrder, body,
    Bool.not_true, Bool.false_eq_true, if_false, map_code] at h
  exact h

/-- The router stops at an OPEN in an established session. -/
theorem openRcvd_down {routerId : NetAddr} (h : bgpPeerSessionOpenRcvd r a peer routerId = .ok s) :
    peer.sessionState ≠ .established := by
  intro up
  simp only [bgpPeerSessionOpenRcvd, up] at h
  split at h
  · cases h
  · cases h

/-- An OPEN that is handled establishes the session and tells the peer all exports. -/
theorem opened_tells {msg : Msg} {routerId : NetAddr} (untold : Untold a r peer) (body : msg.body = .open routerId)
    (inOrder : bgpPeerSeqnumCheck peer msg = true) (line : delivers r.env a peer = true)
    (h : exec r (.handleMessage a msg) = .ok s) : ∃ bodies, Tracks a r s peer (fun _ => none) bodies := by
  have real : (countedPeer peer).virtual = false := untold.real
  have enabled : bgpPeerSendEnabled (countedPeer peer) = true := by simp [bgpPeerSendEnabled, real]
  have received (f : Peer → Peer) :
      ((counted r a).modifyPeer a f).peers.lookup a = some (f (countedPeer peer)) := by
    rw [modifyPeer_lookup, if_pos rfl, counted, modifyPeer_lookup, if_pos rfl, untold.held]
    rfl
  have opened := exec_open untold.held body inOrder h
  simp only [bgpPeerSessionOpenRcvd, real, Bool.false_eq_true, if_false] at opened
  split at opened
  · -- the router has not sent an OPEN yet: it answers first
    have held := received fun peer => { peer with sessionState := .established }
    have hearing : Hearing a _ _ fun _ => none := ⟨held, rfl, enabled, untold.reads, untold.keys⟩
    obtain ⟨bodies, tracks⟩ := hearing.answers line opened
    exact ⟨bodies, tracks.upToDate, tracks.sent, tracks.exports⟩
  · -- this OPEN is the answer
    have held := received fun peer => { peer with sessionState := .established, routerId := routerId }
    have hearing : Hearing a _ _ fun _ => none := ⟨held, rfl, enabled, untold.reads, untold.keys⟩
    obtain ⟨bodies, tracks⟩ := hearing.opens line opened
    exact ⟨bodies, tracks.upToDate, tracks.sent, tracks.exports⟩
  · cases opened

/-- Whatever the router did before it handles the OPEN of a peer, and as long as the session is then left alone, the
messages to the peer since that OPEN, replayed from nothing, give for every prefix what the router exports to it. -/
theorem session_told {r₀ : Router} {earlier later : List Op} {msg : Msg} {routerId : NetAddr}
    (start : DownEmpty a r₀) (past : earlier.foldlM exec r₀ = .ok r) (held : r.peers.lookup a = some peer)
    (reads : ReadsRoute peer.filterOut) (body : msg.body = .open routerId)
    (inOrder : bgpPeerSeqnumCheck peer msg = true) (opened : exec r (.handleMessage a msg) = .ok s)
    (line : delivers r.env a peer = true)
    (calm : ∀ entry ∈ loopStates exec s later, Calm entry.1 entry.2)
    (lines : ∀ entry ∈ loopStates exec s later, delivers entry.1.env a peer = true)
    (ran : later.foldlM exec s = .ok r') :
    ∃ peer' bodies, UpToDate a r' peer' ∧
      toward a r'.outbox = toward a r.outbox ++ numbered peer.srcAddr a peer.sendSeqNum bodies ∧
      ∀ q, replayAttr (fun _ => none) bodies q = exported r' a q := by
  -- an OPEN in an established session would have stopped the router
  have untold : Untold a r peer := by
    obtain ⟨peer', held', real, keys⟩ := run_downEmpty start past
    rw [held, Option.some.injEq] at held'
    subst held'
    exact ⟨held, real, reads, keys (openRcvd_down (exec_open held body inOrder opened))⟩
  obtain ⟨_, opens⟩ := opened_tells untold body inOrder line opened
  obtain ⟨bodies, tracks⟩ := opens.run calm lines ran
  obtain ⟨peer', upToDate, _⟩ := tracks.upToDate
  exact ⟨peer', bodies, upToDate, tracks.sent, tracks.exports⟩

/-- A router of AS 2 with an idle peer of AS 1. -/
def newRouter : Router :=
  bgpRouterAddPeer (bgpRouterCreate 2 2 ∅ Env.default) 1 { bgpPeerCreate 1 with srcAddr := 2 }

theorem newRouter_downEmpty : DownEmpty 1 newRouter := ⟨_, rfl, rfl, fun _ _ => rfl⟩

/-- The output filter of the peer stays the one that accepts everything. -/
theorem newRouter_reads {ops : List Op} (ran : ops.foldlM exec newRouter = .ok r)
    (held : r.peers.lookup 1 = some peer) : ReadsRoute peer.filterOut := by
  have configured : Configured newRouter r :=
    foldlM_invariant (fun _ sofar stepped => sofar.trans (exec_configured stepped)) (Configured.refl _) ran
  have peers := configured.peers 1
  rw [held, show newRouter.peers.lookup 1 = some { bgpPeerCreate 1 with srcAddr := 2 } from rfl, Option.map_some,
    Option.map_some, Option.some.injEq] at peers
  have filters := congrArg Peer.filterOut peers
  have filter : peer.filterOut = Filter.acceptAll := filters
  rw [filter]
  exact acceptAll_readsRoute

/-- The router has a network and opens the session; once the peer has answered, it exchanges the network for
another one. -/
theorem session_told_network : ∃ (r : Router) (peer : Peer) (r' : Router) (bodies : List MsgBody),
    (exported r' 1 ⟨0x0b000000, 8, short8⟩).isSome = true ∧
    exported r' 1 ⟨0x0a000000, 8, short8⟩ = none ∧
    toward 1 r'.outbox = toward 1 r.outbox ++ numbered peer.srcAddr 1 peer.sendSeqNum bodies ∧
      ∀ q, replayAttr (fun _ => none) bodies q = exported r' 1 q := by
  have run : okAnd ([.addNetwork ⟨0x0a000000, 8, short8⟩, .openSession 1].foldlM exec newRouter) (fun r =>
      okAnd (exec r (.handleMessage 1 ⟨0, .open 1⟩)) fun s =>
        okAnd ([.delNetwork ⟨0x0a000000, 8, short8⟩, .addNetwork ⟨0x0b000000, 8, short8⟩].foldlM exec s) (fun r' =>
          (exported r' 1 ⟨0x0b000000, 8, short8⟩).isSome && (exported r' 1 ⟨0x0a000000, 8, short8⟩).isNone) &&
        (r.peers.lookup 1).any fun peer => bgpPeerSeqnumCheck peer ⟨0, .open 1⟩ && (delivers r.env 1 peer &&
          (loopStates exec s [.delNetwork ⟨0x0a000000, 8, short8⟩, .addNetwork ⟨0x0b000000, 8, short8⟩]).all
            fun entry => delivers entry.1.env 1 peer)) = true := by
    decide +kernel
  obtain ⟨r, past, run⟩ := okAnd_iff.mp run
  obtain ⟨s, opened, run⟩ := okAnd_iff.mp run
  rw [Bool.and_eq_true, Option.any_eq_true] at run
  obtain ⟨ran, peer, held, checks⟩ := run
  rw [Bool.and_eq_true, Bool.and_eq_true, List.all_eq_true] at checks
  obtain ⟨inOrder, line, lines⟩ := checks
  obtain ⟨r', ran, observed⟩ := okAnd_iff.mp ran
  rw [Bool.and_eq_true, Option.isNone_iff_eq_none] at observed
  have calm : ∀ entry ∈ loopStates exec s
      [.delNetwork ⟨0x0a000000, 8, short8⟩, .addNetwork ⟨0x0b000000, 8, short8⟩], Calm entry.1 entry.2 := by
    intro entry member
    have op := loopStates_snd member
    simp only [List.mem_cons, List.not_mem_nil, or_false] at op
    obtain deleted | added := op
    · rw [deleted]
      trivial
    · rw [added]
      trivial
  obtain ⟨_, bodies, _, sent, exports⟩ := session_told newRouter_downEmpty past held (newRouter_reads past held)
    rfl inOrder opened line calm lines ran
  exact ⟨r, peer, r', bodies, observed.1, observed.2, sent, exports⟩

end Opening

end Cbgp.Verified
