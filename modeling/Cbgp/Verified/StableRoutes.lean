import Cbgp.Verified.OpenedSessions
import Cbgp.Verified.Provenance
import Cbgp.Verified.SessionAgreement

/-! # Stable routes

Two routers open their session, and it stays up: once no message to the one is on its way, it holds for every prefix
just what its import makes of what the other exports now (`stable_routes`).  The routes a network ends with are a
solution of these equations, one for each session, whatever the order in which the messages were delivered.
-/

namespace Cbgp.Verified

open Cbgp.Lib Cbgp.Net Cbgp.Bgp

/-! ## Imports -/

/-- What the import of a router makes of attributes that the peer announces for a prefix. -/
def importAttr (r : Router) (b : NetAddr) (q : Pfx) (attr : Attr) : Option Attr :=
  (r.peers.lookup b).bind fun peer => importRoute r b peer ⟨q, none, attr, RouteFlags.zero⟩

section Imports

variable {r s r' : Router} {b : NetAddr} {peer peer' : Peer}

/-- An import depends on the identity of the router, on the configuration of the peer, and on the route. -/
theorem importRoute_same (configured : Configured r s) (pref : s.env.localPref = r.env.localPref)
    (same : peerConfig peer' = peerConfig peer) (reads : ReadsRoute peer.filterIn) {route route' : Route}
    (pfx : ipPrefixMask route'.pfx = ipPrefixMask route.pfx) (attr : route'.attr = route.attr) :
    importRoute s b peer' route' = importRoute r b peer route := by
  have asns := congrArg Peer.asn same
  have filters := congrArg Peer.filterIn same
  have asn : peer'.asn = peer.asn := asns
  have filterIn : peer'.filterIn = peer.filterIn := filters
  have received : (receivedRoute s b peer' route').attr = (receivedRoute r b peer route).attr := by
    simp only [receivedRoute, asn, configured.asn, pref, attr]
  have verdict := reads r.asn r.rt s.rt (receivedRoute r b peer route) (receivedRoute s b peer' route') pfx received
  unfold importRoute bgpPeerRouteEligible
  rw [received, configured.asn, configured.rid, configured.clusterId, filterIn, verdict]

theorem importAttr_same (configured : Configured r s) (pref : s.env.localPref = r.env.localPref)
    (held : r.peers.lookup b = some peer) (reads : ReadsRoute peer.filterIn) (q : Pfx) (attr : Attr) :
    importAttr s b q attr = importAttr r b q attr := by
  have peers := configured.peers b
  rw [held] at peers
  obtain ⟨peer', held', same⟩ := Option.map_eq_some_iff.mp peers
  rw [importAttr, importAttr, held, held', Option.bind_some, Option.bind_some]
  exact importRoute_same configured pref same reads rfl rfl

end Imports

/-! ## What is held follows what is exported -/

/-- The step keeps the preference that the router gives to the routes of external peers. -/
def KeepsPref (r : Router) : Op → Prop
  | .netChange _ env => env.localPref = r.env.localPref
  | _ => True

/-- The step leaves the session up and loses none of its messages; once the sender has established it, its sessions
are left alone; and the import of the receiver stays as it is. -/
structure Undisturbed {ι : Type} [DecidableEq ι] (owner : NetAddr → Option ι) (i j : ι) (a b : NetAddr) (n : Network ι)
    (op : NetOp ι) : Prop where
  forth : Steady i j a b n op
  back : Steady j i b a n op
  sender : ∀ o, Performs owner n op j o → (side n j a).state = .established → Calm (n.router j) o
  receiver : ∀ o, Performs owner n op i o → KeepsPref (n.router i) o

/-- The input filter of the peer reads the route only. -/
def ImportsRoutes (r : Router) (b : NetAddr) : Prop :=
  ∃ peer, r.peers.lookup b = some peer ∧ ReadsRoute peer.filterIn

/-- The output filter of the peer reads the route only. -/
def ExportsRoutes (r : Router) (a : NetAddr) : Prop :=
  ∃ peer, r.peers.lookup a = some peer ∧ ReadsRoute peer.filterOut

theorem Configured.importsRoutes {r s : Router} {b : NetAddr} (configured : Configured r s)
    (before : ImportsRoutes r b) : ImportsRoutes s b := by
  obtain ⟨peer, held, reads⟩ := before
  obtain ⟨peer', held', same⟩ := configured.symm.lookup held
  have filters := congrArg Peer.filterIn same
  have filterIn : peer'.filterIn = peer.filterIn := filters
  exact ⟨peer', held', filterIn ▸ reads⟩

theorem Configured.exportsRoutes {r s : Router} {a : NetAddr} (configured : Configured r s)
    (before : ExportsRoutes r a) : ExportsRoutes s a := by
  obtain ⟨peer, held, reads⟩ := before
  obtain ⟨peer', held', same⟩ := configured.symm.lookup held
  have filters := congrArg Peer.filterOut same
  have filterOut : peer'.filterOut = peer.filterOut := filters
  exact ⟨peer', held', filterOut ▸ reads⟩

section Ends

variable {ι : Type} [DecidableEq ι] {owner : NetAddr → Option ι} {n n' : Network ι} {i j : ι} {a b : NetAddr}
  {verdict : Pfx → Bool} {known : Pfx → Option Attr} {op : NetOp ι}

/-- Router `i` knows the attributes `known`; with the messages on their way they become what router `j` exports, and
router `i` holds what its import makes of them. -/
structure Follows (n : Network ι) (i j : ι) (a b : NetAddr) (known : Pfx → Option Attr) : Prop where
  sender : ∃ peer, UpToDate a (n.router j) peer
  told : ∀ q, replayAttr known ((wire n j a).map (·.body)) q = exported (n.router j) a q
  holds : ∀ q, heldAttr (n.router i) b q = (known q).bind (importAttr (n.router i) b q)

theorem bodies_letters (k : ℕ) (bodies : List MsgBody) : (letters k bodies).map (·.body) = bodies := by
  induction bodies generalizing k with
  | nil => rfl
  | cons body bodies inductionHypothesis => rw [letters, List.map_cons, inductionHypothesis]

/-! ### What the stage of the session says -/

omit [DecidableEq ι] in
/-- The oldest message on its way is the next in order. -/
theorem Stage.inOrder {msg : Msg} {rest : List Msg} {peer : Peer} (stage : Stage verdict n i j a b)
    (held : (n.router i).peers.lookup b = some peer) (head : wire n j a = msg :: rest) :
    bgpPeerSeqnumCheck peer msg = true := by
  have isSide : side n i b = endpoint peer := by simp [side, held]
  have numbered_ {bodies : List MsgBody} (flight : wire n j a = letters (side n i b).recvSeqNum bodies) :
      bgpPeerSeqnumCheck peer msg = true := by
    rw [head, isSide] at flight
    cases bodies with
    | nil => cases flight
    | cons body bodies =>
      obtain ⟨rfl, _⟩ := List.cons.inj flight
      simp [bgpPeerSeqnumCheck, endpoint]
  cases stage with
  | unopened deaf idle silent untold =>
    rw [silent] at head
    cases head
  | hailed deaf rid bodies underway =>
    have flight := underway.flight
    rw [← deaf.uncounted] at flight
    exact numbered_ flight
  | up up heardOf bodies knows => exact numbered_ knows.underway.flight

omit [DecidableEq ι] in
/-- Until the sender has established the session, no route of it is on its way. -/
theorem Stage.no_route (stage : Stage verdict n i j a b) (down : (side n j a).state ≠ .established) :
    replayAttr (fun _ => none) ((wire n j a).map (·.body)) = fun _ => none := by
  cases stage with
  | unopened deaf idle silent untold =>
    rw [silent]
    rfl
  | hailed deaf rid bodies underway =>
    obtain ⟨_, rfl⟩ | up := underway.opened
    · rw [underway.flight, bodies_letters]
      rfl
    · exact absurd up down
  | up up heardOf bodies knows =>
    obtain ⟨_, rfl⟩ | up := knows.underway.opened
    · rw [knows.underway.flight, bodies_letters]
      rfl
    · exact absurd up down

omit [DecidableEq ι] in
/-- Until the sender has established the session, the receiver holds nothing of it. -/
theorem Stage.holds_nothing (stage : Stage verdict n i j a b) (before : DownEmpty a (n.router j))
    (down : (side n j a).state ≠ .established) (q : Pfx) : heldAttr (n.router i) b q = none := by
  suffices empty : inKeys (n.router i) b q = false by
    rw [inKeys, Option.isSome_eq_false_iff, Option.isNone_iff_eq_none] at empty
    rw [heldAttr, empty]
    rfl
  cases stage with
  | unopened deaf idle silent untold => exact deaf.empty q
  | hailed deaf rid bodies underway => exact deaf.empty q
  | up up heardOf bodies knows =>
    obtain ⟨_, rfl⟩ | up := knows.underway.opened
    · obtain ⟨peer, held, _, keys⟩ := before
      have isSide : side n j a = endpoint peer := by simp [side, held]
      rw [isSide] at down
      have told := knows.underway.told q
      rw [announced, held, Option.any_some, keys down q] at told
      have nothing : heardOf q = false := told.symm
      rw [knows.holds, nothing]
      rfl
    · exact absurd up down

omit [DecidableEq ι] in
/-- The next message of an end that has not established its session is its OPEN. -/
theorem Stage.next_open {msg : Msg} {rest : List Msg} (stage : Stage verdict n i j a b)
    (down : (side n i b).state ≠ .established) (head : wire n j a = msg :: rest) :
    (side n i b).recvSeqNum = 0 ∧ ∃ rid, msg = ⟨0, .open rid⟩ := by
  cases stage with
  | unopened deaf idle silent untold =>
    rw [silent] at head
    cases head
  | hailed deaf rid bodies underway =>
    have flight := underway.flight
    rw [head] at flight
    exact ⟨deaf.uncounted, rid, (List.cons.inj flight).1⟩
  | up up heardOf bodies knows => exact absurd up down

omit [DecidableEq ι] in
theorem Stage.uncounted (stage : Stage verdict n i j a b) (down : (side n i b).state ≠ .established) :
    (side n i b).recvSeqNum = 0 := by
  cases stage with
  | unopened deaf idle silent untold => exact deaf.uncounted
  | hailed deaf rid bodies underway => exact deaf.uncounted
  | up up heardOf bodies knows => exact absurd up down

/-! ### Steps -/

section Steps

variable {r : Router} {o : Op}

/-- What is imported is imported in the same way after a step of the receiver. -/
theorem exec_importAttr {r' : Router} (importer : ImportsRoutes r b) (pref : KeepsPref r o) (h : exec r o = .ok r')
    (q : Pfx) (attr : Attr) : importAttr r' b q attr = importAttr r b q attr := by
  obtain ⟨peer, held, reads⟩ := importer
  have same : r'.env.localPref = r.env.localPref := by
    cases o with
    | netChange rt env =>
      cases h
      exact pref
    | _ => rw [(exec_site (by simp) h).env]
  exact importAttr_same (exec_configured h) same held reads q attr

omit [DecidableEq ι] in
/-- The receiver takes a message of the session. -/
theorem Follows.received {msg : Msg} (follows : Follows n i j a b known) (stage : Stage verdict n i j a b)
    (importer : ImportsRoutes (n.router i) b) (flight : wire n j a = msg :: wire n' j a)
    (stepped : exec (n.router i) (.handleMessage b msg) = .ok (n'.router i)) (away : n'.router j = n.router j) :
    Follows n' i j a b (heardAttr known msg.body) := by
  have pref : KeepsPref (n.router i) (.handleMessage b msg) := trivial
  have imports := exec_importAttr importer pref stepped
  refine ⟨away ▸ follows.sender, fun q => ?_, fun q => ?_⟩
  · have told := follows.told q
    rw [flight] at told
    rw [away]
    exact told
  · obtain ⟨peer, held, reads⟩ := importer
    have inOrder := stage.inOrder held flight
    rw [exec_heldAttr (by simp) stepped, importedAttrBy, held]
    simp only [inOrder, and_self, if_true]
    simp only [imports]
    have holds := follows.holds q
    -- What is stored is the import of what was told, whose attributes the import filter left alone.
    cases body : msg.body with
    | update route =>
      simp only [importedAttr, heardAttr]
      split
      next same =>
        rw [Option.bind_some, importAttr, held, Option.bind_some]
        exact importRoute_same (.refl _) rfl rfl reads same.symm rfl
      · exact holds
    | withdraw p =>
      simp only [importedAttr, heardAttr]
      split
      · rfl
      · exact holds
    | close => exact holds
    | «open» routerId => exact holds

/-- Every step of the network that leaves an established session alone. -/
theorem Follows.step (follows : Follows n i j a b known) (stage : Stage verdict n i j a b)
    (well : WellAddressed owner n) (paired : Mutual owner n i j a b) (importer : ImportsRoutes (n.router i) b)
    (allowed : Undisturbed owner i j a b n op) (h : netStep owner n op = .ok n') :
    ∃ known', Follows n' i j a b known' := by
  have steady := allowed.forth
  obtain ⟨peer, before⟩ := follows.sender
  cases netStep_part well paired steady.genuine steady.kept h with
  | received msg same stepped away flight kept =>
    exact ⟨_, follows.received stage importer flight stepped away⟩
  | receiver o performs other apart stepped away flight kept =>
    -- what is held and the import of the receiver stay as they are
    have imports := exec_importAttr importer (allowed.receiver o performs) stepped
    have untouched : o ≠ .clearRib := by
      rintro rfl
      cases performs with
      | act =>
        have stays := steady.receiver .clearRib rfl
        cases stays
    refine ⟨known, away ▸ follows.sender, fun q => ?_, fun q => ?_⟩
    · rw [flight, away]
      exact follows.told q
    · rw [exec_heldAttr_other untouched other stepped]
      simp only [imports]
      exact follows.holds q
  | sender o performs hears apart stepped away back kept =>
    have established : (side n j a).state = .established := by
      have isSide : side n j a = endpoint peer := by simp [side, before.held]
      rw [isSide]
      exact before.up
    -- the messages that the sender adds turn its exports before into those now
    obtain ⟨peer', bodies, informs, _⟩ := exec_informs before (allowed.sender o performs established) stepped
    obtain ⟨_, flight, _⟩ := informs.spoken.seen paired.right kept before.held
    refine ⟨known, ⟨peer', informs.after⟩, fun q => ?_, fun q => ?_⟩
    · rw [flight, steady.line, if_pos rfl, List.map_append, bodies_letters, replayAttr_append, ← informs.exports,
        funext follows.told]
    · rw [away]
      exact follows.holds q
  | outside apart away away' flight back =>
    refine ⟨known, away' ▸ follows.sender, fun q => ?_, fun q => ?_⟩
    · rw [flight, away']
      exact follows.told q
    · rw [away]
      exact follows.holds q

/-- The step that establishes the session at the sender is the delivery of the OPEN of the receiver, and the sender
tells all its exports. -/
theorem Follows.opened {verdict' : Pfx → Bool} (stage : Stage verdict n i j a b) (stage' : Stage verdict' n j i b a)
    (well : WellAddressed owner n) (paired : Mutual owner n i j a b) (empty : DownEmpty a (n.router j))
    (exporter : ExportsRoutes (n.router j) a) (steady : Steady i j a b n op)
    (down : (side n j a).state ≠ .established) (up : (side n' j a).state = .established)
    (h : netStep owner n op = .ok n') : Follows n' i j a b fun _ => none := by
  cases netStep_part well paired steady.genuine steady.kept h with
  | received msg same stepped away flight kept => exact absurd ((side_same away).symm ▸ up) down
  | receiver o performs other apart stepped away flight kept => exact absurd ((side_same away).symm ▸ up) down
  | outside apart away away' flight back => exact absurd ((side_same away').symm ▸ up) down
  | sender o performs hears apart stepped away back kept =>
    obtain ⟨e, sent, step, moved, _⟩ := paired.right.acts kept stepped
    -- only a message of the receiver establishes the session
    obtain ⟨msg, isRecv⟩ : ∃ msg, inputOf a o = .recv msg := by
      by_contra none
      rw [not_exists] at none
      exact (step.stays_down down (stage'.uncounted down) none).1 (moved ▸ up)
    have op := inputOf_recv isRecv
    subst op
    -- and the oldest message of a receiver that the sender has not heard is its OPEN
    obtain ⟨uncounted, rid, rfl⟩ := stage'.next_open down (hears msg rfl)
    obtain ⟨peer, held, real, keys⟩ := empty
    have isSide : side n j a = endpoint peer := by simp [side, held]
    obtain ⟨peer', held', reads⟩ := exporter
    rw [held, Option.some.injEq] at held'
    subst held'
    have inOrder : bgpPeerSeqnumCheck peer ⟨0, .open rid⟩ = true := by
      rw [isSide] at uncounted
      have zero : peer.recvSeqNum = 0 := uncounted
      simp [bgpPeerSeqnumCheck, zero]
    have line : delivers (n.router j).env a peer = true := by simpa [lineUp, held] using steady.line
    have waits : peer.sessionState ≠ .established := by
      rw [isSide] at down
      exact down
    obtain ⟨bodies, tracks⟩ := opened_tells ⟨held, real, reads, keys waits⟩ rfl inOrder line stepped
    obtain ⟨peer', upToDate, _⟩ := tracks.upToDate
    have flight : (wire n' j a).map (·.body) = (wire n j a).map (·.body) ++ bodies := by
      rw [wire_eq, wire_eq, tracks.sent, kept, List.drop_append_of_le_length paired.right.count, List.map_append,
        List.map_append, ← addressed_letters]
      simp [Verified.addressed, Function.comp_def, bodies_letters]
    refine ⟨⟨peer', upToDate⟩, fun q => ?_, fun q => ?_⟩
    · rw [flight, replayAttr_append, stage.no_route down, tracks.exports]
    · rw [away]
      exact stage.holds_nothing ⟨peer, held, real, keys⟩ down q

end Steps

/-! ## Runs -/

/-- What holds of the two ends in every state of a run: once the sender has established the session, the receiver
follows it. -/
structure Settling (owner : NetAddr → Option ι) (n : Network ι) (i j : ι) (a b : NetAddr) : Prop where
  addressed : WellAddressed owner n
  paired : Mutual owner n i j a b
  forth : ∃ verdict, Agreement verdict n i j a b
  back : ∃ verdict, Agreement verdict n j i b a
  empty : DownEmpty a (n.router j)
  importer : ImportsRoutes (n.router i) b
  exporter : ExportsRoutes (n.router j) a
  follows : (side n j a).state = .established → ∃ known, Follows n i j a b known

theorem netStep_downEmpty (well : WellAddressed owner n) (paired : Mutual owner n i j a b)
    (steady : Steady i j a b n op) (empty : DownEmpty a (n.router j)) (h : netStep owner n op = .ok n') :
    DownEmpty a (n'.router j) := by
  cases netStep_part well paired steady.genuine steady.kept h with
  | received msg same stepped away flight kept => exact away ▸ empty
  | receiver o performs other apart stepped away flight kept => exact away ▸ empty
  | sender o performs hears apart stepped away back kept => exact exec_downEmpty empty stepped
  | outside apart away away' flight back => exact away' ▸ empty

theorem Settling.step (settling : Settling owner n i j a b) (allowed : Undisturbed owner i j a b n op)
    (h : netStep owner n op = .ok n') : Settling owner n' i j a b := by
  have well := settling.addressed
  have paired := settling.paired
  obtain ⟨verdict, forth⟩ := settling.forth
  obtain ⟨verdict', back⟩ := settling.back
  refine ⟨well.step h, (netStep_moves well paired allowed.forth.genuine h).1,
    ⟨_, forth.step well paired allowed.forth h⟩, ⟨_, back.step well paired.symm allowed.back h⟩,
    netStep_downEmpty well paired allowed.forth settling.empty h,
    (netStep_configured h i).importsRoutes settling.importer,
    (netStep_configured h j).exportsRoutes settling.exporter, fun up => ?_⟩
  by_cases before : (side n j a).state = .established
  · obtain ⟨known, follows⟩ := settling.follows before
    exact follows.step forth.stage well paired settling.importer allowed h
  · exact ⟨_, Follows.opened forth.stage back.stage well paired settling.empty settling.exporter allowed.forth before
      up h⟩

omit [DecidableEq ι] in
theorem Unopened.settling (start : Unopened owner n i j a b) (start' : Unopened owner n j i b a)
    (importer : ImportsRoutes (n.router i) b) (exporter : ExportsRoutes (n.router j) a) :
    Settling owner n i j a b where
  addressed := start.fresh.addressed
  paired := start.fresh.paired
  forth := ⟨fun _ => true, start.agreement _⟩
  back := ⟨fun _ => true, start'.agreement _⟩
  empty := start.fresh.paired.right.downEmpty start.untold
  importer := importer
  exporter := exporter
  follows up := by
    rw [start.fresh.right] at up
    cases up

/-- Two routers open their session, and it stays up while the other sessions of the one are left alone.  From the
moment this one has established the session, its peer knows, up to the messages on their way, with which attributes it
exports its route for each prefix.  Once nothing is on its way, the peer holds for every prefix what its own import
makes of what the router exports. -/
theorem stable_routes (start : Unopened owner n i j a b) (start' : Unopened owner n j i b a)
    (importer : ImportsRoutes (n.router i) b) (exporter : ExportsRoutes (n.router j) a)
    (reached : Reach (netStep owner) (Undisturbed owner i j a b) n n')
    (up : (side n' j a).state = .established) :
    (∃ known, Follows n' i j a b known) ∧ (wire n' j a = [] → ∀ q, heldAttr (n'.router i) b q =
      (exported (n'.router j) a q).bind (importAttr (n'.router i) b q)) := by
  have settling : Settling owner n' i j a b :=
    reached.invariant (start.settling start' importer exporter) Settling.step
  have follows := settling.follows up
  refine ⟨follows, fun silent q => ?_⟩
  obtain ⟨known, follows⟩ := follows
  have told := follows.told
  rw [silent] at told
  rw [follows.holds, ← told]
  rfl

end Ends

/-! ## Two routers -/

theorem twoRouters_unopened_back : Unopened twoOwners twoRouters true false 2 1 := by
  refine ⟨?_, fun _ => rfl, fun _ => rfl⟩
  have fresh := twoRouters_fresh
  exact ⟨fresh.addressed, fresh.paired.symm, fresh.right, fresh.left, fresh.back, fresh.out⟩

/-- A network is announced, or a message delivered to the address. -/
def NetOp.calm {ι : Type} (d : NetAddr) : NetOp ι → Bool
  | .act _ (.addNetwork _) => true
  | .deliver _ e => e = d
  | _ => false

/-- The steps leave the sessions of router `true` alone once it has established its session. -/
theorem twoRouters_undisturbed : ∀ entry ∈ loopStates (netStep twoOwners) twoRouters twoRoutersOps,
    Undisturbed twoOwners false true 1 2 entry.1 entry.2 := by
  have tests : ∀ entry ∈ loopStates (netStep twoOwners) twoRouters twoRoutersOps,
      NetOp.harmless entry.2 = true ∧ lineUp entry.1 true 1 = true ∧ lineUp entry.1 false 2 = true ∧
        ((side entry.1 true 1).state = .established → NetOp.calm 1 entry.2 = true) := by
    decide +kernel
  rintro ⟨n, op⟩ member
  obtain ⟨harmless, forth, back, calm⟩ := tests (n, op) member
  refine ⟨NetOp.steady harmless false true 1 2 forth, NetOp.steady harmless true false 2 1 back,
    fun o performs up => ?_, fun o performs => ?_⟩
  · have quiet := calm up
    cases performs with
    | act =>
      cases o with
      | addNetwork p => trivial
      | _ => cases quiet
    | deliver head target =>
      -- the address is not the sender's
      rw [of_decide_eq_true quiet] at target
      cases target
  · cases performs with
    | act =>
      cases o with
      | netChange rt env => cases harmless
      | _ => trivial
    | deliver head target => trivial

/-- Router `true` announces a network, and router `false` holds it as it imports it. -/
theorem stable_routes_two : ∃ n, (side n true 1).state = .established ∧ wire n true 1 = [] ∧
    (heldAttr (n.router false) 2 ⟨0x0a000000, 8, short8⟩).isSome = true ∧
    ∀ q, heldAttr (n.router false) 2 q =
      (exported (n.router true) 1 q).bind (importAttr (n.router false) 2 q) := by
  have ran : okAnd (twoRoutersOps.foldlM (netStep twoOwners) twoRouters) (fun n =>
      decide ((side n true 1).state = .established) && decide (wire n true 1 = []) &&
        (heldAttr (n.router false) 2 ⟨0x0a000000, 8, short8⟩).isSome) = true := by
    decide +kernel
  obtain ⟨n, ran, observed⟩ := okAnd_iff.mp ran
  simp only [Bool.and_eq_true, decide_eq_true_eq] at observed
  obtain ⟨⟨up, silent⟩, held⟩ := observed
  have reached : Reach (netStep twoOwners) (Undisturbed twoOwners false true 1 2) twoRouters n :=
    Reach.of_foldlM twoRouters_undisturbed ran
  exact ⟨n, up, silent, held, (stable_routes twoRouters_unopened twoRouters_unopened_back
    ⟨_, rfl, acceptAll_readsRoute⟩ ⟨_, rfl, acceptAll_readsRoute⟩ reached up).2 silent⟩

end Cbgp.Verified
