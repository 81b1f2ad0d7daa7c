import Cbgp.Verified.AdjRibIn
import Cbgp.Verified.DownSessions
import Cbgp.Verified.SessionNumbers
import Cbgp.Verified.SessionParts
import Cbgp.Verified.SessionSteps

/-! # What two peers know of each other's routes

Two routers open their session, and it stays up.  The prefixes a router holds of its peer are then those that the
peer has in its Adj-RIB-Out, as far as the messages on their way have been taken into account and the last UPDATE
for the prefix passed the import checks (`peers_agree`).  The Adj-RIB-Out and the messages are kept together by each
step of the sender, the Adj-RIB-In and the messages by each delivery; both begin empty with the OPEN of the sender.
-/

namespace Cbgp.Verified

open Cbgp.Lib Cbgp.Net Cbgp.Bgp

/-! ## The two ends -/

section Ends

variable {ι : Type} [DecidableEq ι] {owner : NetAddr → Option ι} {n n' : Network ι} {i j : ι} {a b : NetAddr}

/-- The prefixes that a router has announced to its peer. -/
def announced (n : Network ι) (j : ι) (a : NetAddr) (q : Pfx) : Bool :=
  ((n.router j).peers.lookup a).any fun peer => outKeys peer q

/-- The import checks of the router pass the route of an UPDATE. -/
def passes (r : Router) (b : NetAddr) (route : Route) : Bool :=
  (r.peers.lookup b).any fun peer => accepts r b peer route

/-- Whether the last UPDATE for a prefix passed the import checks, once the router takes a message. -/
def judge (r : Router) (b : NetAddr) (verdict : Pfx → Bool) : MsgBody → Pfx → Bool
  | .update route, q => if ipPrefixMask q = ipPrefixMask route.pfx then passes r b route else verdict q
  | _, q => verdict q

/-- The same, once the network takes a step. -/
def judgeStep (i j : ι) (a b : NetAddr) (verdict : Pfx → Bool) (n : Network ι) (op : NetOp ι) : Pfx → Bool :=
  match op, wire n j a with
  | .deliver k d, msg :: _ => if k = j ∧ d = a then judge (n.router i) b verdict msg.body else verdict
  | _, _ => verdict

/-- The step leaves the session up, and loses no message to router `i`. -/
structure Steady (i j : ι) (a b : NetAddr) (n : Network ι) (op : NetOp ι) : Prop where
  genuine : Genuine n op
  line : lineUp n j a = true
  sender : ∀ o, op = .act j o → interrupts a (n.router j) o = false
  receiver : ∀ o, op = .act i o → interrupts b (n.router i) o = false
  kept : op ≠ .lose j a

/-- Two routers that have just been configured as peers of each other: the one holds nothing of the other yet, which
has announced nothing to it. -/
structure Unopened (owner : NetAddr → Option ι) (n : Network ι) (i j : ι) (a b : NetAddr) : Prop where
  fresh : FreshPair owner n i j a b
  empty : ∀ q, inKeys (n.router i) b q = false
  untold : ∀ q, announced n j a q = false

/-- Router `j` has opened its session.  After `heardOf` it has announced `bodies`, which are still on their way to its
peer behind `first`, numbered from `k` on. -/
structure Underway (n : Network ι) (j : ι) (a : NetAddr) (k : ℕ) (first : List MsgBody) (heardOf : Pfx → Bool)
    (bodies : List MsgBody) : Prop where
  opened : (side n j a).state = .openWait ∧ bodies = [] ∨ (side n j a).state = .established
  flight : wire n j a = letters k (first ++ bodies)
  count : (side n j a).sendSeqNum = k + (first ++ bodies).length
  legit : Legit heardOf bodies
  told : ∀ q, announced n j a q = replay heardOf bodies q

/-- What router `i` holds of its peer, with `bodies` still on their way: it has heard of the prefixes `heardOf`, and
holds those whose last UPDATE passed its checks. -/
structure Knows (verdict : Pfx → Bool) (n : Network ι) (i j : ι) (a b : NetAddr) (heardOf : Pfx → Bool)
    (bodies : List MsgBody) : Prop where
  underway : Underway n j a (side n i b).recvSeqNum [] heardOf bodies
  holds : ∀ q, inKeys (n.router i) b q = (heardOf q && verdict q)

/-- Router `i` has heard nothing of its peer. -/
structure Deaf (n : Network ι) (i : ι) (b : NetAddr) : Prop where
  down : (side n i b).state ≠ .established
  uncounted : (side n i b).recvSeqNum = 0
  empty : ∀ q, inKeys (n.router i) b q = false

/-- How far the session has come: router `j` has not opened it, its OPEN is on its way, or router `i` has heard the
OPEN and knows what router `j` announces. -/
inductive Stage (verdict : Pfx → Bool) (n : Network ι) (i j : ι) (a b : NetAddr) : Prop where
  | unopened (deaf : Deaf n i b) (idle : side n j a = .reset .idle) (silent : wire n j a = [])
      (untold : ∀ q, announced n j a q = false)
  | hailed (deaf : Deaf n i b) (rid : NetAddr) (bodies : List MsgBody)
      (underway : Underway n j a 0 [.open rid] (fun _ => false) bodies)
  | up (up : (side n i b).state = .established) (heardOf : Pfx → Bool) (bodies : List MsgBody)
      (knows : Knows verdict n i j a b heardOf bodies)

/-- What holds of the two ends in every state of a session that stays up. -/
structure Agreement (verdict : Pfx → Bool) (n : Network ι) (i j : ι) (a b : NetAddr) : Prop where
  back : ∀ msg ∈ wire n i b, msg.body ≠ .close
  stage : Stage verdict n i j a b

theorem letters_append (k : ℕ) (bodies bodies' : List MsgBody) :
    letters k (bodies ++ bodies') = letters k bodies ++ letters (k + bodies.length) bodies' := by
  induction bodies generalizing k with
  | nil => rfl
  | cons body bodies inductionHypothesis =>
    rw [List.cons_append, letters, inductionHypothesis, letters, List.length_cons]
    rw [show k + 1 + bodies.length = k + (bodies.length + 1) by omega]
    rfl

omit [DecidableEq ι] in
/-- A router has spoken to its peer: its end, its messages and its announcements. -/
theorem Spoken.seen {peer peer' : Peer} {bodies : List MsgBody} (half : Half owner n j i b a)
    (kept : n'.taken j a = n.taken j a) (spoken : Spoken a (n.router j) (n'.router j) peer peer' bodies)
    (held : (n.router j).peers.lookup a = some peer) :
    side n' j a = endpoint peer' ∧
      wire n' j a = wire n j a ++ (if lineUp n j a then letters peer.sendSeqNum bodies else []) ∧
      ∀ q, announced n' j a q = replay (announced n j a) bodies q := by
  have line : lineUp n j a = delivers (n.router j).env a peer := by simp [lineUp, held]
  have keys : announced n j a = outKeys peer := by
    funext q
    simp [announced, held]
  refine ⟨?_, ?_, fun q => ?_⟩
  · simp [side, spoken.lookup]
  · rw [wire_eq, wire_eq, spoken.sent, line, kept, List.drop_append_of_le_length half.count, List.map_append]
    split
    · rw [← addressed_letters]
      simp [Verified.addressed, Function.comp_def]
    · rfl
  · rw [keys, ← spoken.keys]
    simp [announced, spoken.lookup]

/-! ## The sender -/

/-- The step, seen from the session with the peer. -/
theorem interrupts_input {r : Router} {o : Op} (stays : interrupts b r o = false) :
    inputOf b o ≠ .close ∧ (inputOf b o = .refresh → r.env.sessionOk b = true) := by
  cases o with
  | closeSession c =>
    have other : c ≠ b := by simpa [interrupts] using stays
    simp [inputOf, other]
  | sessionRefresh c =>
    refine ⟨?_, fun isRefresh => ?_⟩
    · simp only [inputOf]
      split <;> simp
    · have same : c = b := by
        have found := inputOf_refresh isRefresh
        simpa using found
      simpa [interrupts, same] using stays
  | openSession c | handleMessage c msg =>
    simp only [inputOf]
    split <;> simp
  | addNetwork p | delNetwork p | rerun p | clearRib | netChange rt env => simp [inputOf]

section Steps

variable {verdict heardOf : Pfx → Bool} {k : ℕ} {first bodies : List MsgBody} {o : Op} {op : NetOp ι}

omit [DecidableEq ι] in
/-- The sender of an open session acts: what it tells its peer comes behind what it has told it before. -/
theorem Underway.acts (underway : Underway n j a k first heardOf bodies) (half : Half owner n j i b a)
    (kept : n'.taken j a = n.taken j a) (line : lineUp n j a = true) (stays : interrupts a (n.router j) o = false)
    (others : handsClose a o = false) (h : exec (n.router j) o = .ok (n'.router j)) :
    ∃ bodies', Underway n' j a k first heardOf (bodies ++ bodies') := by
  obtain ⟨peer, held, _, _, isSide, _⟩ := half.endpoint_eq
  have opened := underway.opened
  have count := underway.count
  rw [isSide] at opened count
  obtain ⟨peer', bodies', spoken, _⟩ := exec_spoken held (opened.imp_left And.left) stays others h
  obtain ⟨seenSide, seenWire, seenKeys⟩ := spoken.seen half kept held
  rw [line, if_pos rfl] at seenWire
  have keys : announced n j a = replay heardOf bodies := funext underway.told
  have outKeys_eq : outKeys peer = replay heardOf bodies := by
    rw [← keys]
    funext q
    simp [announced, held]
  have counter : peer.sendSeqNum = k + (first ++ bodies).length := count
  refine ⟨bodies', ?_, ?_, ?_, ?_, fun q => ?_⟩
  · rw [seenSide]
    obtain up | ⟨waits, waited, silent⟩ := spoken.state
    · exact .inr up
    · refine .inl ⟨waits, ?_⟩
      obtain ⟨_, rfl⟩ | up := opened
      · exact silent
      · rw [show (endpoint peer).state = peer.sessionState from rfl, waited] at up
        cases up
  · rw [seenWire, underway.flight, counter, ← letters_append, List.append_assoc]
  · rw [seenSide, ← List.append_assoc, List.length_append, ← Nat.add_assoc, ← counter]
    exact spoken.sends
  · exact underway.legit.append (outKeys_eq ▸ spoken.legit)
  · rw [seenKeys, keys, replay_append]

omit [DecidableEq ι] in
/-- Nothing is announced before the session is up. -/
theorem announced_down {r : Router} (before : DownEmpty a (n.router j)) (h : exec (n.router j) o = .ok r)
    (here : n'.router j = r) (down : (side n' j a).state ≠ .established) (q : Pfx) : announced n' j a q = false := by
  obtain ⟨peer, held, _, keys⟩ := exec_downEmpty before h
  rw [← here] at held
  have isSide : side n' j a = endpoint peer := by simp [side, held]
  rw [isSide] at down
  simp [announced, held, keys down q]

omit [DecidableEq ι] in
theorem Half.downEmpty (half : Half owner n i j a b) (untold : ∀ q, announced n i b q = false) :
    DownEmpty b (n.router i) := by
  obtain ⟨peer, held, real, _⟩ := half.endpoint_eq
  refine ⟨peer, held, real, fun _ q => ?_⟩
  simpa [announced, held] using untold q

omit [DecidableEq ι] in
/-- A router that has heard nothing is another one's business. -/
theorem Deaf.away (deaf : Deaf n i b) (away : n'.router i = n.router i) : Deaf n' i b := by
  have same : side n' i b = side n i b := side_same away
  exact ⟨same ▸ deaf.down, same ▸ deaf.uncounted, away ▸ deaf.empty⟩

/-- The sender acts. -/
theorem Stage.sender (stage : Stage verdict n i j a b) (half : Half owner n j i b a)
    (kept : n'.taken j a = n.taken j a) (away : n'.router i = n.router i) (line : lineUp n j a = true)
    (stays : interrupts a (n.router j) o = false) (others : handsClose a o = false)
    (h : exec (n.router j) o = .ok (n'.router j)) : Stage verdict n' i j a b := by
  cases stage with
  | unopened deaf idle silent untold =>
    obtain ⟨e, sent, step, seenSide, seenWire⟩ := half.acts kept h
    rw [idle, line] at step
    have noClose : ∀ msg, inputOf a o = .recv msg → msg.body ≠ .close := by
      intro msg input
      simpa [handsClose, inputOf_recv input] using others
    have nothing := announced_down (half.downEmpty untold) h rfl
    rw [silent, List.nil_append] at seenWire
    obtain ⟨rfl, rfl⟩ | ⟨rfl, rfl⟩ := step.idle noClose
    · exact .unopened (deaf.away away) seenSide seenWire (nothing (by simp [seenSide, Endpoint.reset]))
    · -- the OPEN leaves
      refine .hailed (deaf.away away) _ [] ⟨.inl ⟨by rw [seenSide], rfl⟩, seenWire, by rw [seenSide]; rfl, trivial, ?_⟩
      exact nothing (by simp [seenSide])
  | hailed deaf rid bodies underway =>
    obtain ⟨bodies', underway'⟩ := underway.acts half kept line stays others h
    exact .hailed (deaf.away away) rid _ underway'
  | up up heardOf bodies knows =>
    obtain ⟨bodies', underway'⟩ := knows.underway.acts half kept line stays others h
    have same : side n' i b = side n i b := side_same away
    exact .up (same ▸ up) heardOf _ ⟨same ▸ underway', away ▸ knows.holds⟩

/-! ## The receiver -/

omit [DecidableEq ι] in
/-- The sender's end and its messages are as they were. -/
theorem Underway.away (underway : Underway n j a k first heardOf bodies) (away : n'.router j = n.router j)
    (flight : wire n' j a = wire n j a) : Underway n' j a k first heardOf bodies := by
  have same : side n' j a = side n j a := side_same away
  refine ⟨same ▸ underway.opened, flight ▸ underway.flight, same ▸ underway.count, underway.legit, fun q => ?_⟩
  rw [announced, away]
  exact underway.told q

/-- The receiver keeps what it holds of its peer, as long as it takes no message of it. -/
theorem unheard_inKeys {r r' : Router} (stays : interrupts b r o = false) (other : ∀ msg, o ≠ .handleMessage b msg)
    (h : exec r o = .ok r') (q : Pfx) : inKeys r' b q = inKeys r b q := by
  have kept : o ≠ .clearRib := by
    rintro rfl
    cases stays
  rw [inKeys_eq, inKeys_eq, exec_heldAttr_other kept other h]

/-- The receiver does something else than taking a message of the session. -/
theorem Stage.receiver (stage : Stage verdict n i j a b) (half : Half owner n i j a b)
    (kept : n'.taken i b = n.taken i b) (away : n'.router j = n.router j) (flight : wire n' j a = wire n j a)
    (stays : interrupts b (n.router i) o = false) (other : ∀ msg, o ≠ .handleMessage b msg)
    (h : exec (n.router i) o = .ok (n'.router i)) : Stage verdict n' i j a b := by
  have held := unheard_inKeys stays other h
  have noMessage : ∀ msg, inputOf b o ≠ .recv msg := fun msg input => other msg (inputOf_recv input)
  -- An end that has heard nothing and still hears nothing stays as it was.
  have deafens (deaf : Deaf n i b) : Deaf n' i b := by
    obtain ⟨e, sent, step, seenSide, _⟩ := half.acts kept h
    obtain ⟨down, uncounted⟩ := step.stays_down deaf.down deaf.uncounted noMessage
    exact ⟨seenSide ▸ down, seenSide ▸ uncounted, fun q => (held q).trans (deaf.empty q)⟩
  cases stage with
  | unopened deaf idle silent untold =>
    refine .unopened (deafens deaf) ((side_same away).trans idle) (flight.trans silent) fun q => ?_
    rw [announced, away]
    exact untold q
  | hailed deaf rid bodies underway => exact .hailed (deafens deaf) rid bodies (underway.away away flight)
  | up up heardOf bodies knows =>
    obtain ⟨peer, lookup, _, _, isSide, _⟩ := half.endpoint_eq
    have established : peer.sessionState = .established := by
      rw [isSide] at up
      exact up
    -- The receiver tells its other neighbours what it likes, but neither counts nor imports.
    have others : handsClose b o = false := by
      cases o with
      | handleMessage src msg =>
        have fromOther : src ≠ b := fun same => other msg (same ▸ rfl)
        simp [handsClose, fromOther]
      | _ => rfl
    have uncounted : counts b peer o = 0 := by
      cases o with
      | handleMessage src msg =>
        have fromOther : src ≠ b := fun same => other msg (same ▸ rfl)
        simp [counts, fromOther]
      | _ => rfl
    obtain ⟨peer', bodies', spoken, recv⟩ := exec_spoken lookup (.inr established) stays others h
    obtain ⟨seenSide, _⟩ := spoken.seen half kept lookup
    have counter : (side n' i b).recvSeqNum = (side n i b).recvSeqNum := by
      rw [seenSide, isSide]
      exact recv.trans (by rw [uncounted]; rfl)
    refine .up (by rw [seenSide]; exact spoken.up established) heardOf bodies ⟨?_, fun q => ?_⟩
    · rw [counter]
      exact knows.underway.away away flight
    · rw [held]
      exact knows.holds q

/-- The OPEN of the sender comes first, and changes nothing of what is held. -/
theorem Deaf.introduced {msg : Msg} {rid : NetAddr} (deaf : Deaf n i b)
    (underway : Underway n j a 0 [.open rid] (fun _ => false) bodies) (half : Half owner n i j a b)
    (kept : n'.taken i b = n.taken i b) (away : n'.router j = n.router j)
    (flight : wire n j a = msg :: wire n' j a)
    (h : exec (n.router i) (.handleMessage b msg) = .ok (n'.router i)) :
    Stage (judge (n.router i) b verdict msg.body) n' i j a b := by
  obtain ⟨peer, held, _, _, _, _⟩ := half.endpoint_eq
  have sameSide : side n' j a = side n j a := side_same away
  have queue := underway.flight
  rw [flight] at queue
  obtain ⟨rfl, rest⟩ := List.cons.inj queue
  obtain ⟨e, sent, step, seenSide, _⟩ := half.acts kept h
  have input : inputOf b (.handleMessage b ⟨0 % seqMod, .open rid⟩) = .recv ⟨0, .open rid⟩ := by simp [inputOf]
  rw [input] at step
  obtain ⟨up, numbered⟩ := step.hears_open deaf.uncounted
  refine .up (seenSide ▸ up) (fun _ => false) bodies ⟨⟨sameSide ▸ underway.opened, ?_, ?_, underway.legit, ?_⟩,
    fun q => ?_⟩
  · rw [rest, seenSide, numbered]
    rfl
  · rw [sameSide, seenSide, numbered, underway.count, List.length_append, Nat.zero_add]
    rfl
  · intro q
    rw [announced, away]
    exact underway.told q
  · rw [exec_imports (by simp) h, importedBy, held]
    have empty := deaf.empty q
    simp [imported, empty]

/-- An UPDATE or WITHDRAW leaves under each prefix what was heard last and passed the checks. -/
theorem imported_judged {r : Router} {peer : Peer} {body : MsgBody} (held : r.peers.lookup b = some peer)
    (data : isData body = true) {before : Pfx → Bool} (holds : ∀ q, before q = (heardOf q && verdict q)) (q : Pfx) :
    imported r b peer before body q = (heard heardOf body q && judge r b verdict body q) := by
  have known := holds q
  cases body with
  | update route =>
    have passed : passes r b route = accepts r b peer route := by simp [passes, held]
    simp only [imported, heard, judge, passed, known]
    by_cases same : ipPrefixMask q = ipPrefixMask route.pfx
    · simp [same]
    · simp [same]
  | withdraw p => simp only [imported, heard, judge, known, Bool.and_assoc]
  | close | «open» _ => cases data

omit [DecidableEq ι] in
/-- An established receiver takes the oldest of the messages, which carries the number it expects. -/
theorem Knows.received {msg : Msg} (knows : Knows verdict n i j a b heardOf bodies)
    (up : (side n i b).state = .established) (half : Half owner n i j a b) (kept : n'.taken i b = n.taken i b)
    (away : n'.router j = n.router j) (flight : wire n j a = msg :: wire n' j a)
    (h : exec (n.router i) (.handleMessage b msg) = .ok (n'.router i)) :
    Stage (judge (n.router i) b verdict msg.body) n' i j a b := by
  obtain ⟨peer, held, _, _, isSide, _⟩ := half.endpoint_eq
  have sameSide : side n' j a = side n j a := side_same away
  have recv : (side n i b).recvSeqNum = peer.recvSeqNum := by rw [isSide]; rfl
  have established : peer.sessionState = .established := by
    rw [isSide] at up
    exact up
  have queue := knows.underway.flight
  rw [flight, recv, List.nil_append] at queue
  -- The message is the first still in flight, so its number is the one that is expected.
  cases bodies with
  | nil => cases queue
  | cons body bodies =>
    obtain ⟨rfl, rest⟩ := List.cons.inj queue
    have inOrder : bgpPeerSeqnumCheck peer ⟨peer.recvSeqNum % seqMod, body⟩ = true := by
      simp [bgpPeerSeqnumCheck]
    have legit := knows.underway.legit
    have data : isData body = true := legit_isData legit body List.mem_cons_self
    have others : handsClose b (.handleMessage b ⟨peer.recvSeqNum % seqMod, body⟩) = false := by
      cases body with
      | close => cases data
      | _ => simp [handsClose]
    obtain ⟨peer', bodies', spoken, numbered⟩ := exec_spoken held (.inr established) rfl others h
    obtain ⟨seenSide, _⟩ := spoken.seen half kept held
    have counter : (side n' i b).recvSeqNum = peer.recvSeqNum + 1 := by
      rw [seenSide]
      refine numbered.trans ?_
      simp [counts, inOrder]
    have count := knows.underway.count
    -- The receiver has heard one body more and one fewer is under way.
    refine .up (by rw [seenSide]; exact spoken.up established) (heard heardOf body) bodies
      ⟨⟨?_, ?_, ?_, legit.2, ?_⟩, fun q => ?_⟩
    · rw [sameSide]
      obtain ⟨_, nothing⟩ | speaks := knows.underway.opened
      · cases nothing
      · exact .inr speaks
    · rw [rest, counter]
      rfl
    · rw [sameSide, counter]
      rw [recv, List.nil_append, List.length_cons] at count
      rw [List.nil_append]
      omega
    · intro q
      rw [announced, away]
      exact knows.underway.told q
    · rw [exec_imports (by simp) h, importedBy, held]
      simp only [inOrder, and_self, if_true]
      exact imported_judged held data knows.holds q

/-- The receiver takes the oldest message of the sender. -/
theorem Stage.received {msg : Msg} (stage : Stage verdict n i j a b) (half : Half owner n i j a b)
    (kept : n'.taken i b = n.taken i b) (away : n'.router j = n.router j)
    (flight : wire n j a = msg :: wire n' j a)
    (h : exec (n.router i) (.handleMessage b msg) = .ok (n'.router i)) :
    Stage (judge (n.router i) b verdict msg.body) n' i j a b := by
  cases stage with
  | unopened deaf idle silent untold =>
    rw [silent] at flight
    cases flight
  | hailed deaf rid bodies underway => exact deaf.introduced underway half kept away flight h
  | up up heardOf bodies knows => exact knows.received up half kept away flight h

omit [DecidableEq ι] in
/-- Neither end does anything. -/
theorem Stage.outside (stage : Stage verdict n i j a b) (away : n'.router i = n.router i)
    (away' : n'.router j = n.router j) (flight : wire n' j a = wire n j a) : Stage verdict n' i j a b := by
  cases stage with
  | unopened deaf idle silent untold =>
    refine .unopened (deaf.away away) ((side_same away').trans idle) (flight.trans silent) fun q => ?_
    rw [announced, away']
    exact untold q
  | hailed deaf rid bodies underway => exact .hailed (deaf.away away) rid bodies (underway.away away' flight)
  | up up heardOf bodies knows =>
    have same : side n' i b = side n i b := side_same away
    exact .up (same ▸ up) heardOf bodies ⟨same ▸ knows.underway.away away' flight, away ▸ knows.holds⟩

/-! ## Steps of the network -/

/-- The receiver takes no message of the sender in this step. -/
theorem judgeStep_apart (apart : op = .deliver j a → wire n j a = []) :
    judgeStep i j a b verdict n op = verdict := by
  unfold judgeStep
  split
  next k d msg rest queue =>
    split
    next same =>
      obtain ⟨rfl, rfl⟩ := same
      rw [apart rfl] at queue
      cases queue
    · rfl
  · rfl

/-- A router whose session stays up sends no CLOSE, whatever it does. -/
theorem Half.sends_no_close (half : Half owner n i j a b) (kept : n'.taken i b = n.taken i b)
    (stays : interrupts b (n.router i) o = false) (h : Bgp.exec (n.router i) o = .ok (n'.router i))
    (before : ∀ msg ∈ wire n i b, msg.body ≠ .close) : ∀ msg ∈ wire n' i b, msg.body ≠ .close := by
  obtain ⟨e, sent, step, _, seenWire⟩ := half.acts kept h
  obtain ⟨notClose, reachable⟩ := interrupts_input stays
  intro msg member
  rw [seenWire] at member
  exact (List.mem_append.mp member).elim (before msg) (step.no_close notClose reachable msg)

/-- Every step of the network that leaves the session up keeps the agreement. -/
theorem Agreement.step (agreement : Agreement verdict n i j a b) (well : WellAddressed owner n)
    (paired : Mutual owner n i j a b) (steady : Steady i j a b n op) (h : netStep owner n op = .ok n') :
    Agreement (judgeStep i j a b verdict n op) n' i j a b := by
  cases netStep_part well paired steady.genuine steady.kept h with
  | received msg same stepped away flight kept =>
    have head : judgeStep i j a b verdict n op = judge (n.router i) b verdict msg.body := by
      subst same
      simp [judgeStep, flight]
    rw [head]
    exact ⟨paired.left.sends_no_close kept rfl stepped agreement.back,
      agreement.stage.received paired.left kept away flight stepped⟩
  | receiver o performs other apart stepped away flight kept =>
    rw [judgeStep_apart apart]
    have stays : interrupts b (n.router i) o = false := by
      cases performs with
      | act => exact steady.receiver o rfl
      | deliver => rfl
    exact ⟨paired.left.sends_no_close kept stays stepped agreement.back,
      agreement.stage.receiver paired.left kept away flight stays other stepped⟩
  | sender o performs hears apart stepped away back kept =>
    rw [judgeStep_apart apart]
    have stays : interrupts a (n.router j) o = false := by
      cases performs with
      | act => exact steady.sender o rfl
      | deliver => rfl
    -- the sender is handed no CLOSE of the receiver, since none is on its way
    have others : handsClose a o = false := by
      cases o with
      | handleMessage src msg =>
        by_cases same : src = a
        · subst same
          have member : msg ∈ wire n i b := by
            rw [hears msg rfl]
            exact List.mem_cons_self
          simp [handsClose, agreement.back msg member]
        · simp [handsClose, same]
      | _ => rfl
    exact ⟨back.all agreement.back, agreement.stage.sender paired.right kept away steady.line stays others stepped⟩
  | outside apart away away' flight back =>
    rw [judgeStep_apart apart]
    exact ⟨back.all agreement.back, agreement.stage.outside away away' flight⟩

end Steps

/-! ## Runs -/

/-- Whether the last UPDATE for a prefix passed the import checks, after a run. -/
def judgeRun (owner : NetAddr → Option ι) (i j : ι) (a b : NetAddr) (verdict : Pfx → Bool) (n : Network ι)
    (ops : List (NetOp ι)) : Pfx → Bool :=
  (loopStates (netStep owner) n ops).foldl (fun verdict entry => judgeStep i j a b verdict entry.1 entry.2) verdict

omit [DecidableEq ι] in
/-- Before the session is opened, nothing has to agree. -/
theorem Unopened.agreement (start : Unopened owner n i j a b) (verdict : Pfx → Bool) :
    Agreement verdict n i j a b := by
  have fresh := start.fresh
  refine ⟨?_, .unopened ⟨?_, ?_, start.empty⟩ fresh.right fresh.back start.untold⟩
  · rw [fresh.out]
    exact List.forall_mem_nil _
  · simp [fresh.left, Endpoint.reset]
  · rw [fresh.left]
    rfl

theorem Agreement.run {ops : List (NetOp ι)} {verdict : Pfx → Bool} (well : WellAddressed owner n)
    (paired : Mutual owner n i j a b) (agreement : Agreement verdict n i j a b)
    (steady : ∀ entry ∈ loopStates (netStep owner) n ops, Steady i j a b entry.1 entry.2)
    (ran : ops.foldlM (netStep owner) n = .ok n') :
    Agreement (judgeRun owner i j a b verdict n ops) n' i j a b := by
  induction ops generalizing n verdict with
  | nil =>
    cases ran
    exact agreement
  | cons op ops inductionHypothesis =>
    rw [List.foldlM_cons, except_bind_eq_ok] at ran
    obtain ⟨mid, stepped, rest⟩ := ran
    have states : loopStates (netStep owner) n (op :: ops) = (n, op) :: loopStates (netStep owner) mid ops := by
      rw [loopStates, stepped]
    rw [states, List.forall_mem_cons] at steady
    rw [judgeRun, states, List.foldl_cons]
    exact inductionHypothesis (well.step stepped) (netStep_moves well paired steady.1.genuine stepped).1
      (agreement.step well paired steady.1 stepped) steady.2 rest

/-- Two routers open their session, and it stays up.  Until the one hears the OPEN of the other it holds nothing of it.
From then on, what it holds is what the other has announced, up to the messages on their way and the verdicts of
its import checks.  Whenever nothing is on its way the two agree. -/
theorem peers_agree {ops : List (NetOp ι)} {verdict : Pfx → Bool} (start : Unopened owner n i j a b)
    (steady : ∀ entry ∈ loopStates (netStep owner) n ops, Steady i j a b entry.1 entry.2)
    (ran : ops.foldlM (netStep owner) n = .ok n') :
    ((side n' i b).state ≠ .established → ∀ q, inKeys (n'.router i) b q = false) ∧
      ((side n' i b).state = .established →
        ∃ heardOf bodies, Knows (judgeRun owner i j a b verdict n ops) n' i j a b heardOf bodies) ∧
      (wire n' j a = [] → ∀ q, inKeys (n'.router i) b q =
        (announced n' j a q && judgeRun owner i j a b verdict n ops q)) := by
  have agreement := (start.agreement verdict).run start.fresh.addressed start.fresh.paired steady ran
  cases agreement.stage with
  | unopened deaf idle silent untold =>
    refine ⟨fun _ => deaf.empty, fun up => absurd up deaf.down, fun _ q => ?_⟩
    rw [deaf.empty, untold]
    rfl
  | hailed deaf rid bodies underway =>
    refine ⟨fun _ => deaf.empty, fun up => absurd up deaf.down, fun silent => ?_⟩
    have flight := underway.flight
    rw [silent] at flight
    cases flight
  | up up heardOf bodies knows =>
    refine ⟨fun down => absurd up down, fun _ => ⟨heardOf, bodies, knows⟩, fun silent q => ?_⟩
    have flight := knows.underway.flight
    rw [silent] at flight
    cases bodies with
    | nil =>
      rw [knows.holds, knows.underway.told]
      rfl
    | cons body bodies => cases flight

end Ends

/-! ## Two routers -/

/-- Sessions are opened, networks announced, and messages delivered. -/
def NetOp.harmless {ι : Type} : NetOp ι → Bool
  | .act _ (.openSession _) | .act _ (.addNetwork _) | .deliver _ _ => true
  | _ => false

theorem NetOp.steady {ι : Type} {n : Network ι} {op : NetOp ι} (harmless : NetOp.harmless op = true) (i j : ι)
    (a b : NetAddr) (line : lineUp n j a = true) : Steady i j a b n op := by
  cases op with
  | act k o =>
    cases o with
    | openSession c | addNetwork p =>
      refine ⟨trivial, line, fun o same => ?_, fun o same => ?_, by simp⟩
      · cases same
        rfl
      · cases same
        rfl
    | _ => cases harmless
  | deliver k d => exact ⟨trivial, line, by simp, by simp, by simp⟩
  | lose k d => cases harmless

theorem twoRouters_unopened : Unopened twoOwners twoRouters false true 1 2 :=
  ⟨twoRouters_fresh, fun _ => rfl, fun _ => rfl⟩

/-- Both routers open the session, router `true` announces a network, and router `false` hears of it. -/
def twoRoutersOps : List (NetOp Bool) :=
  [.act false (.openSession 2), .act true (.openSession 1), .deliver true 1, .deliver false 2,
    .act true (.addNetwork ⟨0x0a000000, 8, short8⟩), .deliver true 1]

theorem twoRouters_steady :
    ∀ entry ∈ loopStates (netStep twoOwners) twoRouters twoRoutersOps, Steady false true 1 2 entry.1 entry.2 := by
  have tests : ∀ entry ∈ loopStates (netStep twoOwners) twoRouters twoRoutersOps,
      NetOp.harmless entry.2 = true ∧ lineUp entry.1 true 1 = true := by
    decide +kernel
  intro entry member
  obtain ⟨harmless, line⟩ := tests entry member
  exact NetOp.steady harmless false true 1 2 line

/-- Router `false` holds the network of router `true`. -/
theorem peers_agree_two : ∃ n, (side n false 2).state = .established ∧ wire n true 1 = [] ∧
    announced n true 1 ⟨0x0a000000, 8, short8⟩ = true ∧
    (∃ heardOf bodies, Knows (judgeRun twoOwners false true 1 2 (fun _ => true) twoRouters twoRoutersOps) n false true
      1 2 heardOf bodies) ∧
    ∀ q, inKeys (n.router false) 2 q = (announced n true 1 q &&
      judgeRun twoOwners false true 1 2 (fun _ => true) twoRouters twoRoutersOps q) := by
  have ran : okAnd (twoRoutersOps.foldlM (netStep twoOwners) twoRouters) (fun n =>
      decide ((side n false 2).state = .established) && decide (wire n true 1 = []) &&
        announced n true 1 ⟨0x0a000000, 8, short8⟩) = true := by
    decide +kernel
  obtain ⟨n, ran, observed⟩ := okAnd_iff.mp ran
  simp only [Bool.and_eq_true, decide_eq_true_eq] at observed
  obtain ⟨⟨up, silent⟩, told⟩ := observed
  obtain ⟨_, knows, agree⟩ := @peers_agree _ _ _ _ n _ _ _ _ _ (fun _ => true) twoRouters_unopened
    twoRouters_steady ran
  exact ⟨n, up, silent, told, knows up, agree silent⟩

end Cbgp.Verified
