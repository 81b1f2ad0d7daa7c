import Cbgp.Verified.SessionNumbers

/-! # Synchronised sequence numbers

Two peers open and close their session, and every message arrives.  What is on its way from an end
splits in two: messages of earlier sessions (stale), and those of the session the end is in now
(live), numbered up to its send counter.  Of the stale messages only the OPENs and CLOSEs matter
(`signals`).  `Joint` says which of them can be on their way in each pair of states, provided that a
session is reopened only when the signals of the last one have been dealt with (`Reopenable`); with it
the counters of two established ends agree (`inSync_of_reach`).
-/

namespace Cbgp.Verified

open Cbgp.Lib Cbgp.Net Cbgp.Bgp

/-! ## Signals -/

/-- An OPEN or a CLOSE. -/
inductive Signal where
  | opened
  | closed
  deriving DecidableEq

def signalOf : MsgBody → Option Signal
  | .open _ => some .opened
  | .close => some .closed
  | _ => none

/-- The OPENs and CLOSEs among messages. -/
def signals (msgs : List Msg) : List Signal :=
  msgs.filterMap fun msg => signalOf msg.body

@[simp] theorem signals_nil : signals [] = [] := rfl

@[simp] theorem signals_append (msgs msgs' : List Msg) :
    signals (msgs ++ msgs') = signals msgs ++ signals msgs' := List.filterMap_append

theorem signals_cons (msg : Msg) (msgs : List Msg) :
    signals (msg :: msgs) = (signalOf msg.body).toList ++ signals msgs := by
  simp only [signals, List.filterMap_cons]
  cases signalOf msg.body <;> rfl

theorem signalOf_data {body : MsgBody} (data : isData body = true) : signalOf body = none := by
  cases body with
  | update route => rfl
  | withdraw p => rfl
  | close => cases data
  | «open» routerId => cases data

theorem no_signals {s : List Signal} (noOpen : .opened ∉ s) (noClose : .closed ∉ s) : s = [] := by
  cases s with
  | nil => rfl
  | cons signal rest =>
    cases signal with
    | opened => exact absurd List.mem_cons_self noOpen
    | closed => exact absurd List.mem_cons_self noClose

/-! ## Lanes -/

/-- Messages of one session, numbered on from `k`: the first of all is the OPEN, the others are
routes. -/
def Serial : Nat → List Msg → Prop
  | _, [] => True
  | k, msg :: msgs =>
    msg.seqNum = k ∧ (if k = 0 then signalOf msg.body = some .opened else isData msg.body = true) ∧
      Serial (k + 1) msgs

/-- The messages on their way from an end: `stale` of earlier sessions, and `live`. -/
structure Lane (e : Endpoint) (stale live : List Msg) : Prop where
  length : live.length ≤ e.sendSeqNum
  whole : stale ≠ [] → live.length = e.sendSeqNum
  serial : Serial (e.sendSeqNum - live.length) live

/-- The OPEN of the session the end is in has not arrived yet. -/
def awaited (e : Endpoint) (live : List Msg) : Bool :=
  decide (0 < e.sendSeqNum ∧ live.length = e.sendSeqNum)

theorem serial_signals {k : Nat} {live : List Msg} (serial : Serial k live) :
    signals live = if k = 0 ∧ live ≠ [] then [.opened] else [] := by
  induction live generalizing k with
  | nil => simp
  | cons msg live inductionHypothesis =>
    obtain ⟨_, kind, rest⟩ := serial
    have later := inductionHypothesis rest
    rw [if_neg (by simp)] at later
    rw [signals_cons, later]
    by_cases first : k = 0
    · simp only [first, if_true] at kind
      simp [first, kind]
    · simp only [first, if_false] at kind
      simp [first, signalOf_data kind]

theorem serial_append {k : Nat} {live live' : List Msg} (first : Serial k live)
    (second : Serial (k + live.length) live') : Serial k (live ++ live') := by
  induction live generalizing k with
  | nil => simpa using second
  | cons msg live inductionHypothesis =>
    refine ⟨first.1, first.2.1, inductionHypothesis first.2.2 ?_⟩
    rw [List.length_cons] at second
    rw [show k + 1 + live.length = k + (live.length + 1) by omega]
    exact second

theorem serial_letters {k : Nat} {data : List MsgBody} (positive : 0 < k)
    (fits : k + data.length ≤ seqMod) (routes : ∀ body ∈ data, isData body = true) :
    Serial k (letters k data) := by
  induction data generalizing k with
  | nil => trivial
  | cons body data inductionHypothesis =>
    simp only [List.length_cons] at fits
    refine ⟨Nat.mod_eq_of_lt (by omega), ?_, ?_⟩
    · rw [if_neg (by omega)]
      exact routes body List.mem_cons_self
    · exact inductionHypothesis (by omega) (by omega) fun b member =>
        routes b (List.mem_cons_of_mem _ member)

theorem letters_length (k : Nat) (data : List MsgBody) : (letters k data).length = data.length := by
  induction data generalizing k with
  | nil => rfl
  | cons body data inductionHypothesis => simp [letters, inductionHypothesis]

theorem Lane.signals {e : Endpoint} {stale live : List Msg} (lane : Lane e stale live) :
    Verified.signals live = if awaited e live then [.opened] else [] := by
  have length := lane.length
  rw [serial_signals lane.serial]
  by_cases fresh : awaited e live = true
  · have isFresh := fresh
    simp only [awaited, decide_eq_true_eq] at isFresh
    rw [if_pos fresh, if_pos]
    refine ⟨by omega, fun empty => ?_⟩
    simp [empty] at isFresh
    omega
  · have notFresh := fresh
    simp only [awaited, decide_eq_true_eq] at notFresh
    rw [if_neg fresh, if_neg]
    rintro ⟨first, nonempty⟩
    have positive := List.length_pos_iff.mpr nonempty
    omega

/-- An end that is down has no live messages. -/
theorem Lane.down {e : Endpoint} {stale live : List Msg} (lane : Lane e stale live)
    (zero : e.sendSeqNum = 0) : live = [] := by
  have length := lane.length
  rw [zero] at length
  exact List.length_eq_zero_iff.mp (Nat.le_zero.mp length)

theorem Lane.recount {e e' : Endpoint} {stale live : List Msg} (lane : Lane e stale live)
    (same : e'.sendSeqNum = e.sendSeqNum) : Lane e' stale live := by
  refine ⟨?_, fun isStale => ?_, ?_⟩
  · rw [same]
    exact lane.length
  · rw [same]
    exact lane.whole isStale
  · rw [same]
    exact lane.serial

theorem Lane.of_down {e : Endpoint} (zero : e.sendSeqNum = 0) (stale : List Msg) : Lane e stale [] :=
  ⟨Nat.zero_le _, fun _ => zero.symm, trivial⟩

/-! ## Pairs of states -/

/-- The signals on their way between two ends: those of `x` that are stale (`sX`), whether the OPEN of
`x` is awaited (`fX`), and the same for `y`. -/
def Joint (x y : SessionState) (sX : List Signal) (fX : Bool) (sY : List Signal) (fY : Bool) : Prop :=
  match x, y with
  | .idle, .idle => True
  | .active, .idle => activeIdle sX sY
  | .idle, .active => activeIdle sY sX
  | .idle, .openWait => idleWaits sX sY
  | .openWait, .idle => idleWaits sY sX
  | .established, .idle => upIdle sX fX sY
  | .idle, .established => upIdle sY fY sX
  | .active, .openWait => sX = [] ∧ sY = [] ∧ fY = true
  | .openWait, .active => sX = [] ∧ sY = [] ∧ fX = true
  | .openWait, .openWait => sX = [] ∧ sY = []
  | .established, .openWait => upWaits sX fX sY fY
  | .openWait, .established => upWaits sY fY sX fX
  | .established, .established => sX = [] ∧ sY = []
  | .active, .active | .active, .established | .established, .active => False
where
  activeIdle (sX sY : List Signal) : Prop :=
    (sY = [] ∧ (sX = [] ∨ sX = [.opened] ∨ sX = [.closed, .opened])) ∨
      (sY = [.opened, .closed] ∧ sX = [])
  idleWaits (sX sY : List Signal) : Prop :=
    (sX = [] ∨ sX = [.closed] ∨ sX = [.opened, .closed]) ∧
      (sY = [] ∨ sY = [.closed] ∧ sX ≠ [.opened, .closed])
  upIdle (sX : List Signal) (fX : Bool) (sY : List Signal) : Prop :=
    sX = [] ∧ (sY = [.closed] ∨ sY = [.closed, .opened, .closed] ∧ fX = false)
  upWaits (sX : List Signal) (fX : Bool) (sY : List Signal) (fY : Bool) : Prop :=
    (sX = [] ∧ sY = [] ∧ fY = false) ∨ (sX = [] ∧ fX = false ∧ sY = [.closed] ∧ fY = true)

theorem Joint.symm {x y : SessionState} {sX sY : List Signal} {fX fY : Bool}
    (joint : Joint x y sX fX sY fY) : Joint y x sY fY sX fX := by
  cases x <;> cases y <;> simp_all [Joint]

/-- The counters of two ends. -/
structure Counters (X Y : Endpoint) (lX lY : List Msg) : Prop where
  active : X.state = .active → X.recvSeqNum = 0
  met : X.state = .established → Y.state = .openWait → awaited Y lY = false → X.recvSeqNum = 1
  both : X.state = .established → Y.state = .established → X.sendSeqNum = Y.recvSeqNum + lX.length

/-- Two ends and what is on its way between them. -/
structure Synced (X Y : Endpoint) (wX lX wY lY : List Msg) : Prop where
  laneX : Lane X wX lX
  laneY : Lane Y wY lY
  joint : Joint X.state Y.state (signals wX) (awaited X lX) (signals wY) (awaited Y lY)
  countX : Counters X Y lX lY
  countY : Counters Y X lY lX

theorem Synced.symm {X Y : Endpoint} {wX lX wY lY : List Msg} (synced : Synced X Y wX lX wY lY) :
    Synced Y X wY lY wX lX :=
  ⟨synced.laneY, synced.laneX, synced.joint.symm, synced.countY, synced.countX⟩

/-- Nothing of an earlier session stands in the way of a new one. -/
structure Reopenable (remote : SessionState) (out back : List Msg) : Prop where
  noOpenOut : .opened ∉ signals out
  noCloseBack : .closed ∉ signals back
  openBack : .opened ∈ signals back → remote = .openWait
  closeOut : .closed ∈ signals out → remote = .established

section Steps

variable {X Y : Endpoint} {wX lX wY lY : List Msg}

/-! ### Opening and closing -/

theorem Joint.opens {x y : SessionState} {sX sY : List Signal} {fX fY : Bool}
    (joint : Joint x y sX fX sY fY) (down : x = .idle ∨ x = .active) (noOpenOut : .opened ∉ sX)
    (noCloseBack : .closed ∉ sY) (openBack : .opened ∈ sY ∨ fY = true → y = .openWait)
    (closeOut : .closed ∈ sX → y = .established) : Joint .openWait y sX true sY fY := by
  -- No OPEN or CLOSE of an earlier session is in flight any more, in either direction.
  cases y with
  | idle =>
    obtain rfl : sX = [] := no_signals noOpenOut fun closed => by cases closeOut closed
    obtain rfl : sY = [] := no_signals (fun opened => by cases openBack (.inl opened)) noCloseBack
    simp [Joint, Joint.idleWaits]
  | active =>
    obtain rfl : sX = [] := no_signals noOpenOut fun closed => by cases closeOut closed
    obtain rfl : sY = [] := no_signals (fun opened => by cases openBack (.inl opened)) noCloseBack
    simp [Joint]
  | openWait =>
    obtain rfl : sX = [] := no_signals noOpenOut fun closed => by cases closeOut closed
    cases down with
    | inl isIdle =>
      subst isIdle
      simp only [Joint, Joint.idleWaits] at joint ⊢
      obtain ⟨_, rfl | ⟨rfl, _⟩⟩ := joint
      · simp
      · simp at noCloseBack
    | inr isActive =>
      subst isActive
      exact ⟨rfl, joint.2.1⟩
  | established =>
    cases down with
    | inr isActive =>
      subst isActive
      exact joint.elim
    | inl isIdle =>
      subst isIdle
      simp only [Joint, Joint.upIdle, Joint.upWaits] at joint ⊢
      obtain ⟨rfl, rfl | ⟨rfl, _⟩⟩ := joint
      · cases fY with
        | false => simp
        | true => cases openBack (.inr rfl)
      · simp at noOpenOut

theorem Joint.closes {x y : SessionState} {sX sY : List Signal} {fX fY : Bool}
    (joint : Joint x y sX fX sY fY) (up : x = .openWait ∨ x = .established)
    (met : x = .established → y = .established → fX = false) :
    Joint .idle y (sX ++ (if fX then [.opened] else []) ++ [.closed]) false sY fY := by
  -- The OPEN that is still to be answered, if any, and then the CLOSE follow what is in flight.
  cases y with
  | idle => trivial
  | active =>
    cases up with
    | inl waits =>
      subst waits
      obtain ⟨rfl, rfl, rfl⟩ := joint
      simp [Joint, Joint.activeIdle]
    | inr isUp =>
      subst isUp
      exact joint.elim
  | openWait =>
    cases up with
    | inl waits =>
      subst waits
      obtain ⟨rfl, rfl⟩ := joint
      cases fX <;> simp [Joint, Joint.idleWaits]
    | inr isUp =>
      subst isUp
      simp only [Joint, Joint.upWaits] at joint
      obtain ⟨rfl, rfl, _⟩ | ⟨rfl, rfl, rfl, _⟩ := joint
      · cases fX <;> simp [Joint, Joint.idleWaits]
      · simp [Joint, Joint.idleWaits]
  | established =>
    cases up with
    | inl waits =>
      subst waits
      simp only [Joint, Joint.upWaits] at joint
      obtain ⟨rfl, rfl, rfl⟩ | ⟨rfl, rfl, rfl, rfl⟩ := joint
      · simp [Joint, Joint.upIdle]
      · simp [Joint, Joint.upIdle]
    | inr isUp =>
      subst isUp
      obtain ⟨rfl, rfl⟩ := joint
      simp [Joint, Joint.upIdle, met rfl rfl]

/-! ### Taking signals -/

section Signals

variable {x y : SessionState} {sX sY : List Signal} {fX fY : Bool}

/-- In IDLE every signal is passed over. -/
theorem Joint.skips {signal : Signal} (joint : Joint .idle y sX fX (signal :: sY) fY) :
    Joint .idle y sX fX sY fY := by
  cases y with
  | idle => trivial
  | active =>
    simp only [Joint, Joint.activeIdle] at joint ⊢
    obtain ⟨rfl, none | one | two⟩ | ⟨_, none⟩ := joint
    · cases none
    · cases one
      simp
    · cases two
      simp
    · cases none
  | openWait =>
    simp only [Joint, Joint.idleWaits] at joint ⊢
    obtain ⟨shape, none | ⟨one, _⟩⟩ := joint
    · cases none
    · cases one
      exact ⟨shape, .inl rfl⟩
  | established =>
    simp only [Joint, Joint.upIdle] at joint
    cases joint.1

/-- The OPEN of the neighbour is passed over in IDLE. -/
theorem Joint.skips_live (joint : Joint .idle y sX fX sY fY) : Joint .idle y sX fX sY false := by
  cases y with
  | idle => trivial
  | active => exact joint
  | openWait => exact joint
  | established =>
    simp only [Joint, Joint.upIdle] at joint ⊢
    obtain ⟨none, one | ⟨three, _⟩⟩ := joint
    · exact ⟨none, .inl one⟩
    · exact ⟨none, .inr ⟨three, trivial⟩⟩

/-- A stale CLOSE ends a session. -/
theorem Joint.ends (joint : Joint x y sX fX (.closed :: sY) fY)
    (up : x = .openWait ∨ x = .established) (waits : x = .openWait → sX ≠ [] → fX = true) :
    Joint .active y (sX ++ if fX then [.opened] else []) false sY fY := by
  -- The table of the joint states is gone through by hand: each case says what can be in flight.
  cases up with
  | inl isWaiting =>
    subst isWaiting
    cases y with
    | idle =>
      simp only [Joint, Joint.idleWaits] at joint
      obtain ⟨none | one | two, shape⟩ := joint
      · cases none
      · cases one
        obtain rfl | ⟨rfl, _⟩ := shape
        · cases fX <;> simp [Joint, Joint.activeIdle]
        · simp [waits rfl (by simp), Joint, Joint.activeIdle]
      · cases two
    | active => cases joint.2.1
    | openWait => cases joint.2
    | established =>
      simp only [Joint, Joint.upWaits] at joint
      obtain ⟨none, _⟩ | ⟨none, _⟩ := joint
      · cases none
      · cases none
  | inr isUp =>
    subst isUp
    cases y with
    | idle =>
      simp only [Joint, Joint.upIdle] at joint
      obtain ⟨rfl, one | ⟨three, rfl⟩⟩ := joint
      · cases one
        cases fX <;> simp [Joint, Joint.activeIdle]
      · cases three
        simp [Joint, Joint.activeIdle]
    | active => exact joint.elim
    | openWait =>
      simp only [Joint, Joint.upWaits] at joint
      obtain ⟨_, none, _⟩ | ⟨rfl, rfl, one, rfl⟩ := joint
      · cases none
      · cases one
        simp [Joint]
    | established => cases joint.2

theorem Joint.active_close (joint : Joint .active y sX fX (.closed :: sY) fY) : False := by
  cases y with
  | idle =>
    simp only [Joint, Joint.activeIdle] at joint
    obtain ⟨none, _⟩ | ⟨two, _⟩ := joint
    · cases none
    · cases two
  | active => exact joint
  | openWait => cases joint.2.1
  | established => exact joint

/-- A stale OPEN is taken by a session that waits. -/
theorem Joint.meets (joint : Joint .openWait y sX fX (.opened :: sY) fY) :
    Joint .established y sX fX sY fY := by
  cases y with
  | idle =>
    simp only [Joint, Joint.idleWaits, Joint.upIdle] at joint ⊢
    obtain ⟨none | one | two, shape⟩ := joint
    · cases none
    · cases one
    · cases two
      obtain rfl | ⟨_, other⟩ := shape
      · exact ⟨rfl, .inl rfl⟩
      · exact absurd rfl other
  | active => cases joint.2.1
  | openWait => cases joint.2
  | established =>
    simp only [Joint, Joint.upWaits] at joint
    obtain ⟨none, _⟩ | ⟨none, _⟩ := joint
    · cases none
    · cases none

/-- The OPEN of the neighbour is taken by a session that waits. -/
theorem Joint.meets_live (joint : Joint .openWait y sX fX [] true)
    (up : y = .openWait ∨ y = .established) : Joint .established y sX fX [] false := by
  cases up with
  | inl isWaiting =>
    subst isWaiting
    obtain ⟨rfl, _⟩ := joint
    simp [Joint, Joint.upWaits]
  | inr isUp =>
    subst isUp
    simp only [Joint, Joint.upWaits] at joint ⊢
    obtain ⟨_, rfl, _⟩ | ⟨_, never, _⟩ := joint
    · simp
    · cases never

/-- A stale OPEN is answered in ACTIVE. -/
theorem Joint.answers (joint : Joint .active y sX fX (.opened :: sY) fY) :
    Joint .established y sX true sY fY := by
  cases y with
  | idle =>
    simp only [Joint, Joint.activeIdle, Joint.upIdle] at joint ⊢
    obtain ⟨none, _⟩ | ⟨two, rfl⟩ := joint
    · cases none
    · cases two
      exact ⟨rfl, .inl rfl⟩
  | active => exact joint.elim
  | openWait => cases joint.2.1
  | established => exact joint.elim

/-- The OPEN of the neighbour is answered in ACTIVE. -/
theorem Joint.answers_live (joint : Joint .active y sX fX [] true)
    (up : y = .openWait ∨ y = .established) : Joint .established y sX true [] false := by
  cases up with
  | inl isWaiting =>
    subst isWaiting
    obtain ⟨rfl, _⟩ := joint
    simp [Joint, Joint.upWaits]
  | inr isUp =>
    subst isUp
    exact joint.elim

/-- No stale OPEN reaches an established session. -/
theorem Joint.no_stale_open (joint : Joint .established y sX fX (.opened :: sY) fY) : False := by
  cases y with
  | idle =>
    simp only [Joint, Joint.upIdle] at joint
    obtain ⟨_, one | ⟨three, _⟩⟩ := joint
    · cases one
    · cases three
  | active => exact joint
  | openWait =>
    simp only [Joint, Joint.upWaits] at joint
    obtain ⟨_, none, _⟩ | ⟨_, _, one, _⟩ := joint
    · cases none
    · cases one
  | established => cases joint.2

/-- Nor does the OPEN of a neighbour that waits. -/
theorem Joint.no_live_open (joint : Joint .established .openWait sX fX [] true) : False := by
  simp only [Joint, Joint.upWaits] at joint
  obtain ⟨_, _, never⟩ | ⟨_, _, one, _⟩ := joint
  · cases never
  · cases one

end Signals

/-! ### The end acts -/

/-- Two established ends: nothing stale is on its way, and no OPEN. -/
theorem Synced.established (synced : Synced X Y wX lX wY lY) (tidy : Y.Tidy)
    (up : X.state = .established) (up' : Y.state = .established) :
    wX = [] ∧ awaited X lX = false := by
  have both := synced.countX.both up up'
  have received := (tidy.up up').2
  constructor
  · by_contra stale
    have whole := synced.laneX.whole stale
    omega
  · simp only [awaited, decide_eq_false_iff_not]
    omega

theorem awaited_down {e : Endpoint} (zero : e.sendSeqNum = 0) (live : List Msg) :
    awaited e live = false := by
  simp [awaited, zero]

theorem Synced.opens {rid : NetAddr} (synced : Synced X Y wX lX wY lY) (tidy : X.Tidy)
    (down : X.state = .idle ∨ X.state = .active) (settled : Reopenable Y.state (wX ++ lX) (wY ++ lY)) :
    Synced ⟨.openWait, netAddrAny, 1, 0⟩ Y (wX ++ lX) [⟨0, .open rid⟩] wY lY := by
  have zero := tidy.down down
  obtain rfl := synced.laneX.down zero
  rw [List.append_nil] at settled ⊢
  have back := settled.openBack
  have noClose := settled.noCloseBack
  rw [signals_append, synced.laneY.signals] at back noClose
  refine ⟨⟨Nat.le_refl _, fun _ => rfl, rfl, rfl, trivial⟩, synced.laneY, ?_, ?_, ?_⟩
  · refine synced.joint.opens down settled.noOpenOut ?_ (fun opened => back ?_) settled.closeOut
    · exact fun closed => noClose (List.mem_append_left _ closed)
    · cases opened with
      | inl stale => exact List.mem_append_left _ stale
      | inr live =>
        rw [if_pos live]
        exact List.mem_append_right _ List.mem_cons_self
  · exact ⟨by simp, by simp, by simp⟩
  · exact ⟨synced.countY.active, fun _ _ never => by simp [awaited] at never, by simp⟩

theorem Synced.closes (synced : Synced X Y wX lX wY lY) (tidy : Y.Tidy) (closing : Msg)
    (isClose : closing.body = .close) (up : X.state = .openWait ∨ X.state = .established) :
    Synced (.reset .idle) Y (wX ++ lX ++ [closing]) [] wY lY := by
  have left : signals [closing] = [.closed] := by
    rw [signals, List.filterMap_cons, isClose]
    rfl
  refine ⟨Lane.of_down rfl _, synced.laneY, ?_, ?_, ?_⟩
  · rw [signals_append, signals_append, synced.laneX.signals, left,
      awaited_down (e := .reset .idle) rfl]
    exact synced.joint.closes up fun isUp isUp' => (synced.established tidy isUp isUp').2
  · exact ⟨by simp [Endpoint.reset], by simp [Endpoint.reset], by simp [Endpoint.reset]⟩
  · exact ⟨synced.countY.active, by simp [Endpoint.reset], by simp [Endpoint.reset]⟩

/-- Closing an end that is ACTIVE says nothing. -/
theorem Synced.gives_up (synced : Synced X Y wX lX wY lY) (tidy : X.Tidy)
    (isActive : X.state = .active) : Synced (.reset .idle) Y (wX ++ lX) [] wY lY := by
  obtain rfl := synced.laneX.down (tidy.down (.inr isActive))
  have joint := synced.joint
  rw [isActive, awaited_down (tidy.down (.inr isActive))] at joint
  rw [List.append_nil]
  refine ⟨Lane.of_down rfl _, synced.laneY, ?_, ?_, ?_⟩
  · rw [awaited_down rfl]
    cases state : Y.state with
    | idle => trivial
    | active => simp [state, Joint] at joint
    | openWait =>
      simp only [state, Joint] at joint
      simp [Endpoint.reset, Joint, Joint.idleWaits, joint.1, joint.2.1]
    | established => simp [state, Joint] at joint
  · exact ⟨by simp [Endpoint.reset], by simp [Endpoint.reset], by simp [Endpoint.reset]⟩
  · exact ⟨synced.countY.active, by simp [Endpoint.reset], by simp [Endpoint.reset]⟩

/-- Routes are told. -/
theorem Synced.tells {data : List MsgBody} (synced : Synced X Y wX lX wY lY) (tidy : X.Tidy)
    (up : X.state = .established) (fits : X.sendSeqNum + data.length ≤ seqMod)
    (routes : ∀ body ∈ data, isData body = true) :
    Synced { X with sendSeqNum := X.sendSeqNum + data.length } Y wX
      (lX ++ letters X.sendSeqNum data) wY lY := by
  have positive := (tidy.up up).1
  have length := synced.laneX.length
  have total : (lX ++ letters X.sendSeqNum data).length = lX.length + data.length := by
    simp [letters_length]
  -- Routes sent on an established session are numbered on and signal nothing.
  have sameAwaited : awaited { X with sendSeqNum := X.sendSeqNum + data.length }
      (lX ++ letters X.sendSeqNum data) = awaited X lX := by
    simp only [awaited, total]
    congr 1
    simp only [eq_iff_iff]
    omega
  refine ⟨⟨?_, fun stale => ?_, ?_⟩, synced.laneY, ?_, ?_, ?_⟩
  · rw [total]
    simp only
    omega
  · have whole := synced.laneX.whole stale
    rw [total]
    simp only
    omega
  · rw [total]
    simp only
    rw [show X.sendSeqNum + data.length - (lX.length + data.length) = X.sendSeqNum - lX.length by omega]
    refine serial_append synced.laneX.serial ?_
    rw [show X.sendSeqNum - lX.length + lX.length = X.sendSeqNum by omega]
    exact serial_letters positive fits routes
  · rw [sameAwaited]
    exact synced.joint
  · refine ⟨synced.countX.active, synced.countX.met, fun isUp isUp' => ?_⟩
    have both := synced.countX.both isUp isUp'
    rw [total]
    simp only
    omega
  · refine ⟨synced.countY.active, fun isUp waits => ?_, synced.countY.both⟩
    simp [up] at waits

/-! ### The end takes a message -/

/-- The neighbour's lane without its first message. -/
inductive Pop (Y : Endpoint) (msg : Msg) : List Msg → List Msg → List Msg → List Msg → Prop where
  | stale {wY lY : List Msg} : Pop Y msg (msg :: wY) lY wY lY
  | live {lY : List Msg} : Pop Y msg [] (msg :: lY) [] lY

theorem Pop.of_head {msg : Msg} {rest : List Msg} (head : wY ++ lY = msg :: rest) :
    ∃ wY' lY', Pop Y msg wY lY wY' lY' ∧ rest = wY' ++ lY' := by
  cases wY with
  | nil =>
    subst head
    exact ⟨[], rest, .live, rfl⟩
  | cons first wY' =>
    simp only [List.cons_append, List.cons.injEq] at head
    obtain ⟨rfl, rfl⟩ := head
    exact ⟨wY', lY, .stale, rfl⟩

variable {msg : Msg} {wY' lY' : List Msg}

theorem Pop.lane (pop : Pop Y msg wY lY wY' lY') (lane : Lane Y wY lY) : Lane Y wY' lY' := by
  cases pop with
  | stale => exact ⟨lane.length, fun _ => lane.whole (by simp), lane.serial⟩
  | live =>
    have length := lane.length
    have serial := lane.serial.2.2
    rw [List.length_cons] at length serial
    refine ⟨by omega, by simp, ?_⟩
    rw [show Y.sendSeqNum - lY'.length = Y.sendSeqNum - (lY'.length + 1) + 1 by omega]
    exact serial

/-- A live message has a number of the session. -/
theorem Lane.head {live : List Msg} (lane : Lane Y [] (msg :: live)) :
    msg.seqNum = Y.sendSeqNum - (live.length + 1) ∧
      (if msg.seqNum = 0 then signalOf msg.body = some .opened else isData msg.body = true) := by
  obtain ⟨number, kind, _⟩ := lane.serial
  rw [List.length_cons] at number kind
  exact ⟨number, by rw [number]; exact kind⟩

/-- The session goes on as it was: a message was passed over, or a route was taken. -/
theorem Synced.passes (synced : Synced X Y wX lX wY lY) (recv : Nat) (pop : Pop Y msg wY lY wY' lY')
    (joint : Joint X.state Y.state (signals wX) (awaited X lX) (signals wY') (awaited Y lY'))
    (active : X.state = .active → recv = 0)
    (met : X.state = .established → Y.state = .openWait → awaited Y lY' = false → recv = 1)
    (both : X.state = .established → Y.state = .established → Y.sendSeqNum = recv + lY'.length) :
    Synced { X with recvSeqNum := recv } Y wX lX wY' lY' where
  laneX := synced.laneX.recount rfl
  laneY := pop.lane synced.laneY
  joint := joint
  countX := ⟨active, met, fun up up' => synced.countX.both up up'⟩
  countY := ⟨synced.countY.active, synced.countY.met, fun up' up => both up up'⟩

theorem Synced.no_route_waits (synced : Synced X Y wX lX wY lY) (pop : Pop Y msg wY lY wY' lY')
    (tidy : Y.Tidy) (number : msg.seqNum ≠ 0)
    (waits : Y.state = .openWait) : awaited Y lY' = true := by
  have sent := (tidy.waits waits).1
  cases pop with
  | stale =>
    have whole := synced.laneY.whole (by simp)
    simp only [awaited, decide_eq_true_eq]
    omega
  | live =>
    obtain ⟨seqNum, _⟩ := synced.laneY.head
    omega

/-- An UPDATE or WITHDRAW is passed over, or taken by an established session. -/
theorem Synced.takes_route {rid : NetAddr} {ok : Bool} {X' : Endpoint} {sent : List Msg}
    (synced : Synced X Y wX lX wY lY) (pop : Pop Y msg wY lY wY' lY') (tidyX : X.Tidy) (tidyY : Y.Tidy)
    (fits : X.recvSeqNum < seqMod) (data : isData msg.body = true) (number : msg.seqNum ≠ 0)
    (h : control rid true ok X (.recv msg) = .ok (X', sent)) :
    sent = [] ∧ Synced X' Y wX lX wY' lY' := by
  have joint : Joint X.state Y.state (signals wX) (awaited X lX) (signals wY') (awaited Y lY') := by
    have before := synced.joint
    cases pop with
    | stale =>
      rw [signals_cons, signalOf_data data] at before
      exact before
    | live =>
      obtain ⟨seqNum, _⟩ := synced.laneY.head
      have notYet : awaited Y (msg :: lY') = false := by
        simp only [awaited, decide_eq_false_iff_not, List.length_cons]
        omega
      have still : awaited Y lY' = false := by
        have length := synced.laneY.length
        simp only [List.length_cons] at length
        simp only [awaited, decide_eq_false_iff_not]
        omega
      rw [notYet] at before
      rw [still]
      exact before
  have notClose : msg.body ≠ .close := fun same => by simp [same, isData] at data
  have expects : X.inOrder msg = true ↔ X.recvSeqNum = msg.seqNum := by
    simp [Endpoint.inOrder, Nat.mod_eq_of_lt fits, notClose]
  -- two established ends agree on the next number
  have agreed (up : X.state = .established) (up' : Y.state = .established) :
      X.recvSeqNum = msg.seqNum ∧ Y.sendSeqNum = X.recvSeqNum + 1 + lY'.length := by
    have both := synced.countY.both up' up
    have received := (tidyX.up up).2
    cases pop with
    | stale =>
      have whole := synced.laneY.whole (by simp)
      omega
    | live =>
      obtain ⟨seqNum, _⟩ := synced.laneY.head
      have length := synced.laneY.length
      simp only [List.length_cons] at both length
      omega
  simp only [control] at h
  split at h
  next inOrder =>
    have seqNum := expects.mp inOrder
    have up : X.state = .established := by
      cases state : X.state with
      | idle | active => cases body : msg.body <;> simp [body, Endpoint.receive, state, isData] at h data
      | openWait => exact absurd ((tidyX.waits state).2 ▸ seqNum).symm number
      | established => rfl
    rw [receive_data (e := { X with recvSeqNum := X.recvSeqNum + 1 }) data (.inr up)] at h
    cases h
    refine ⟨rfl, ?_⟩
    have kept := synced.passes (X.recvSeqNum + 1) pop joint (fun isActive => ?_)
      (fun _ waits notAwaited => ?_) fun up up' => (agreed up up').2
    · rw [show ({ X with recvSeqNum := X.recvSeqNum + 1, state := .established } : Endpoint) =
        { X with recvSeqNum := X.recvSeqNum + 1 } by rw [← up]]
      exact kept
    · rw [up] at isActive
      cases isActive
    · rw [synced.no_route_waits pop tidyY number waits] at notAwaited
      cases notAwaited
  next rejected =>
    cases h
    refine ⟨rfl, ?_⟩
    refine synced.passes X.recvSeqNum pop joint synced.countX.active (fun _ waits notAwaited => ?_) fun up up' => ?_
    · rw [synced.no_route_waits pop tidyY number waits] at notAwaited
      cases notAwaited
    · exact absurd (expects.mpr (agreed up up').1) rejected

/-- A CLOSE ends a session, or is counted in IDLE. -/
theorem Synced.takes_close {rid : NetAddr} {ok : Bool} {X' : Endpoint} {sent : List Msg}
    (synced : Synced X Y wX lX wY lY) (pop : Pop Y msg wY lY wY' lY') (tidyX : X.Tidy)
    (isClose : msg.body = .close) (h : control rid true ok X (.recv msg) = .ok (X', sent)) :
    ∃ wX' lX', wX ++ lX = wX' ++ lX' ∧ sent = [] ∧ Synced X' Y wX' lX' wY' lY' := by
  have signal : signalOf msg.body = some .closed := by rw [isClose]; rfl
  cases pop with
  | live =>
    -- what is live is an OPEN or a route
    obtain ⟨_, kind⟩ := synced.laneY.head
    split at kind
    · rw [signal] at kind
      cases kind
    · simp [isClose, isData] at kind
  | stale =>
    have joint := synced.joint
    rw [signals_cons, signal] at joint
    have lane : Lane Y wY' lY := Pop.stale.lane synced.laneY
    simp only [control, Endpoint.inOrder, isClose, Endpoint.receive] at h
    cases state : X.state with
    | idle =>
      simp only [state, decide_true, Bool.or_true, if_true, Except.ok.injEq, Prod.mk.injEq] at h
      obtain ⟨rfl, rfl⟩ := h
      rw [state] at joint
      refine ⟨wX, lX, rfl, rfl, synced.laneX.recount rfl, lane, joint.skips, ?_, ?_⟩
      · exact ⟨by simp, by simp, by simp⟩
      · exact ⟨synced.countY.active, by simp, by simp⟩
    | active =>
      rw [state] at joint
      exact joint.active_close.elim
    | openWait | established =>
      simp only [state, decide_true, Bool.or_true, if_true, Except.ok.injEq, Prod.mk.injEq] at h
      obtain ⟨rfl, rfl⟩ := h
      refine ⟨wX ++ lX, [], (List.append_nil _).symm, rfl, Lane.of_down rfl _, lane, ?_, ?_, ?_⟩
      · rw [signals_append, synced.laneX.signals, awaited_down (e := .reset .active) rfl]
        refine joint.ends (by simp [state]) fun waits stale => ?_
        have isStale : wX ≠ [] := fun none => stale (by rw [none]; rfl)
        have whole := synced.laneX.whole isStale
        simp [awaited, whole, (tidyX.waits waits).1]
      · exact ⟨fun _ => rfl, by simp [Endpoint.reset], by simp [Endpoint.reset]⟩
      · exact ⟨synced.countY.active, by simp [Endpoint.reset], by simp [Endpoint.reset]⟩

theorem awaited_state {e : Endpoint} {live : List Msg} (tidy : e.Tidy) (fresh : awaited e live = true) :
    e.state = .openWait ∨ e.state = .established := by
  simp only [awaited, decide_eq_true_eq] at fresh
  cases state : e.state with
  | idle | active =>
    have zero := tidy.down (by simp [state])
    omega
  | openWait => exact .inl rfl
  | established => exact .inr rfl

/-- An OPEN is taken by a session that waits, answered in ACTIVE, and passed over in IDLE. -/
theorem Synced.takes_open {rid routerId : NetAddr} {ok : Bool} {X' : Endpoint} {sent : List Msg}
    (synced : Synced X Y wX lX wY lY) (pop : Pop Y msg wY lY wY' lY') (tidyX : X.Tidy) (tidyY : Y.Tidy)
    (isOpening : msg.body = .open routerId) (number : msg.seqNum = 0)
    (h : control rid true ok X (.recv msg) = .ok (X', sent)) :
    ∃ wX' lX', wX ++ lX ++ sent = wX' ++ lX' ∧ Synced X' Y wX' lX' wY' lY' := by
  have signal : signalOf msg.body = some .opened := by rw [isOpening]; rfl
  have lane := pop.lane synced.laneY
  have joint := synced.joint
  -- whether the OPEN is of this session of the neighbour or of an earlier one
  have kinds : (signals wY = .opened :: signals wY' ∧ awaited Y lY = awaited Y lY' ∧ lY' = lY ∧
        lY.length = Y.sendSeqNum) ∨
      (signals wY = [] ∧ signals wY' = [] ∧ awaited Y lY = true ∧ awaited Y lY' = false ∧
        Y.sendSeqNum = lY'.length + 1) := by
    cases pop with
    | stale =>
      refine .inl ⟨by rw [signals_cons, signal]; rfl, rfl, rfl, synced.laneY.whole (by simp)⟩
    | live =>
      obtain ⟨seqNum, _⟩ := synced.laneY.head
      have length := synced.laneY.length
      simp only [List.length_cons] at length
      refine .inr ⟨rfl, rfl, ?_, ?_, by omega⟩
      · simp only [awaited, decide_eq_true_eq, List.length_cons]
        omega
      · simp only [awaited, decide_eq_false_iff_not]
        omega
  have inOrder : X.inOrder msg = decide (X.recvSeqNum % seqMod = 0) := by
    simp [Endpoint.inOrder, number, isOpening]
  simp only [control, inOrder, isOpening, Endpoint.receive] at h
  cases state : X.state with
  | idle =>
    rw [state] at joint
    have passed : X' = X ∧ sent = [] := by
      simp only [state] at h
      split at h
      · cases h
      · cases h
        exact ⟨rfl, rfl⟩
    obtain ⟨rfl, rfl⟩ := passed
    refine ⟨wX, lX, List.append_nil _, synced.laneX, lane, ?_, ?_, ?_⟩
    · rw [state]
      obtain ⟨stale, same, _⟩ | ⟨none, none', _, notYet, _⟩ := kinds
      · rw [stale, same] at joint
        exact joint.skips
      · rw [none] at joint
        rw [none', notYet]
        exact joint.skips_live
    · exact ⟨by simp [state], by simp [state], by simp [state]⟩
    · exact ⟨synced.countY.active, by simp [state], by simp [state]⟩
  | established =>
    rw [state] at joint
    obtain ⟨stale, _⟩ | ⟨none, _, yet, _, sends⟩ := kinds
    · rw [stale] at joint
      exact joint.no_stale_open.elim
    · rw [none, yet] at joint
      cases awaited_state tidyY yet with
      | inl waits =>
        rw [waits] at joint
        exact joint.no_live_open.elim
      | inr up =>
        have both := synced.countY.both up state
        have received := (tidyX.up state).2
        simp only [awaited, decide_eq_true_eq] at yet
        omega
  | active =>
    rw [state] at joint
    have zero := tidyX.down (.inr state)
    have expects := synced.countX.active state
    obtain rfl := synced.laneX.down zero
    have notUp : Y.state ≠ .established := fun up => by
      rw [up] at joint
      exact joint
    simp only [expects, state, Endpoint.send, zero] at h
    cases h
    refine ⟨wX, [⟨0, .open rid⟩], by simp, ⟨Nat.le_refl _, fun _ => rfl, rfl, rfl, trivial⟩, lane, ?_,
      ?_, ?_⟩
    · have fresh : awaited ⟨.established, X.routerId, 0 + 1, 0 + 1⟩ [⟨0, .open rid⟩] = true := rfl
      rw [fresh]
      obtain ⟨stale, same, _⟩ | ⟨none, none', yet, notYet, _⟩ := kinds
      · rw [stale, same] at joint
        exact joint.answers
      · rw [none, yet] at joint
        rw [none', notYet]
        exact joint.answers_live (awaited_state tidyY yet)
    · exact ⟨by simp, fun _ _ _ => rfl, fun _ up => absurd up notUp⟩
    · exact ⟨synced.countY.active, by simp, fun up => absurd up notUp⟩
  | openWait =>
    rw [state] at joint
    obtain ⟨one, expects⟩ := tidyX.waits state
    simp only [expects, state] at h
    cases h
    -- if the neighbour is established already, this end's OPEN has arrived there
    have met (up : Y.state = .established) :
        lX = [] ∧ Y.recvSeqNum = 1 ∧ Y.sendSeqNum = lY'.length + 1 := by
      rw [up] at joint
      obtain ⟨stale, _⟩ | ⟨none, _, yet, _, sends⟩ := kinds
      · simp only [stale, Joint, Joint.upWaits] at joint
        obtain ⟨never, _⟩ | ⟨never, _⟩ := joint <;> cases never
      · simp only [none, yet, Joint, Joint.upWaits] at joint
        obtain ⟨_, _, arrived⟩ | ⟨_, never, _⟩ := joint
        · have length := synced.laneX.length
          refine ⟨?_, synced.countY.met up state arrived, sends⟩
          simp only [awaited, one, decide_eq_false_iff_not] at arrived
          exact List.length_eq_zero_iff.mp (by omega)
        · cases never
    refine ⟨wX, lX, List.append_nil _, synced.laneX.recount rfl, lane, ?_, ?_, ?_⟩
    · obtain ⟨stale, same, _⟩ | ⟨none, none', yet, notYet, _⟩ := kinds
      · rw [stale, same] at joint
        exact joint.meets
      · rw [none, yet] at joint
        rw [none', notYet]
        exact joint.meets_live (awaited_state tidyY yet)
    · refine ⟨by simp, fun _ _ _ => rfl, fun _ up => ?_⟩
      obtain ⟨rfl, received, _⟩ := met up
      simp [one, received]
    · refine ⟨synced.countY.active, by simp, fun up _ => ?_⟩
      have sends := (met up).2.2
      simp only
      omega

end Steps

/-! ## Steps of the two ends -/

/-- Two ends are in step with what is on its way between them. -/
def InStep (X Y : Endpoint) (out back : List Msg) : Prop :=
  ∃ wX lX wY lY, out = wX ++ lX ∧ back = wY ++ lY ∧ Synced X Y wX lX wY lY

section InStep

variable {X Y X' : Endpoint} {out back sent : List Msg} {rid rid' : NetAddr} {ok : Bool}

theorem InStep.symm (inStep : InStep X Y out back) : InStep Y X back out := by
  obtain ⟨wX, lX, wY, lY, isOut, isBack, synced⟩ := inStep
  exact ⟨wY, lY, wX, lX, isBack, isOut, synced.symm⟩

/-- Opening, closing and whatever else happens at one end. -/
theorem InStep.controls {input : Input} (inStep : InStep X Y out back) (tidyX : X.Tidy)
    (tidyY : Y.Tidy) (spontaneous : ∀ msg, input ≠ .recv msg) (steady : input ≠ .refresh)
    (settled : input = .open → X.state = .idle ∨ X.state = .active → Reopenable Y.state out back)
    (h : control rid true ok X input = .ok (X', sent)) : InStep X' Y (out ++ sent) back := by
  have same : InStep X Y (out ++ []) back := by
    rw [List.append_nil]
    exact inStep
  obtain ⟨wX, lX, wY, lY, rfl, rfl, synced⟩ := inStep
  cases control_reacts h with
  | stays => exact same
  | opens asked down => exact ⟨_, _, wY, lY, rfl, rfl, synced.opens tidyX down (settled (asked.resolve_right steady) down)⟩
  | unsent asked down cut => cases cut
  | loses asked => exact absurd asked steady
  | closes asked started =>
    unfold Endpoint.farewell
    -- A close in a live state sends a message; before that there is nobody to tell.
    cases state : X.state with
    | idle => exact absurd state started
    | active =>
      simp only [reduceCtorEq, or_self, false_and, if_false]
      refine ⟨wX ++ lX, [], wY, lY, ?_, rfl, synced.gives_up tidyX state⟩
      rw [List.append_nil]
    | openWait | established =>
      simp only [reduceCtorEq, or_true, or_false, and_self, if_true]
      refine ⟨wX ++ lX ++ _, [], wY, lY, (List.append_nil _).symm, rfl, ?_⟩
      exact synced.closes tidyY _ rfl (by simp [state])
  | hears heard | ignores heard | closed heard | answers heard | meets heard =>
    exact absurd heard (spontaneous _)

theorem InStep.takes {msg : Msg} (inStep : InStep X Y out (msg :: back)) (tidyX : X.Tidy)
    (tidyY : Y.Tidy) (fits : X.recvSeqNum < seqMod) (of : MsgOf rid' msg)
    (h : control rid true ok X (.recv msg) = .ok (X', sent)) : InStep X' Y (out ++ sent) back := by
  obtain ⟨wX, lX, wY, lY, rfl, head, synced⟩ := inStep
  obtain ⟨wY', lY', pop, rfl⟩ := Pop.of_head (Y := Y) head.symm
  have route (data : isData msg.body = true) : InStep X' Y (wX ++ lX ++ sent) (wY' ++ lY') := by
    obtain ⟨rfl, next⟩ := synced.takes_route pop tidyX tidyY fits data (of.isData data) h
    exact ⟨wX, lX, wY', lY', List.append_nil _, rfl, next⟩
  cases body : msg.body with
  | update r => exact route (by rw [body]; rfl)
  | withdraw p => exact route (by rw [body]; rfl)
  | close =>
    obtain ⟨wX', lX', split_, rfl, next⟩ := synced.takes_close pop tidyX body h
    exact ⟨wX', lX', wY', lY', by rw [List.append_nil, split_], rfl, next⟩
  | «open» routerId =>
    simp only [MsgOf, body] at of
    obtain ⟨wX', lX', split_, next⟩ := synced.takes_open pop tidyX tidyY body of.1 h
    exact ⟨wX', lX', wY', lY', split_, rfl, next⟩

/-- The routes told at the end of a step. -/
theorem InStep.tells {data : List MsgBody} (inStep : InStep X Y out back) (tidy : X.Tidy)
    (fits : X.sendSeqNum + data.length ≤ seqMod) (routes : ∀ body ∈ data, isData body = true)
    (silent : X.state ≠ .established → data = []) :
    InStep { X with sendSeqNum := X.sendSeqNum + data.length } Y
      (out ++ letters X.sendSeqNum data) back := by
  by_cases up : X.state = .established
  · obtain ⟨wX, lX, wY, lY, rfl, rfl, synced⟩ := inStep
    exact ⟨wX, _, wY, lY, List.append_assoc .., rfl, synced.tells tidy up fits routes⟩
  · rw [silent up]
    simpa [letters] using inStep

end InStep

/-! ## Runs -/

section Runs

variable {ι : Type} [DecidableEq ι] {owner : NetAddr → Option ι} {n n' n₀ : Network ι} {i j : ι}
  {a b : NetAddr} {op : NetOp ι}

/-- The step opens the end of a session. -/
def opensEnd (i : ι) (b : NetAddr) : NetOp ι → Bool
  | .act k (.openSession c) => decide (k = i ∧ c = b)
  | _ => false

/-- The step refreshes the end of a session or loses one of its messages. -/
def disturbs (i : ι) (b : NetAddr) : NetOp ι → Bool
  | .act k (.sessionRefresh c) => decide (k = i ∧ c = b)
  | .lose k c => decide (k = i ∧ c = b)
  | _ => false

/-- Every message of the session is sent and arrives; the session is only opened and closed. -/
structure Lossless (owner : NetAddr → Option ι) (i j : ι) (a b : NetAddr) (n : Network ι)
    (op : NetOp ι) : Prop where
  unwrapped : Unwrapped owner i j a b n op
  lineLeft : lineUp n i b = true
  lineRight : lineUp n j a = true
  left : disturbs i b op = false
  right : disturbs j a op = false

/-- The end of a session is opened only when nothing of an earlier session stands in the way. -/
def OpensAfresh (i j : ι) (a b : NetAddr) (n : Network ι) (op : NetOp ι) : Prop :=
  opensEnd i b op = true → (side n i b).state = .idle ∨ (side n i b).state = .active →
    Reopenable (side n j a).state (wire n i b) (wire n j a)

/-- A step of the left end keeps the two ends in step. -/
theorem Move.inStep (move : Move n n' i j a b op) (inSession : InSession owner n i j a b)
    (allowed : Lossless owner i j a b n op) (settled : OpensAfresh i j a b n op)
    (inStep : InStep (side n i b) (side n j a) (wire n i b) (wire n j a))
    (fits : Fits n' i b) :
    InStep (side n' i b) (side n' j a) (wire n' i b) (wire n' j a) := by
  have orderly := inSession.orderly
  cases move with
  | act input source spontaneous step moved stays out back =>
    -- A lossless run refreshes no session, and opens one only when nothing of it is left over.
    have steady : input ≠ .refresh := by
      rintro rfl
      obtain never | ⟨o, rfl, isInput⟩ := source
      · cases never
      · have disturbed := allowed.left
        simp [inputOf_refresh isInput.symm, disturbs] at disturbed
    have opens : input = .open → opensEnd i b op = true := by
      rintro rfl
      obtain never | ⟨o, rfl, isInput⟩ := source
      · cases never
      · simp [inputOf_open isInput.symm, opensEnd]
    rw [allowed.lineLeft] at step
    cases step with
    | mk controlled routes silent =>
      have noMessage (msg : Msg) (isRecv : input = .recv msg) : MsgOf (n.router j).rid msg :=
        absurd isRecv (spontaneous msg)
      have tidy := (control_tidy orderly.left noMessage controlled).1
      have moved' := inStep.controls orderly.left orderly.right spontaneous steady
        (fun isOpen => settled (opens isOpen)) controlled
      rw [moved, stays, out, back, ← List.append_assoc]
      have counted := Nat.le_of_lt fits.1
      rw [moved] at counted
      exact moved'.tells tidy counted routes silent
  -- The message taken is the head of what the other end has sent.
  | take step moved stays out back =>
    rw [allowed.lineLeft] at step
    rw [back] at inStep
    have of := orderly.back _ (by rw [back]; exact List.mem_cons_self)
    cases step with
    | mk controlled routes silent =>
      have tidy := (control_tidy orderly.left
        (fun msg isRecv => by cases isRecv; exact of) controlled).1
      have moved' := inStep.takes orderly.left orderly.right inSession.fitsLeft.2 of controlled
      rw [moved, stays, out, ← List.append_assoc]
      have counted := Nat.le_of_lt fits.1
      rw [moved] at counted
      exact moved'.tells tidy counted routes silent
  | lose moved stays out back =>
    have disturbed := allowed.right
    simp [disturbs] at disturbed
  | rest moved stays out back =>
    rw [moved, stays, out, back]
    exact inStep

theorem Lossless.symm (lossless : Lossless owner i j a b n op) : Lossless owner j i b a n op where
  unwrapped := ⟨lossless.unwrapped.1, lossless.unwrapped.2.mono (fun _ => And.symm) fun _ => id⟩
  lineLeft := lossless.lineRight
  lineRight := lossless.lineLeft
  left := lossless.right
  right := lossless.left

omit [DecidableEq ι] in
theorem InSession.symm (inSession : InSession owner n i j a b) : InSession owner n j i b a :=
  ⟨inSession.addressed, inSession.paired.symm, inSession.orderly.symm, inSession.fitsRight,
    inSession.fitsLeft⟩

/-- A step of the session as the claim has it, and both ends are opened only when they are settled. -/
structure AfreshStep (owner : NetAddr → Option ι) (i j : ι) (a b : NetAddr) (n : Network ι)
    (op : NetOp ι) : Prop where
  lossless : Lossless owner i j a b n op
  left : OpensAfresh i j a b n op
  right : OpensAfresh j i b a n op

theorem inStep_of_reach (fresh : FreshPair owner n₀ i j a b)
    (reached : Reach (netStep owner) (AfreshStep owner i j a b) n₀ n) :
    InSession owner n i j a b ∧ InStep (side n i b) (side n j a) (wire n i b) (wire n j a) := by
  induction reached with
  | start =>
    refine ⟨fresh.inSession, [], [], [], [], by simp [fresh.out], by simp [fresh.back], ?_⟩
    rw [fresh.left, fresh.right]
    refine ⟨Lane.of_down rfl _, Lane.of_down rfl _, trivial, ?_, ?_⟩
    · exact ⟨by simp [Endpoint.reset], by simp [Endpoint.reset], by simp [Endpoint.reset]⟩
    · exact ⟨by simp [Endpoint.reset], by simp [Endpoint.reset], by simp [Endpoint.reset]⟩
  | next _ allowed stepped inductionHypothesis =>
    obtain ⟨inSession, inStep⟩ := inductionHypothesis
    have next := inSession.step allowed.lossless.unwrapped stepped
    refine ⟨next, ?_⟩
    obtain ⟨_, moved⟩ :=
      netStep_moves inSession.addressed inSession.paired allowed.lossless.unwrapped.1 stepped
    cases moved with
    | inl left => exact left.inStep inSession allowed.lossless allowed.left inStep next.fitsLeft
    | inr right =>
      exact (right.inStep inSession.symm allowed.lossless.symm allowed.right inStep.symm
        next.fitsRight).symm

/-- The counters of one direction agree, and its next message has the number that is expected. -/
structure InSync (X Y : Endpoint) (out : List Msg) : Prop where
  counters : X.sendSeqNum = Y.recvSeqNum + out.length
  next : ∀ msg rest, out = msg :: rest → Y.inOrder msg = true

theorem Synced.inSync {X Y : Endpoint} {wX lX wY lY : List Msg} (synced : Synced X Y wX lX wY lY)
    (tidy : Y.Tidy) (up : X.state = .established) (up' : Y.state = .established)
    (fits : Y.recvSeqNum < seqMod) : InSync X Y (wX ++ lX) := by
  obtain ⟨rfl, _⟩ := synced.established tidy up up'
  have both := synced.countX.both up up'
  refine ⟨both, fun msg rest head => ?_⟩
  simp only [List.nil_append] at head
  subst head
  obtain ⟨number, _⟩ := synced.laneX.head
  rw [List.length_cons] at both
  simp only [Endpoint.inOrder, Nat.mod_eq_of_lt fits, Bool.or_eq_true, decide_eq_true_eq]
  omega

/-- In every run of two peers that open and close their session, each only when nothing of the last
session stands in the way, the counters of two established ends agree with what is on its way, and no
message is out of sequence. -/
theorem inSync_of_reach (fresh : FreshPair owner n₀ i j a b)
    (reached : Reach (netStep owner) (AfreshStep owner i j a b) n₀ n)
    (up : (side n i b).state = .established) (up' : (side n j a).state = .established) :
    InSync (side n i b) (side n j a) (wire n i b) ∧ InSync (side n j a) (side n i b) (wire n j a) := by
  obtain ⟨inSession, wX, lX, wY, lY, isOut, isBack, synced⟩ := inStep_of_reach fresh reached
  rw [isOut, isBack]
  constructor
  · exact synced.inSync inSession.orderly.right up up' inSession.fitsRight.2
  · exact synced.symm.inSync inSession.orderly.left up' up inSession.fitsLeft.2

end Runs

/-! ## A session reopened too early -/

theorem settled_iff {remote : SessionState} {out back : List Msg} :
    Reopenable remote out back ↔ .opened ∉ signals out ∧ .closed ∉ signals back ∧
      (.opened ∈ signals back → remote = .openWait) ∧
      (.closed ∈ signals out → remote = .established) :=
  ⟨fun settled => ⟨settled.noOpenOut, settled.noCloseBack, settled.openBack, settled.closeOut⟩,
    fun ⟨noOpenOut, noCloseBack, openBack, closeOut⟩ => ⟨noOpenOut, noCloseBack, openBack, closeOut⟩⟩

instance {remote : SessionState} {out back : List Msg} : Decidable (Reopenable remote out back) :=
  decidable_of_iff _ settled_iff.symm

instance {ι : Type} [DecidableEq ι] (i j : ι) (a b : NetAddr) (n : Network ι) (op : NetOp ι) :
    Decidable (OpensAfresh i j a b n op) :=
  inferInstanceAs (Decidable (_ → _ → _))

/-- What `Lossless` asks besides `Unwrapped`, as a test. -/
def losslessTest (entry : Network Bool × NetOp Bool) : Bool :=
  lineUp entry.1 false 2 && lineUp entry.1 true 1 && !disturbs false 2 entry.2 &&
    !disturbs true 1 entry.2

theorem lossless_of_test {entry : Network Bool × NetOp Bool}
    (unwrapped : Unwrapped twoOwners false true 1 2 entry.1 entry.2)
    (test : losslessTest entry = true) : Lossless twoOwners false true 1 2 entry.1 entry.2 := by
  simp only [losslessTest, Bool.and_eq_true, Bool.not_eq_true'] at test
  exact ⟨unwrapped, test.1.1.1, test.1.1.2, test.1.2, test.2⟩

/-- Router `false` opens, closes and opens again before router `true` opens: the first of the two
OPENs is taken by router `true`, while the session of router `false` began with the second. -/
theorem reopened_out_of_step : ¬ ∀ (owner : NetAddr → Option Bool) (n₀ n : Network Bool) (i j : Bool)
    (a b : NetAddr), FreshPair owner n₀ i j a b →
    Reach (netStep owner) (Lossless owner i j a b) n₀ n → (side n i b).state = .established →
    (side n j a).state = .established → InSync (side n i b) (side n j a) (wire n i b) := by
  intro always
  have ran : okAnd ([.act false (.openSession 2), .act false (.closeSession 2),
      .act false (.openSession 2), .act true (.openSession 1), .deliver true 1,
      .deliver false 2].foldlM (netStep twoOwners) twoRouters) (fun n =>
        decide ((side n false 2).state = .established) && decide ((side n true 1).state = .established) &&
          decide ((side n false 2).sendSeqNum ≠ (side n true 1).recvSeqNum + (wire n false 2).length)) =
      true := by
    decide +kernel
  obtain ⟨n, ran, observed⟩ := okAnd_iff.mp ran
  simp only [Bool.and_eq_true, decide_eq_true_eq] at observed
  obtain ⟨⟨up, up'⟩, differ⟩ := observed
  have tests : ∀ entry ∈ loopStates (netStep twoOwners) twoRouters [.act false (.openSession 2),
      .act false (.closeSession 2), .act false (.openSession 2), .act true (.openSession 1),
      .deliver true 1, .deliver false 2], losslessTest entry = true := by
    decide +kernel
  have reached : Reach (netStep twoOwners) (Lossless twoOwners false true 1 2) twoRouters n := by
    refine Reach.of_foldlM (fun entry member => lossless_of_test ?_ (tests entry member)) ran
    exact unwrapped_of_run (by decide) (by decide +kernel) entry member
  exact differ (always _ _ n _ _ _ _ twoRouters_fresh reached up up').counters

/-- Both routers open the session once. -/
theorem inSync_two : ∃ n, (side n false 2).state = .established ∧
    (side n true 1).state = .established ∧ InSync (side n false 2) (side n true 1) (wire n false 2) ∧
    InSync (side n true 1) (side n false 2) (wire n true 1) := by
  have ran : okAnd ([.act false (.openSession 2), .act true (.openSession 1), .deliver true 1,
      .deliver false 2].foldlM (netStep twoOwners) twoRouters) (fun n =>
        decide ((side n false 2).state = .established) &&
          decide ((side n true 1).state = .established)) = true := by
    decide +kernel
  obtain ⟨n, ran, observed⟩ := okAnd_iff.mp ran
  simp only [Bool.and_eq_true, decide_eq_true_eq] at observed
  have tests : ∀ entry ∈ loopStates (netStep twoOwners) twoRouters [.act false (.openSession 2),
      .act true (.openSession 1), .deliver true 1, .deliver false 2], losslessTest entry = true ∧
      OpensAfresh false true 1 2 entry.1 entry.2 ∧ OpensAfresh true false 2 1 entry.1 entry.2 := by
    decide +kernel
  have reached : Reach (netStep twoOwners) (AfreshStep twoOwners false true 1 2) twoRouters n := by
    refine Reach.of_foldlM (fun entry member => ?_) ran
    obtain ⟨test, left, right⟩ := tests entry member
    have unwrapped : Unwrapped twoOwners false true 1 2 entry.1 entry.2 :=
      unwrapped_of_run (by decide) (by decide +kernel) entry member
    exact ⟨lossless_of_test unwrapped test, left, right⟩
  exact ⟨n, observed.1, observed.2,
    inSync_of_reach twoRouters_fresh reached observed.1 observed.2⟩

end Cbgp.Verified
