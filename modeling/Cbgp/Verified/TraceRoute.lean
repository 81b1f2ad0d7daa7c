import Cbgp.Verified.HopLimit
import Cbgp.Verified.Untraced
import Mathlib.Data.Nat.Find

/-! # Probes with increasing TTLs

`icmp_trace_route` counts in eight bits, and goes on while the counter is not above the bound.  A bound of 255 is
never passed: after 255 the counter is 0, for which `node_send_msg` sends a message with a TTL of 255, and
then 1 again.  The loop then ends only with an answer that is no time-exceeded error
(`icmpTraceRoute_terminates_iff`).
-/

namespace Cbgp.Verified.Ip

open Cbgp.Lib Cbgp.Net.Ip
open Cbgp.Net (IcmpType NetAddr NetError netAddrAny)

variable {N I S : Type}

/-- A function that sends a probe and waits for the answer. -/
abbrev Ping (N I S : Type) :=
  UInt8 → State N I S → Except Crash (NetError × State N I S)

section Loop

variable (stack : Stack N I S) (ping : Ping N I S) (maxTtl : UInt8)

/-- The bound of the loop: 0 means 255. -/
def ttlBound : UInt8 :=
  if maxTtl = 0 then 255 else maxTtl

/-- A turn of the loop, with a record of the TTLs of the probes. -/
def loggedTurn : List UInt8 × TraceRoute N I S →
    (List UInt8 × Except Crash (TraceRoute N I S)) ⊕ (List UInt8 × TraceRoute N I S)
  | (sent, route) =>
    let sent' := if route.ttl ≤ maxTtl then sent ++ [route.ttl] else sent
    match traceRouteTurn stack ping maxTtl route with
    | .inl result => .inl (sent', result)
    | .inr next => .inr (sent', next)

/-- The variables before the first turn. -/
def traceRouteStart (node : N) (st : State N I S) : TraceRoute N I S where
  ttl := 1
  error := .failure
  items := [(some node, none)]
  st := st

/-- The record changes nothing. -/
theorem looping_logged (turns : ℕ) (sent : List UInt8) (route : TraceRoute N I S) :
    (looping (loggedTurn stack ping maxTtl) turns (sent, route)).map (·.2) =
      looping (traceRouteTurn stack ping maxTtl) turns route := by
  induction turns generalizing sent route with
  | zero => rfl
  | succ turns inductionHypothesis =>
    unfold looping
    rw [loggedTurn]
    cases traceRouteTurn stack ping maxTtl route with
    | inl result => rfl
    | inr next => exact inductionHypothesis _ next

/-- The trace-route returns: the probes had the TTLs 1, 2, 3, ..., not above the bound, and the trace has an
entry for the source and one for each of them. -/
def Terminates (node : N) (st : State N I S) : Prop :=
  ∃ turns sent route,
    looping (loggedTurn stack ping (ttlBound maxTtl)) turns ([], traceRouteStart node st) =
      some ((List.range sent).map fun k => UInt8.ofNat (k + 1), .ok route) ∧
    icmpTraceRoute stack ping turns node maxTtl st = some (.ok route) ∧
    sent ≤ (ttlBound maxTtl).toNat ∧ route.items.length = 1 + sent ∧
    route.items.head? = some (some node, none)

/-- The answer is that the TTL was exceeded. -/
def Expires (st : State N I S) (ttl : ℕ) : Prop :=
  ∃ st', ping (UInt8.ofNat ttl) st = .ok (.icmpTimeExceeded, st')

/-- The probes that are sent return, and a bound of 255 is not tried in vain. -/
structure ProbesEnd (st : State N I S) : Prop where
  returns : ∀ ttl, 1 ≤ ttl → ttl ≤ (ttlBound maxTtl).toNat → (∀ less, 1 ≤ less → less < ttl → Expires ping st less) →
    ∃ after, ping (UInt8.ofNat ttl) st = .ok after
  answered : ttlBound maxTtl = 255 → ∃ ttl, 1 ≤ ttl ∧ ttl ≤ 255 ∧ ¬ Expires ping st ttl

/-- Probes do not change what the others get to know, and a probe without TTL is one with the largest. -/
structure Steady : Prop where
  same : ∀ {ttl st error st'}, ping ttl st = .ok (error, st') → ∀ ttl', ping ttl' st' = ping ttl' st
  zero : ∀ st, ping 0 st = ping 255 st

variable {stack ping maxTtl} {node : N} {st : State N I S}

/-- The loop after so many probes, all of which have expired. -/
structure After (ping : Ping N I S) (node : N) (st : State N I S) (probes : ℕ)
    (at' : List UInt8 × TraceRoute N I S) : Prop where
  sent : at'.1 = (List.range probes).map fun k => UInt8.ofNat (k + 1)
  ttl : at'.2.ttl = UInt8.ofNat (probes + 1)
  length : at'.2.items.length = 1 + probes
  head : at'.2.items.head? = some (some node, none)
  same : ∀ ttl, ping ttl at'.2.st = ping ttl st

theorem After.start : After ping node st 0 ([], traceRouteStart node st) where
  sent := rfl
  ttl := rfl
  length := rfl
  head := rfl
  same _ := rfl

/-- A probe below the bound is sent. -/
theorem After.sends {probes : ℕ} {at' : List UInt8 × TraceRoute N I S} (after : After ping node st probes at')
    {bound : UInt8} (below : probes < bound.toNat) : at'.2.ttl ≤ bound := by
  have small := bound.toNat_lt
  rw [after.ttl, UInt8.le_iff_toNat_le, UInt8.toNat_ofNat']
  omega

/-- The next turn. -/
theorem After.turn (stack : Stack N I S) (steady : Steady ping) {probes : ℕ} {at' : List UInt8 × TraceRoute N I S}
    (after : After ping node st probes at') {bound : UInt8} (below : probes < bound.toNat) :
    match ping (UInt8.ofNat (probes + 1)) st with
    | .error crash => ∃ sent, loggedTurn stack ping bound at' = .inl (sent, .error crash)
    | .ok (error, _) =>
      if error = .icmpTimeExceeded then
        ∃ next, loggedTurn stack ping bound at' = .inr next ∧ After ping node st (probes + 1) next
      else
        ∃ route, loggedTurn stack ping bound at' =
            .inl ((List.range (probes + 1)).map fun k => UInt8.ofNat (k + 1), .ok route) ∧
          route.items.length = 1 + (probes + 1) ∧ route.items.head? = some (some node, none) := by
  obtain ⟨sent, route⟩ := at'
  have sends := after.sends below
  have probe := after.same (UInt8.ofNat (probes + 1))
  rw [← after.ttl] at probe ⊢
  dsimp only at sends probe ⊢
  rw [← probe]
  have logged : sent ++ [route.ttl] = (List.range (probes + 1)).map fun k => UInt8.ofNat (k + 1) := by
    have before := after.sent
    have ttl := after.ttl
    dsimp only at before ttl
    rw [before, ttl, List.range_succ, List.map_append]
    rfl
  unfold loggedTurn traceRouteTurn
  simp only [if_pos sends]
  cases answer : ping route.ttl route.st with
  | error crash => exact ⟨_, rfl⟩
  | ok result =>
    obtain ⟨error, st'⟩ := result
    dsimp only
    have length : (route.items ++ [answerItem stack error st'.rcvd]).length = 1 + (probes + 1) := by
      have := after.length
      rw [List.length_append]
      exact congrArg (· + 1) this
    have head : (route.items ++ [answerItem stack error st'.rcvd]).head? = some (some node, none) := by
      rw [List.head?_append, after.head]
      rfl
    -- A time exceeded answer asks for one more probe; any other answer ends the trace.
    split
    next expired =>
      rw [if_neg (not_not.mpr expired)]
      refine ⟨_, rfl, logged, ?_, length, head, fun ttl => ?_⟩
      · have ttl := after.ttl
        dsimp only at ttl ⊢
        rw [ttl]
        exact (UInt8.ofNat_add (probes + 1) 1).symm
      · exact (steady.same answer ttl).trans (after.same ttl)
    next answered =>
      rw [logged]
      exact ⟨_, rfl, length, head⟩

theorem After.reached (stack : Stack N I S) (node : N) (steady : Steady ping) {bound : UInt8} (probes : ℕ)
    (below : probes ≤ bound.toNat) (expire : ∀ ttl, 1 ≤ ttl → ttl ≤ probes → Expires ping st ttl) :
    ∃ at', Turns (loggedTurn stack ping bound) ([], traceRouteStart node st) at' ∧
      After ping node st probes at' := by
  induction probes with
  | zero => exact ⟨_, .refl, .start⟩
  | succ probes inductionHypothesis =>
    obtain ⟨at', turns, after⟩ := inductionHypothesis (Nat.le_of_succ_le below)
      fun ttl least most => expire ttl least (Nat.le_succ_of_le most)
    obtain ⟨st', answer⟩ := expire (probes + 1) (Nat.succ_le_succ (Nat.zero_le _)) le_rfl
    have turn := after.turn stack steady below
    rw [answer] at turn
    obtain ⟨next, continues, after'⟩ := turn
    exact ⟨next, turns.tail continues, after'⟩

/-- With a bound of 255 probes that all expire go on for ever. -/
theorem looping_expires (steady : Steady ping) (expire : ∀ ttl, 1 ≤ ttl → ttl ≤ 255 → Expires ping st ttl)
    (turns : ℕ) : looping (loggedTurn stack ping 255) turns ([], traceRouteStart node st) = none := by
  have always (ttl : UInt8) : ∃ st', ping ttl st = .ok (.icmpTimeExceeded, st') := by
    by_cases zero : ttl = 0
    · rw [zero, steady.zero]
      exact expire 255 (by decide) le_rfl
    · have positive : 1 ≤ ttl.toNat := by
        refine Nat.pos_of_ne_zero fun none => zero (UInt8.toNat_inj.mp ?_)
        rw [none]
        rfl
      have expired := expire ttl.toNat positive (Nat.le_of_lt_succ ttl.toNat_lt)
      rwa [Expires, UInt8.ofNat_toNat] at expired
  refine looping_none (fun at' : List UInt8 × TraceRoute N I S => ∀ ttl, ping ttl at'.2.st = ping ttl st)
    (fun at' same => ?_) (fun _ => rfl) turns
  obtain ⟨sent, route⟩ := at'
  obtain ⟨st', answer⟩ := always route.ttl
  rw [← same] at answer
  have sends : route.ttl ≤ 255 := by
    rw [UInt8.le_iff_toNat_le]
    exact Nat.le_of_lt_succ route.ttl.toNat_lt
  unfold loggedTurn traceRouteTurn
  simp only [if_pos sends]
  rw [answer]
  exact ⟨_, rfl, fun ttl => (steady.same answer ttl).trans (same ttl)⟩

/-- Without the record, for as many turns. -/
theorem looping_unlogged {turns : ℕ} {sent : List UInt8} {result : Except Crash (TraceRoute N I S)}
    (ended : looping (loggedTurn stack ping (ttlBound maxTtl)) turns ([], traceRouteStart node st) =
      some (sent, result)) :
    icmpTraceRoute stack ping turns node maxTtl st = some result := by
  have unlogged := looping_logged stack ping (ttlBound maxTtl) turns [] (traceRouteStart node st)
  rw [ended] at unlogged
  exact unlogged.symm

theorem terminates_iff (steady : Steady ping) :
    Terminates stack ping maxTtl node st ↔ ProbesEnd ping maxTtl st := by
  have ends {at' : List UInt8 × TraceRoute N I S}
      (turns : Turns (loggedTurn stack ping (ttlBound maxTtl)) ([], traceRouteStart node st) at')
      {result : List UInt8 × Except Crash (TraceRoute N I S)}
      (ended : loggedTurn stack ping (ttlBound maxTtl) at' = .inl result) :
      ∃ turns, looping (loggedTurn stack ping (ttlBound maxTtl)) turns ([], traceRouteStart node st) =
        some result :=
    looping_steps turns (looping_inl ended 0)
  constructor
  · rintro ⟨turns, sent, route, ended, _⟩
    refine ⟨fun ttl least most expire => ?_, fun full => ?_⟩
    · obtain ⟨probes, rfl⟩ : ∃ probes, ttl = probes + 1 := ⟨ttl - 1, by omega⟩
      obtain ⟨at', before, after⟩ := After.reached stack node steady probes (Nat.le_of_succ_le most)
        fun less least below => expire less least (Nat.lt_succ_of_le below)
      have turn := after.turn stack steady most
      cases answer : ping (UInt8.ofNat (probes + 1)) st with
      | ok result => exact ⟨result, rfl⟩
      | error crash =>
        rw [answer] at turn
        obtain ⟨_, stops⟩ := turn
        obtain ⟨turns', stopped⟩ := ends before stops
        have same := (looping_mono ended (Nat.le_max_left turns turns')).symm.trans
          (looping_mono stopped (Nat.le_max_right turns turns'))
        cases same
    · by_contra vain
      have expire : ∀ ttl, 1 ≤ ttl → ttl ≤ 255 → Expires ping st ttl :=
        fun ttl least most => of_not_not fun answered => vain ⟨ttl, least, most, answered⟩
      rw [full, looping_expires steady expire] at ended
      cases ended
  · intro probesEnd
    by_cases answers : ∃ ttl, 1 ≤ ttl ∧ ttl ≤ (ttlBound maxTtl).toNat ∧ ¬ Expires ping st ttl
    · -- the first probe that does not expire is the last
      classical
      obtain ⟨least, most, answered⟩ := Nat.find_spec answers
      have expire (less : ℕ) (positive : 1 ≤ less) (below : less < Nat.find answers) :
          Expires ping st less := by
        by_contra other
        exact Nat.find_min answers below ⟨positive, Nat.le_trans (Nat.le_of_lt below) most, other⟩
      obtain ⟨probes, last⟩ : ∃ probes, Nat.find answers = probes + 1 := ⟨Nat.find answers - 1, by omega⟩
      rw [last] at most answered expire
      obtain ⟨at', before, after⟩ := After.reached stack node steady probes (Nat.le_of_succ_le most)
        fun less positive below => expire less positive (Nat.lt_succ_of_le below)
      obtain ⟨⟨error, st'⟩, answer⟩ := probesEnd.returns (probes + 1) (Nat.succ_le_succ (Nat.zero_le _)) most expire
      have turn := after.turn stack steady most
      rw [answer] at turn
      dsimp only at turn
      rw [if_neg fun expired => answered ⟨st', by rw [answer, expired]⟩] at turn
      obtain ⟨route, stops, length, head⟩ := turn
      obtain ⟨turns, ended⟩ := ends before stops
      exact ⟨turns, probes + 1, route, ended, looping_unlogged ended, most, length, head⟩
    · -- the counter passes the bound
      have expire (ttl : ℕ) (positive : 1 ≤ ttl) (below : ttl ≤ (ttlBound maxTtl).toNat) :
          Expires ping st ttl :=
        of_not_not fun answered => answers ⟨ttl, positive, below, answered⟩
      have small := (ttlBound maxTtl).toNat_lt
      have bounded : (ttlBound maxTtl).toNat ≠ 255 := by
        intro full
        obtain ⟨ttl, positive, below, answered⟩ := probesEnd.answered (UInt8.toNat_inj.mp full)
        exact answered (expire ttl positive (full ▸ below))
      obtain ⟨⟨sent, route⟩, before, after⟩ := After.reached stack node steady _ le_rfl expire
      have passed : ¬ route.ttl ≤ ttlBound maxTtl := by
        have ttl := after.ttl
        dsimp only at ttl
        rw [ttl, UInt8.le_iff_toNat_le, UInt8.toNat_ofNat']
        omega
      have stops : loggedTurn stack ping (ttlBound maxTtl) (sent, route) = .inl (sent, .ok route) := by
        unfold loggedTurn traceRouteTurn
        simp only [if_neg passed]
      obtain ⟨turns, ended⟩ := ends before stops
      have logged := after.sent
      dsimp only at logged
      rw [logged] at ended
      exact ⟨turns, _, route, ended, looping_unlogged ended, le_rfl, after.length, after.head⟩

end Loop

/-! ## ICMP probes -/

variable [DecidableEq N] [DecidableEq I] {stack : Stack N I S}

/-- The probes of ICMP have no options, so all that one leaves behind is what the next one resets. -/
theorem icmpPingSendRecv_steady (fuel : ℕ) (node : N) (srcAddr dstAddr : NetAddr) :
    Steady (icmpPingSendRecv stack fuel node srcAddr dstAddr) where
  same {ttl st error st'} answer ttl' := by
    have start : Untraced st { st with events := [], rcvd := none } := ⟨rfl, rfl, rfl, rfl, rfl, nofun⟩
    have left : Untraced st st' := by
      obtain ⟨⟨sent, st₁⟩, sending, run⟩ := except_bind_eq_ok.mp answer
      have after : Untraced st st₁ := (nodeSend_untraced fuel (.icmp rfl node _) start node none).value sending
      dsimp only at run
      split at run
      · cases run
        exact after
      · obtain ⟨st₂, ran, done⟩ := except_bind_eq_ok.mp run
        cases done
        exact (staticRun_untraced fuel _ after).value ran
    have reset : { st' with events := [], rcvd := none } = { st with events := [], rcvd := none } := by
      obtain ⟨traces, fifoTrace, load, entered, delivered, _⟩ := left
      cases st
      cases st'
      simp_all
    unfold icmpPingSendRecv
    rw [reset]
  zero st := rfl

/-- The trace-route of a node returns when the probes do and, for a bound of 255, one of them gets an answer that
is no time-exceeded error. -/
theorem icmpTraceRoute_terminates_iff (stack : Stack N I S) (fuel : ℕ) (node : N) (srcAddr dstAddr : NetAddr)
    (maxTtl : UInt8) (st : State N I S) :
    Terminates stack (icmpPingSendRecv stack fuel node srcAddr dstAddr) maxTtl node st ↔
      ProbesEnd (icmpPingSendRecv stack fuel node srcAddr dstAddr) maxTtl st :=
  terminates_iff (icmpPingSendRecv_steady fuel node srcAddr dstAddr)

/-! ## A forwarding loop -/

/-- Two routers that send everything to each other. -/
def mutualDefaults : Stack Bool (Bool × Port) Empty :=
  pairStack (fun _ => 0) (fun _ => netAddrAny) fun b => defaultRoute (linkAddr b)

/-- A probe of the first router on its way. -/
def loopingProbe (ttl : ℕ) : Msg Bool :=
  .icmp { srcAddr := 0x01000001, dstAddr := 0x0b000001, ttl := ttl, opts := none } false .echoRequest

/-- What has been sent by the first router. -/
def loopingState (b : Bool) (ttl : ℕ) : State Bool (Bool × Port) Empty :=
  { idleState Bool (Bool × Port) Empty with events := [((b, .link), loopingProbe ttl)] }

theorem nodeRecvMsg_bounces (b : Bool) (ttl : ℕ) (st : State Bool (Bool × Port) Empty) :
    nodeRecvMsg mutualDefaults (sender mutualDefaults 4) 4 (b, .link) (loopingProbe (ttl + 2)) st =
      .ok (.success, networkSend (loopingProbe (ttl + 1)) st (!b, .link)) := by
  cases b
  · rfl
  · rfl

theorem staticRun_bounces (steps ttl : ℕ) (b : Bool) :
    ∃ b', staticRun mutualDefaults 4 (steps + ttl) (loopingState b (ttl + 1)) =
      staticRun mutualDefaults 4 steps (loopingState b' 1) := by
  induction ttl generalizing b with
  | zero => exact ⟨b, rfl⟩
  | succ ttl inductionHypothesis =>
    obtain ⟨b', same⟩ := inductionHypothesis !b
    refine ⟨b', Eq.trans ?_ same⟩
    rw [← Nat.add_assoc, loopingState, staticRun]
    dsimp only
    rw [nodeRecvMsg_bounces]
    rfl

/-- The router that drops the probe lets the first one know. -/
theorem staticRun_expires (steps : ℕ) (b : Bool) :
    (staticRun mutualDefaults 4 (steps + 3) (loopingState b 1)).map (fun st => pingResult false st.rcvd) =
      .ok .icmpTimeExceeded := by
  cases b
  · rfl
  · rfl

theorem icmpPingSendRecv_expires (ttl : ℕ) (least : 1 ≤ ttl) (most : ttl ≤ 255) :
    Expires (icmpPingSendRecv mutualDefaults 4 false netAddrAny 0x0b000001)
      (idleState Bool (Bool × Port) Empty) ttl := by
  obtain ⟨hops, rfl⟩ : ∃ hops, ttl = hops + 1 := ⟨ttl - 1, by omega⟩
  have positive : UInt8.ofNat (hops + 1) ≠ 0 := by
    intro zero
    have value := congrArg UInt8.toNat zero
    rw [UInt8.toNat_ofNat', Nat.mod_eq_of_lt (by omega)] at value
    cases value
  have sent : icmpSend mutualDefaults 4 false netAddrAny 0x0b000001 (UInt8.ofNat (hops + 1)) .echoRequest
      (idleState Bool (Bool × Port) Empty) = .ok (.success, loopingState true (hops + 1)) := by
    unfold icmpSend
    rw [if_neg positive, UInt8.toNat_ofNat', Nat.mod_eq_of_lt (by omega)]
    rfl
  obtain ⟨b, bounced⟩ := staticRun_bounces (2 ^ 32 - 4 - hops + 3) hops true
  have ran := staticRun_expires (2 ^ 32 - 4 - hops) b
  rw [← bounced, show 2 ^ 32 - 4 - hops + 3 + hops = 2 ^ 32 - 1 by omega] at ran
  obtain ⟨st', done, result⟩ := except_map_eq_ok.mp ran
  refine ⟨st', ?_⟩
  unfold icmpPingSendRecv
  change (icmpSend mutualDefaults 4 false netAddrAny 0x0b000001 (UInt8.ofNat (hops + 1)) .echoRequest
    (idleState Bool (Bool × Port) Empty) >>= _) = _
  rw [sent]
  change (staticRun mutualDefaults 4 (2 ^ 32 - 1) (loopingState true (hops + 1)) >>= _) = _
  rw [done]
  exact congrArg (fun error => Except.ok (error, st')) result

/-- The trace-route to a destination on a forwarding loop goes on for ever. -/
theorem mutualDefaults_endless : ¬ ∃ turns result,
    icmpTraceRoute mutualDefaults (icmpPingSendRecv mutualDefaults 4 false netAddrAny 0x0b000001) turns false 255
      (idleState Bool (Bool × Port) Empty) = some result := by
  rintro ⟨turns, result, returned⟩
  have logged := looping_logged mutualDefaults (icmpPingSendRecv mutualDefaults 4 false netAddrAny 0x0b000001)
    255 turns [] (traceRouteStart false (idleState Bool (Bool × Port) Empty))
  rw [looping_expires (icmpPingSendRecv_steady 4 false netAddrAny 0x0b000001) icmpPingSendRecv_expires] at logged
  have endless : icmpTraceRoute mutualDefaults (icmpPingSendRecv mutualDefaults 4 false netAddrAny 0x0b000001) turns
      false 255 (idleState Bool (Bool × Port) Empty) = none := logged.symm
  rw [endless] at returned
  cases returned

end Cbgp.Verified.Ip
