import Cbgp.Lib.Descent
import Cbgp.Verified.HopLimit
import Cbgp.Verified.TunnelHooks
import Mathlib.Data.Finite.Prod
import Mathlib.Data.Set.Finite.Lattice

/-! # Sending through tunnels

`node_send` may call itself: a tunnel sends the message around the one that it takes, an echo request is
answered, and the source hears of a protocol that its node does not speak.  No TTL bounds this.  Where a
message goes depends on little of it, its `Leg`, and so does what its node sends next (`Leg.turn`): the
node comes to an end with a message exactly when the chain of legs that starts with it does (`Settles`).
What became of the message then shows in the returned code and the state (`Fate`), unless a tunnel drops it
without a trace (`Silent`).
-/

namespace Cbgp.Verified.Ip

open Cbgp.Lib Cbgp.Net.Ip Relation
open Cbgp.Net (EntryRef IcmpError IcmpType NetAddr NetError NetMsg NetRt Pfx Topology ipPrefixEq netAddrAny
  netRouteAny nodeIpOutput rtFindBest rtFindExact)

variable {N I S : Type}

/-! ## Legs -/

/-- What a message carries, without the message inside. -/
inductive Payload where
  | icmp (type : IcmpType)
  | upper (protocol : UpperProtocol)
  | ipip
  deriving DecidableEq

def payloadOf : Msg N → Payload
  | .icmp _ _ type => .icmp type
  | .upper _ protocol => .upper protocol
  | .ipip _ _ => .ipip

/-- What `node_send` reads of a message when it looks for its way. -/
structure Leg (N : Type) extends NetMsg where
  node : N
  payload : Payload
  altDest : Option Pfx
  traced : Option Bool -- it has options, perhaps with `IP_OPT_TUNNEL`
  rtentries : Option (List EntryRef)
  deriving DecidableEq

def legOf (node : N) (msg : Msg N) (rtentries : Option (List EntryRef)) : Leg N where
  toNetMsg := msg.header.toNetMsg
  node := node
  payload := payloadOf msg
  altDest := msg.header.opts.bind (·.altDest)
  traced := msg.header.opts.map (·.tunnel)
  rtentries := rtentries

/-- A message without options. -/
def plainLeg (node : N) (srcAddr dstAddr : NetAddr) (payload : Payload) : Leg N :=
  { srcAddr, dstAddr, node, payload, altDest := none, traced := none, rtentries := none }

/-- What becomes of a message. -/
inductive Outcome where
  | handed -- to an interface with a link
  | broken -- to an interface with a link that does not work, which the node cannot tell
  | delivered
  | undeliverable
  | dropped -- by a tunnel
  | wrapped -- a tunnel takes it
  deriving DecidableEq

/-- The message leaves by an interface, or is for the node. -/
inductive Plan (I : Type) where
  | unreachable
  | here (lif : I)
  | along (refs : List EntryRef)

section Turn

variable (stack : Stack N I S) (leg : Leg N)

/-- The start of `node_send`. -/
def Leg.plan : Plan I :=
  match leg.rtentries, leg.altDest with
  | some refs, _ => .along refs
  | none, some altDest =>
    match rtFindExact (stack.rt leg.node) altDest netRouteAny with
    | none => .unreachable
    | some rtinfo => .along rtinfo.refs
  | none, none =>
    match stack.net.nodeHasAddress leg.node leg.dstAddr with
    | some lif => .here lif
    | none =>
      match rtFindBest (stack.rt leg.node) leg.dstAddr netRouteAny with
      | none => .unreachable
      | some rtinfo => .along rtinfo.refs

/-- At its destination: an echo request is answered, and an error is sent for a protocol that is not
spoken. -/
def Leg.arrive (lif : I) : Outcome × Option (Leg N) :=
  let srcAddr := if leg.srcAddr = netAddrAny then (stack.net.iface lif).addr else leg.srcAddr
  let handle (spoken : Bool) : Outcome × Option (Leg N) :=
    if spoken then (.delivered, none)
    else (.undeliverable, some (plainLeg leg.node netAddrAny srcAddr (.icmp (.error .protoUnreach))))
  match leg.payload with
  | .icmp .echoRequest =>
    (.delivered, some (plainLeg leg.node leg.dstAddr srcAddr (.icmp .echoReply)))
  | .icmp _ => (.delivered, none)
  | .upper protocol => handle (stack.upper leg.node protocol)
  | .ipip => handle (stack.ipip leg.node)

/-- At its outgoing interface: a tunnel sends a message to its other end. -/
def Leg.leave (oif : I) (l2Addr : NetAddr) : Except Crash (Outcome × Option (Leg N)) :=
  let iface := stack.net.iface oif
  match stack.tunnel oif with
  | some tunnel =>
    if !iface.connected || !iface.enabled || tunnel.oif.isSome then .ok (.dropped, none)
    else
      let outer := plainLeg iface.owner tunnel.srcAddr (stack.endPoint oif) .ipip
      .ok (.wrapped, some { outer with traced := leg.traced.filter id })
  | none =>
    if iface.type = .loopback ∨ iface.type = .virtual then .error .noSend
    else if !iface.connected || !iface.enabled then .ok (.broken, none)
    else
      match iface.dest with
      | some (.iface _) => .ok (.handed, none)
      | some (.subnet subnet) =>
        if leg.altDest.any fun altDest => ipPrefixEq altDest (stack.net.subnetPrefix subnet) then
          .ok (.handed, none)
        else
          match stack.net.netSubnetFindLink subnet l2Addr with
          | none => .ok (.undeliverable, none)
          | some dst => .ok (if (stack.net.iface dst).enabled then .handed else .broken, none)
      | some (.endPoint _) | none => .error .noSend

/-- Along the first of the entries. -/
def Leg.follow : List EntryRef → Except Crash (Outcome × Option (Leg N))
  | [] => .error (.output .noEntry)
  | ref :: _ =>
    match nodeIpOutput stack.net leg.node (stack.rt leg.node) ref leg.toNetMsg with
    | .error fault => .error (.output fault)
    | .ok (.error _) => .ok (.undeliverable, none)
    | .ok (.send oif l2Addr _) => leg.leave stack oif l2Addr

/-- What becomes of the message, and the message that its node sends while it deals with it. -/
def Leg.turn : Except Crash (Outcome × Option (Leg N)) :=
  match leg.plan stack with
  | .unreachable => .ok (.undeliverable, none)
  | .here lif => .ok (leg.arrive stack lif)
  | .along refs => leg.follow stack refs

/-- The chain of messages that starts with the leg has an end, and none of them stops the program. -/
inductive Settles : Leg N → Prop
  | ends {leg : Leg N} {outcome : Outcome} (turn : leg.turn stack = .ok (outcome, none)) : Settles leg
  | sends {leg leg' : Leg N} {outcome : Outcome} (turn : leg.turn stack = .ok (outcome, some leg'))
    (on : Settles leg') : Settles leg

/-- The node sends the second message while it deals with the first one. -/
def Next (leg leg' : Leg N) : Prop :=
  ∃ outcome, leg.turn stack = .ok (outcome, some leg')

/-- The second message is the one around the first. -/
def Around (leg leg' : Leg N) : Prop :=
  leg.turn stack = .ok (.wrapped, some leg')

/-- A tunnel that is down, or has an outgoing interface, drops the message, which has no trace to show
it. -/
def Silent (leg : Leg N) : Prop :=
  leg.turn stack = .ok (.dropped, none) ∧ leg.traced = none

end Turn

/-! ## Chains that do not come back -/

section Chains

variable {stack : Stack N I S}

/-- The messages that a node sends in between have few kinds of payload, and no alternate
destination. -/
def SentOn (node : N) (leg : Leg N) : Prop :=
  ∃ srcAddr dstAddr payload traced,
    payload ∈ [Payload.ipip, .icmp (.error .protoUnreach), .icmp .echoReply] ∧
      leg = { plainLeg node srcAddr dstAddr payload with traced := traced }

theorem arrive_sentOn {leg leg' : Leg N} {lif : I} {outcome : Outcome}
    (arrives : leg.arrive stack lif = (outcome, some leg')) : SentOn leg.node leg' := by
  unfold Leg.arrive at arrives
  dsimp only at arrives
  split at arrives
  · cases arrives
    exact ⟨_, _, .icmp .echoReply, none, by simp, rfl⟩
  · cases arrives
  · split at arrives
    · cases arrives
    · cases arrives
      exact ⟨_, _, .icmp (.error .protoUnreach), none, by simp, rfl⟩
  · split at arrives
    · cases arrives
    · cases arrives
      exact ⟨_, _, .icmp (.error .protoUnreach), none, by simp, rfl⟩

theorem leave_sentOn {leg leg' : Leg N} {oif : I} {l2Addr : NetAddr} {outcome : Outcome}
    (leaves : leg.leave stack oif l2Addr = .ok (outcome, some leg')) : SentOn (stack.net.iface oif).owner leg' := by
  unfold Leg.leave at leaves
  dsimp only at leaves
  split at leaves
  · split at leaves
    · cases leaves
    · cases leaves
      exact ⟨_, _, .ipip, _, by simp, rfl⟩
  · grind

theorem Next.sentOn {leg leg' : Leg N} (next : Next stack leg leg') : SentOn leg.node leg' := by
  obtain ⟨outcome, turn⟩ := next
  unfold Leg.turn at turn
  split at turn
  · cases turn
  · exact arrive_sentOn (Except.ok.inj turn)
  · unfold Leg.follow at turn
    split at turn
    · cases turn
    · split at turn
      · cases turn
      · cases turn
      next output =>
        rw [← (nodeIpOutput_result output).1]
        exact leave_sentOn turn

/-- Only so many messages can follow. -/
theorem reached_finite (leg : Leg N) : {leg' | ReflTransGen (Next stack) leg leg'}.Finite := by
  have addrs : Finite NetAddr := Finite.of_injective UInt32.toFin fun _ _ => UInt32.toFin_inj.mp
  let payloads : Set Payload := {.ipip, .icmp (.error .protoUnreach), .icmp .echoReply}
  let legs := (fun key : NetAddr × NetAddr × Option Bool × Payload =>
    { plainLeg leg.node key.1 key.2.1 key.2.2.2 with traced := key.2.2.1 }) ''
      (Set.univ ×ˢ Set.univ ×ˢ Set.univ ×ˢ payloads)
  have finite : legs.Finite :=
    (Set.finite_univ.prod (Set.finite_univ.prod (Set.finite_univ.prod (Set.toFinite payloads)))).image _
  refine (finite.insert leg).subset fun leg' reached => ?_
  have here : leg'.node = leg.node ∧ (leg' = leg ∨ leg' ∈ legs) := by
    induction reached with
    | refl => exact ⟨rfl, .inl rfl⟩
    | tail _ next inductionHypothesis =>
      obtain ⟨srcAddr, dstAddr, payload, traced, member, rfl⟩ := next.sentOn
      refine ⟨inductionHypothesis.1,
        .inr ⟨(srcAddr, dstAddr, traced, payload), ⟨trivial, trivial, trivial, ?_⟩, ?_⟩⟩
      · simpa [payloads] using member
      · dsimp only
        rw [inductionHypothesis.1]
  exact here.2

theorem Settles.next {leg leg' : Leg N} (settles : Settles stack leg) (next : Next stack leg leg') :
    Settles stack leg' := by
  obtain ⟨outcome, turn⟩ := next
  cases settles with
  | ends turn' =>
    rw [turn] at turn'
    cases turn'
  | sends turn' on =>
    rw [turn] at turn'
    cases turn'
    exact on

theorem Settles.reached {leg leg' : Leg N} (settles : Settles stack leg)
    (reached : ReflTransGen (Next stack) leg leg') : Settles stack leg' := by
  induction reached with
  | refl => exact settles
  | tail _ next inductionHypothesis => exact inductionHypothesis.next next

theorem Settles.isOk {leg : Leg N} (settles : Settles stack leg) : (leg.turn stack).isOk := by
  cases settles with
  | ends turn | sends turn =>
    rw [turn]
    rfl

theorem Settles.acyclic {leg : Leg N} (settles : Settles stack leg) : ¬ TransGen (Next stack) leg leg := by
  induction settles with
  | ends turn =>
    intro cycle
    obtain ⟨leg', ⟨outcome, turn'⟩, -⟩ := TransGen.head'_iff.mp cycle
    rw [turn] at turn'
    cases turn'
  | @sends leg leg' outcome turn on inductionHypothesis =>
    intro cycle
    obtain ⟨leg'', ⟨outcome', turn'⟩, back⟩ := TransGen.head'_iff.mp cycle
    rw [turn] at turn'
    cases turn'
    exact inductionHypothesis (TransGen.tail' back ⟨outcome, turn⟩)

/-- No message of the chain stops the program, and none comes a second time. -/
theorem settles_iff {leg : Leg N} : Settles stack leg ↔
    ∀ leg', ReflTransGen (Next stack) leg leg' →
      (leg'.turn stack).isOk ∧ ¬ TransGen (Next stack) leg' leg' := by
  constructor
  · intro settles leg' reached
    exact ⟨(settles.reached reached).isOk, (settles.reached reached).acyclic⟩
  · intro once
    refine acyclic_induction (reached_finite leg) (fun leg' reached => (once leg' reached).2) fun leg' reached on => ?_
    obtain ⟨result, turn⟩ : ∃ result, leg'.turn stack = .ok result := by
      have ok := (once leg' reached).1
      cases turn : leg'.turn stack with
      | ok result => exact ⟨result, rfl⟩
      | error crash =>
        rw [turn] at ok
        cases ok
    obtain ⟨outcome, none | leg''⟩ := result
    · exact .ends turn
    · exact .sends turn (on leg'' ⟨outcome, turn⟩)

end Chains

/-! ## What node_send does with a leg -/

/-- The message is the one of the leg, but for its source. -/
structure Carries (leg : Leg N) (msg : Msg N) : Prop where
  payload : payloadOf msg = leg.payload
  dstAddr : msg.header.dstAddr = leg.dstAddr
  altDest : msg.header.opts.bind (·.altDest) = leg.altDest
  traced : msg.header.opts.map (·.tunnel) = leg.traced

/-- The last thing that happened: the message arrives somewhere, or is on the subnet that it is for. -/
def HandedOver (leg : Leg N) (st : State N I S) : Prop :=
  (∃ dst msg, st.events.getLast? = some (dst, msg) ∧ payloadOf msg = leg.payload ∧
    msg.header.dstAddr = leg.dstAddr) ∨
  (leg.altDest.isSome ∧ st.delivered ≠ [])

/-- The last thing that happened: the node has the message, as ICMP records. -/
def Received (leg : Leg N) (st : State N I S) : Prop :=
  ∀ type, leg.payload = .icmp type →
    ∃ ctx, st.rcvd = some ctx ∧ ctx.node = leg.node ∧ ctx.dstAddr = leg.dstAddr ∧ ctx.type = type

/-- The last thing that happened: the error is written to the trace of the message. -/
def Reported (leg : Leg N) (st : State N I S) : Prop :=
  ∃ st₀ msg error, Carries leg msg ∧ msg.header.opts.isSome ∧ error ≠ .success ∧
    ipOptHookMsgError st₀ msg error = .ok st

/-- What the outcome of a message says of the result, when nothing else is sent. -/
def Shows (leg : Leg N) (outcome : Outcome) (result : NetError × State N I S) : Prop :=
  match outcome with
  | .handed => result.1 = .success ∧ HandedOver leg result.2
  | .broken => result.1 = .success
  | .delivered => result.1 = .success ∧ Received leg result.2
  | .undeliverable => result.1 ≠ .success
  | .dropped => result.1 = .success ∧ (leg.traced.isSome → Reported leg result.2)
  | .wrapped => False

/-- And when another message is sent, with what this returns. -/
def ShowsAfter (outcome : Outcome) (sent result : NetError × State N I S) : Prop :=
  match outcome with
  | .delivered | .wrapped => result = (.success, sent.2)
  | .undeliverable => result.1 ≠ .success
  | .handed | .broken | .dropped => False

/-- The computation does what the turn says. -/
def Follows (send : Sender N I S) (leg : Leg N) (result : Except Crash (NetError × State N I S)) :
    Except Crash (Outcome × Option (Leg N)) → Prop
  | .error _ => ∀ after, result ≠ .ok after
  | .ok (outcome, none) => Returns (Shows leg outcome) result
  | .ok (outcome, some leg') =>
    ∃ node' msg' st' rest, Nested msg' ∧ Inside msg' st' ∧ legOf node' msg' none = leg' ∧
      (outcome = .delivered → Received leg st') ∧ result = (send node' msg' st' >>= rest) ∧
      ∀ sent, Returns (ShowsAfter outcome sent) (rest sent)

section Follows

variable {send : Sender N I S} {leg : Leg N} {turn : Except Crash (Outcome × Option (Leg N))}

/-- A step in front that returns. -/
theorem Follows.bind {α : Type} {P : α → Prop} {x : Except Crash α}
    {f : α → Except Crash (NetError × State N I S)} (returns : Returns P x)
    (follows : ∀ a, P a → Follows send leg (f a) turn) : Follows send leg (x >>= f) turn := by
  cases x with
  | error crash => exact returns.elim
  | ok a => exact follows a returns

theorem Follows.undeliverable {x : Except Crash (NetError × State N I S)}
    (returns : Returns (fun after => after.1 ≠ .success) x) : Follows send leg x (.ok (.undeliverable, none)) :=
  returns

end Follows

theorem nodeIpFwdError_silent (send : Sender N I S) {msg : Msg N} (nested : Nested msg) (node : N)
    {error : NetError} (failed : error ≠ .success) (st : State N I S) :
    Returns (fun after => after.1 ≠ .success)
      (nodeIpFwdError send node msg error none st >>= fun st => .ok (error, st)) := by
  unfold nodeIpFwdError
  rw [bind_assoc]
  refine (hookMsgError_returns nested st error).bind fun st₁ _ => ?_
  exact (hookMsgError_returns nested st₁ error).bind fun st₂ _ => failed

variable {stack : Stack N I S} (send : Sender N I S) {msg : Msg N}

/-- The options of the message around: a new trace, or none. -/
theorem hookMsgEncap_cases (st : State N I S) (inner : Header) :
    (ipOptHookMsgEncap st inner = (none, st) ∧ (inner.opts.map (·.tunnel)).filter id = none) ∨
    ∃ opts, inner.opts = some opts ∧ opts.tunnel = true ∧ ipOptHookMsgEncap st inner =
      (some { opts with altDest := none, trace := st.traces.length },
        st.newTrace.2.enter opts.trace st.traces.length) := by
  unfold ipOptHookMsgEncap
  split
  next none => exact .inl ⟨rfl, by rw [none]; rfl⟩
  next opts content =>
    split
    next tunnelled => exact .inr ⟨opts, content, tunnelled, rfl⟩
    next plain => exact .inl ⟨rfl, by simp [content, plain]⟩

/-- The header of the message around. -/
def outerHeader (tunnel : Tunnel I) (endPoint : NetAddr) (opts : Option Opts) : Header where
  srcAddr := tunnel.srcAddr
  dstAddr := endPoint
  ttl := 255
  opts := opts

/-- What the outcome of a message says of what its interface returns. -/
def ShowsLink (leg : Leg N) (outcome : Outcome) (result : NetError × State N I S) : Prop :=
  match outcome with
  | .handed => result.1 = .success ∧ HandedOver leg result.2
  | .broken => result.1 = .linkDown
  | .undeliverable => result.1 = .hostUnreach
  | .dropped => result.1 = .linkDown ∨ result.1 = .unsupported
  | .delivered | .wrapped => False

/-- The interface does what the turn says. -/
def Takes (send : Sender N I S) (leg : Leg N) (result : Except Crash (NetError × State N I S)) :
    Except Crash (Outcome × Option (Leg N)) → Prop
  | .error _ => ∀ after, result ≠ .ok after
  | .ok (outcome, none) => Returns (ShowsLink leg outcome) result
  | .ok (outcome, some leg') =>
    outcome = .wrapped ∧ ∃ node' msg' st', Nested msg' ∧ Inside msg' st' ∧ legOf node' msg' none = leg' ∧
      result = (send node' msg' st' >>= fun sent => .ok (.success, sent.2))

/-- The message around goes to the other end of the tunnel. -/
theorem ipipIfaceSend_takes (nested : Nested msg) {leg : Leg N} (carries : Carries leg msg) {tunnel : Tunnel I}
    (unbound : tunnel.oif = none) {self : I} (st : State N I S) :
    Takes send leg (ipipIfaceSend stack send tunnel self msg st)
      (.ok (.wrapped,
        some { plainLeg (stack.net.iface self).owner tunnel.srcAddr (stack.endPoint self) .ipip with
          traced := leg.traced.filter id })) := by
  have around : ∀ opts st', ipOptHookMsgEncap st msg.header = (opts, st') →
      ipipIfaceSend stack send tunnel self msg st =
        (send (stack.net.iface self).owner (.ipip (outerHeader tunnel (stack.endPoint self) opts) msg) st' >>=
          fun sent => .ok (.success, sent.2)) := by
    intro opts st' encap
    unfold ipipIfaceSend
    rw [unbound, encap]
    rfl
  rw [← carries.traced]
  obtain ⟨encap, plain⟩ | ⟨opts, content, tunnelled, encap⟩ := hookMsgEncap_cases st msg.header
  · have nested' : Nested (.ipip (outerHeader tunnel (stack.endPoint self) none) msg) := ⟨nofun, nested⟩
    refine ⟨rfl, _, _, st, nested', .of_none rfl st, ?_, around _ _ encap⟩
    rw [plain]
    rfl
  · let outerOpts := { opts with altDest := none, trace := st.traces.length }
    have nested' : Nested (.ipip (outerHeader tunnel (stack.endPoint self) (some outerOpts)) msg) :=
      ⟨fun _ => by simp [content], nested⟩
    refine ⟨rfl, _, _, _, nested', fun opts' content' => ?_, ?_, around _ _ encap⟩
    · cases content'
      simp [State.enter, State.newTrace, outerOpts]
    · have traced : (msg.header.opts.map (·.tunnel)).filter id = some true := by simp [content, tunnelled]
      rw [traced]
      simp [outerOpts, tunnelled, legOf, plainLeg, payloadOf, Msg.header, outerHeader]

/-- Whether the subnet is the destination. -/
theorem hookMsgSubnet_reached (st : State N I S) (net : Topology N I S) (msg : Msg N) (subnet : S) :
    (ipOptHookMsgSubnet st net msg subnet).1 =
      (msg.header.opts.bind (·.altDest)).any fun altDest => ipPrefixEq altDest (net.subnetPrefix subnet) := by
  unfold ipOptHookMsgSubnet
  cases msg.header.opts with
  | none => rfl
  | some opts =>
    dsimp only [Option.bind_some]
    split
    next reached => exact reached.symm
    next passed => exact (Bool.eq_false_iff.mpr passed).symm

theorem hookMsgSubnet_delivered {st : State N I S} {net : Topology N I S} {msg : Msg N} {subnet : S}
    (reached : (ipOptHookMsgSubnet st net msg subnet).1 = true) :
    (ipOptHookMsgSubnet st net msg subnet).2.delivered ≠ [] := by
  unfold ipOptHookMsgSubnet at reached ⊢
  split at reached
  · cases reached
  · dsimp only at reached ⊢
    split at reached
    next is => simp [is]
    · cases reached

theorem networkSend_handed {leg : Leg N} (carries : Carries leg msg) (st : State N I S) (dst : I) :
    HandedOver leg (networkSend msg st dst) :=
  .inl ⟨dst, msg, by simp [networkSend], carries.payload, carries.dstAddr⟩

/-- A link takes the message, or reports an error. -/
theorem netIfaceSend_link {leg : Leg N} (carries : Carries leg msg) (oif : I)
    (l2Addr : NetAddr) (st : State N I S) (noTunnel : stack.tunnel oif = none) :
    Takes send leg (netIfaceSend stack send oif l2Addr msg st) (leg.leave stack oif l2Addr) := by
  unfold netIfaceSend Leg.leave
  simp only [noTunnel]
  by_cases mute : (stack.net.iface oif).type = .loopback ∨ (stack.net.iface oif).type = .virtual
  · simp only [if_pos mute]
    exact fun _ same => by cases same
  simp only [if_neg mute]
  by_cases down : (!(stack.net.iface oif).connected || !(stack.net.iface oif).enabled) = true
  · simp only [if_pos down]
    rfl
  simp only [if_neg down]
  -- The message is handed to the other end of a link, or to whoever has the address on a subnet.
  cases (stack.net.iface oif).dest with
  | none => exact fun _ same => by cases same
  | some dest =>
    cases dest with
    | endPoint => exact fun _ same => by cases same
    | iface dst => exact ⟨rfl, networkSend_handed carries st dst⟩
    | subnet subnet =>
      dsimp only
      rw [← carries.altDest, ← hookMsgSubnet_reached st]
      by_cases reached : (ipOptHookMsgSubnet st stack.net msg subnet).1 = true
      · simp only [if_pos reached]
        refine ⟨rfl, .inr ⟨?_, hookMsgSubnet_delivered reached⟩⟩
        rw [hookMsgSubnet_reached, carries.altDest] at reached
        exact Option.isSome_of_any reached
      simp only [if_neg reached]
      cases stack.net.netSubnetFindLink subnet l2Addr with
      | none => rfl
      | some dst =>
        dsimp only
        by_cases enabled : (stack.net.iface dst).enabled = true
        · simp only [enabled, Bool.not_true, Bool.false_eq_true, if_false, if_true]
          exact ⟨rfl, networkSend_handed carries _ dst⟩
        · simp only [enabled, Bool.not_false, if_true, Bool.false_eq_true, if_false]
          rfl

/-- So does a tunnel. -/
theorem netIfaceSend_takes (nested : Nested msg) {leg : Leg N} (carries : Carries leg msg) (oif : I)
    (l2Addr : NetAddr) (st : State N I S) :
    Takes send leg (netIfaceSend stack send oif l2Addr msg st) (leg.leave stack oif l2Addr) := by
  cases isTunnel : stack.tunnel oif with
  | none => exact netIfaceSend_link send carries oif l2Addr st isTunnel
  | some tunnel =>
    unfold netIfaceSend Leg.leave
    simp only [isTunnel]
    by_cases down : (!(stack.net.iface oif).connected || !(stack.net.iface oif).enabled) = true
    · simp only [down, Bool.true_or, if_true]
      exact .inl rfl
    · simp only [down, Bool.false_or, Bool.false_eq_true, if_false]
      cases bound : tunnel.oif with
      | some oif' =>
        simp only [ipipIfaceSend, bound]
        exact .inr rfl
      | none => exact ipipIfaceSend_takes send nested carries bound st

/-! ## At the destination -/

/-- The source hears that the protocol is not spoken. -/
theorem nodeIpFwdError_follows (nested : Nested msg) (noError : msg.isIcmpError = false) {leg : Leg N}
    (st : State N I S) :
    Follows send leg
      (do let st ← nodeIpFwdError send leg.node msg .protoUnreach (some .protoUnreach) st
          .ok (.protoUnreach, st))
      (.ok (.undeliverable,
        some (plainLeg leg.node netAddrAny msg.header.srcAddr (.icmp (.error .protoUnreach))))) := by
  unfold nodeIpFwdError
  rw [bind_assoc]
  refine Follows.bind (hookMsgError_returns nested st .protoUnreach) fun st₁ _ => ?_
  refine ⟨leg.node, .icmp { srcAddr := netAddrAny, dstAddr := msg.header.srcAddr, ttl := 255, opts := none }
    leg.node (.error .protoUnreach), st₁, fun sent => ipOptHookMsgError sent.2 msg .protoUnreach >>= fun st =>
    .ok (.protoUnreach, st), trivial, .of_none rfl st₁, rfl, nofun, ?_, fun sent => ?_⟩
  · simp only [sendErrorFor, noError, icmpSendError, Bool.false_eq_true, if_false]
    cases send leg.node _ st₁ <;> rfl
  · exact (hookMsgError_returns nested sent.2 .protoUnreach).bind fun _ _ => nofun

theorem icmpProtoHandle_follows (leg : Leg N) (header : Header) {type : IcmpType} (sender : N)
    (payload : leg.payload = .icmp type) (dstAddr : header.dstAddr = leg.dstAddr) (st : State N I S) :
    Follows send leg (icmpProtoHandle send leg.node header sender type st) (.ok (
      match type with
      | .echoRequest => (.delivered, some (plainLeg leg.node leg.dstAddr header.srcAddr (.icmp .echoReply)))
      | _ => (.delivered, none))) := by
  have received {st' : State N I S}
      (same : st'.rcvd = some ⟨leg.node, header.srcAddr, header.dstAddr, sender, type⟩) : Received leg st' := by
    intro type' payload'
    rw [payload, Payload.icmp.injEq] at payload'
    exact ⟨_, same, rfl, dstAddr, payload'⟩
  unfold icmpProtoHandle
  dsimp only
  cases type with
  | echoRequest =>
    let reply : Msg N := .icmp { srcAddr := header.dstAddr, dstAddr := header.srcAddr, ttl := 255, opts := none }
      leg.node .echoReply
    have isLeg : legOf leg.node reply none = plainLeg leg.node leg.dstAddr header.srcAddr (.icmp .echoReply) := by
      simp [reply, legOf, plainLeg, payloadOf, Msg.header, dstAddr]
    exact ⟨leg.node, reply, _, fun sent => .ok (.success, sent.2), trivial, .of_none rfl _, isLeg,
      fun _ => received rfl, rfl, fun _ => rfl⟩
  | trace =>
    cases header.opts with
    | none => exact ⟨rfl, received rfl⟩
    | some opts => exact ⟨rfl, received rfl⟩
  | echoReply => exact ⟨rfl, received rfl⟩
  | error => exact ⟨rfl, received rfl⟩

theorem nodeIpProcessMsg_follows (nested : Nested msg) {leg : Leg N} {lif : I} (payload : payloadOf msg = leg.payload)
    (dstAddr : msg.header.dstAddr = leg.dstAddr)
    (srcAddr : msg.header.srcAddr = if leg.srcAddr = netAddrAny then (stack.net.iface lif).addr else leg.srcAddr)
    (st : State N I S) :
    Follows send leg (nodeIpProcessMsg stack send leg.node msg st) (.ok (leg.arrive stack lif)) := by
  unfold nodeIpProcessMsg Leg.arrive
  rw [← srcAddr]
  dsimp only
  cases msg with
  | icmp header sender type =>
    have handled := icmpProtoHandle_follows send leg header sender payload.symm dstAddr st
    rw [← payload]
    cases type <;> exact handled
  | upper header protocol =>
    have silent (st : State N I S) : Received leg st := by
      rw [Received, ← payload]
      exact nofun
    rw [← payload]
    dsimp only [payloadOf]
    cases stack.upper leg.node protocol with
    | true => exact ⟨rfl, silent st⟩
    | false => exact nodeIpFwdError_follows send nested rfl st
  | ipip header inner =>
    have silent (st : State N I S) : Received leg st := by
      rw [Received, ← payload]
      exact nofun
    rw [← payload]
    dsimp only [payloadOf]
    cases stack.ipip leg.node with
    | true => exact ⟨rfl, silent st⟩
    | false => exact nodeIpFwdError_follows send nested rfl st

/-! ## node_send -/

theorem payloadOf_setHeader (msg : Msg N) (header : Header) : payloadOf (msg.setHeader header) = payloadOf msg := by
  cases msg <;> rfl

theorem AtNode.setHeader [DecidableEq N] {node : N} {msg : Msg N} {st : State N I S} (at' : AtNode node msg st)
    {header : Header} (opts : header.opts = msg.header.opts) : AtNode node (msg.setHeader header) st := by
  intro opts' content
  rw [setHeader_header, opts] at content
  exact at' opts' content

variable [DecidableEq N] [DecidableEq I]

omit [DecidableEq N] [DecidableEq I] in
theorem hookMsgError_self (nested : Nested msg) (st : State N I S) (error : NetError) :
    Returns (fun st' => ipOptHookMsgError st msg error = .ok st') (ipOptHookMsgError st msg error) := by
  have returns := hookMsgError_returns nested st error
  cases hooked : ipOptHookMsgError st msg error with
  | error crash =>
    rw [hooked] at returns
    exact returns.elim
  | ok st' => rfl

omit [DecidableEq N] [DecidableEq I] in
/-- The node tells of no error of the interface but an unknown host. -/
theorem ShowsLink.shows (nested : Nested msg) {leg : Leg N} (carries : Carries leg msg) {outcome : Outcome}
    {error : NetError} {st : State N I S} (link : ShowsLink leg outcome (error, st)) :
    Returns (Shows leg outcome)
      (if error = .success then .ok (.success, st)
      else ipOptHookMsgError st msg error >>= fun st =>
        .ok (if error = .hostUnreach then error else .success, st)) := by
  cases outcome with
  | handed =>
    obtain ⟨rfl, posted⟩ := link
    exact ⟨rfl, posted⟩
  | broken =>
    have code : error = .linkDown := link
    subst code
    exact (hookMsgError_self nested st .linkDown).bind fun st' _ => rfl
  | undeliverable =>
    have code : error = .hostUnreach := link
    subst code
    exact (hookMsgError_self nested st .hostUnreach).bind fun st' _ => nofun
  | dropped =>
    have traced (some : leg.traced.isSome) : msg.header.opts.isSome := by
      rw [← carries.traced, Option.isSome_map] at some
      exact some
    have code : error = .linkDown ∨ error = .unsupported := link
    obtain rfl | rfl := code
    · exact (hookMsgError_self nested st .linkDown).bind fun st' hooked =>
        ⟨rfl, fun some => ⟨st, msg, .linkDown, carries, traced some, nofun, hooked⟩⟩
    · exact (hookMsgError_self nested st .unsupported).bind fun st' hooked =>
        ⟨rfl, fun some => ⟨st, msg, .unsupported, carries, traced some, nofun, hooked⟩⟩
  | delivered => exact link.elim
  | wrapped => exact link.elim

theorem nodeIpTransmit_follows (nested : Nested msg) {leg : Leg N} (carries : Carries leg msg) {node : N}
    {st : State N I S} (at' : AtNode node msg st) (oif : I) (l2Addr : NetAddr) :
    Follows send leg (nodeIpTransmit stack send node oif l2Addr msg st) (leg.leave stack oif l2Addr) := by
  refine Follows.bind (hookMsgOut_returns at' oif) fun st₁ _ => ?_
  have takes : Takes send leg (netIfaceSend stack send oif l2Addr msg st₁) (leg.leave stack oif l2Addr) :=
    netIfaceSend_takes send nested carries oif l2Addr st₁
  cases turn : leg.leave stack oif l2Addr with
  | error crash =>
    rw [turn] at takes
    intro after done
    obtain ⟨sent, isOk, -⟩ := except_bind_eq_ok.mp done
    exact takes sent isOk
  | ok result =>
    obtain ⟨outcome, none | leg'⟩ := result
    · rw [turn] at takes
      exact Ends.bind takes fun after link => link.shows nested carries
    · rw [turn] at takes
      obtain ⟨rfl, node', msg', st', nested', inside', isLeg, same⟩ := takes
      refine ⟨node', msg', st', fun sent => .ok (.success, sent.2), nested', inside', isLeg, nofun, ?_,
        fun _ => rfl⟩
      rw [same]
      cases send node' msg' st' <;> rfl

theorem nodeIpOutputSend_follows (nested : Nested msg) {leg : Leg N} (carries : Carries leg msg)
    (same : msg.header.toNetMsg = leg.toNetMsg) {st : State N I S} (at' : AtNode leg.node msg st)
    (refs : List EntryRef) :
    Follows send leg (nodeIpOutputSend stack send leg.node refs msg st) (leg.follow stack refs) := by
  unfold nodeIpOutputSend Leg.follow
  cases refs with
  | nil => exact fun _ => nofun
  | cons ref refs =>
    dsimp only
    refine Follows.bind (hookMsgEcmp_returns nested at' (ref :: refs)) fun after ecmped => ?_
    rw [ecmped.net, same]
    cases output : nodeIpOutput stack.net leg.node (stack.rt leg.node) ref leg.toNetMsg with
    | error fault => exact fun _ => nofun
    | ok left =>
      cases left with
      | error error =>
        have failed : error ≠ .success := by
          have code : error = .hostUnreach := nodeIpOutput_result output
          rw [code]
          nofun
        exact .undeliverable (nodeIpFwdError_silent send ecmped.nested leg.node failed after.2)
      | send oif l2Addr sent =>
        dsimp only
        have nested' : Nested (after.1.setHeader { after.1.header with toNetMsg := sent }) :=
          ecmped.nested.setHeader id
        -- The fork copies the message for the other entries; the one sent is still the leg's own.
        have carries' : Carries leg (after.1.setHeader { after.1.header with toNetMsg := sent }) := by
          refine ⟨?_, ?_, ?_, ?_⟩
          · rw [payloadOf_setHeader, ecmped.payload, payloadOf_setHeader, carries.payload]
          · rw [setHeader_header]
            exact (nodeIpOutput_result output).2
          · rw [setHeader_header, ← carries.altDest]
            exact ecmped.altDest
          · rw [setHeader_header, ← carries.traced]
            exact ecmped.traced
        exact nodeIpTransmit_follows send nested' carries' (ecmped.atNode.setHeader rfl) oif l2Addr

omit [DecidableEq I] in
/-- What the hook decides is the plan, unless it leaves the choice to `node_send`. -/
theorem hookMsgSent_plan (stack : Stack N I S) (st : State N I S) (msg : Msg N) (node : N)
    (rtentries : Option (List EntryRef)) :
    ((ipOptHookMsgSent stack.rt st msg node rtentries).1 = .success ∧
      ∃ refs, (ipOptHookMsgSent stack.rt st msg node rtentries).2.2 = some refs ∧
        (legOf node msg rtentries).plan stack = .along refs) ∨
    ((ipOptHookMsgSent stack.rt st msg node rtentries).1 = .success ∧
      (ipOptHookMsgSent stack.rt st msg node rtentries).2.2 = none ∧
        rtentries = none ∧ (legOf node msg rtentries).altDest = none) ∨
    ((ipOptHookMsgSent stack.rt st msg node rtentries).1 ≠ .success ∧
      (legOf node msg rtentries).plan stack = .unreachable) := by
  unfold ipOptHookMsgSent Leg.plan legOf
  dsimp only
  cases msg.header.opts with
  | none =>
    cases rtentries with
    | none => exact .inr (.inl ⟨rfl, rfl, rfl, rfl⟩)
    | some refs => exact .inl ⟨rfl, refs, rfl, rfl⟩
  | some opts =>
    dsimp only [Option.bind_some]
    generalize (if (st.trace opts.trace).lastIs node then st
      else st.setTrace opts.trace (·.add (.node node none none))) = st₁
    unfold processMsgAltFwd
    cases rtentries with
    | some refs => exact .inl ⟨rfl, refs, rfl, rfl⟩
    | none =>
      cases opts.altDest with
      | none => exact .inr (.inl ⟨rfl, rfl, rfl, rfl⟩)
      | some altDest =>
        dsimp only
        cases rtFindExact (stack.rt node) altDest netRouteAny with
        | none => exact .inr (.inr ⟨nofun, rfl⟩)
        | some rtinfo => exact .inl ⟨rfl, rtinfo.refs, rfl, rfl⟩

theorem nodeSendWith_follows (stack : Stack N I S) (nested : Nested msg) (node : N)
    (rtentries : Option (List EntryRef)) {st : State N I S} (inside : Inside msg st) :
    Follows send (legOf node msg rtentries) (nodeSendWith stack send node msg rtentries st)
      ((legOf node msg rtentries).turn stack) := by
  have at' := hookMsgSent_atNode stack.rt node inside rtentries
  have planned := hookMsgSent_plan stack st msg node rtentries
  have carries : Carries (legOf node msg rtentries) msg := ⟨rfl, rfl, rfl, rfl⟩
  unfold nodeSendWith Leg.turn
  generalize ipOptHookMsgSent stack.rt st msg node rtentries = hook at at' planned ⊢
  obtain ⟨error, st₁, entries⟩ := hook
  dsimp only at at' planned
  -- The hook names the entries to use, leaves the choice to a lookup, or fails.
  obtain ⟨rfl, refs, rfl, plan⟩ | ⟨rfl, rfl, rfl, noAlt⟩ | ⟨failed, plan⟩ := planned
  · rw [plan]
    exact nodeIpOutputSend_follows send nested carries rfl (at' rfl) refs
  · have plan : (legOf node msg none).plan stack =
        match stack.net.nodeHasAddress node msg.header.dstAddr with
        | some lif => .here lif
        | none =>
          match rtFindBest (stack.rt node) msg.header.dstAddr netRouteAny with
          | none => .unreachable
          | some rtinfo => .along rtinfo.refs := by
      rw [Leg.plan, noAlt]
      rfl
    rw [plan]
    dsimp only
    cases stack.net.nodeHasAddress node msg.header.dstAddr with
    | some lif =>
      dsimp only
      let srcAddr :=
        if msg.header.srcAddr = netAddrAny then (stack.net.iface lif).addr else msg.header.srcAddr
      have nested' : Nested (msg.setHeader { msg.header with srcAddr := srcAddr }) := nested.setHeader id
      have last : AtNode node (msg.setHeader { msg.header with srcAddr := srcAddr }) st₁ := (at' rfl).setHeader rfl
      refine Follows.bind (hookMsgRcvd_returns last lif) fun st₂ _ => ?_
      exact nodeIpProcessMsg_follows send nested' (payloadOf_setHeader msg _) (by rw [setHeader_header]; rfl)
        (by rw [setHeader_header]; rfl) st₂
    | none =>
      dsimp only
      cases rtFindBest (stack.rt node) msg.header.dstAddr netRouteAny with
      | none =>
        have failed : NetError.hostUnreach ≠ .success := nofun
        exact .undeliverable (nodeIpFwdError_silent send nested node failed st₁)
      | some rtinfo => exact nodeIpOutputSend_follows send nested carries rfl (at' rfl) rtinfo.refs
  · rw [plan]
    split
    next same => exact absurd (congrArg (·.1) same) failed
    next same => exact absurd (congrArg (·.1) same) failed
    next error' st' _ _ _ same =>
      cases same
      exact .undeliverable ((hookMsgError_returns nested st₁ error).bind fun _ _ => failed)

/-! ## Chains that end -/

/-- The message, or the one around it that was sent last, has met its fate in the result. -/
inductive Fate (stack : Stack N I S) : NetError × State N I S → Leg N → Prop
  | handed {leg : Leg N} {st : State N I S} (turn : leg.turn stack = .ok (.handed, none))
    (posted : HandedOver leg st) : Fate stack (.success, st) leg
  | broken {leg : Leg N} {st : State N I S} (turn : leg.turn stack = .ok (.broken, none)) :
    Fate stack (.success, st) leg
  | delivered {leg : Leg N} {st : State N I S} (turn : leg.turn stack = .ok (.delivered, none))
    (received : Received leg st) : Fate stack (.success, st) leg
  | answered {leg : Leg N} {fuel : ℕ} {node : N} {reply : Msg N} {error : NetError} {st st' : State N I S}
    (turn : leg.turn stack = .ok (.delivered, some (legOf node reply none))) (received : Received leg st)
    (sent : nodeSend stack fuel node reply none st = .ok (error, st')) : Fate stack (.success, st') leg
  | undeliverable {leg : Leg N} {sent : Option (Leg N)} {error : NetError} {st : State N I S}
    (turn : leg.turn stack = .ok (.undeliverable, sent)) (failed : error ≠ .success) : Fate stack (error, st) leg
  | dropped {leg : Leg N} {st : State N I S} (turn : leg.turn stack = .ok (.dropped, none))
    (reported : Reported leg st) : Fate stack (.success, st) leg
  | wrapped {leg outer : Leg N} {error : NetError} {st : State N I S}
    (turn : leg.turn stack = .ok (.wrapped, some outer)) (fate : Fate stack (error, st) outer) :
      Fate stack (.success, st) leg

/-- No tunnel drops the message, or one around it, without a trace. -/
def Loud (stack : Stack N I S) (leg : Leg N) : Prop :=
  ∀ leg', ReflTransGen (Around stack) leg leg' → ¬ Silent stack leg'

omit [DecidableEq N] [DecidableEq I] in
theorem Loud.of_last {leg : Leg N} (last : ∀ outer, ¬ Around stack leg outer) (loud : ¬ Silent stack leg) :
    Loud stack leg := by
  intro leg' reached
  obtain rfl | ⟨outer, around, -⟩ := ReflTransGen.cases_head reached
  · exact loud
  · exact absurd around (last outer)

/-- A message that is dropped without a trace has met no fate. -/
theorem Fate.loud {result : NetError × State N I S} {leg : Leg N} (fate : Fate stack result leg) :
    Loud stack leg := by
  induction fate with
  | handed turn | broken turn | delivered turn | answered turn | undeliverable turn =>
    refine .of_last (fun outer around => ?_) fun silent => ?_
    · rw [Around, turn] at around
      cases around
    · rw [Silent, turn] at silent
      cases silent.1
  | dropped turn reported =>
    refine .of_last (fun outer around => ?_) fun silent => ?_
    · rw [Around, turn] at around
      cases around
    · obtain ⟨_, msg, _, carries, traced, -, -⟩ := reported
      have none := carries.traced.trans silent.2
      rw [Option.map_eq_none_iff] at none
      rw [none] at traced
      cases traced
  | wrapped turn _ inductionHypothesis =>
    intro leg' reached
    obtain rfl | ⟨outer', around, reached⟩ := ReflTransGen.cases_head reached
    · intro silent
      rw [Silent, turn] at silent
      cases silent.1
    · rw [Around, turn] at around
      cases around
      exact inductionHypothesis leg' reached

variable {st : State N I S} {rtentries : Option (List EntryRef)}

/-- `node_send` returns only at the end of the chain. -/
theorem settles_of_returns (fuel : ℕ) {node : N} (nested : Nested msg) (inside : Inside msg st)
    {after : NetError × State N I S} (returned : nodeSend stack fuel node msg rtentries st = .ok after) :
    Settles stack (legOf node msg rtentries) := by
  induction fuel generalizing node msg rtentries st after with
  | zero => cases returned
  | succ fuel inductionHypothesis =>
    have follows := nodeSendWith_follows (fun node msg st => nodeSend stack fuel node msg none st)
      stack nested node rtentries inside
    rw [nodeSend] at returned
    cases turn : (legOf node msg rtentries).turn stack with
    | error crash =>
      rw [turn] at follows
      exact absurd returned (follows after)
    | ok result =>
      obtain ⟨outcome, none | leg'⟩ := result
      · exact .ends turn
      · rw [turn] at follows
        obtain ⟨node', msg', st', rest, nested', inside', isLeg, -, same, -⟩ := follows
        rw [same] at returned
        obtain ⟨sent, sentOk, -⟩ := except_bind_eq_ok.mp returned
        exact .sends turn (isLeg ▸ inductionHypothesis nested' inside' sentOk)

/-- The end of a chain is a fate, unless the message is dropped without a trace. -/
theorem Shows.fate {leg : Leg N} {outcome : Outcome} {after : NetError × State N I S}
    (turn : leg.turn stack = .ok (outcome, none)) (shows : Shows leg outcome after) (loud : Loud stack leg) :
    Fate stack after leg := by
  obtain ⟨error, st⟩ := after
  cases outcome with
  | handed =>
    obtain ⟨rfl, posted⟩ := shows
    exact .handed turn posted
  | broken =>
    have code : error = .success := shows
    rw [code]
    exact .broken turn
  | delivered =>
    obtain ⟨rfl, received⟩ := shows
    exact .delivered turn received
  | undeliverable => exact .undeliverable turn shows
  | dropped =>
    obtain ⟨rfl, reported⟩ := shows
    refine .dropped turn (reported ?_)
    rw [Option.isSome_iff_ne_none]
    exact fun untraced => loud leg .refl ⟨turn, untraced⟩
  | wrapped => exact shows.elim

/-- At the end of the chain, `node_send` returns, and the message has met its fate. -/
theorem Settles.returns {leg : Leg N} (settles : Settles stack leg) :
    ∃ fuel, ∀ node msg rtentries st, legOf node msg rtentries = leg → Nested msg → Inside msg st →
      ∃ error st', nodeSend stack fuel node msg rtentries st = .ok (error, st') ∧
        (Loud stack leg → Fate stack (error, st') leg) := by
  -- The induction is on the chain of sendings; each one costs a unit of fuel.
  induction settles with
  | @ends leg outcome turn =>
    refine ⟨1, fun node msg rtentries st isLeg nested inside => ?_⟩
    have follows := nodeSendWith_follows (fun node msg st => nodeSend stack 0 node msg none st)
      stack nested node rtentries inside
    rw [isLeg, turn] at follows
    have shows : Returns (Shows leg outcome) (nodeSend stack 1 node msg rtentries st) := follows
    cases sent : nodeSend stack 1 node msg rtentries st with
    | error crash =>
      rw [sent] at shows
      exact shows.elim
    | ok after =>
      rw [sent] at shows
      exact ⟨after.1, after.2, rfl, shows.fate turn⟩
  | @sends leg leg' outcome turn on inductionHypothesis =>
    obtain ⟨fuel, sends⟩ := inductionHypothesis
    refine ⟨fuel + 1, fun node msg rtentries st isLeg nested inside => ?_⟩
    have follows := nodeSendWith_follows (fun node msg st => nodeSend stack fuel node msg none st)
      stack nested node rtentries inside
    rw [isLeg, turn] at follows
    -- The inner sending runs with the fuel left, and rest is what this one does with its result.
    obtain ⟨node', msg', st', rest, nested', inside', isLeg', received, same, goes⟩ := follows
    obtain ⟨error', st'', sent, fate⟩ := sends node' msg' none st' isLeg' nested' inside'
    have after := goes (error', st'')
    rw [nodeSend, same]
    dsimp only
    rw [sent]
    change ∃ error st', rest (error', st'') = .ok (error, st') ∧ (Loud stack leg → Fate stack (error, st') leg)
    cases result : rest (error', st'') with
    | error crash =>
      rw [result] at after
      exact after.elim
    | ok after' =>
      rw [result] at after
      refine ⟨after'.1, after'.2, rfl, fun loud => ?_⟩
      cases outcome with
      | handed | broken | dropped => exact after.elim
      | delivered =>
        have same : after' = (.success, st'') := after
        rw [same]
        rw [← isLeg'] at turn
        exact .answered turn (received rfl) sent
      | undeliverable => exact .undeliverable turn after
      | wrapped =>
        have same : after' = (.success, st'') := after
        rw [same]
        exact .wrapped turn (fate fun leg'' reached => loud leg'' (.head turn reached))

/-- A message without options. -/
def plainMsg (dstAddr : NetAddr) : Msg Bool :=
  .icmp { srcAddr := netAddrAny, dstAddr := dstAddr, ttl := 255, opts := none } false .echoReply

/-- Each router sends everything by its link. -/
def linkStack : Stack Bool (Bool × Port) Empty :=
  pairStack (fun _ => 0) (fun _ => netAddrAny) fun b => defaultRoute (linkAddr b)

/-- The tunnels of the routers, by their addresses. -/
def tunnelAddr (b : Bool) : NetAddr :=
  if b then 0x0a000002 else 0x0a000001

/-- Each router sends everything into its tunnel, also what is for the other end of it. -/
def tunnelStack : Stack Bool (Bool × Port) Empty :=
  pairStack (fun b => tunnelAddr (!b)) (fun _ => netAddrAny) fun b => defaultRoute (tunnelAddr b)

end Cbgp.Verified.Ip
