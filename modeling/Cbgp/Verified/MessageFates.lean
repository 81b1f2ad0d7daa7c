import Cbgp.Net.Messages
import Cbgp.Verified.Forwarding

/-! # The way of a message

What becomes of a message that is forwarded along the first entries of the longest-match routes: it is
delivered, or discarded by an intermediate node with an error, or lost on a link (`Fate`, `Departs`).
It comes to one end, and the ends are those that a walk over the intermediate nodes shows
(`Departs.delivers_iff`, `Departs.of_discards`).
-/

namespace Cbgp.Verified

open Cbgp.Lib Cbgp.Net

variable {N I S : Type} (net : Topology N I S) (rt : N → NetRt)

/-! ## Forwarding -/

/-- Every entry of every route has an outgoing interface, and none is a loopback interface. -/
def EntriesLeave : Prop :=
  ∀ node key rtinfo, InTable (rt node) key rtinfo → rtinfo.entries ≠ [] ∧
    ∀ entry ∈ rtinfo.entries, ∃ addr oif, entry.oif = some addr ∧
      net.nodeFindIface node addr = some oif ∧ (net.iface oif).type ≠ .loopback

/-- What is sent through an interface for a layer-2 address arrives at another interface. -/
def Crosses (oif : I) (l2Addr : NetAddr) (arrived : I) : Prop :=
  (net.iface oif).connected = true ∧ (net.iface oif).enabled = true ∧
    ((net.iface oif).dest = some (.iface arrived) ∨
      ∃ subnet, (net.iface oif).dest = some (.subnet subnet) ∧
        net.netSubnetFindLink subnet l2Addr = some arrived ∧ (net.iface arrived).enabled = true)

/-- A node forwards along the first entry of the longest-match route; the source address is set when
it was not. -/
def HopsTo (node : N) (msg : NetMsg) (arrived : I) (msg' : NetMsg) : Prop :=
  ∃ rtinfo entry addr oif, rtFindBest (rt node) msg.dstAddr netRouteAny = some rtinfo ∧
    rtinfo.entries.head? = some entry ∧ entry.oif = some addr ∧
    net.nodeFindIface node addr = some oif ∧
    Crosses net oif (if entry.gateway = netAddrAny then msg.dstAddr else entry.gateway) arrived ∧
    msg' = { msg with
      srcAddr := if msg.srcAddr = netAddrAny then net.netIfaceSrcAddress oif else msg.srcAddr }

/-- The route for an address leaves through a virtual interface, which has no function to send. -/
def Blocks (node : N) (dstAddr : NetAddr) : Prop :=
  ∃ rtinfo entry addr oif, rtFindBest (rt node) dstAddr netRouteAny = some rtinfo ∧
    rtinfo.entries.head? = some entry ∧ entry.oif = some addr ∧
    net.nodeFindIface node addr = some oif ∧ (net.iface oif).type = .virtual

/-- The node has the address. -/
def Owns (node : N) (addr : NetAddr) : Prop :=
  ∃ lif, net.nodeHasAddress node addr = some lif

/-- A message forwarded by a node reaches the owner of its destination after a number of intermediate
nodes. -/
inductive Reaches : N → NetMsg → ℕ → N → NetMsg → Prop where
  | arrives {node : N} {msg msg' : NetMsg} {i : I} :
      HopsTo net rt node msg i msg' → Owns net (net.iface i).owner msg'.dstAddr →
      Reaches node msg 0 (net.iface i).owner msg'
  | passes {node owner : N} {msg msg' msg'' : NetMsg} {i : I} {between : ℕ} :
      HopsTo net rt node msg i msg' → ¬Owns net (net.iface i).owner msg'.dstAddr →
      Reaches (net.iface i).owner msg' between owner msg'' →
      Reaches node msg (between + 1) owner msg''

/-- A message forwarded by a node comes to an intermediate node, after a number of others. -/
inductive Visits : N → NetMsg → ℕ → N → NetMsg → Prop where
  | first {node : N} {msg msg' : NetMsg} {i : I} :
      HopsTo net rt node msg i msg' → ¬Owns net (net.iface i).owner msg'.dstAddr →
      Visits node msg 0 (net.iface i).owner msg'
  | later {node other : N} {msg msg' msg'' : NetMsg} {i : I} {between : ℕ} :
      HopsTo net rt node msg i msg' → ¬Owns net (net.iface i).owner msg'.dstAddr →
      Visits (net.iface i).owner msg' between other msg'' →
      Visits node msg (between + 1) other msg''

/-- A message that a node sends is delivered to the owner of its destination. -/
inductive Delivers (ttl : ℕ) (node : N) (msg : NetMsg) : N → NetMsg → Prop where
  | own {lif : I} : net.nodeHasAddress node msg.dstAddr = some lif →
      Delivers ttl node msg node { msg with
        srcAddr := if msg.srcAddr = netAddrAny then (net.iface lif).addr else msg.srcAddr }
  | reached {owner : N} {msg' : NetMsg} {between : ℕ} : ¬Owns net node msg.dstAddr →
      between + 1 ≤ ttl → Reaches net rt node msg between owner msg' →
      Delivers ttl node msg owner msg'

/-- An intermediate node discards the message, with an error. -/
inductive Discards (ttl : ℕ) (node : N) (msg : NetMsg) : N → NetMsg → IcmpError → Prop where
  | expired {other : N} {msg' : NetMsg} : ¬Owns net node msg.dstAddr →
      Visits net rt node msg (ttl - 1) other msg' →
      Discards ttl node msg other msg' .timeExceeded
  | noRoute {other : N} {msg' : NetMsg} {between : ℕ} : ¬Owns net node msg.dstAddr →
      between + 1 < ttl → Visits net rt node msg between other msg' →
      rtFindBest (rt other) msg'.dstAddr netRouteAny = none →
      Discards ttl node msg other msg' .hostUnreach

/-! ## Fates -/

/-- What becomes of a message. -/
inductive Ending (N : Type) where
  | delivered (node : N) (msg : NetMsg)
  | discarded (node : N) (msg : NetMsg) (error : IcmpError)
  | lost

/-- What becomes of a message that arrives at an interface. -/
inductive Fate : ℕ → I → NetMsg → Ending N → Prop where
  | delivered {ttl : ℕ} {i : I} {msg : NetMsg} : Owns net (net.iface i).owner msg.dstAddr →
      Fate (ttl + 1) i msg (.delivered (net.iface i).owner msg)
  | expired {i : I} {msg : NetMsg} : ¬Owns net (net.iface i).owner msg.dstAddr →
      Fate 1 i msg (.discarded (net.iface i).owner msg .timeExceeded)
  | noRoute {ttl : ℕ} {i : I} {msg : NetMsg} : ¬Owns net (net.iface i).owner msg.dstAddr →
      rtFindBest (rt (net.iface i).owner) msg.dstAddr netRouteAny = none →
      Fate (ttl + 2) i msg (.discarded (net.iface i).owner msg .hostUnreach)
  | lost {ttl : ℕ} {i : I} {msg : NetMsg} {rtinfo : RtInfo} :
      ¬Owns net (net.iface i).owner msg.dstAddr →
      rtFindBest (rt (net.iface i).owner) msg.dstAddr netRouteAny = some rtinfo →
      (∀ j msg', ¬HopsTo net rt (net.iface i).owner msg j msg') → Fate (ttl + 2) i msg .lost
  | onward {ttl : ℕ} {i j : I} {msg msg' : NetMsg} {ending : Ending N} :
      ¬Owns net (net.iface i).owner msg.dstAddr → HopsTo net rt (net.iface i).owner msg j msg' →
      Fate (ttl + 1) j msg' ending → Fate (ttl + 2) i msg ending

section Fates

variable {net rt}

/-- Every message comes to an end. -/
theorem fate_exists (ttl : ℕ) (i : I) (msg : NetMsg) : ∃ ending, Fate net rt (ttl + 1) i msg ending := by
  induction ttl generalizing i msg with
  | zero =>
    by_cases owns : Owns net (net.iface i).owner msg.dstAddr
    · exact ⟨_, .delivered owns⟩
    · exact ⟨_, .expired owns⟩
  | succ ttl inductionHypothesis =>
    by_cases owns : Owns net (net.iface i).owner msg.dstAddr
    · exact ⟨_, .delivered owns⟩
    · cases found : rtFindBest (rt (net.iface i).owner) msg.dstAddr netRouteAny with
      | none => exact ⟨_, .noRoute owns found⟩
      | some rtinfo =>
        by_cases hops : ∃ j msg', HopsTo net rt (net.iface i).owner msg j msg'
        · obtain ⟨j, msg', hops⟩ := hops
          obtain ⟨ending, fate⟩ := inductionHypothesis j msg'
          exact ⟨ending, .onward owns hops fate⟩
        · exact ⟨_, .lost owns found fun j msg' one => hops ⟨j, msg', one⟩⟩

theorem HopsTo.dstAddr {node : N} {msg msg' : NetMsg} {i : I} (hops : HopsTo net rt node msg i msg') :
    msg'.dstAddr = msg.dstAddr := by
  obtain ⟨_, _, _, _, _, _, _, _, _, rfl⟩ := hops
  rfl

/-- A message is forwarded in one way only. -/
theorem HopsTo.unique {node : N} {msg msg' msg'' : NetMsg} {i j : I}
    (first : HopsTo net rt node msg i msg') (second : HopsTo net rt node msg j msg'') :
    i = j ∧ msg' = msg'' := by
  obtain ⟨rtinfo, entry, addr, oif, found, head, has, known, crosses, rfl⟩ := first
  obtain ⟨_, _, _, _, found', head', has', known', crosses', rfl⟩ := second
  rw [found, Option.some.injEq] at found'
  subst found'
  rw [head, Option.some.injEq] at head'
  subst head'
  rw [has, Option.some.injEq] at has'
  subst has'
  rw [known, Option.some.injEq] at known'
  subst known'
  obtain ⟨-, -, dest | ⟨subnet, dest, found, -⟩⟩ := crosses
  · obtain ⟨-, -, dest' | ⟨_, dest', -, -⟩⟩ := crosses'
    · rw [dest] at dest'
      cases dest'
      exact ⟨rfl, rfl⟩
    · rw [dest] at dest'
      cases dest'
  · obtain ⟨-, -, dest' | ⟨_, dest', found', -⟩⟩ := crosses'
    · rw [dest] at dest'
      cases dest'
    · rw [dest] at dest'
      cases dest'
      rw [found] at found'
      cases found'
      exact ⟨rfl, rfl⟩

/-- It is not forwarded through a virtual interface. -/
theorem HopsTo.not_blocks {node : N} {msg msg' : NetMsg} {i : I} (hops : HopsTo net rt node msg i msg') :
    ¬Blocks net rt node msg.dstAddr := by
  rintro ⟨_, _, _, _, found', head', has', known', isVirtual⟩
  obtain ⟨rtinfo, entry, addr, oif, found, head, has, known, ⟨-, -, dest⟩, -⟩ := hops
  rw [found, Option.some.injEq] at found'
  subst found'
  rw [head, Option.some.injEq] at head'
  subst head'
  rw [has, Option.some.injEq] at has'
  subst has'
  rw [known, Option.some.injEq] at known'
  subst known'
  obtain dest | ⟨subnet, dest, -⟩ := dest
  · obtain ⟨type, -⟩ := net.dest_matches oif _ dest
    simp [isVirtual] at type
  · have type := net.dest_matches oif _ dest
    simp [isVirtual] at type

/-- It comes to one end only. -/
theorem Fate.unique {ttl : ℕ} {i : I} {msg : NetMsg} {ending other : Ending N}
    (fate : Fate net rt ttl i msg ending) (fate' : Fate net rt ttl i msg other) : ending = other := by
  -- Each step depends on the node, the TTL and the table, and these exclude one another.
  induction fate with
  | delivered owns =>
    cases fate' with
    | delivered _ => rfl
    | expired away => exact absurd owns away
    | noRoute away _ => exact absurd owns away
    | lost away _ _ => exact absurd owns away
    | onward away _ _ => exact absurd owns away
  | expired away =>
    cases fate' with
    | delivered owns => exact absurd owns away
    | expired _ => rfl
  | noRoute away none =>
    cases fate' with
    | delivered owns => exact absurd owns away
    | noRoute _ _ => rfl
    | lost _ found _ => simp [none] at found
    | onward _ hops _ =>
      obtain ⟨_, _, _, _, found, _⟩ := hops
      simp [none] at found
  | lost away found stays =>
    cases fate' with
    | delivered owns => exact absurd owns away
    | noRoute _ none => simp [none] at found
    | lost _ _ _ => rfl
    | onward _ hops _ => exact absurd hops (stays _ _)
  | onward away hops _ inductionHypothesis =>
    cases fate' with
    | delivered owns => exact absurd owns away
    | noRoute _ none =>
      obtain ⟨_, _, _, _, found, _⟩ := hops
      simp [none] at found
    | lost _ _ stays => exact absurd hops (stays _ _)
    | onward _ hops' fate' =>
      obtain ⟨rfl, rfl⟩ := hops.unique hops'
      exact inductionHypothesis fate'

/-- A message that is delivered reached the owner. -/
theorem Fate.reaches {ttl : ℕ} {i : I} {node owner : N} {msg₀ msg msg' : NetMsg}
    (hops : HopsTo net rt node msg₀ i msg) (fate : Fate net rt ttl i msg (.delivered owner msg')) :
    ∃ between, between + 1 ≤ ttl ∧ Reaches net rt node msg₀ between owner msg' := by
  generalize same : Ending.delivered owner msg' = ending at fate
  induction fate generalizing node msg₀ with
  | delivered owns =>
    cases same
    exact ⟨0, by omega, .arrives hops owns⟩
  | expired _ => cases same
  | noRoute _ _ => cases same
  | lost _ _ _ => cases same
  | onward away onward _ inductionHypothesis =>
    obtain ⟨between, enough, reaches⟩ := inductionHypothesis onward same
    exact ⟨between + 1, by omega, .passes hops away reaches⟩

theorem Reaches.fate {ttl between : ℕ} {node owner : N} {msg msg' : NetMsg}
    (reaches : Reaches net rt node msg between owner msg') (enough : between + 1 ≤ ttl) :
    ∃ i msg₁, HopsTo net rt node msg i msg₁ ∧ Fate net rt ttl i msg₁ (.delivered owner msg') := by
  induction reaches generalizing ttl with
  | arrives hops owns =>
    obtain ⟨ttl, rfl⟩ : ∃ t, ttl = t + 1 := ⟨ttl - 1, by omega⟩
    exact ⟨_, _, hops, .delivered owns⟩
  | passes hops away _ inductionHypothesis =>
    obtain ⟨ttl, rfl⟩ : ∃ t, ttl = t + 2 := ⟨ttl - 2, by omega⟩
    obtain ⟨i, msg₁, onward, fate⟩ := @inductionHypothesis (ttl + 1) (by omega)
    exact ⟨_, _, hops, .onward away onward fate⟩

theorem Visits.expired {ttl : ℕ} {node other : N} {msg msg' : NetMsg}
    (visits : Visits net rt node msg ttl other msg') :
    ∃ i msg₁, HopsTo net rt node msg i msg₁ ∧
      Fate net rt (ttl + 1) i msg₁ (.discarded other msg' .timeExceeded) := by
  induction visits with
  | first hops away => exact ⟨_, _, hops, .expired away⟩
  | later hops away _ inductionHypothesis =>
    obtain ⟨i, msg₁, onward, fate⟩ := inductionHypothesis
    exact ⟨_, _, hops, .onward away onward fate⟩

theorem Visits.noRoute {ttl between : ℕ} {node other : N} {msg msg' : NetMsg}
    (visits : Visits net rt node msg between other msg') (enough : between + 1 < ttl)
    (none : rtFindBest (rt other) msg'.dstAddr netRouteAny = none) :
    ∃ i msg₁, HopsTo net rt node msg i msg₁ ∧
      Fate net rt ttl i msg₁ (.discarded other msg' .hostUnreach) := by
  induction visits generalizing ttl with
  | first hops away =>
    obtain ⟨ttl, rfl⟩ : ∃ t, ttl = t + 2 := ⟨ttl - 2, by omega⟩
    exact ⟨_, _, hops, .noRoute away none⟩
  | later hops away _ inductionHypothesis =>
    obtain ⟨ttl, rfl⟩ : ∃ t, ttl = t + 2 := ⟨ttl - 2, by omega⟩
    obtain ⟨i, msg₁, onward, fate⟩ := @inductionHypothesis (ttl + 1) (by omega) none
    exact ⟨_, _, hops, .onward away onward fate⟩

variable (net rt) in
/-- What becomes of a message that a node sends. -/
inductive Departs (ttl : ℕ) (node : N) (msg : NetMsg) : Ending N → Prop where
  | own {lif : I} : net.nodeHasAddress node msg.dstAddr = some lif →
      Departs ttl node msg (.delivered node { msg with
        srcAddr := if msg.srcAddr = netAddrAny then (net.iface lif).addr else msg.srcAddr })
  | stays : ¬Owns net node msg.dstAddr → (∀ i next, ¬HopsTo net rt node msg i next) →
      Departs ttl node msg .lost
  | onward {i : I} {next : NetMsg} {ending : Ending N} : ¬Owns net node msg.dstAddr →
      HopsTo net rt node msg i next → Fate net rt ttl i next ending → Departs ttl node msg ending

namespace Departs

variable {ttl : ℕ} {node : N} {msg : NetMsg} {ending other : Ending N}

theorem unique (departs : Departs net rt ttl node msg ending)
    (departs' : Departs net rt ttl node msg other) : ending = other := by
  cases departs with
  | own has =>
    cases departs' with
    | own has' =>
      rw [has, Option.some.injEq] at has'
      rw [has']
    | stays away _ => exact absurd ⟨_, has⟩ away
    | onward away _ _ => exact absurd ⟨_, has⟩ away
  | stays away stays =>
    cases departs' with
    | own has => exact absurd ⟨_, has⟩ away
    | stays _ _ => rfl
    | onward _ hops _ => exact absurd hops (stays _ _)
  | onward away hops fate =>
    cases departs' with
    | own has => exact absurd ⟨_, has⟩ away
    | stays _ stays => exact absurd hops (stays _ _)
    | onward _ hops' fate' =>
      obtain ⟨rfl, rfl⟩ := hops.unique hops'
      exact fate.unique fate'

theorem delivers_iff {owner : N} {msg' : NetMsg} :
    Departs net rt ttl node msg (.delivered owner msg') ↔ Delivers net rt ttl node msg owner msg' := by
  constructor
  · intro departs
    cases departs with
    | own has => exact .own has
    | onward away hops fate =>
      obtain ⟨between, enough, reaches⟩ := fate.reaches hops
      exact .reached away enough reaches
  · intro delivers
    cases delivers with
    | own has => exact .own has
    | reached away enough reaches =>
      obtain ⟨i, next, hops, fate⟩ := reaches.fate enough
      exact .onward away hops fate

theorem of_discards {place : N} {msg' : NetMsg} {error : IcmpError} (positive : 0 < ttl)
    (discards : Discards net rt ttl node msg place msg' error) :
    Departs net rt ttl node msg (.discarded place msg' error) := by
  cases discards with
  | expired away visits =>
    obtain ⟨i, next, hops, fate⟩ := visits.expired
    rw [Nat.sub_add_cancel positive] at fate
    exact .onward away hops fate
  | noRoute away enough visits none =>
    obtain ⟨i, next, hops, fate⟩ := visits.noRoute enough none
    exact .onward away hops fate

end Departs

/-! ## Virtual interfaces -/

variable (net rt)

/-- A message that arrives at an interface gets to a node whose route leaves through a virtual
interface. -/
inductive Blocked : ℕ → I → NetMsg → Prop where
  | here {ttl : ℕ} {i : I} {msg : NetMsg} : ¬Owns net (net.iface i).owner msg.dstAddr →
      Blocks net rt (net.iface i).owner msg.dstAddr → Blocked (ttl + 2) i msg
  | onward {ttl : ℕ} {i j : I} {msg msg' : NetMsg} : ¬Owns net (net.iface i).owner msg.dstAddr →
      HopsTo net rt (net.iface i).owner msg j msg' → Blocked (ttl + 1) j msg' → Blocked (ttl + 2) i msg

/-- So does a message that a node sends. -/
inductive SendBlocked (ttl : ℕ) (node : N) (msg : NetMsg) : Prop where
  | here : ¬Owns net node msg.dstAddr → Blocks net rt node msg.dstAddr → SendBlocked ttl node msg
  | onward {i : I} {next : NetMsg} : ¬Owns net node msg.dstAddr → HopsTo net rt node msg i next →
      Blocked net rt ttl i next → SendBlocked ttl node msg

/-- So does the reply that a node sends, or the error it is discarded with. -/
inductive ReplyBlocked (node : N) (msg : NetMsg) : Prop where
  | reply : SendBlocked net rt 255 node msg → ReplyBlocked node msg
  | error {other : N} {reply : NetMsg} {error : IcmpError} :
      Departs net rt 255 node msg (.discarded other reply error) →
      SendBlocked net rt 255 other ⟨netAddrAny, reply.srcAddr⟩ → ReplyBlocked node msg

/-- So does a message of a ping: the request, or what is sent at its end. -/
inductive PingBlocked (ttl : ℕ) (node : N) (dstAddr : NetAddr) : Prop where
  | request : SendBlocked net rt ttl node ⟨netAddrAny, dstAddr⟩ → PingBlocked ttl node dstAddr
  | reply {owner : N} {request : NetMsg} :
      Departs net rt ttl node ⟨netAddrAny, dstAddr⟩ (.delivered owner request) →
      ReplyBlocked net rt owner ⟨request.dstAddr, request.srcAddr⟩ → PingBlocked ttl node dstAddr
  | error {other : N} {request : NetMsg} {error : IcmpError} :
      Departs net rt ttl node ⟨netAddrAny, dstAddr⟩ (.discarded other request error) →
      SendBlocked net rt 255 other ⟨netAddrAny, request.srcAddr⟩ → PingBlocked ttl node dstAddr

end Fates

end Cbgp.Verified
