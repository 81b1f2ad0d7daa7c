import Cbgp.Verified.IpPosts

/-! # The hops of a message

Every node that forwards a message lowers its TTL (`Forwards.ttl`), so a message that is sent with a positive
TTL is forwarded fewer times than that (`Travels.ttl`), and in a run no node receives a message whose TTL is
used up (`Run.live`).  A message that is sent without a TTL stops the program at the first node that it gets
to.
-/

namespace Cbgp.Verified.Ip

open Cbgp.Lib Cbgp.Net.Ip
open Cbgp.Net (EntryRef IcmpError IcmpType NetAddr NetError NetMsg NetRt RtInfos Topology netAddrAny
  netRouteAny nodeIpOutput rtFindBest)

variable {N I S : Type}

/-! ## Messages with a TTL -/

/-- The TTLs are positive. -/
def Positive (ttls : List ℕ) : Prop :=
  ∀ ttl ∈ ttls, 0 < ttl

/-- The message and the ones inside have a TTL. -/
def Live (msg : Msg N) : Prop :=
  Positive (ttls msg)

theorem Live.icmp {header : Header} (ttl : 0 < header.ttl) (node : N) (type : IcmpType) :
    Live (.icmp header node type) := by
  intro t member
  rwa [List.mem_singleton.mp member]

theorem Live.ipip {header : Header} {inner : Msg N} (ttl : 0 < header.ttl) (live : Live inner) :
    Live (.ipip header inner) := by
  intro t member
  cases member with
  | head => exact ttl
  | tail _ member => exact live t member

theorem Live.kept {msg msg' : Msg N} (live : Live msg) (kept : Kept msg msg') : Live msg' := by
  unfold Live
  rwa [kept.ttls]

theorem layer_ttls {msg layer : Msg N} (member : layer ∈ layers msg) :
    layer.header.ttl ∈ ttls msg ∧ ttls layer ⊆ ttls msg := by
  induction msg with
  | icmp header node type =>
    rw [List.mem_singleton.mp member]
    exact ⟨List.mem_cons_self, fun _ => id⟩
  | upper header protocol =>
    rw [List.mem_singleton.mp member]
    exact ⟨List.mem_cons_self, fun _ => id⟩
  | ipip header inner inductionHypothesis =>
    cases member with
    | head => exact ⟨List.mem_cons_self, fun _ => id⟩
    | tail _ member =>
      obtain ⟨ttl, inside⟩ := inductionHypothesis member
      exact ⟨List.mem_cons_of_mem _ ttl, fun t member => List.mem_cons_of_mem _ (inside member)⟩

theorem Live.layer {msg layer : Msg N} (live : Live msg) (member : layer ∈ layers msg) :
    0 < layer.header.ttl ∧ Live layer :=
  have ⟨ttl, inside⟩ := layer_ttls member
  ⟨live _ ttl, fun t member => live t (inside member)⟩

theorem Live.hopped {msg : Msg N} (live : Live msg) (ttl : 1 < msg.header.ttl) : Live (hopped msg) := by
  cases msg with
  | icmp header node type => exact .icmp (Nat.sub_pos_of_lt ttl) node type
  | upper header protocol =>
    intro t member
    rw [List.mem_singleton.mp member]
    exact Nat.sub_pos_of_lt ttl
  | ipip header inner =>
    exact .ipip (Nat.sub_pos_of_lt ttl) fun t member => live t (List.mem_cons_of_mem _ member)

/-- The messages that travel or wait have a TTL. -/
structure AllLive (st : State N I S) : Prop where
  events : ∀ event ∈ st.events, Live event.2
  fifoTrace : ∀ ctx ∈ st.fifoTrace, Live ctx.msg

theorem AllLive.adds {st st' : State N I S} (live : AllLive st) (adds : Adds Live Positive st st') :
    AllLive st' where
  events event member := by
    obtain ⟨new, events, all⟩ := adds.events
    rw [events] at member
    exact (List.mem_append.mp member).elim (live.events event) (all event)
  fifoTrace ctx member := by
    obtain ⟨waiting, fifo, all⟩ := adds.fifoTrace
    rw [fifo] at member
    exact (List.mem_append.mp member).elim (live.fifoTrace ctx) (all ctx)

variable [DecidableEq N] [DecidableEq I] {stack : Stack N I S}

/-- The sender posts messages that have a TTL when it is given one. -/
def SendsLive (send : Sender N I S) : Prop :=
  ∀ node msg st, Live msg → Posts Live Positive st (send node msg st)

omit [DecidableEq N] [DecidableEq I] in
theorem SendsLive.answers {send : Sender N I S} (sends : SendsLive send) :
    Answers send Live Positive where
  error node dstAddr error st := sends node _ st (.icmp (show 0 < 255 by decide) node _)
  reply node header st ttl := sends node _ st (.icmp (by rw [ttl]; decide) node _)

omit [DecidableEq N] [DecidableEq I] in
theorem SendsLive.allows {send : Sender N I S} (sends : SendsLive send) {msg : Msg N}
    (live : Live msg) : Allows send Live Positive msg where
  toAnswers := sends.answers
  wire msg' kept := live.kept kept
  copy := live
  wrap msg' outer node st kept ttl := sends node _ st (.ipip (by rw [ttl]; decide) (live.kept kept))

theorem nodeSend_live (fuel : ℕ) {msg : Msg N} (live : Live msg) (node : N)
    (rtentries : Option (List EntryRef)) (st : State N I S) :
    Posts Live Positive st (nodeSend stack fuel node msg rtentries st) := by
  induction fuel generalizing node msg rtentries st with
  | zero => exact nofun
  | succ fuel inductionHypothesis =>
    have sends : SendsLive (fun node msg st => nodeSend stack fuel node msg none st) :=
      fun node msg st live => inductionHypothesis live node none st
    exact nodeSendWith_posts (sends.allows live) rtentries st

theorem nodeRecvMsg_live (fuel : ℕ) {msg : Msg N} (live : Live msg) (iif : I) (st : State N I S) :
    Posts Live Positive st (nodeRecvMsg stack (sender stack fuel) fuel iif msg st) := by
  have sends : SendsLive (sender stack fuel) := fun node msg st live => nodeSend_live fuel live node none st
  refine (nodeRecvMsg_posts sends.answers (fun layer member ttl => ?_) fuel iif st).mono (fun _ => id)
    fun crash fault zero => ?_
  · exact sends.allows ((live.layer member).2.hopped ttl)
  · obtain ⟨layer, member, used⟩ := fault zero
    exact absurd used (Nat.ne_of_gt (live.layer member).1)

/-! ## Runs -/

/-- Nodes send messages, which travel; the messages that were sent are listed. -/
inductive Run (stack : Stack N I S) : List (Msg N) → State N I S → Prop where
  | start {st : State N I S} : st.events = [] → st.fifoTrace = [] → Run stack [] st
  | send {sent : List (Msg N)} {st st' : State N I S} {fuel : ℕ} {node : N} {msg : Msg N}
      {rtentries : Option (List EntryRef)} {error : NetError} :
      Run stack sent st → nodeSend stack fuel node msg rtentries st = .ok (error, st') →
      Run stack (msg :: sent) st'
  /-- A message is put into the FIFO, as `icmp_trace_send` does. -/
  | push {sent : List (Msg N)} {st : State N I S} {ctx : EcmpCtx N} :
      Run stack sent st → Run stack (ctx.msg :: sent) { st with fifoTrace := st.fifoTrace ++ [ctx] }
  /-- A message that waits is sent in a new simulator. -/
  | turn {sent : List (Msg N)} {st st' : State N I S} {fuel : ℕ} {ctx : EcmpCtx N}
      {fifoTrace : List (EcmpCtx N)} {error : NetError} :
      Run stack sent st → st.fifoTrace = ctx :: fifoTrace →
      nodeSend stack fuel ctx.node ctx.msg ctx.rtentries { st with events := [], fifoTrace := fifoTrace } =
        .ok (error, st') →
      Run stack sent st'
  | receive {sent : List (Msg N)} {st st' : State N I S} {fuel : ℕ} {iif : I} {msg : Msg N}
      {events : List (I × Msg N)} {error : NetError} :
      Run stack sent st → st.events = (iif, msg) :: events →
      nodeRecvMsg stack (sender stack fuel) fuel iif msg { st with events := events } = .ok (error, st') →
      Run stack sent st'

theorem AllLive.receive {st : State N I S} (live : AllLive st) {iif : I} {msg : Msg N}
    {events : List (I × Msg N)} (head : st.events = (iif, msg) :: events) (fuel : ℕ) :
    Posts Live Positive { st with events := events }
        (nodeRecvMsg stack (sender stack fuel) fuel iif msg { st with events := events }) ∧
      AllLive { st with events := events } := by
  have msgLive : Live msg := live.events (iif, msg) (by rw [head]; exact List.mem_cons_self)
  refine ⟨nodeRecvMsg_live fuel msgLive iif _, fun event member => live.events event ?_, live.fifoTrace⟩
  rw [head]
  exact List.mem_cons_of_mem _ member

theorem Run.live {sent : List (Msg N)} {st : State N I S} (run : Run stack sent st)
    (live : ∀ msg ∈ sent, Live msg) : AllLive st := by
  induction run with
  | start events fifoTrace => exact ⟨by rw [events]; exact nofun, by rw [fifoTrace]; exact nofun⟩
  | send run done inductionHypothesis =>
    have before := inductionHypothesis fun msg member => live msg (List.mem_cons_of_mem _ member)
    exact before.adds ((nodeSend_live _ (live _ List.mem_cons_self) _ _ _).value done)
  | @push sent st ctx run inductionHypothesis =>
    have before := inductionHypothesis fun msg member => live msg (List.mem_cons_of_mem _ member)
    refine ⟨before.events, fun ctx' member => ?_⟩
    exact (List.mem_append.mp member).elim (before.fifoTrace ctx') fun last => by
      rw [List.mem_singleton.mp last]
      exact live ctx.msg List.mem_cons_self
  | @turn sent st st' fuel ctx fifoTrace error run waits done inductionHypothesis =>
    have before := inductionHypothesis live
    have start : AllLive { st with events := [], fifoTrace := fifoTrace } :=
      ⟨nofun, fun ctx' member => before.fifoTrace ctx' (by rw [waits]; exact List.mem_cons_of_mem _ member)⟩
    have ctxLive : Live ctx.msg := before.fifoTrace ctx (by rw [waits]; exact List.mem_cons_self)
    exact start.adds ((nodeSend_live fuel ctxLive _ _ _).value done)
  | receive run head done inductionHypothesis =>
    obtain ⟨posts, rest⟩ := (inductionHypothesis live).receive head _
    exact rest.adds (posts.value done)

theorem staticRun_live (fuel numSteps : ℕ) {st : State N I S} (live : AllLive st) :
    Ends AllLive TtlKept (staticRun stack fuel numSteps st) := by
  induction numSteps generalizing st with
  | zero => exact live
  | succ numSteps inductionHypothesis =>
    unfold staticRun
    split
    · exact live
    next head =>
      obtain ⟨posts, rest⟩ := live.receive head fuel
      refine posts.bind fun after adds => ?_
      dsimp only
      split
      · exact rest.adds adds
      · exact inductionHypothesis (rest.adds adds)

theorem ipOptEcmpTurn_live (fuel : ℕ) {ctx : EcmpCtx N} (opts : Opts) (ctxLive : Live ctx.msg)
    {st : State N I S} (live : ∀ waiting ∈ st.fifoTrace, Live waiting.msg) :
    Ends AllLive TtlKept (ipOptEcmpTurn stack fuel ctx opts st) := by
  have start : AllLive { st with events := [] } := ⟨nofun, live⟩
  refine (nodeSend_live fuel ctxLive _ _ _).bind fun after adds => ?_
  have sent := start.adds adds
  dsimp only
  split
  · exact ⟨sent.events, sent.fifoTrace⟩
  · exact staticRun_live fuel _ sent

theorem ipOptEcmpRun_live (fuel turns : ℕ) {st : State N I S}
    (live : ∀ ctx ∈ st.fifoTrace, Live ctx.msg) :
    Ends (fun _ => True) TtlKept (ipOptEcmpRun stack fuel turns st) := by
  induction turns generalizing st with
  | zero => exact nofun
  | succ turns inductionHypothesis =>
    unfold ipOptEcmpRun
    split
    · trivial
    next ctx fifoTrace waits =>
      rw [waits] at live
      split
      · exact nofun
      next opts _ =>
        refine (ipOptEcmpTurn_live fuel opts (live ctx List.mem_cons_self)
          fun waiting member => live waiting (List.mem_cons_of_mem _ member)).bind fun st' after => ?_
        exact (inductionHypothesis after.fifoTrace).bind fun _ _ => trivial

/-- A trace that is sent with a TTL does not stop the program. -/
theorem icmpTraceSend_ttl (fuel turns : ℕ) (node : N) (dstAddr : NetAddr) {maxTtl : UInt8}
    (ttl : maxTtl ≠ 0) (opts : Opts) (st : State N I S) :
    icmpTraceSend stack fuel turns node dstAddr maxTtl opts st ≠ .error .ttlZero := by
  have positive : 0 < maxTtl.toNat := by
    refine Nat.pos_of_ne_zero fun zero => ttl (UInt8.toNat_inj.mp ?_)
    rw [zero]
    rfl
  intro stopped
  refine (ipOptEcmpRun_live fuel turns fun ctx member => ?_).error stopped rfl
  rw [List.mem_singleton.mp member]
  exact .icmp positive node .trace

/-! ## The message itself -/

/-- Nothing is sent in addition to the message. -/
def mute : Sender N I S :=
  fun _ _ st => .ok (.success, st)

omit [DecidableEq N] [DecidableEq I] in
theorem mute_answers (p : Msg N → Prop) : Answers (mute : Sender N I S) p fun _ => True where
  error _ _ _ st := Adds.of_beside (.refl st)
  reply _ _ st _ := Adds.of_beside (.refl st)

omit [DecidableEq N] [DecidableEq I] in
theorem mute_allows {p : Msg N → Prop} {msg : Msg N} (wire : ∀ msg', Kept msg msg' → p msg') :
    Allows (mute : Sender N I S) p (fun _ => True) msg where
  toAnswers := mute_answers p
  wire := wire
  copy := trivial
  wrap _ _ _ st _ _ := Adds.of_beside (.refl st)

/-- Receiving the message by the first interface, its node forwards it to the second one. -/
def Forwards (stack : Stack N I S) (iif : I) (msg : Msg N) (dst : I) (msg' : Msg N) : Prop :=
  ∃ fuel, ∃ st : State N I S, ∃ after,
    nodeRecvMsg stack mute fuel iif msg { st with events := [] } = .ok after ∧
    (dst, msg') ∈ after.2.events ∧ msg' = msg.setHeader msg'.header

/-- The message that the node sends gets to the interface, forwarded by so many nodes. -/
inductive Travels (stack : Stack N I S) (node : N) (msg : Msg N) : ℕ → I → Msg N → Prop where
  | send {rtentries : Option (List EntryRef)} {st : State N I S} {after : NetError × State N I S}
      {iif : I} {msg' : Msg N} :
      nodeSendWith stack mute node msg rtentries { st with events := [] } = .ok after →
      (iif, msg') ∈ after.2.events → Travels stack node msg 0 iif msg'
  | forward {hops : ℕ} {iif dst : I} {msg₁ msg₂ : Msg N} :
      Travels stack node msg hops iif msg₁ → Forwards stack iif msg₁ dst msg₂ →
      Travels stack node msg (hops + 1) dst msg₂

omit [DecidableEq N] [DecidableEq I] in
theorem Adds.posted {p : Msg N → Prop} {q : List ℕ → Prop} {st st' : State N I S}
    (adds : Adds p q { st with events := [] } st') {event : I × Msg N} (member : event ∈ st'.events) :
    p event.2 := by
  obtain ⟨new, events, all⟩ := adds.events
  rw [events, List.nil_append] at member
  exact all event member

omit [DecidableEq N] [DecidableEq I] in
theorem ttls_setHeader (msg : Msg N) (header : Header) :
    (ttls (msg.setHeader header)).length = (ttls msg).length := by
  cases msg <;> rfl

omit [DecidableEq N] [DecidableEq I] in
theorem layer_inside {msg layer : Msg N} (member : layer ∈ layers msg) :
    layer = msg ∨ (ttls layer).length < (ttls msg).length := by
  induction msg with
  | icmp header node type => exact .inl (List.mem_singleton.mp member)
  | upper header protocol => exact .inl (List.mem_singleton.mp member)
  | ipip header inner inductionHypothesis =>
    cases member with
    | head => exact .inl rfl
    | tail _ member =>
      right
      change _ < (ttls inner).length + 1
      obtain rfl | smaller := inductionHypothesis member
      · exact Nat.lt_succ_self _
      · exact Nat.lt_succ_of_lt smaller

theorem Forwards.ttl {iif dst : I} {msg msg' : Msg N} (forwards : Forwards stack iif msg dst msg') :
    msg'.header.ttl + 1 = msg.header.ttl ∧ 0 < msg'.header.ttl := by
  obtain ⟨fuel, st, after, done, posted, payload⟩ := forwards
  -- the messages inside have another size, so what is posted with the same payload is the message
  let p (sent : Msg N) : Prop :=
    sent = msg.setHeader sent.header → sent.header.ttl + 1 = msg.header.ttl ∧ 0 < sent.header.ttl
  have allows : ∀ layer ∈ layers msg, 1 < layer.header.ttl →
      Allows (mute : Sender N I S) p (fun _ => True) (hopped layer) := by
    refine fun layer member alive => mute_allows fun sent kept same => ?_
    have sizes : (ttls layer).length = (ttls msg).length := by
      rw [← ttls_setHeader layer { layer.header with ttl := layer.header.ttl - 1 },
        ← ttls_setHeader msg sent.header, ← same]
      exact (congrArg List.length kept.ttls).symm
    obtain rfl | smaller := layer_inside member
    · have ttl : sent.header.ttl = layer.header.ttl - 1 := by rw [kept.ttl, hopped, setHeader_header]
      omega
    · omega
  have adds := (nodeRecvMsg_posts (mute_answers p) allows fuel iif { st with events := [] }).value done
  exact adds.posted posted payload

theorem Travels.ttl {node : N} {msg msg' : Msg N} {hops : ℕ} {iif : I}
    (travels : Travels stack node msg hops iif msg') : msg'.header.ttl + hops = msg.header.ttl := by
  induction travels with
  | send done posted =>
    have allows : Allows (mute : Sender N I S) (Kept msg) (fun _ => True) msg := mute_allows fun _ => id
    exact (((nodeSendWith_posts allows _ _).value done).posted posted).ttl
  | forward _ forwards inductionHypothesis =>
    rw [← inductionHypothesis, ← forwards.ttl.1]
    omega

/-- A message that is sent with a TTL always has one. -/
theorem Travels.live {node : N} {msg msg' : Msg N} {hops : ℕ} {iif : I}
    (travels : Travels stack node msg hops iif msg') (alive : 0 < msg.header.ttl) :
    0 < msg'.header.ttl := by
  cases travels with
  | send done posted =>
    have ttl := (Travels.send done posted).ttl
    omega
  | forward _ forwards => exact forwards.ttl.2

/-! ## Messages in addition -/

/-- Either nothing depends on the sender, or the message itself is not posted. -/
def Apart (st : State N I S) (result muted : Except Crash (NetError × State N I S)) : Prop :=
  result = muted ∨ ∀ after, muted = .ok after → after.2.events = st.events

section Apart

variable {send : Sender N I S} {node : N}

omit [DecidableEq N] [DecidableEq I] in
theorem Apart.of_posts {st : State N I S} {result muted : Except Crash (NetError × State N I S)}
    (posts : Posts (fun _ => False) (fun _ => True) st muted) : Apart st result muted := by
  refine .inr fun after done => ?_
  obtain ⟨new, events, all⟩ := (posts.value done).events
  rw [events, List.eq_nil_iff_forall_not_mem.mpr all, List.append_nil]

omit [DecidableEq N] [DecidableEq I] in
/-- A hook comes first. -/
theorem Apart.after {α : Type} {x : Except Crash α} {st : State N I S} {P : α → Prop} {Q : Crash → Prop}
    (ends : Ends P Q x) (state : α → State N I S) (same : ∀ a, P a → (state a).events = st.events)
    {f g : α → Except Crash (NetError × State N I S)} (apart : ∀ a, P a → Apart (state a) (f a) (g a)) :
    Apart st (x >>= f) (x >>= g) := by
  cases x with
  | error crash => exact .inl rfl
  | ok a =>
    obtain equal | silent := apart a ends
    · exact .inl equal
    · exact .inr fun after done => (silent after done).trans (same a ends)

omit [DecidableEq N] [DecidableEq I] in
/-- A hook comes last. -/
theorem Apart.before {st : State N I S} {x y : Except Crash (NetError × State N I S)}
    (apart : Apart st x y) {f : NetError × State N I S → Except Crash (NetError × State N I S)}
    (ends : ∀ a, Ends (fun after => after.2.events = a.2.events) TtlKept (f a)) :
    Apart st (x >>= f) (y >>= f) := by
  obtain rfl | silent := apart
  · exact .inl rfl
  · refine .inr fun after done => ?_
    obtain ⟨a, first, second⟩ := except_bind_eq_ok.mp done
    exact ((ends a).value second).trans (silent a first)

omit [DecidableEq N] [DecidableEq I] in
theorem ipipIfaceSend_apart (tunnel : Tunnel I) (self : I) (msg : Msg N) (st : State N I S) :
    Apart st (ipipIfaceSend stack send tunnel self msg st)
      (ipipIfaceSend stack mute tunnel self msg st) := by
  unfold ipipIfaceSend
  cases tunnel.oif with
  | some oif => exact .inl rfl
  | none =>
    refine .inr fun after done => ?_
    cases done
    exact (hookMsgEncap_beside st msg.header).events

omit [DecidableEq N] [DecidableEq I] in
theorem netIfaceSend_apart (oif : I) (l2Addr : NetAddr) (msg : Msg N) (st : State N I S) :
    Apart st (netIfaceSend stack send oif l2Addr msg st)
      (netIfaceSend stack mute oif l2Addr msg st) := by
  unfold netIfaceSend
  cases stack.tunnel oif with
  | none => exact .inl rfl
  | some tunnel =>
    dsimp only
    split
    · exact .inl rfl
    · exact ipipIfaceSend_apart tunnel oif msg st

theorem nodeIpTransmit_apart (oif : I) (l2Addr : NetAddr) (msg : Msg N) (st : State N I S) :
    Apart st (nodeIpTransmit stack send node oif l2Addr msg st)
      (nodeIpTransmit stack mute node oif l2Addr msg st) := by
  refine Apart.after (hookMsgOut_ends st msg node oif) id (fun st' beside => beside.events)
    fun st' beside => ?_
  refine (netIfaceSend_apart oif l2Addr msg st').before fun after => ?_
  dsimp only
  split
  · rfl
  · refine (ends_ttlKept (hookMsgError_ends after.2 msg after.1)).bind fun st'' beside => beside.events

theorem nodeIpOutputSend_apart (refs : List EntryRef) (msg : Msg N) (st : State N I S) :
    Apart st (nodeIpOutputSend stack send node refs msg st)
      (nodeIpOutputSend stack mute node refs msg st) := by
  unfold nodeIpOutputSend
  cases refs with
  | nil => exact .inl rfl
  | cons ref rest =>
    refine Apart.after (hookMsgEcmp_ends node (ref :: rest) msg st) Prod.snd
      (fun after hooked => hooked.2.events) fun after hooked => ?_
    dsimp only
    cases nodeIpOutput stack.net node (stack.rt node) ref after.1.header.toNetMsg with
    | error fault => exact .inl rfl
    | ok output =>
      cases output with
      | error error =>
        refine .of_posts ?_
        exact (nodeIpFwdError_posts (mute_answers _) _ _ _ _).bind fun st' adds => adds
      | send oif l2Addr sent => exact nodeIpTransmit_apart _ _ _ _

omit [DecidableEq I] in
theorem nodeIpInput_apart (lif : I) (msg : Msg N) (st : State N I S) :
    Apart st (nodeIpInput stack send node lif msg st) (nodeIpInput stack mute node lif msg st) :=
  .of_posts (nodeIpInput_posts (mute_answers _) msg lif st)

omit [DecidableEq N] [DecidableEq I] in
theorem nodeIpFwdError_apart (msg : Msg N) (error result : NetError) (icmpError : Option IcmpError)
    (st : State N I S) :
    Apart st (nodeIpFwdError send node msg error icmpError st >>= fun st => .ok (result, st))
      (nodeIpFwdError mute node msg error icmpError st >>= fun st => .ok (result, st)) :=
  .of_posts ((nodeIpFwdError_posts (mute_answers _) msg error icmpError st).bind fun _ adds => adds)

omit [DecidableEq N] [DecidableEq I] in
theorem Apart.from_beside {st st' : State N I S} {x y : Except Crash (NetError × State N I S)}
    (beside : Beside st st') (apart : Apart st' x y) : Apart st x y :=
  apart.imp id fun silent after done => (silent after done).trans beside.events

theorem nodeSendWith_apart (msg : Msg N) (rtentries : Option (List EntryRef)) (st : State N I S) :
    Apart st (nodeSendWith stack send node msg rtentries st)
      (nodeSendWith stack mute node msg rtentries st) := by
  have beside := hookMsgSent_beside stack.rt st msg node rtentries
  unfold nodeSendWith
  generalize ipOptHookMsgSent stack.rt st msg node rtentries = hooked at beside ⊢
  obtain ⟨error, st', refs⟩ := hooked
  refine .from_beside beside ?_
  by_cases success : error = .success
  · subst success
    cases refs with
    | some refs => exact nodeIpOutputSend_apart refs msg st'
    | none =>
      dsimp only
      cases stack.net.nodeHasAddress node msg.header.dstAddr with
      | some lif => exact nodeIpInput_apart lif _ st'
      | none =>
        cases rtFindBest (stack.rt node) msg.header.dstAddr netRouteAny with
        | none => exact nodeIpFwdError_apart msg _ _ _ st'
        | some rtinfo => exact nodeIpOutputSend_apart rtinfo.refs msg st'
  · exact .inl (by cases error <;> first | rfl | exact absurd rfl success)

theorem nodeRecvForward_apart (msg : Msg N) (rtentries : Option (List EntryRef)) (st : State N I S) :
    Apart st (nodeRecvForward stack send node msg rtentries st)
      (nodeRecvForward stack mute node msg rtentries st) := by
  unfold nodeRecvForward
  split
  · exact nodeIpFwdError_apart msg _ _ _ st
  · cases rtentries with
    | some refs => exact nodeIpOutputSend_apart refs _ st
    | none =>
      dsimp only
      cases rtFindBest (stack.rt node) _ netRouteAny with
      | none => exact nodeIpFwdError_apart _ _ _ _ st
      | some rtinfo => exact nodeIpOutputSend_apart rtinfo.refs _ st

/-- A node that posts the message it has received sends no other. -/
theorem nodeRecvMsg_apart (fuel : ℕ) (iif : I) (msg : Msg N) (st : State N I S) :
    Apart st (nodeRecvMsg stack send fuel iif msg st) (nodeRecvMsg stack mute fuel iif msg st) := by
  induction fuel generalizing iif msg st with
  | zero => exact .inl rfl
  | succ fuel inductionHypothesis =>
    have beside := hookMsgIn_beside stack.rt st msg (stack.net.iface iif).owner iif
    rw [nodeRecvMsg, nodeRecvMsg]
    by_cases zero : msg.header.ttl = 0
    · rw [if_pos zero, if_pos zero]
      exact .inl rfl
    · rw [if_neg zero, if_neg zero]
      dsimp only
      generalize ipOptHookMsgIn stack.rt st msg (stack.net.iface iif).owner iif = hooked at beside ⊢
      obtain ⟨error, st', refs⟩ := hooked
      refine .from_beside beside ?_
      -- The two runs differ in how they send: until something is sent they go side by side.
      by_cases success : error = .success
      · subst success
        cases refs with
        | some refs => exact nodeRecvForward_apart msg _ st'
        | none =>
          dsimp only
          cases stack.net.nodeHasAddress (stack.net.iface iif).owner msg.header.dstAddr with
          | none => exact nodeRecvForward_apart msg none st'
          | some lif =>
            dsimp only
            split
            · exact nodeIpInput_apart lif msg st'
            · cases stack.tunnel lif with
              | none => exact inductionHypothesis lif msg st'
              | some tunnel =>
                cases msg with
                | icmp header node type => exact .inl rfl
                | upper header protocol => exact .inl rfl
                | ipip header inner =>
                  exact .after (hookMsgDecap_ends st' header inner.header) id (fun _ => Beside.events)
                    fun st'' _ => inductionHypothesis lif inner st''
      · exact .inl (by cases error <;> first | rfl | exact absurd rfl success)

end Apart

/-! ## ICMP errors -/

/-- The senders agree on messages with others inside. -/
def AgreeOnIpip (send send' : Sender N I S) : Prop :=
  ∀ node header inner st, send node (.ipip header inner) st = send' node (.ipip header inner) st

section Errors

variable {send send' : Sender N I S} {node : N} {msg : Msg N}

omit [DecidableEq N] [DecidableEq I] in
theorem nodeIpFwdError_isIcmpError (send send' : Sender N I S) (isError : msg.isIcmpError = true) (error : NetError)
    (icmpError : Option IcmpError) (st : State N I S) :
    nodeIpFwdError send node msg error icmpError st = nodeIpFwdError send' node msg error icmpError st := by
  unfold nodeIpFwdError sendErrorFor
  cases icmpError with
  | none => rfl
  | some icmpError => simp only [isError, if_true]

omit [DecidableEq N] [DecidableEq I] in
theorem netIfaceSend_agree (agree : AgreeOnIpip send send') (oif : I) (l2Addr : NetAddr) (msg : Msg N)
    (st : State N I S) :
    netIfaceSend stack send oif l2Addr msg st = netIfaceSend stack send' oif l2Addr msg st := by
  have wrapped (tunnel : Tunnel I) :
      ipipIfaceSend stack send tunnel oif msg st = ipipIfaceSend stack send' tunnel oif msg st := by
    unfold ipipIfaceSend
    cases tunnel.oif with
    | some oif => rfl
    | none => simp only [agree (stack.net.iface oif).owner]
  unfold netIfaceSend
  cases stack.tunnel oif with
  | none => rfl
  | some tunnel => simp only [wrapped]

theorem nodeIpOutputSend_isIcmpError (agree : AgreeOnIpip send send') (isError : msg.isIcmpError = true)
    (refs : List EntryRef) (st : State N I S) :
    nodeIpOutputSend stack send node refs msg st = nodeIpOutputSend stack send' node refs msg st := by
  unfold nodeIpOutputSend nodeIpTransmit
  cases refs with
  | nil => rfl
  | cons ref rest =>
    have ends := hookMsgEcmp_ends node (ref :: rest) msg st
    dsimp only [bind, Except.bind]
    cases hooked : ipOptHookMsgEcmp node (ref :: rest) msg st with
    | error crash => rfl
    | ok after =>
      have still : after.1.isIcmpError = true := by
        rw [(ends.value hooked).1.payload, setHeader_isIcmpError, isError]
      dsimp only
      cases nodeIpOutput stack.net node (stack.rt node) ref after.1.header.toNetMsg with
      | error fault => rfl
      | ok output =>
        cases output with
        | error error => simp only [nodeIpFwdError_isIcmpError send send' still]
        | send oif l2Addr sent => simp only [netIfaceSend_agree agree]

omit [DecidableEq I] in
theorem nodeIpInput_isIcmpError (send send' : Sender N I S) (isError : msg.isIcmpError = true) (lif : I)
    (st : State N I S) :
    nodeIpInput stack send node lif msg st = nodeIpInput stack send' node lif msg st := by
  cases msg with
  | upper header protocol => cases isError
  | ipip header inner => cases isError
  | icmp header sender type =>
    cases type with
    | error error => rfl
    | echoRequest => cases isError
    | echoReply => cases isError
    | trace => cases isError

theorem nodeSendWith_isIcmpError (agree : AgreeOnIpip send send') (isError : msg.isIcmpError = true)
    (rtentries : Option (List EntryRef)) (st : State N I S) :
    nodeSendWith stack send node msg rtentries st = nodeSendWith stack send' node msg rtentries st := by
  unfold nodeSendWith
  generalize ipOptHookMsgSent stack.rt st msg node rtentries = hooked
  obtain ⟨error, st', refs⟩ := hooked
  cases error with
  | success =>
    cases refs with
    | some refs => exact nodeIpOutputSend_isIcmpError agree isError refs st'
    | none =>
      dsimp only
      cases stack.net.nodeHasAddress node msg.header.dstAddr with
      | some lif => exact nodeIpInput_isIcmpError send send' ((setHeader_isIcmpError _ _).trans isError) lif st'
      | none =>
        cases rtFindBest (stack.rt node) msg.header.dstAddr netRouteAny with
        | none => exact congrArg (· >>= _) (nodeIpFwdError_isIcmpError send send' isError _ _ _)
        | some rtinfo => exact nodeIpOutputSend_isIcmpError agree isError rtinfo.refs st'
  | _ => rfl

theorem nodeRecvForward_isIcmpError (agree : AgreeOnIpip send send') (isError : msg.isIcmpError = true)
    (rtentries : Option (List EntryRef)) (st : State N I S) :
    nodeRecvForward stack send node msg rtentries st =
      nodeRecvForward stack send' node msg rtentries st := by
  unfold nodeRecvForward
  have isError' := (setHeader_isIcmpError msg { msg.header with ttl := msg.header.ttl - 1 }).trans isError
  split
  · exact congrArg (· >>= _) (nodeIpFwdError_isIcmpError send send' isError _ _ _)
  · cases rtentries with
    | some refs => exact nodeIpOutputSend_isIcmpError agree isError' refs st
    | none =>
      dsimp only
      cases rtFindBest (stack.rt node) _ netRouteAny with
      | none => exact congrArg (· >>= _) (nodeIpFwdError_isIcmpError send send' isError' _ _ _)
      | some rtinfo => exact nodeIpOutputSend_isIcmpError agree isError' rtinfo.refs st

/-- For an ICMP error a node sends no message but one around it. -/
theorem nodeRecvMsg_isIcmpError (agree : AgreeOnIpip send send') (isError : msg.isIcmpError = true)
    (fuel : ℕ) (iif : I) (st : State N I S) :
    nodeRecvMsg stack send fuel iif msg st = nodeRecvMsg stack send' fuel iif msg st := by
  induction fuel generalizing iif st with
  | zero => rfl
  | succ fuel inductionHypothesis =>
    rw [nodeRecvMsg, nodeRecvMsg]
    dsimp only
    generalize ipOptHookMsgIn stack.rt st msg (stack.net.iface iif).owner iif = hooked
    obtain ⟨error, st', refs⟩ := hooked
    cases error with
    | success =>
      cases refs with
      | some refs => simp only [nodeRecvForward_isIcmpError agree isError]
      | none =>
        dsimp only
        cases stack.net.nodeHasAddress (stack.net.iface iif).owner msg.header.dstAddr with
        | none => simp only [nodeRecvForward_isIcmpError agree isError]
        | some lif =>
          simp only [nodeIpInput_isIcmpError send send' isError, inductionHypothesis]
          cases msg with
          | icmp header sender type => rfl
          | upper header protocol => cases isError
          | ipip header inner => cases isError
    | _ => rfl

end Errors

/-- What the TTL does: messages that are sent with one never arrive without, each node that forwards a message
lowers it, so that fewer nodes do than the TTL says, and no ICMP error has an ICMP error sent. -/
theorem ttl_bounds (stack : Stack N I S) :
    (∀ sent st, Run stack sent st → (∀ msg ∈ sent, Live msg) →
      ∀ fuel iif msg events, st.events = (iif, msg) :: events → 0 < msg.header.ttl ∧
        nodeRecvMsg stack (sender stack fuel) fuel iif msg { st with events := events } ≠
          .error .ttlZero) ∧
    (∀ fuel turns node dstAddr maxTtl opts st, maxTtl ≠ 0 →
      icmpTraceSend stack fuel turns node dstAddr maxTtl opts st ≠ .error .ttlZero) ∧
    (∀ iif msg dst msg', Forwards stack iif msg dst msg' → msg'.header.ttl < msg.header.ttl) ∧
    (∀ node msg hops iif msg', Travels stack node msg hops iif msg' → 0 < msg.header.ttl →
      hops ≤ msg.header.ttl - 1) ∧
    (∀ send fuel iif msg st,
      Apart st (nodeRecvMsg stack send fuel iif msg st) (nodeRecvMsg stack mute fuel iif msg st)) ∧
    (∀ send node msg rtentries st, Apart st (nodeSendWith stack send node msg rtentries st)
      (nodeSendWith stack mute node msg rtentries st)) ∧
    (∀ send send' msg, AgreeOnIpip send send' → msg.isIcmpError = true →
      (∀ fuel iif st, nodeRecvMsg stack send fuel iif msg st = nodeRecvMsg stack send' fuel iif msg st) ∧
      ∀ node rtentries st, nodeSendWith stack send node msg rtentries st =
        nodeSendWith stack send' node msg rtentries st) := by
  refine ⟨fun sent st run live fuel iif msg events head => ?_,
    fun fuel turns node dstAddr maxTtl opts st ttl => icmpTraceSend_ttl fuel turns node dstAddr ttl opts st,
    fun iif msg dst msg' forwards => ?_, fun node msg hops iif msg' travels alive => ?_,
    fun send fuel iif msg st => nodeRecvMsg_apart fuel iif msg st,
    fun send node msg rtentries st => nodeSendWith_apart msg rtentries st,
    fun send send' msg agree isError => ⟨nodeRecvMsg_isIcmpError agree isError,
      fun node => nodeSendWith_isIcmpError agree isError⟩⟩
  · have before := run.live live
    have msgLive : Live msg := before.events (iif, msg) (by rw [head]; exact List.mem_cons_self)
    exact ⟨(msgLive.layer (self_mem_layers msg)).1, fun stopped =>
      (before.receive head fuel).1.error stopped rfl⟩
  · have ttl := forwards.ttl.1
    omega
  · have ttl := travels.ttl
    have left := travels.live alive
    omega

/-! ## Two routers -/

/-- The interfaces of each router. -/
inductive Port where
  | loop
  | link
  | tunnel
  deriving DecidableEq

theorem pairRid_injective (a b : Bool) :
    (if a then 0x01000002 else 0x01000001 : NetAddr) = (if b then 0x01000002 else 0x01000001) → a = b := by
  revert a b
  decide

/-- Two routers with a link between them, each with a tunnel. -/
def routerPair (endPoint : Bool → NetAddr) : Topology Bool (Bool × Port) Empty where
  rid b := if b then 0x01000002 else 0x01000001
  ifaces b := if b then [(b, .link), (b, .loop), (b, .tunnel)] else [(b, .loop), (b, .link), (b, .tunnel)]
  iface i :=
    { owner := i.1
      addr :=
        match i.2 with
        | .loop => if i.1 then 0x01000002 else 0x01000001
        | .link => if i.1 then 0x01000001 else 0x01000002
        | .tunnel => if i.1 then 0x0a000002 else 0x0a000001
      mask := 32
      short := le_rfl
      connected :=
        match i.2 with
        | .loop => false
        | .link | .tunnel => true
      type :=
        match i.2 with
        | .loop => .loopback
        | .link => .rtr
        | .tunnel => .virtual
      dest :=
        match i.2 with
        | .loop => none
        | .link => some (.iface (!i.1, .link))
        | .tunnel => some (.endPoint (endPoint i.1))
      enabled := true
      metric := 1 }
  subnetPrefix := nofun
  subnetTransit := nofun
  subnetIfaces := nofun
  dest_matches i dest h := by
    obtain ⟨b, port⟩ := i
    cases port <;> cases h
    · exact ⟨.inl rfl, rfl, by cases b <;> simp⟩
    · rfl
  connected_dest i := by
    obtain ⟨b, port⟩ := i
    cases port <;> simp
  iface_mask i h := by
    obtain ⟨b, port⟩ := i
    cases port <;> simp at h
  rid_injective := pairRid_injective
  ifaces_owner b i member := by
    cases b <;> simp at member <;> obtain rfl | rfl | rfl := member <;> rfl
  ifaces_sorted b := by
    cases b <;> simp
  subnet_mask := nofun
  subnet_injective := nofun
  subnet_dest := nofun
  subnet_sorted := nofun

/-- The two routers, with the source addresses of the tunnels and their routing tables. -/
def pairStack (endPoint srcAddr : Bool → NetAddr) (rt : Bool → NetRt) : Stack Bool (Bool × Port) Empty where
  net := routerPair endPoint
  rt := rt
  ipip _ := true
  upper _ _ := false
  tunnel i := if i.2 = .tunnel then some ⟨none, srcAddr i.1⟩ else none
  endPoint i := endPoint i.1
  tunnel_dest i isTunnel := by
    obtain ⟨b, port⟩ := i
    cases port
    · cases isTunnel
    · cases isTunnel
    · exact ⟨rfl, rfl⟩

/-- A static route for everything, by one interface. -/
def defaultRoute (oif : NetAddr) : NetRt :=
  (∅ : NetRt).insert ⟨0, 0, by decide⟩ (.single
    { pfx := ⟨0, 0, by decide⟩, metric := 0, type := .static, entries := [⟨some oif, netAddrAny⟩] })

/-- The links of the routers, by their addresses. -/
def linkAddr (b : Bool) : NetAddr :=
  if b then 0x01000001 else 0x01000002

/-- The options of a message that is only traced. -/
def plainOpts : Opts :=
  { quickLoop := false, ecmp := false, tunnel := false, load := none, altDest := none, trace := 0 }

/-- Nothing has been sent. -/
def idleState (N I S : Type) : State N I S where
  events := []
  rcvd := none
  traces := []
  fifoTrace := []
  load _ := 0
  entered _ := []
  delivered := []

/-- A trace with a TTL of 0 is sent as it is, and stops the program at the second router. -/
theorem zeroTtl_stops :
    icmpTraceSend (pairStack (fun _ => 0) (fun _ => netAddrAny) fun b => defaultRoute (linkAddr b)) 4 4 false
      0x0a000002 0 plainOpts (idleState Bool (Bool × Port) Empty) = .error .ttlZero :=
  Ends.eq_error (by decide +kernel)

end Cbgp.Verified.Ip
