import Cbgp.Verified.IpHooks

/-! # What the functions of IP post

A function that receives or sends a message posts it again, with its payload, destination and TTL (`Kept`), or
has the node send another one: an ICMP error, a reply, or a message around it.  `Posts` says what the new
events and the copies that wait have in common, given what the sender that the function calls posts
(`Allows`).
-/

namespace Cbgp.Verified.Ip

open Cbgp.Lib Cbgp.Net.Ip
open Cbgp.Net (EntryRef IcmpError IcmpType NetAddr NetError NetMsg NetRt Output Topology netAddrAny netRouteAny
  nodeIpOutput rtFindBest)

variable {N I S : Type}

/-! ## What is posted -/

/-- The events that are new have a property, and so have the TTLs of the copies that did not wait. -/
structure Adds (p : Msg N → Prop) (q : List ℕ → Prop) (st st' : State N I S) : Prop where
  events : ∃ new, st'.events = st.events ++ new ∧ ∀ event ∈ new, p event.2
  fifoTrace : ∃ waiting, st'.fifoTrace = st.fifoTrace ++ waiting ∧ ∀ ctx ∈ waiting, q (ttls ctx.msg)

/-- The assertion on the TTL holds. -/
def TtlKept (crash : Crash) : Prop :=
  crash ≠ .ttlZero

theorem HookFault.ttlKept {crash : Crash} (fault : HookFault crash) : TtlKept crash := by
  obtain rfl | rfl | rfl := fault <;> exact nofun

theorem ends_ttlKept {α : Type} {P : α → Prop} {x : Except Crash α} (ends : Ends P HookFault x) :
    Ends P TtlKept x :=
  ends.mono (fun _ => id) fun _ => HookFault.ttlKept

/-- What a function that sends or receives a message does to the events. -/
def Posts (p : Msg N → Prop) (q : List ℕ → Prop) (st : State N I S) :
    Except Crash (NetError × State N I S) → Prop :=
  Ends (fun after => Adds p q st after.2) TtlKept

namespace Adds

variable {p p' : Msg N → Prop} {q : List ℕ → Prop} {st st' st'' : State N I S}

theorem of_beside (beside : Beside st st') : Adds p q st st' where
  events := ⟨[], by rw [beside.events, List.append_nil], nofun⟩
  fifoTrace := ⟨[], by rw [beside.fifoTrace, List.append_nil], nofun⟩

theorem of_queues {copied : List ℕ} (queues : Queues copied st st') (holds : q copied) :
    Adds p q st st' where
  events := ⟨[], by rw [queues.events, List.append_nil], nofun⟩
  fifoTrace := by
    obtain ⟨waiting, fifo, same⟩ := queues.fifoTrace
    exact ⟨waiting, fifo, fun ctx member => same ctx member ▸ holds⟩

theorem trans (first : Adds p q st st') (second : Adds p q st' st'') : Adds p q st st'' where
  events := by
    obtain ⟨new, events, all⟩ := first.events
    obtain ⟨new', events', all'⟩ := second.events
    refine ⟨new ++ new', by rw [events', events, List.append_assoc], fun event member => ?_⟩
    exact (List.mem_append.mp member).elim (all event) (all' event)
  fifoTrace := by
    obtain ⟨waiting, fifo, all⟩ := first.fifoTrace
    obtain ⟨waiting', fifo', all'⟩ := second.fifoTrace
    refine ⟨waiting ++ waiting', by rw [fifo', fifo, List.append_assoc], fun ctx member => ?_⟩
    exact (List.mem_append.mp member).elim (all ctx) (all' ctx)

theorem one {msg : Msg N} (holds : p msg) (dst : I) : Adds p q st (networkSend msg st dst) where
  events := ⟨[(dst, msg)], rfl, fun event member => by rwa [List.mem_singleton.mp member]⟩
  fifoTrace := ⟨[], (List.append_nil _).symm, nofun⟩

end Adds

theorem Posts.from_beside {p : Msg N → Prop} {q : List ℕ → Prop} {st st' : State N I S} (beside : Beside st st')
    {result : Except Crash (NetError × State N I S)} (posts : Posts p q st' result) : Posts p q st result :=
  posts.mono (fun _ => (Adds.of_beside beside).trans) fun _ => id

/-- What is posted for the ICMP errors and replies that a node sends. -/
structure Answers (send : Sender N I S) (p : Msg N → Prop) (q : List ℕ → Prop) : Prop where
  error : ∀ node dstAddr error st, Posts p q st (icmpSendError send node dstAddr error st)
  reply : ∀ node header st, header.ttl = 255 → Posts p q st (send node (.icmp header node .echoReply) st)

/-- The same for the message itself and for those around it. -/
structure Allows (send : Sender N I S) (p : Msg N → Prop) (q : List ℕ → Prop) (msg : Msg N) : Prop extends
    Answers send p q where
  wire : ∀ msg', Kept msg msg' → p msg'
  copy : q (ttls msg)
  wrap : ∀ msg' outer node st, Kept msg msg' → outer.ttl = 255 →
    Posts p q st (send node (.ipip outer msg') st)

section Posting

variable {stack : Stack N I S} {send : Sender N I S} {p : Msg N → Prop}
  {q : List ℕ → Prop} {msg : Msg N} {node : N}

theorem Allows.kept {msg' : Msg N} (allows : Allows send p q msg) (kept : Kept msg msg') :
    Allows send p q msg' where
  toAnswers := allows.toAnswers
  wire msg'' again := allows.wire msg'' (kept.trans again)
  copy := kept.ttls ▸ allows.copy
  wrap msg'' outer node st again := allows.wrap msg'' outer node st (kept.trans again)

theorem nodeIpFwdError_posts (answers : Answers send p q) (dropped : Msg N) (error : NetError)
    (icmpError : Option IcmpError) (st : State N I S) :
    Ends (Adds p q st) TtlKept (nodeIpFwdError send node dropped error icmpError st) := by
  have hook (st : State N I S) : Ends (Adds p q st) TtlKept (ipOptHookMsgError st dropped error) :=
    (ends_ttlKept (hookMsgError_ends st dropped error)).mono (fun _ => .of_beside) fun _ => id
  have middle (st : State N I S) : Ends (Adds p q st) TtlKept (sendErrorFor send node dropped icmpError st) := by
    unfold sendErrorFor
    split
    · exact Adds.of_beside (.refl st)
    · split
      · exact Adds.of_beside (.refl st)
      · exact (answers.error _ _ _ _).map
  refine (hook st).bind fun st₁ first => (middle st₁).bind fun st₂ second => ?_
  exact (hook st₂).mono (fun _ => (first.trans second).trans) fun _ => id

theorem ipipIfaceSend_posts (allows : Allows send p q msg) (tunnel : Tunnel I) (self : I)
    (st : State N I S) : Posts p q st (ipipIfaceSend stack send tunnel self msg st) := by
  unfold ipipIfaceSend
  split
  · exact Adds.of_beside (.refl st)
  · refine Posts.from_beside (hookMsgEncap_beside st msg.header) ?_
    exact (allows.wrap msg _ _ _ (.refl msg) rfl).bind fun after adds => adds

theorem netIfaceSend_posts (allows : Allows send p q msg) (oif : I) (l2Addr : NetAddr)
    (st : State N I S) : Posts p q st (netIfaceSend stack send oif l2Addr msg st) := by
  have here (st : State N I S) (error : NetError) : Posts p q st (.ok (error, st)) := Adds.of_beside (.refl st)
  have wire (st : State N I S) (dst : I) : Posts p q st (.ok (.success, networkSend msg st dst)) :=
    Adds.one (allows.wire msg (.refl msg)) dst
  unfold netIfaceSend
  dsimp only
  split
  · split
    · exact here st _
    · exact ipipIfaceSend_posts allows _ _ _
  · split
    · exact nofun
    · split
      · exact here st _
      · split
        · exact wire st _
        next subnet _ =>
          refine Posts.from_beside (hookMsgSubnet_beside st stack.net msg subnet) ?_
          split
          · exact here _ _
          · split
            · exact here _ _
            · split
              · exact here _ _
              · exact wire _ _
        · exact nofun
        · exact nofun

/-- The interface is one of the node, and the message keeps its destination; the only error is that the host is
unreachable. -/
theorem nodeIpOutput_result {net : Topology N I S} {node : N} {table : NetRt} {ref : EntryRef} {msg : NetMsg}
    {output : Output I} (done : nodeIpOutput net node table ref msg = .ok output) :
    match output with
    | .error error => error = .hostUnreach
    | .send oif _ sent => (net.iface oif).owner = node ∧ sent.dstAddr = msg.dstAddr := by
  unfold nodeIpOutput at done
  obtain ⟨resolved, _, done⟩ := except_bind_eq_ok.mp done
  split at done
  · cases done
    rfl
  · split at done
    · cases done
    · split at done
      · cases done
      · split at done
        · cases done
        next found =>
          cases done
          refine ⟨net.ifaces_owner node _ (net.nodeFindIface_addr found).1, ?_⟩
          split <;> rfl

variable [DecidableEq N] [DecidableEq I]

theorem nodeIpTransmit_posts (allows : Allows send p q msg) (oif : I) (l2Addr : NetAddr)
    (st : State N I S) : Posts p q st (nodeIpTransmit stack send node oif l2Addr msg st) := by
  refine (ends_ttlKept (hookMsgOut_ends st msg node oif)).bind fun st₁ beside => Posts.from_beside beside ?_
  refine (netIfaceSend_posts allows oif l2Addr st₁).bind fun after adds => ?_
  dsimp only
  split
  · exact adds
  · refine (ends_ttlKept (hookMsgError_ends after.2 msg after.1)).bind fun st₂ beside => ?_
    exact adds.trans (.of_beside beside)

theorem nodeIpOutputSend_posts (allows : Allows send p q msg) (refs : List EntryRef) (st : State N I S) :
    Posts p q st (nodeIpOutputSend stack send node refs msg st) := by
  unfold nodeIpOutputSend
  split
  · exact nofun
  next ref rest =>
    refine (ends_ttlKept (hookMsgEcmp_ends node (ref :: rest) msg st)).bind
      fun after ⟨kept, queues⟩ => ?_
    refine Ends.mono (P := fun after' => Adds p q after.2 after'.2) ?_
      (fun _ => (Adds.of_queues queues allows.copy).trans) fun _ => id
    have allows' := allows.kept kept
    dsimp only
    split
    · exact nofun
    · exact (nodeIpFwdError_posts allows'.toAnswers _ _ _ _).bind fun st' adds => adds
    next oif l2Addr sent output =>
      have kept : Kept after.1 (after.1.setHeader { after.1.header with toNetMsg := sent }) :=
        .set _ (nodeIpOutput_result output).2 rfl
      exact nodeIpTransmit_posts (allows'.kept kept) _ _ _

omit [DecidableEq N] [DecidableEq I] in
theorem nodeIpProcessMsg_posts (answers : Answers send p q) (delivered : Msg N) (st : State N I S) :
    Posts p q st (nodeIpProcessMsg stack send node delivered st) := by
  have unreachable : Posts p q st (do
      let st ← nodeIpFwdError send node delivered .protoUnreach (some .protoUnreach) st
      .ok (.protoUnreach, st)) :=
    (nodeIpFwdError_posts answers _ _ _ _).bind fun st' adds => adds
  unfold nodeIpProcessMsg
  dsimp only
  split
  next header sender type =>
    have heard : Beside st { st with rcvd := some ⟨node, header.srcAddr, header.dstAddr, sender, type⟩ } :=
      ⟨rfl, rfl⟩
    unfold icmpProtoHandle
    dsimp only
    split
    · exact (answers.reply _ _ _ rfl).bind fun after adds => (Adds.of_beside heard).trans adds
    · split
      · exact Adds.of_beside ⟨rfl, rfl⟩
      · exact Adds.of_beside ⟨rfl, rfl⟩
    · exact Adds.of_beside ⟨rfl, rfl⟩
    · exact Adds.of_beside ⟨rfl, rfl⟩
  · split
    · exact Adds.of_beside (.refl _)
    · exact unreachable
  · split
    · exact Adds.of_beside (.refl _)
    · exact unreachable

omit [DecidableEq I] in
theorem nodeIpInput_posts (answers : Answers send p q) (delivered : Msg N) (lif : I) (st : State N I S) :
    Posts p q st (nodeIpInput stack send node lif delivered st) :=
  (ends_ttlKept (hookMsgRcvd_ends st delivered node lif)).bind fun _ beside =>
    Posts.from_beside beside (nodeIpProcessMsg_posts answers delivered _)

theorem nodeSendWith_posts (allows : Allows send p q msg) (rtentries : Option (List EntryRef))
    (st : State N I S) : Posts p q st (nodeSendWith stack send node msg rtentries st) := by
  have beside := hookMsgSent_beside stack.rt st msg node rtentries
  unfold nodeSendWith
  split
  next hooked =>
    rw [hooked] at beside
    exact Posts.from_beside beside (nodeIpOutputSend_posts allows _ _)
  next hooked =>
    rw [hooked] at beside
    refine Posts.from_beside beside ?_
    split
    · exact nodeIpInput_posts allows.toAnswers _ _ _
    · split
      · exact (nodeIpFwdError_posts allows.toAnswers _ _ _ _).bind fun st' adds => adds
      · exact nodeIpOutputSend_posts allows _ _
  next hooked =>
    rw [hooked] at beside
    refine Posts.from_beside beside ?_
    refine (ends_ttlKept (hookMsgError_ends _ msg _)).bind fun st' beside => Adds.of_beside beside

/-- The message with the hop counted. -/
def hopped (msg : Msg N) : Msg N :=
  msg.setHeader { msg.header with ttl := msg.header.ttl - 1 }

theorem nodeRecvForward_posts (answers : Answers send p q)
    (allows : 1 < msg.header.ttl → Allows send p q (hopped msg)) (rtentries : Option (List EntryRef))
    (st : State N I S) : Posts p q st (nodeRecvForward stack send node msg rtentries st) := by
  unfold nodeRecvForward
  split
  · exact (nodeIpFwdError_posts answers _ _ _ _).bind fun st' adds => adds
  next alive =>
    dsimp only
    split
    · exact nodeIpOutputSend_posts (allows (Nat.lt_of_not_le alive)) _ _
    · split
      · exact (nodeIpFwdError_posts answers _ _ _ _).bind fun st' adds => adds
      · exact nodeIpOutputSend_posts (allows (Nat.lt_of_not_le alive)) _ _

/-- A message and the ones inside. -/
def layers : Msg N → List (Msg N)
  | .ipip header inner => .ipip header inner :: layers inner
  | msg => [msg]

omit [DecidableEq N] [DecidableEq I] in
theorem self_mem_layers (msg : Msg N) : msg ∈ layers msg := by
  cases msg <;> exact List.mem_cons_self

/-- The assertion on the TTL fails only for a message without one, or for one around such a message. -/
def TtlFault (msg : Msg N) (crash : Crash) : Prop :=
  crash = .ttlZero → ∃ layer ∈ layers msg, layer.header.ttl = 0

omit [DecidableEq N] [DecidableEq I] in
theorem TtlKept.ttlFault {crash : Crash} (kept : TtlKept crash) : TtlFault msg crash :=
  fun zero => absurd zero kept

/-- What receiving a message does to the events. -/
def RecvPosts (p : Msg N → Prop) (q : List ℕ → Prop) (st : State N I S) (msg : Msg N) :
    Except Crash (NetError × State N I S) → Prop :=
  Ends (fun after => Adds p q st after.2) (TtlFault msg)

omit [DecidableEq N] [DecidableEq I] in
theorem Posts.recv {st st' : State N I S} (beside : Beside st st')
    {result : Except Crash (NetError × State N I S)} (posts : Posts p q st' result) :
    RecvPosts p q st msg result :=
  (Posts.from_beside beside posts).mono (fun _ => id) fun _ => TtlKept.ttlFault

theorem nodeRecvMsg_posts (answers : Answers send p q)
    (allows : ∀ layer ∈ layers msg, 1 < layer.header.ttl → Allows send p q (hopped layer)) (fuel : ℕ)
    (iif : I) (st : State N I S) : RecvPosts p q st msg (nodeRecvMsg stack send fuel iif msg st) := by
  induction fuel generalizing iif msg st with
  | zero => exact nofun
  | succ fuel inductionHypothesis =>
    have onward := allows msg (self_mem_layers msg)
    have beside := hookMsgIn_beside stack.rt st msg (stack.net.iface iif).owner iif
    rw [nodeRecvMsg]
    split
    next zero => exact fun _ => ⟨msg, self_mem_layers msg, zero⟩
    next alive =>
      dsimp only
      split
      next hooked =>
        rw [hooked] at beside
        exact (nodeRecvForward_posts answers onward _ _).recv beside
      next hooked =>
        rw [hooked] at beside
        split
        next lif _ =>
          split
          · exact (nodeIpInput_posts answers _ _ _).recv beside
          · split
            · exact (inductionHypothesis allows lif _).mono (fun _ => (Adds.of_beside beside).trans)
                fun _ => id
            · split
              next header inner _ =>
                -- the message inside has come out of its tunnel
                refine Ends.bind ((hookMsgDecap_ends _ header inner.header).mono (fun _ => beside.trans)
                  fun _ fault => fault.ttlKept.ttlFault) fun st' beside => ?_
                refine (inductionHypothesis
                  (fun layer member => allows layer (List.mem_cons_of_mem _ member)) lif st').mono
                  (fun _ => (Adds.of_beside beside).trans) fun _ fault zero => ?_
                obtain ⟨layer, member, used⟩ := fault zero
                exact ⟨layer, List.mem_cons_of_mem _ member, used⟩
              · exact Posts.recv beside (Adds.of_beside (.refl _))
              · exact Posts.recv beside (Adds.of_beside (.refl _))
        · exact (nodeRecvForward_posts answers onward _ _).recv beside
      next hooked =>
        rw [hooked] at beside
        exact Posts.recv beside (Adds.of_beside (.refl _))

end Posting

end Cbgp.Verified.Ip
