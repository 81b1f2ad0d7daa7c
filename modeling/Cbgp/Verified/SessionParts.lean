import Cbgp.Verified.SessionPair

/-! # The parts of the two ends

Of two routers with a session between them, one sends and the other receives.  A step of the network is the
delivery of a message of the session to the receiver, something else that the receiver does, something that the
sender does, or none of their business (`netStep_part`).
-/

namespace Cbgp.Verified

open Cbgp.Lib Cbgp.Net Cbgp.Bgp

/-- The router takes the step, in a step of the network. -/
inductive Performs {ι : Type} [DecidableEq ι] (owner : NetAddr → Option ι) (n : Network ι) :
    NetOp ι → ι → Op → Prop where
  | act (k : ι) (o : Op) : Performs owner n (.act k o) k o
  | deliver {k m : ι} {d : NetAddr} {sent : Sent} {rest : List Sent} (head : n.inFlight k d = sent :: rest)
      (target : owner d = some m) : Performs owner n (.deliver k d) m (.handleMessage sent.src sent.msg)

/-- The oldest message has left a queue, or none has. -/
def Shrinks (before after : List Msg) : Prop := after = before ∨ ∃ msg, before = msg :: after

theorem Shrinks.all {before after : List Msg} (shrinks : Shrinks before after) {p : Msg → Prop}
    (all : ∀ msg ∈ before, p msg) : ∀ msg ∈ after, p msg := by
  intro msg member
  obtain same | ⟨first, same⟩ := shrinks
  · exact all msg (same ▸ member)
  · exact all msg (same ▸ List.mem_cons_of_mem first member)

/-- What a step of the network is for the messages from router `j` to router `i`. -/
inductive Part {ι : Type} [DecidableEq ι] (owner : NetAddr → Option ι) (n n' : Network ι) (i j : ι) (a b : NetAddr)
    (op : NetOp ι) : Prop where
  | received (msg : Msg) (same : op = .deliver j a)
      (stepped : exec (n.router i) (.handleMessage b msg) = .ok (n'.router i)) (away : n'.router j = n.router j)
      (flight : wire n j a = msg :: wire n' j a) (kept : n'.taken i b = n.taken i b)
  | receiver (o : Op) (performs : Performs owner n op i o) (other : ∀ msg, o ≠ .handleMessage b msg)
      (apart : op = .deliver j a → wire n j a = [])
      (stepped : exec (n.router i) o = .ok (n'.router i)) (away : n'.router j = n.router j)
      (flight : wire n' j a = wire n j a) (kept : n'.taken i b = n.taken i b)
  | sender (o : Op) (performs : Performs owner n op j o)
      (hears : ∀ msg, o = .handleMessage a msg → wire n i b = msg :: wire n' i b)
      (apart : op = .deliver j a → wire n j a = [])
      (stepped : exec (n.router j) o = .ok (n'.router j)) (away : n'.router i = n.router i)
      (back : Shrinks (wire n i b) (wire n' i b)) (kept : n'.taken j a = n.taken j a)
  | outside (apart : op = .deliver j a → wire n j a = []) (away : n'.router i = n.router i)
      (away' : n'.router j = n.router j) (flight : wire n' j a = wire n j a)
      (back : Shrinks (wire n i b) (wire n' i b))

section Parts

variable {ι : Type} {owner : NetAddr → Option ι} {n n' : Network ι} {i j k : ι} {a b d : NetAddr}

/-- The end and its messages are a matter of its router and of what has left its queue. -/
theorem wire_same (router : n'.router i = n.router i) (kept : n'.taken i b = n.taken i b) :
    wire n' i b = wire n i b := by
  rw [wire_eq, wire_eq, router, kept]

theorem side_same (router : n'.router i = n.router i) : side n' i b = side n i b := by
  rw [side, side, router]

variable [DecidableEq ι]

theorem taken_take_ne (differ : (j, a) ≠ (k, d)) : (n.take k d).taken j a = n.taken j a := by
  simp only [Network.take]
  by_cases sameRouter : j = k
  · subst sameRouter
    have differ' : a ≠ d := fun same => differ (by rw [same])
    simp [Function.update_of_ne differ']
  · simp [Function.update_of_ne sameRouter]

theorem wire_take_shrinks (n : Network ι) (i k : ι) (b d : NetAddr) :
    Shrinks (wire n i b) (wire (n.take k d) i b) := by
  by_cases same : (i, b) = (k, d)
  · cases same
    cases queue : wire n i b with
    | nil =>
      left
      have flight : n.inFlight i b = [] := List.map_eq_nil_iff.mp queue
      rw [Network.inFlight, List.drop_eq_nil_iff] at flight
      refine List.map_eq_nil_iff.mpr (List.drop_eq_nil_iff.mpr ?_)
      simp only [Network.take, Function.update_self]
      exact Nat.le_succ_of_le flight
    | cons msg rest => exact .inr ⟨msg, by rw [wire_take queue]⟩
  · exact .inl (wire_take_ne same)

omit [DecidableEq ι] in
/-- Messages of a session come from its queue. -/
theorem Half.spontaneous {o : Op} (half : Half owner n i j a b) (genuine : Genuine n (.act i o)) (msg : Msg) :
    o ≠ .handleMessage b msg := by
  rintro rfl
  obtain ⟨peer, held, real, _⟩ := half.peer
  have isVirtual : peer.virtual = true := genuine peer held
  rw [isVirtual] at real
  cases real

/-- A delivery of a message to router `m`. -/
theorem netStep_part_delivered {m : ι} {r : Router} {sent : Sent} {rest : List Sent} (well : WellAddressed owner n)
    (paired : Mutual owner n i j a b) (head : n.inFlight k d = sent :: rest) (target : owner d = some m)
    (stepped : exec (n.router m) (.handleMessage sent.src sent.msg) = .ok r) :
    Part owner n ((n.take k d).setRouter m r) i j a b (.deliver k d) := by
  have differ := paired.differ
  have queue : wire n k d = sent.msg :: rest.map (·.msg) := by simp [wire, head]
  have here : ((n.take k d).setRouter m r).router m = r := Function.update_self ..
  have elsewhere {l : ι} (other : l ≠ m) : ((n.take k d).setRouter m r).router l = n.router l :=
    Function.update_of_ne other ..
  have reached : exec (n.router m) (.handleMessage sent.src sent.msg) =
      .ok (((n.take k d).setRouter m r).router m) := stepped.trans (congrArg Except.ok here.symm)
  -- a message to another router is not on its way from the sender to the receiver
  have apart (other : i ≠ m) : (j, a) ≠ (k, d) := by
    intro same
    cases same
    rw [paired.right.remote] at target
    exact other (Option.some.inj target)
  by_cases atReceiver : m = i
  · -- the receiver takes a message, of the session or of another peer
    subst atReceiver
    have notOut : (m, b) ≠ (k, d) := by
      intro same
      cases same
      rw [paired.left.remote] at target
      exact differ (Option.some.inj target).symm
    by_cases source : sent.src = b
    · obtain ⟨rfl, rfl⟩ := well.sender paired head target source
      rw [source] at reached
      refine .received sent.msg rfl reached (elsewhere differ.symm) ?_ (taken_take_ne notOut)
      rw [wire_setRouter_ne differ.symm, wire_take queue, queue]
    · have notBack : (j, a) ≠ (k, d) := by
        intro same
        cases same
        exact source (well.source paired.right head)
      refine .receiver _ (.deliver head target) ?_ ?_ reached (elsewhere differ.symm) ?_ (taken_take_ne notOut)
      · intro msg same
        cases same
        exact source rfl
      · intro same
        cases same
        exact absurd rfl notBack
      · rw [wire_setRouter_ne differ.symm, wire_take_ne notBack]
  · -- another router does, perhaps the sender, and perhaps a message of the receiver
    have notBack := apart (Ne.symm atReceiver)
    have others : (.deliver k d : NetOp ι) = .deliver j a → wire n j a = [] := by
      intro same
      cases same
      exact absurd rfl notBack
    have back : Shrinks (wire n i b) (wire ((n.take k d).setRouter m r) i b) := by
      rw [wire_setRouter_ne (Ne.symm atReceiver)]
      exact wire_take_shrinks n i k b d
    by_cases atSender : m = j
    · subst atSender
      refine .sender _ (.deliver head target) ?_ others reached (elsewhere (Ne.symm atReceiver)) back
        (taken_take_ne notBack)
      intro msg same
      cases same
      obtain ⟨rfl, rfl⟩ := well.sender paired.symm head target rfl
      rw [wire_setRouter_ne (Ne.symm atReceiver), wire_take queue, queue]
    · refine .outside others (elsewhere (Ne.symm atReceiver)) (elsewhere (Ne.symm atSender)) ?_ back
      rw [wire_setRouter_ne (Ne.symm atSender), wire_take_ne notBack]

/-- A step of the network that loses no message to the receiver has one of four parts in their session. -/
theorem netStep_part {op : NetOp ι} (well : WellAddressed owner n) (paired : Mutual owner n i j a b)
    (genuine : Genuine n op) (kept : op ≠ .lose j a) (h : netStep owner n op = .ok n') :
    Part owner n n' i j a b op := by
  cases op with
  | act k o =>
    obtain ⟨r, stepped, rfl⟩ := except_map_eq_ok.mp h
    have here : (n.setRouter k r).router k = r := Function.update_self ..
    have elsewhere {l : ι} (other : l ≠ k) : (n.setRouter k r).router l = n.router l :=
      Function.update_of_ne other ..
    have reached : exec (n.router k) o = .ok ((n.setRouter k r).router k) :=
      stepped.trans (congrArg Except.ok here.symm)
    have others : (.act k o : NetOp ι) = .deliver j a → wire n j a = [] := by
      intro same
      cases same
    by_cases atReceiver : k = i
    · subst atReceiver
      exact .receiver o (.act k o) (paired.left.spontaneous genuine) others reached (elsewhere paired.differ.symm)
        (wire_setRouter_ne paired.differ.symm a) rfl
    · have back : Shrinks (wire n i b) (wire (n.setRouter k r) i b) :=
        .inl (wire_setRouter_ne (Ne.symm atReceiver) b)
      by_cases atSender : k = j
      · subst atSender
        refine .sender o (.act k o) (fun msg same => ?_) others reached (elsewhere (Ne.symm atReceiver)) back rfl
        exact absurd same (paired.right.spontaneous genuine msg)
      · exact .outside others (elsewhere (Ne.symm atReceiver)) (elsewhere (Ne.symm atSender))
          (wire_setRouter_ne (Ne.symm atSender) a) back
  | deliver k d =>
    simp only [netStep] at h
    split at h
    next sent rest m head target =>
      obtain ⟨r, stepped, rfl⟩ := except_map_eq_ok.mp h
      exact netStep_part_delivered well paired head target stepped
    next stuck =>
      cases h
      refine .outside (fun same => ?_) rfl rfl rfl (.inl rfl)
      -- a message to the receiver would have been delivered
      cases same
      cases queue : n.inFlight j a with
      | nil => exact List.map_eq_nil_iff.mpr queue
      | cons sent rest => exact absurd paired.right.remote (stuck sent rest i queue)
  | lose k d =>
    simp only [netStep, Except.ok.injEq] at h
    subst h
    have others : (.lose k d : NetOp ι) = .deliver j a → wire n j a = [] := by
      intro same
      cases same
    split
    · exact .outside others rfl rfl rfl (.inl rfl)
    · have notBack : (j, a) ≠ (k, d) := by
        intro same
        cases same
        exact kept rfl
      exact .outside others rfl rfl (wire_take_ne notBack) (wire_take_shrinks n i k b d)

/-! ## Steps of an end -/

/-- The router of an end took a step, and nothing has left its queue. -/
theorem Half.acts {o : Op} (half : Half owner n i j a b) (kept : n'.taken i b = n.taken i b)
    (h : Bgp.exec (n.router i) o = .ok (n'.router i)) :
    ∃ e sent, Endpoint.Step (n.router i).rid (lineUp n i b) ((n.router i).env.sessionOk b) (side n i b)
      (inputOf b o) e sent ∧ side n' i b = e ∧ wire n' i b = wire n i b ++ sent := by
  obtain ⟨_, e, sent, step, moved, out⟩ := half.exec h
  have here : (n.setRouter i (n'.router i)).router i = n'.router i := Function.update_self ..
  have same := here.symm
  exact ⟨e, sent, step, (side_same same).trans moved, (wire_same same kept).trans out⟩

end Parts

end Cbgp.Verified
