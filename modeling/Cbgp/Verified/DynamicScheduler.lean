import Cbgp.Sim.Scheduler
import Mathlib.Data.List.Perm.Basic

/-! # Order and conservation of events

The dynamic scheduler executes events by time, those of one time as they were posted, and loses
none, as long as its clock is exact: the clock is a `float`, while the time of a bucket is a
`double`.  When the time of a bucket has no `float`, an event posted by a callback can come to
stand before the bucket that is being drained, and is then removed in its place
(`rounded_clock_loses_event`).
-/

namespace Cbgp.Verified

open Cbgp.Lib Cbgp.Sim

variable {ε : Type}

/-! ## Histories -/

/-- A scheduler with what was posted and executed so far. -/
structure History (ε : Type) where
  sched : SchedDynamic ε
  posted : List (Time × ε)
  executed : List (Time × ε)

/-- The event that a step posts. -/
def postedBy (s : SchedDynamic ε) : Input ε → List (Time × ε)
  | .post p =>
    match dueTime s.curTime p with
    | .ok time => [(time, p.ctx)]
    | .error _ => []
  | _ => []

/-- The event whose callback a step enters. -/
def executedBy (s : SchedDynamic ε) : Input ε → List (Time × ε)
  | .tick =>
    match s.phase, s.tick.phase with
    | .inner _ _, .callback bucket _ ctx => [(bucket, ctx)]
    | _, _ => []
  | _ => []

def History.step (h : History ε) (i : Input ε) : Except Fatal (History ε) :=
  (h.sched.step i).map fun s =>
    { sched := s
      posted := h.posted ++ postedBy h.sched i
      executed := h.executed ++ executedBy h.sched i }

/-- A scheduler that was just created. -/
def History.start : History ε :=
  ⟨{}, [], []⟩

/-- The events of one time. -/
def atTime (t : Time) (events : List (Time × ε)) : List (Time × ε) :=
  events.filter fun event => decide (event.1 = t)

/-- Events are executed in order, and each posted event is executed or queued. -/
structure History.Conserved (h : History ε) : Prop where
  ordered : h.executed.Pairwise fun x y => x.1 ≤ y.1
  asPosted : ∀ t, atTime t h.executed <+: atTime t h.posted
  conserved : (h.executed ++ h.sched.queued).Perm h.posted
  counted : h.sched.numEvents = h.sched.queued.length

/-! ## Buckets -/

/-- The buckets stand in the order of their times. -/
def Ascending (buckets : List (Bucket ε)) : Prop :=
  buckets.Pairwise fun b c => b.time < c.time

@[simp] theorem timedEvents_nil : timedEvents ([] : List (Bucket ε)) = [] :=
  rfl

@[simp] theorem timedEvents_cons (b : Bucket ε) (bs : List (Bucket ε)) :
    timedEvents (b :: bs) = b.events.map (fun ctx => (b.time, ctx)) ++ timedEvents bs :=
  rfl

theorem mem_timedEvents {buckets : List (Bucket ε)} {event : Time × ε} :
    event ∈ timedEvents buckets ↔ ∃ b ∈ buckets, b.time = event.1 ∧ event.2 ∈ b.events := by
  obtain ⟨t, ctx⟩ := event
  simp only [timedEvents, List.mem_flatMap, List.mem_map, Prod.mk.injEq]
  constructor
  · rintro ⟨b, member, c, inBucket, rfl, rfl⟩
    exact ⟨b, member, rfl, inBucket⟩
  · rintro ⟨b, member, rfl, inBucket⟩
    exact ⟨b, member, ctx, inBucket, rfl, rfl⟩

@[simp] theorem atTime_append (t : Time) (l l' : List (Time × ε)) :
    atTime t (l ++ l') = atTime t l ++ atTime t l' :=
  List.filter_append ..

theorem atTime_eq_nil {t : Time} {l : List (Time × ε)} (other : ∀ event ∈ l, event.1 ≠ t) :
    atTime t l = [] := by
  simpa [atTime, List.filter_eq_nil_iff] using other

theorem atTime_timedEvents_of_lt {t : Time} {bs : List (Bucket ε)}
    (later : ∀ c ∈ bs, t < c.time) : atTime t (timedEvents bs) = [] := by
  apply atTime_eq_nil
  intro event member
  obtain ⟨c, inList, time, -⟩ := mem_timedEvents.mp member
  exact time ▸ (later c inList).ne'

theorem atTime_singleton (t time : Time) (ctx : ε) :
    atTime t [(time, ctx)] = if time = t then [(time, ctx)] else [] := by
  simp [atTime, List.filter_cons]

section Push

variable {time : Time} {ctx : ε} {buckets buckets' : List (Bucket ε)}

/-- The times of the buckets after a push. -/
theorem pushEvent_times (pushed : pushEvent time ctx buckets = .ok buckets') :
    ∀ c ∈ buckets', c.time = time ∨ ∃ b ∈ buckets, b.time = c.time := by
  induction buckets generalizing buckets' with
  | nil =>
    cases pushed
    simp
  | cons b bs inductionHypothesis =>
    simp only [pushEvent] at pushed
    split at pushed
    · cases pushed
      intro c member
      rcases List.mem_cons.mp member with rfl | old
      · exact .inl rfl
      · exact .inr ⟨c, old, rfl⟩
    split at pushed
    · split at pushed
      · cases pushed
        intro c member
        rcases List.mem_cons.mp member with rfl | old
        · exact .inr ⟨b, List.mem_cons_self, rfl⟩
        · exact .inr ⟨c, List.mem_cons_of_mem _ old, rfl⟩
      · cases pushed
    · obtain ⟨rest, pushedRest, rfl⟩ := except_map_eq_ok.mp pushed
      intro c member
      rcases List.mem_cons.mp member with rfl | new
      · exact .inr ⟨c, List.mem_cons_self, rfl⟩
      · rcases inductionHypothesis pushedRest c new with same | ⟨d, inRest, same⟩
        · exact .inl same
        · exact .inr ⟨d, List.mem_cons_of_mem _ inRest, same⟩

theorem pushEvent_ascending (ascending : Ascending buckets)
    (pushed : pushEvent time ctx buckets = .ok buckets') : Ascending buckets' := by
  induction buckets generalizing buckets' with
  | nil =>
    cases pushed
    simp [Ascending]
  | cons b bs inductionHypothesis =>
    obtain ⟨first, rest⟩ := List.pairwise_cons.mp ascending
    simp only [pushEvent] at pushed
    split at pushed
    · rename_i earlier
      cases pushed
      refine List.pairwise_cons.mpr ⟨fun c member => ?_, ascending⟩
      rcases List.mem_cons.mp member with rfl | inRest
      · exact earlier
      · exact earlier.trans (first c inRest)
    split at pushed
    · split at pushed
      · cases pushed
        exact List.pairwise_cons.mpr ⟨first, rest⟩
      · cases pushed
    · rename_i notEarlier notSame
      obtain ⟨new, pushedRest, rfl⟩ := except_map_eq_ok.mp pushed
      refine List.pairwise_cons.mpr ⟨fun c member => ?_, inductionHypothesis rest pushedRest⟩
      rcases pushEvent_times pushedRest c member with same | ⟨d, inRest, same⟩
      · exact same ▸ lt_of_le_of_ne (not_lt.mp notEarlier) (Ne.symm notSame)
      · exact same ▸ first d inRest

/-- An event is pushed after those of its time. -/
theorem pushEvent_atTime (ascending : Ascending buckets)
    (pushed : pushEvent time ctx buckets = .ok buckets') (t : Time) :
    atTime t (timedEvents buckets') = atTime t (timedEvents buckets) ++ atTime t [(time, ctx)] := by
  induction buckets generalizing buckets' with
  | nil =>
    cases pushed
    simp [timedEvents, atTime]
  | cons b bs inductionHypothesis =>
    obtain ⟨first, rest⟩ := List.pairwise_cons.mp ascending
    simp only [pushEvent] at pushed
    split at pushed
    · rename_i earlier
      cases pushed
      rw [timedEvents_cons, List.map_singleton, atTime_append]
      by_cases here : time = t
      · have none : atTime t (timedEvents (b :: bs)) = [] := by
          apply atTime_timedEvents_of_lt
          intro c member
          rcases List.mem_cons.mp member with rfl | inRest
          · exact here ▸ earlier
          · exact here ▸ earlier.trans (first c inRest)
        rw [none, List.append_nil, List.nil_append]
      · simp [atTime_singleton, here]
    split at pushed
    · rename_i same
      split at pushed
      · cases pushed
        -- the later buckets hold nothing of this time
        simp only [timedEvents_cons, List.map_append, List.map_singleton, atTime_append, ← same]
        by_cases here : time = t
        · have none : atTime t (timedEvents bs) = [] :=
            atTime_timedEvents_of_lt fun c inRest => here ▸ same ▸ first c inRest
          simp [none]
        · simp [atTime_singleton, here]
      · cases pushed
    · obtain ⟨new, pushedRest, rfl⟩ := except_map_eq_ok.mp pushed
      simp only [timedEvents_cons, atTime_append, inductionHypothesis rest pushedRest,
        List.append_assoc]

/-- The first bucket stays the first when a later or equal time is pushed. -/
theorem pushEvent_head {b : Bucket ε} {bs : List (Bucket ε)} (notEarlier : b.time ≤ time)
    (pushed : pushEvent time ctx (b :: bs) = .ok buckets') :
    ∃ c cs, buckets' = c :: cs ∧ c.time = b.time := by
  simp only [pushEvent, not_lt.mpr notEarlier, if_false] at pushed
  split at pushed
  · split at pushed
    · cases pushed
      exact ⟨_, _, rfl, rfl⟩
    · cases pushed
  · obtain ⟨new, -, rfl⟩ := except_map_eq_ok.mp pushed
    exact ⟨_, _, rfl, rfl⟩

end Push

/-- What a drain of the first bucket finds. -/
theorem popEvent_head {b : Bucket ε} {bs : List (Bucket ε)} :
    popEvent b.time (b :: bs) = b.events.head?.map fun ctx =>
      (ctx, { b with events := b.events.tail } :: bs) := by
  simp only [popEvent, if_true]
  cases b.events <;> rfl

/-- Lists that agree at every time have the same events. -/
theorem perm_of_atTime {l l' : List (Time × ε)} (same : ∀ t, atTime t l = atTime t l') :
    l.Perm l' := by
  classical
  rw [List.perm_iff_count]
  intro event
  have counted : ∀ m : List (Time × ε), List.count event (atTime event.1 m) = List.count event m :=
    fun m => List.count_filter (by simp)
  rw [← counted l, same, counted]

/-! ## The invariant -/

/-- The bucket that the inner loop holds on to. -/
def held (s : SchedDynamic ε) : Option Time :=
  match s.phase with
  | .inner bucket _ | .callback bucket _ _ => some bucket
  | .idle _ | .outer _ => none

/-- The clock is the time of the bucket that is being drained, which is the first one. -/
structure History.Sound (h : History ε) : Prop where
  ascending : Ascending h.sched.buckets
  exactly : ∀ b ∈ h.sched.buckets, single.Exact b.time
  clock : single.Exact h.sched.curTime
  future : ∀ b ∈ h.sched.buckets, h.sched.curTime ≤ b.time
  drains : ∀ t, held h.sched = some t →
    h.sched.curTime = t ∧ ∃ b bs, h.sched.buckets = b :: bs ∧ b.time = t
  past : ∀ event ∈ h.executed, event.1 ≤ h.sched.curTime
  ordered : h.executed.Pairwise fun x y => x.1 ≤ y.1
  accounted : ∀ t, atTime t (h.executed ++ h.sched.queued) = atTime t h.posted
  small : h.sched.queued.length < 2 ^ 32

/-- The time or the delay of a post is a `float` that is not negative. -/
def FloatTime (p : Post ε) : Prop :=
  0 ≤ p.time ∧ single.Exact (WithTop.some p.time.toNat)

def FloatPosts (_ : History ε) : Input ε → Prop
  | .post p => FloatTime p
  | _ => True

/-- The time at which the event is due is a `float` as well, and the number of events fits. -/
structure ExactPost (h : History ε) (p : Post ε) : Prop where
  arg : FloatTime p
  due : Ends single.Exact (fun _ => True) (dueTime h.sched.curTime p)
  room : h.sched.queued.length + 1 < 2 ^ 32

def ExactPosts (h : History ε) : Input ε → Prop
  | .post p => ExactPost h p
  | _ => True

theorem start_sound : (History.start : History ε).Sound where
  ascending := List.Pairwise.nil
  exactly := by simp [History.start]
  clock := single.exact_zero
  future := by simp [History.start]
  drains := by simp [History.start, held]
  past := by simp [History.start]
  ordered := List.Pairwise.nil
  accounted t := rfl
  small := Nat.two_pow_pos 32

section Steps

variable {h : History ε}

theorem double_widens : double.Widens single :=
  ⟨by decide, by decide, by decide⟩

/-- Events are due at the current time at the earliest. -/
theorem dueTime_future {curTime t : Time} {p : Post ε} (clock : single.Exact curTime)
    (nonneg : 0 ≤ p.time) (due : dueTime curTime p = .ok t) : curTime ≤ t := by
  simp only [dueTime] at due
  split at due
  · split at due
    · cases due
      exact le_rfl
    · rename_i now
      split at due
      · cases due
      · obtain rfl := Except.ok.inj due
        apply (clock.widen double_widens).le_round
        refine WithTop.coe_le_coe.mpr ?_
        omega
  · split at due
    · cases due
    · rename_i notPast
      cases due
      exact not_lt.mp fun late => notPast (.inr late)

theorem length_queued_perm {l l' : List (Time × ε)} {event : Time × ε}
    (same : ∀ t, atTime t l' = atTime t l ++ atTime t [event]) : l'.length = l.length + 1 := by
  have perm : l'.Perm (l ++ [event]) := perm_of_atTime fun t => by rw [same, atTime_append]
  simpa using perm.length_eq

theorem History.Sound.post {s : SchedDynamic ε} {p : Post ε} (sound : h.Sound) (exactly : ExactPost h p)
    (posted : h.sched.post p = .ok s) :
    History.Sound ⟨s, h.posted ++ postedBy h.sched (.post p), h.executed ++ []⟩ := by
  obtain ⟨time, due, pushing⟩ := except_bind_eq_ok.mp posted
  obtain ⟨buckets, pushed, ended⟩ := except_bind_eq_ok.mp pushing
  cases ended
  have notEarlier := dueTime_future sound.clock exactly.arg.1 due
  have appended := pushEvent_atTime sound.ascending pushed
  have times := pushEvent_times pushed
  refine ⟨pushEvent_ascending sound.ascending pushed, ?_, sound.clock, ?_, ?_, ?_, ?_, ?_, ?_⟩
  · intro c member
    rcases times c member with same | ⟨b, old, same⟩
    · exact same ▸ exactly.due.value due
    · exact same ▸ sound.exactly b old
  · intro c member
    rcases times c member with same | ⟨b, old, same⟩
    · exact same ▸ notEarlier
    · exact same ▸ sound.future b old
  · intro t holds
    obtain ⟨now, b, bs, first, same⟩ := sound.drains t holds
    rw [first] at pushed
    obtain ⟨c, cs, first', same'⟩ := pushEvent_head (by rwa [same, ← now]) pushed
    exact ⟨now, c, cs, first', same'.trans same⟩
  · simpa using sound.past
  · simpa using sound.ordered
  · intro t
    have old := sound.accounted t
    simp only [SchedDynamic.queued, atTime_append, postedBy, due, List.append_nil, appended] at old ⊢
    rw [← List.append_assoc, old]
  · have grown := length_queued_perm appended
    exact grown ▸ exactly.room

/-- A step that leaves the buckets and the clock alone, and may let the bucket held go. -/
theorem History.Sound.retain {s : SchedDynamic ε} (sound : h.Sound)
    (buckets : s.buckets = h.sched.buckets) (clock : s.curTime = h.sched.curTime)
    (lets : ∀ t, held s = some t → held h.sched = some t) :
    History.Sound ⟨s, h.posted, h.executed⟩ where
  ascending := buckets ▸ sound.ascending
  exactly := buckets ▸ sound.exactly
  clock := clock ▸ sound.clock
  future := buckets ▸ clock ▸ sound.future
  drains t isHeld := buckets ▸ clock ▸ sound.drains t (lets t isHeld)
  past := clock ▸ sound.past
  ordered := sound.ordered
  accounted := by
    rw [SchedDynamic.queued, buckets]
    exact sound.accounted
  small := by
    rw [SchedDynamic.queued, buckets]
    exact sound.small

/-- The clock is set to the time of the first bucket. -/
theorem History.Sound.advance {b : Bucket ε} {bs : List (Bucket ε)} {phase : Phase ε}
    (sound : h.Sound) (first : h.sched.buckets = b :: bs)
    (holds : ∀ t, held { h.sched with phase := phase } = some t → t = b.time) :
    History.Sound { h with
      sched := { h.sched with curTime := single.round b.time, phase := phase } } := by
  have member : b ∈ h.sched.buckets := first ▸ List.mem_cons_self
  have isExact := sound.exactly b member
  rw [isExact.round_eq]
  have earliest : ∀ c ∈ h.sched.buckets, b.time ≤ c.time := by
    have ascending := sound.ascending
    rw [Ascending, first, List.pairwise_cons] at ascending
    rw [first]
    intro c inList
    rcases List.mem_cons.mp inList with rfl | later
    · exact le_rfl
    · exact (ascending.1 c later).le
  exact
    { ascending := sound.ascending
      exactly := sound.exactly
      clock := isExact
      future := earliest
      drains := fun t isHeld => ⟨(holds t isHeld).symm, b, bs, first, (holds t isHeld).symm⟩
      past := fun event executed => (sound.past event executed).trans (sound.future b member)
      ordered := sound.ordered
      accounted := sound.accounted
      small := sound.small }

/-- The first event of the bucket held is executed. -/
theorem History.Sound.execute {b : Bucket ε} {bs : List (Bucket ε)} {ctx : ε} {events : List ε}
    {numSteps : Nat} (sound : h.Sound) (phase : h.sched.phase = .inner b.time numSteps)
    (first : h.sched.buckets = b :: bs) (next : b.events = ctx :: events) :
    History.Sound
      { h with
        sched := { h.sched with
          buckets := { b with events := events } :: bs
          phase := .callback b.time numSteps ctx }
        executed := h.executed ++ [(b.time, ctx)] } := by
  have now : h.sched.curTime = b.time := (sound.drains b.time (by rw [held, phase])).1
  have ascending := sound.ascending
  have exactly := sound.exactly
  have future := sound.future
  have accounted := sound.accounted
  have small := sound.small
  simp only [Ascending, first, List.pairwise_cons, List.forall_mem_cons] at ascending exactly future
  simp only [SchedDynamic.queued, first, timedEvents_cons, next, List.map_cons] at accounted small
  refine ⟨List.pairwise_cons.mpr ascending, List.forall_mem_cons.mpr exactly, sound.clock,
    List.forall_mem_cons.mpr future, ?_, ?_, ?_, ?_, ?_⟩
  · intro t isHeld
    cases isHeld
    exact ⟨now, _, _, rfl, rfl⟩
  · intro event member
    rcases List.mem_append.mp member with old | new
    · exact sound.past event old
    · rw [List.mem_singleton.mp new]
      exact now.ge
  · refine List.pairwise_append.mpr ⟨sound.ordered, List.pairwise_singleton _ _, ?_⟩
    intro x old y new
    rw [List.mem_singleton.mp new]
    exact (sound.past x old).trans now.le
  · intro t
    simpa [SchedDynamic.queued] using accounted t
  · refine lt_of_le_of_lt ?_ small
    simp [SchedDynamic.queued]

/-- The bucket held is drained, and the first bucket removed. -/
theorem History.Sound.remove {b : Bucket ε} {bs : List (Bucket ε)} (numSteps : Nat) (sound : h.Sound)
    (first : h.sched.buckets = b :: bs) (drained : b.events = []) :
    History.Sound { h with
      sched := { h.sched with buckets := h.sched.buckets.tail, phase := .outer numSteps } } := by
  have ascending := sound.ascending
  have exactly := sound.exactly
  have future := sound.future
  have accounted := sound.accounted
  have small := sound.small
  simp only [Ascending, first, List.pairwise_cons, List.forall_mem_cons] at ascending exactly future
  simp only [SchedDynamic.queued, first, timedEvents_cons, drained, List.map_nil, List.nil_append]
    at accounted small
  rw [first]
  exact ⟨ascending.2, exactly.2, sound.clock, future.2, by simp [held], sound.past, sound.ordered,
    accounted, small⟩

theorem History.Sound.tick (sound : h.Sound) :
    History.Sound ⟨h.sched.tick, h.posted, h.executed ++ executedBy h.sched .tick⟩ := by
  cases phase : h.sched.phase with
  | idle result => simpa [SchedDynamic.tick, executedBy, phase] using sound
  | callback bucket numSteps ctx => simpa [SchedDynamic.tick, executedBy, phase] using sound
  | outer numSteps =>
    simp only [executedBy, phase, List.append_nil]
    cases first : h.sched.buckets with
    | nil =>
      simp only [SchedDynamic.tick, phase, first]
      exact sound.retain first.symm rfl (by simp [held])
    | cons b bs =>
      simp only [SchedDynamic.tick, phase, first]
      split
      · exact first ▸ sound.advance first (by simp [held])
      · exact first ▸ sound.advance first (by simp [held])
  | inner bucket numSteps =>
    obtain ⟨now, b, bs, first, rfl⟩ := sound.drains bucket (by rw [held, phase])
    cases next : b.events with
    | nil =>
      have removed := sound.remove numSteps first next
      simpa [SchedDynamic.tick, executedBy, phase, first, popEvent_head, next] using removed
    | cons ctx events =>
      have executed := sound.execute phase first next
      simpa [SchedDynamic.tick, executedBy, phase, first, popEvent_head, next] using executed

theorem History.Sound.step {h' : History ε} {i : Input ε} (sound : h.Sound) (allowed : ExactPosts h i)
    (stepped : h.step i = .ok h') : h'.Sound := by
  obtain ⟨s, done, rfl⟩ := except_map_eq_ok.mp stepped
  cases i with
  | post p => exact sound.post allowed done
  | tick =>
    cases done
    simpa [postedBy] using sound.tick
  | run numSteps =>
    cases done
    simp only [postedBy, executedBy, List.append_nil]
    cases phase : h.sched.phase with
    | idle result =>
      simp only [SchedDynamic.run, phase]
      exact sound.retain rfl rfl (by simp [held])
    | outer _ | inner _ _ | callback _ _ _ => simpa [SchedDynamic.run, phase] using sound
  | ret result =>
    cases done
    simp only [postedBy, executedBy, List.append_nil]
    cases phase : h.sched.phase with
    | callback bucket numSteps ctx =>
      simp only [SchedDynamic.ret, phase]
      split
      · exact sound.retain rfl rfl (by simp [held])
      · exact sound.retain rfl rfl (by simp [held, phase])
    | idle _ | outer _ | inner _ _ => simpa [SchedDynamic.ret, phase] using sound
  | cancel =>
    cases done
    simpa [postedBy, executedBy] using sound.retain (s := { h.sched with cancelled := true }) rfl rfl
      fun _ isHeld => isHeld
  | setMaxTime time =>
    cases done
    simpa [postedBy, executedBy] using sound.retain (s := { h.sched with maxTime := time }) rfl rfl
      fun _ isHeld => isHeld

end Steps

/-! ## Order and conservation -/

theorem numEvents_eq {s : SchedDynamic ε} (small : s.queued.length < 2 ^ 32) :
    s.numEvents = s.queued.length := by
  suffices summed : ∀ (buckets : List (Bucket ε)) (n : Nat), n + (timedEvents buckets).length < 2 ^ 32 →
      buckets.foldl (fun n b => (n + b.events.length) % 2 ^ 32) n = n + (timedEvents buckets).length by
    rw [SchedDynamic.queued] at small ⊢
    simpa [SchedDynamic.numEvents] using summed s.buckets 0 (by simpa using small)
  intro buckets
  induction buckets with
  | nil => simp
  | cons b bs inductionHypothesis =>
    intro n fits
    simp only [timedEvents_cons, List.length_append, List.length_map] at fits ⊢
    rw [List.foldl_cons, Nat.mod_eq_of_lt (by omega), inductionHypothesis _ (by omega)]
    omega

theorem History.Sound.conserved {h : History ε} (sound : h.Sound) : h.Conserved where
  ordered := sound.ordered
  asPosted t := ⟨atTime t h.sched.queued, by rw [← atTime_append, sound.accounted]⟩
  conserved := perm_of_atTime sound.accounted
  counted := numEvents_eq sound.small

/-- Whatever is posted, from outside or by callbacks, and however often the scheduler is run and
for how many steps: as long as the events are due at times that the clock can hold, they are
executed in order and none is lost. -/
theorem events_conserved {h : History ε} (reached : Reach History.step ExactPosts History.start h) :
    h.Conserved :=
  (reached.invariant start_sound fun sound allowed stepped => sound.step allowed stepped).conserved

section Examples

instance (h : History ε) (i : Input ε) : Decidable (FloatPosts h i) :=
  match i with
  | .post _ => inferInstanceAs (Decidable (_ ∧ _))
  | .run _ | .tick | .ret _ | .cancel | .setMaxTime _ => .isTrue trivial

instance (h : History ε) (i : Input ε) : Decidable (ExactPosts h i) :=
  match i with
  | .post p =>
    have : Decidable (FloatTime p) := inferInstanceAs (Decidable (_ ∧ _))
    decidable_of_iff (FloatTime p ∧ Ends single.Exact (fun _ => True) (dueTime h.sched.curTime p) ∧
      h.sched.queued.length + 1 < 2 ^ 32) ⟨fun ⟨a, d, r⟩ => ⟨a, d, r⟩, fun e => ⟨e.arg, e.due, e.room⟩⟩
  | .run _ | .tick | .ret _ | .cancel | .setMaxTime _ => .isTrue trivial

/-- A callback posts an event for the time being drained and one for later. -/
def postingRun : List (Input Nat) :=
  [.post ⟨1, 12 * second, .rel⟩, .post ⟨2, 6 * second, .rel⟩, .run 0, .tick, .tick,
    .post ⟨3, 0, .rel⟩, .post ⟨4, 12 * second, .abs⟩, .ret 0, .tick, .ret 0, .tick, .tick, .tick]

theorem postingRun_conserved : ∃ h, postingRun.foldlM History.step History.start = .ok h ∧
    h.executed.map (·.2) = [2, 3, 1] ∧ h.Conserved := by
  have runs : okAnd (postingRun.foldlM History.step History.start)
      (fun h => h.executed.map (·.2) = [2, 3, 1]) = true := by decide +kernel
  have allowed : ∀ entry ∈ loopStates History.step History.start postingRun,
      ExactPosts entry.1 entry.2 := by decide +kernel
  obtain ⟨h, ended, order⟩ := okAnd_iff.mp runs
  exact ⟨h, ended, by simpa using order, events_conserved (Reach.of_foldlM allowed ended)⟩

/-- At 2^24, an event is posted one second ahead; there is no `float` for this time, and the clock
stays at 2^24.  What its callback posts without delay goes to a new bucket before its own, which is
removed when the other bucket is drained. -/
def losingRun : List (Input Nat) :=
  [.post ⟨1, 2 ^ 24 * second, .abs⟩, .run 0, .tick, .tick, .post ⟨2, second, .rel⟩, .ret 0, .tick,
    .tick, .tick, .post ⟨3, 0, .rel⟩, .ret 0, .tick]

theorem rounded_clock_loses_event :
    ¬ ∀ h : History Nat, Reach History.step FloatPosts History.start h → h.Conserved := by
  intro conserved
  have runs : okAnd (losingRun.foldlM History.step History.start)
      (fun h => h.executed.length + h.sched.queued.length ≠ h.posted.length) = true := by
    decide +kernel
  have allowed : ∀ entry ∈ loopStates History.step History.start losingRun,
      FloatPosts entry.1 entry.2 := by decide +kernel
  obtain ⟨h, ended, lost⟩ := okAnd_iff.mp runs
  have perm := (conserved h (Reach.of_foldlM allowed ended)).conserved
  exact (of_decide_eq_true lost) (by simpa using perm.length_eq)

end Examples

end Cbgp.Verified
