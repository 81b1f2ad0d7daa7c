import Cbgp.Verified.DynamicScheduler
import Mathlib.Data.List.Infix

/-! # Static and dynamic schedulers

With events that are all due at once, both schedulers are one queue.  The static scheduler stops at
the first callback that fails and counts its events against the limit on simulation time; the
dynamic scheduler looks at neither, but its queue is bounded.  Where nothing of this comes to pass
the two agree, and only there (`schedulers_agree_iff`).
-/

namespace Cbgp.Verified

open Cbgp.Lib Cbgp.Sim

variable {ω ε σ τ : Type}

/-! ## Lockstep -/

section Lockstep

variable {ops : SchedOps σ ε} {ops' : SchedOps τ ε} {callback : Callback ω ε}

/-- A run has one end. -/
theorem runEnds_deterministic {sim : Simulation ω ε σ} {o o' : Outcome ε}
    (ends : RunEnds ops callback sim o) (ends' : RunEnds ops callback sim o') : o = o' := by
  induction ends with
  | returned result =>
    cases ends' with
    | returned result' =>
      rw [result] at result'
      cases result'
      rfl
    | aborted running => simp [result] at running
    | next running => simp [result] at running
  | aborted running failed =>
    cases ends' with
    | returned result => simp [result] at running
    | aborted _ failed' =>
      rw [failed] at failed'
      cases failed'
      rfl
    | next _ turned =>
      rw [failed] at turned
      cases turned
  | next running turned _ inductionHypothesis =>
    cases ends' with
    | returned result => simp [result] at running
    | aborted _ failed =>
      rw [turned] at failed
      cases failed
    | next _ turned' rest =>
      rw [turned] at turned'
      cases turned'
      exact inductionHypothesis rest

theorem runEnds_iff_eq {sim : Simulation ω ε σ} {o o' : Outcome ε} (ends : RunEnds ops callback sim o) :
    RunEnds ops callback sim o' ↔ o' = o := by
  constructor
  · intro ends'
    exact runEnds_deterministic ends' ends
  · rintro rfl
    exact ends

/-- A turn that leads to no callback. -/
theorem turn_quiet {sim : Simulation ω ε σ} {s : σ} (ticked : ops.step sim.sched .tick = .ok s)
    (quiet : ops.calling s = none) : turn ops callback sim = .ok { sim with sched := s } := by
  simp only [turn, ticked, bind, Except.bind, quiet]
  rfl

/-- The end of a run is the end of what is left of it. -/
theorem runEnds_next_iff {sim sim' : Simulation ω ε σ} {o : Outcome ε}
    (running : ops.result sim.sched = none) (turned : turn ops callback sim = .ok sim') :
    RunEnds ops callback sim o ↔ RunEnds ops callback sim' o := by
  constructor
  · intro ends
    cases ends with
    | returned result => simp [result] at running
    | aborted _ failed =>
      rw [turned] at failed
      cases failed
    | next _ turned' rest =>
      rw [turned] at turned'
      cases turned'
      exact rest
  · exact .next running turned

/-- One of two simulations takes a turn to each turn of the other. -/
structure Lockstep (R : Simulation ω ε σ → Simulation ω ε τ → Prop) (sim : Simulation ω ε σ)
    (sim' : Simulation ω ε τ) (next : Simulation ω ε σ) (next' : Simulation ω ε τ)
    (ops : SchedOps σ ε) (ops' : SchedOps τ ε) (callback : Callback ω ε) : Prop where
  running : ops.result sim.sched = none
  turned : turn ops callback sim = .ok next
  running' : ops'.result sim'.sched = none
  turned' : turn ops' callback sim' = .ok next'
  related : R next next'

/-- Simulations that go in lockstep until they end alike have the same end. -/
theorem runEnds_of_lockstep {R : Simulation ω ε σ → Simulation ω ε τ → Prop}
    (steps : ∀ {sim sim'}, R sim sim' →
      (∃ o, RunEnds ops callback sim o ∧ RunEnds ops' callback sim' o) ∨
      ∃ next next', Lockstep R sim sim' next next' ops ops' callback)
    {sim : Simulation ω ε σ} {sim' : Simulation ω ε τ} {o : Outcome ε} (related : R sim sim')
    (ends : RunEnds ops callback sim o) : RunEnds ops' callback sim' o := by
  induction ends generalizing sim' with
  | returned result =>
    rcases steps related with ⟨o, ends, ends'⟩ | ⟨next, next', both⟩
    · rwa [runEnds_deterministic (.returned result) ends]
    · simp [both.running] at result
  | aborted running failed =>
    rcases steps related with ⟨o, ends, ends'⟩ | ⟨next, next', both⟩
    · rwa [runEnds_deterministic (.aborted running failed) ends]
    · rw [both.turned] at failed
      cases failed
  | next running turned rest inductionHypothesis =>
    rcases steps related with ⟨o, ends, ends'⟩ | ⟨next, next', both⟩
    · rwa [runEnds_deterministic (.next running turned rest) ends]
    · rw [both.turned] at turned
      cases turned
      exact (runEnds_next_iff both.running' both.turned').mpr (inductionHypothesis both.related)

/-- The events executed so far stay executed. -/
theorem turn_executed {sim sim' : Simulation ω ε σ} (turned : turn ops callback sim = .ok sim') :
    sim.executed <+: sim'.executed := by
  obtain ⟨s, -, rest⟩ := except_bind_eq_ok.mp turned
  cases calling : ops.calling s with
  | none =>
    simp only [calling] at rest
    cases rest
    exact List.prefix_rfl
  | some ctx =>
    simp only [calling] at rest
    obtain ⟨s', -, rest⟩ := except_bind_eq_ok.mp rest
    obtain ⟨s'', -, rest⟩ := except_bind_eq_ok.mp rest
    cases rest
    exact List.prefix_append _ _

theorem runEnds_executed {sim : Simulation ω ε σ} {o : Outcome ε} {executed queue : List ε}
    {result : Int} (ends : RunEnds ops callback sim o) (returns : o = .returned executed result queue) :
    sim.executed <+: executed := by
  induction ends with
  | returned =>
    cases returns
    exact List.prefix_rfl
  | aborted => cases returns
  | next _ turned _ inductionHypothesis =>
    exact (turn_executed turned).trans (inductionHypothesis returns)

end Lockstep

/-! ## Events without delay -/

/-- The callbacks post events without delay only. -/
def ZeroDelay (callback : Callback ω ε) : Prop :=
  ∀ w ctx, ∀ p ∈ (callback w ctx).2.1, p.time = 0 ∧ p.timeType = .rel

/-- The contexts of the events that a callback posts. -/
def follow (callback : Callback ω ε) (w : ω) (ctx : ε) : List ε :=
  (callback w ctx).2.1.map fun p => p.ctx

/-- A queue after a number of its events were served. -/
def serve (callback : Callback ω ε) : Nat → ω × List ε → ω × List ε
  | 0, state => state
  | _ + 1, (w, []) => (w, [])
  | k + 1, (w, ctx :: rest) =>
    serve callback k ((callback w ctx).1, rest ++ follow callback w ctx)

/-- Serving an event does not stop the static scheduler, which counted `c` events before, and does
not abort the dynamic one. -/
structure SmoothAt (callback : Callback ω ε) (maxTime : Time) (c : Nat) (w : ω) (ctx : ε)
    (rest : List ε) : Prop where
  succeeds : (callback w ctx).2.2 = success
  inTime : ¬ timeLimitReached maxTime (WithTop.some ((c + 1) % 2 ^ 32 * second))
  fits : follow callback w ctx = [] ∨ rest.length + (follow callback w ctx).length ≤ eventQueueDepth

/-- This holds of every event that is served in a number of steps, where 0 is no limit. -/
def Smooth (callback : Callback ω ε) (maxTime : Time) (c numSteps : Nat) (w : ω) (q : List ε) : Prop :=
  ∀ k w' ctx rest, numSteps = 0 ∨ k < numSteps → serve callback k (w, q) = (w', ctx :: rest) →
    SmoothAt callback maxTime (c + k) w' ctx rest

/-- A static scheduler in a run. -/
def staticAt (maxTime : Time) (c : Nat) (q : List ε) (phase : StaticPhase ε) : SchedStatic ε :=
  { events := q, curTime := c, maxTime := maxTime, cancelled := false, phase := phase }

/-- A dynamic scheduler in a run, with all events due now. -/
def dynamicAt (maxTime t : Time) (cancelled : Bool) (q : List ε) (phase : Phase ε) : SchedDynamic ε :=
  { buckets := [⟨t, q⟩], curTime := t, maxTime := maxTime, cancelled := cancelled, phase := phase }

section Turns

variable {callback : Callback ω ε} {maxTime t : Time} {c n : Nat} {cancelled : Bool} {w : ω}
  {executed rest : List ε} {ctx : ε}

theorem static_posts (s : SchedStatic ε) (posts : List (Post ε)) :
    posts.foldlM (fun s p => SchedStatic.ops.step s (.post p)) s =
      .ok { s with events := s.events ++ posts.map fun p => p.ctx } := by
  induction posts generalizing s with
  | nil => simp [pure, Except.pure]
  | cons p posts inductionHypothesis =>
    have posted : SchedStatic.ops.step s (.post p) = .ok { s with events := s.events ++ [p.ctx] } := rfl
    rw [List.foldlM_cons, posted]
    exact (inductionHypothesis _).trans (by simp)

theorem static_turn (callback : Callback ω ε) (sim : Simulation ω ε (SchedStatic ε)) :
    ∃ sim', turn SchedStatic.ops callback sim = .ok sim' := by
  have ticked : SchedStatic.ops.step sim.sched .tick = .ok sim.sched.tick := rfl
  simp only [turn, ticked, bind, Except.bind]
  cases SchedStatic.ops.calling sim.sched.tick with
  | none => exact ⟨_, rfl⟩
  | some ctx =>
    simp only [static_posts]
    exact ⟨_, rfl⟩

theorem static_not_aborted {sim : Simulation ω ε (SchedStatic ε)} {o : Outcome ε} {why : Fatal}
    (ends : RunEnds SchedStatic.ops callback sim o) : o ≠ .aborted why := by
  induction ends with
  | returned => simp
  | @aborted sim _ _ failed =>
    obtain ⟨sim', turned⟩ := static_turn callback sim
    rw [turned] at failed
    cases failed
  | next _ _ _ inductionHypothesis => exact inductionHypothesis

theorem static_turn_cons :
    turn SchedStatic.ops callback ⟨w, executed, staticAt maxTime c (ctx :: rest) (.loop n)⟩ =
      .ok ⟨(callback w ctx).1, executed ++ [ctx],
        (staticAt maxTime c (rest ++ follow callback w ctx) (.callback n ctx)).ret
          (callback w ctx).2.2⟩ := by
  have ticked : SchedStatic.ops.step (staticAt maxTime c (ctx :: rest) (.loop n)) .tick =
      .ok (staticAt maxTime c rest (.callback n ctx)) := rfl
  have calls : SchedStatic.ops.calling (staticAt maxTime c rest (.callback n ctx)) = some ctx := rfl
  simp only [turn, ticked, bind, Except.bind, calls, static_posts]
  rfl

theorem static_drained :
    RunEnds SchedStatic.ops callback ⟨w, executed, staticAt maxTime c [] (.loop n)⟩
      (.returned executed success []) :=
  .next rfl rfl (.returned rfl)

theorem zeroDelay_post (exactly : single.Exact t) {p : Post ε} (delay : p.time = 0 ∧ p.timeType = .rel)
    (q : List ε) (phase : Phase ε) :
    SchedDynamic.ops.step (dynamicAt maxTime t cancelled q phase) (.post p) =
      if q.length < eventQueueDepth then .ok (dynamicAt maxTime t cancelled (q ++ [p.ctx]) phase)
      else .error .queueFull := by
  have due : dueTime t p = .ok t := by
    obtain ⟨now, rfl⟩ := WithTop.ne_top_iff_exists.mp exactly.1
    have kept := (exactly.widen double_widens).round_eq
    simp only [dueTime, delay.1, delay.2, add_zero, Int.toNat_natCast, kept]
    exact if_neg (by omega)
  change SchedDynamic.post _ p = _
  simp only [SchedDynamic.post, dynamicAt, due, bind, Except.bind, pushEvent, lt_irrefl, if_true,
    if_false]
  by_cases room : q.length < eventQueueDepth
  · simp only [if_pos room]
    rfl
  · simp only [if_neg room]

/-- The posts of a callback fit the queue, or the program is aborted. -/
theorem dynamic_posts (exactly : single.Exact t) (phase : Phase ε) {posts : List (Post ε)}
    (delay : ∀ p ∈ posts, p.time = 0 ∧ p.timeType = .rel) (q : List ε) :
    posts.foldlM (fun s p => SchedDynamic.ops.step s (.post p)) (dynamicAt maxTime t cancelled q phase) =
      if posts = [] ∨ q.length + posts.length ≤ eventQueueDepth then
        .ok (dynamicAt maxTime t cancelled (q ++ posts.map fun p => p.ctx) phase)
      else .error .queueFull := by
  induction posts generalizing q with
  | nil => simp [pure, Except.pure]
  | cons p posts inductionHypothesis =>
    rw [List.forall_mem_cons] at delay
    rw [List.foldlM_cons, zeroDelay_post exactly delay.1]
    by_cases room : q.length < eventQueueDepth
    · rw [if_pos room]
      refine (inductionHypothesis delay.2 _).trans ?_
      have same : (posts = [] ∨ (q ++ [p.ctx]).length + posts.length ≤ eventQueueDepth) ↔
          (p :: posts = [] ∨ q.length + (p :: posts).length ≤ eventQueueDepth) := by
        cases posts with
        | nil => simpa using Nat.succ_le_of_lt room
        | cons => simp [Nat.add_assoc, Nat.add_comm, Nat.add_left_comm]
      simp only [same, List.map_cons, List.append_assoc, List.singleton_append]
    · rw [if_neg room, if_neg (by simp; omega)]
      rfl

theorem dynamic_turn_cons (exactly : single.Exact t) (zero : ZeroDelay callback) :
    turn SchedDynamic.ops callback ⟨w, executed, dynamicAt maxTime t cancelled (ctx :: rest) (.inner t n)⟩ =
      if follow callback w ctx = [] ∨ rest.length + (follow callback w ctx).length ≤ eventQueueDepth then
        .ok ⟨(callback w ctx).1, executed ++ [ctx],
          (dynamicAt maxTime t cancelled (rest ++ follow callback w ctx) (.callback t n ctx)).ret
            (callback w ctx).2.2⟩
      else .error .queueFull := by
  have ticked : SchedDynamic.ops.step (dynamicAt maxTime t cancelled (ctx :: rest) (.inner t n)) .tick =
      .ok (dynamicAt maxTime t cancelled rest (.callback t n ctx)) := by
    simp [SchedDynamic.ops, SchedDynamic.step, SchedDynamic.tick, dynamicAt, popEvent]
  have calls : SchedDynamic.ops.calling (dynamicAt maxTime t cancelled rest (.callback t n ctx)) =
      some ctx := rfl
  simp only [turn, ticked, bind, Except.bind, calls]
  rw [dynamic_posts exactly _ (zero w ctx)]
  simp only [follow, List.map_eq_nil_iff, List.length_map]
  by_cases fits : (callback w ctx).2.1 = [] ∨
      rest.length + (callback w ctx).2.1.length ≤ eventQueueDepth
  · simp only [if_pos fits]
    rfl
  · simp only [if_neg fits]

theorem dynamic_idle {q : List ε} {result : Int} :
    RunEnds SchedDynamic.ops callback ⟨w, executed, dynamicAt maxTime t cancelled q (.idle result)⟩
      (.returned executed result q) := by
  have queue : SchedDynamic.ops.queue (dynamicAt maxTime t cancelled q (.idle result)) = q := by
    simp [SchedDynamic.ops, dynamicAt]
  nth_rewrite 2 [← queue]
  exact .returned rfl

theorem dynamic_drained :
    RunEnds SchedDynamic.ops callback ⟨w, executed, dynamicAt maxTime t cancelled [] (.inner t n)⟩
      (.returned executed success []) := by
  have ticked : SchedDynamic.ops.step (dynamicAt maxTime t cancelled ([] : List ε) (.inner t n)) .tick =
      .ok { dynamicAt maxTime t cancelled [] (.outer n) with buckets := [] } := by
    simp [SchedDynamic.ops, SchedDynamic.step, SchedDynamic.tick, dynamicAt, popEvent]
  exact .next rfl (turn_quiet ticked rfl) (.next rfl rfl (.returned rfl))

/-! ### One event served by both -/

theorem static_serves (executed : List ε) (n : Nat) (smooth : SmoothAt callback maxTime c w ctx rest) :
    turn SchedStatic.ops callback ⟨w, executed, staticAt maxTime c (ctx :: rest) (.loop n)⟩ =
      .ok ⟨(callback w ctx).1, executed ++ [ctx],
        staticAt maxTime ((c + 1) % 2 ^ 32) (rest ++ follow callback w ctx)
          (if n = 1 then .idle success else .loop (n - 1))⟩ := by
  rw [static_turn_cons]
  simp only [SchedStatic.ret, staticAt, smooth.succeeds, ne_eq, not_true_eq_false, if_false,
    smooth.inTime]
  have last : (0 < n ∧ n - 1 = 0) ↔ n = 1 := by omega
  simp only [last]
  split <;> rfl

theorem dynamic_serves (exactly : single.Exact t) (zero : ZeroDelay callback)
    (cancelled : Bool) (executed : List ε) (n : Nat) (smooth : SmoothAt callback maxTime c w ctx rest) :
    turn SchedDynamic.ops callback ⟨w, executed, dynamicAt maxTime t cancelled (ctx :: rest) (.inner t n)⟩ =
      .ok ⟨(callback w ctx).1, executed ++ [ctx],
        dynamicAt maxTime t cancelled (rest ++ follow callback w ctx)
          (if n = 1 then .idle success else .inner t (n - 1))⟩ := by
  rw [dynamic_turn_cons exactly zero, if_pos smooth.fits]
  have last : (0 < n ∧ n - 1 = 0) ↔ n = 1 := by omega
  simp only [SchedDynamic.ret, dynamicAt, last]
  split <;> rfl

end Turns

/-! ## Agreement -/

section Agreement

variable {callback : Callback ω ε} {maxTime t : Time} {c n : Nat} {cancelled : Bool} {w : ω}
  {executed q rest : List ε} {ctx : ε}

theorem Smooth.head (smooth : Smooth callback maxTime c n w (ctx :: rest)) :
    SmoothAt callback maxTime c w ctx rest :=
  smooth 0 w ctx rest (by omega) rfl

theorem SmoothAt.wrap {k : Nat} (smooth : SmoothAt callback maxTime ((c + 1) % 2 ^ 32 + k) w ctx rest) :
    SmoothAt callback maxTime (c + (k + 1)) w ctx rest := by
  have same : ((c + 1) % 2 ^ 32 + k + 1) % 2 ^ 32 = (c + (k + 1) + 1) % 2 ^ 32 := by omega
  exact ⟨smooth.succeeds, same ▸ smooth.inTime, smooth.fits⟩

theorem Smooth.tail (smooth : Smooth callback maxTime c n w (ctx :: rest)) (more : n ≠ 1) :
    Smooth callback maxTime ((c + 1) % 2 ^ 32) (n - 1) (callback w ctx).1
      (rest ++ follow callback w ctx) := by
  intro k w' ctx' rest' bound served
  have later := smooth (k + 1) w' ctx' rest' (by omega) served
  have same : ((c + 1) % 2 ^ 32 + k + 1) % 2 ^ 32 = (c + (k + 1) + 1) % 2 ^ 32 := by omega
  exact ⟨later.succeeds, same ▸ later.inTime, later.fits⟩

/-- Both schedulers, before they serve the next event of the same queue. -/
def Paired (callback : Callback ω ε) (maxTime t : Time) (cancelled : Bool)
    (sim : Simulation ω ε (SchedStatic ε)) (sim' : Simulation ω ε (SchedDynamic ε)) : Prop :=
  ∃ w executed c n q, sim = ⟨w, executed, staticAt maxTime c q (.loop n)⟩ ∧
    sim' = ⟨w, executed, dynamicAt maxTime t cancelled q (.inner t n)⟩ ∧
    Smooth callback maxTime c n w q

theorem Paired.steps (exactly : single.Exact t) (zero : ZeroDelay callback)
    {sim : Simulation ω ε (SchedStatic ε)} {sim' : Simulation ω ε (SchedDynamic ε)}
    (paired : Paired callback maxTime t cancelled sim sim') :
    (∃ o, RunEnds SchedStatic.ops callback sim o ∧ RunEnds SchedDynamic.ops callback sim' o) ∨
    ∃ next next', Lockstep (Paired callback maxTime t cancelled) sim sim' next next' SchedStatic.ops
      SchedDynamic.ops callback := by
  obtain ⟨w, executed, c, n, q, rfl, rfl, smooth⟩ := paired
  cases q with
  | nil => exact .inl ⟨_, static_drained, dynamic_drained⟩
  | cons ctx rest =>
    have turned := static_serves executed n smooth.head
    have turned' := dynamic_serves exactly zero cancelled executed n smooth.head
    by_cases last : n = 1
    · -- the last step: both are idle, with the same queue
      simp only [if_pos last] at turned turned'
      refine .inl ⟨.returned (executed ++ [ctx]) success (rest ++ follow callback w ctx),
        .next rfl turned (.returned rfl), .next rfl turned' dynamic_idle⟩
    · simp only [if_neg last] at turned turned'
      exact .inr ⟨_, _, rfl, turned, rfl, turned', _, _, _, _, _, rfl, rfl, smooth.tail last⟩

theorem Lockstep.symm {R : Simulation ω ε σ → Simulation ω ε τ → Prop} {sim next : Simulation ω ε σ}
    {sim' next' : Simulation ω ε τ} {ops : SchedOps σ ε} {ops' : SchedOps τ ε}
    (both : Lockstep R sim sim' next next' ops ops' callback) :
    Lockstep (fun d s => R s d) sim' sim next' next ops' ops callback :=
  ⟨both.running', both.turned', both.running, both.turned, both.related⟩

/-- The two schedulers end alike, from the same queue on. -/
def Agree (callback : Callback ω ε) (maxTime t : Time) (cancelled : Bool) (c n : Nat) (w : ω)
    (executed q : List ε) : Prop :=
  ∀ o, RunEnds SchedStatic.ops callback ⟨w, executed, staticAt maxTime c q (.loop n)⟩ o ↔
    RunEnds SchedDynamic.ops callback ⟨w, executed, dynamicAt maxTime t cancelled q (.inner t n)⟩ o

theorem agree_of_smooth (exactly : single.Exact t) (zero : ZeroDelay callback)
    (smooth : Smooth callback maxTime c n w q) :
    Agree callback maxTime t cancelled c n w executed q := by
  intro o
  have paired : Paired callback maxTime t cancelled
      ⟨w, executed, staticAt maxTime c q (.loop n)⟩
      ⟨w, executed, dynamicAt maxTime t cancelled q (.inner t n)⟩ :=
    ⟨w, executed, c, n, q, rfl, rfl, smooth⟩
  constructor
  · exact runEnds_of_lockstep (fun paired => paired.steps exactly zero) paired
  · refine runEnds_of_lockstep (R := fun d s => Paired callback maxTime t cancelled s d)
      (fun paired => ?_) paired
    rcases paired.steps exactly zero with ⟨o, ends, ends'⟩ | ⟨next, next', both⟩
    · exact .inl ⟨o, ends', ends⟩
    · exact .inr ⟨next', next, both.symm⟩

/-- The dynamic scheduler returns nothing but a success once it drains the events. -/
theorem dynamic_returns_success (exactly : single.Exact t) (zero : ZeroDelay callback)
    {sim : Simulation ω ε (SchedDynamic ε)} {o : Outcome ε} {executed' q' : List ε} {result : Int}
    (ends : RunEnds SchedDynamic.ops callback sim o) (returns : o = .returned executed' result q')
    (draining : sim = ⟨w, executed, dynamicAt maxTime t cancelled q (.inner t n)⟩) :
    result = success := by
  induction ends generalizing w executed q n with
  | returned isIdle =>
    subst draining
    cases isIdle
  | aborted => cases returns
  | next running turned rest inductionHypothesis =>
    subst draining
    cases q with
    | nil =>
      have same := runEnds_deterministic (.next running turned rest) dynamic_drained
      rw [returns] at same
      cases same
      rfl
    | cons ctx queue =>
      rw [dynamic_turn_cons exactly zero] at turned
      split at turned
      · cases turned
        have last : (0 < n ∧ n - 1 = 0) ↔ n = 1 := by omega
        simp only [SchedDynamic.ret, dynamicAt, last] at rest inductionHypothesis
        by_cases isLast : n = 1
        · simp only [if_pos isLast] at rest
          have same := runEnds_deterministic rest dynamic_idle
          rw [returns] at same
          cases same
          rfl
        · simp only [if_neg isLast] at inductionHypothesis
          exact inductionHypothesis returns rfl
      · cases turned

/-- Agreement takes a smooth first event. -/
theorem Agree.head (exactly : single.Exact t) (zero : ZeroDelay callback)
    (agree : Agree callback maxTime t cancelled c n w executed (ctx :: rest)) :
    SmoothAt callback maxTime c w ctx rest := by
  -- a static run that stops here with another result has no dynamic counterpart
  have successful : ∀ {result : Int}, RunEnds SchedStatic.ops callback
      ⟨w, executed, staticAt maxTime c (ctx :: rest) (.loop n)⟩
      (.returned (executed ++ [ctx]) result (rest ++ follow callback w ctx)) → result = success :=
    fun ends => dynamic_returns_success exactly zero ((agree _).mp ends) rfl rfl
  have succeeds : (callback w ctx).2.2 = success := by
    by_contra fails
    refine fails (successful (.next rfl static_turn_cons ?_))
    simp only [SchedStatic.ret, staticAt, ne_eq, fails, not_false_eq_true, if_true]
    exact .returned rfl
  refine ⟨succeeds, fun late => ?_, ?_⟩
  · have limit : simTimeLimit = success := by
      refine successful (.next rfl static_turn_cons ?_)
      simp only [SchedStatic.ret, staticAt, ne_eq, succeeds, not_true_eq_false, if_false, late, if_true]
      exact .returned rfl
    cases limit
  · by_contra full
    have aborted : RunEnds SchedDynamic.ops callback
        ⟨w, executed, dynamicAt maxTime t cancelled (ctx :: rest) (.inner t n)⟩ (.aborted .queueFull) :=
      .aborted rfl ((dynamic_turn_cons exactly zero).trans (if_neg full))
    exact static_not_aborted ((agree _).mpr aborted) rfl

theorem Agree.tail (exactly : single.Exact t) (zero : ZeroDelay callback)
    (agree : Agree callback maxTime t cancelled c n w executed (ctx :: rest)) (more : n ≠ 1) :
    Agree callback maxTime t cancelled ((c + 1) % 2 ^ 32) (n - 1) (callback w ctx).1
      (executed ++ [ctx]) (rest ++ follow callback w ctx) := by
  have smooth := agree.head exactly zero
  have turned := static_serves executed n smooth
  have turned' := dynamic_serves exactly zero cancelled executed n smooth
  simp only [if_neg more] at turned turned'
  intro o
  rw [← runEnds_next_iff rfl turned, ← runEnds_next_iff rfl turned']
  exact agree o

theorem smooth_of_agree (exactly : single.Exact t) (zero : ZeroDelay callback)
    (agree : Agree callback maxTime t cancelled c n w executed q) :
    Smooth callback maxTime c n w q := by
  intro k
  induction k generalizing c n w executed q with
  | zero =>
    intro w' ctx rest _ served
    cases served
    exact agree.head exactly zero
  | succ k inductionHypothesis =>
    intro w' ctx rest bound served
    cases q with
    | nil => cases served
    | cons first queue =>
      exact (inductionHypothesis (agree.tail exactly zero (by omega)) w' ctx rest (by omega) served).wrap

/-- Two idle schedulers with the same queue, all of it due now. -/
structure SameQueue (st : SchedStatic ε) (dy : SchedDynamic ε) : Prop where
  idle : ∃ result, st.phase = .idle result
  idle' : ∃ result, dy.phase = .idle result
  limit : st.maxTime = dy.maxTime
  clock : single.Exact dy.curTime
  queue : st.events = [] ∧ dy.buckets = [] ∨ dy.buckets = [⟨dy.curTime, st.events⟩]

theorem serve_nil (callback : Callback ω ε) (k : Nat) (w : ω) :
    serve callback k (w, []) = (w, []) := by
  cases k <;> rfl

section Start

variable {st : SchedStatic ε} {dy : SchedDynamic ε}

theorem static_start (same : SameQueue st dy) (o : Outcome ε) :
    Runs SchedStatic.ops callback w st n o ↔ RunEnds SchedStatic.ops callback
      ⟨w, [], staticAt dy.maxTime st.curTime st.events (.loop n)⟩ o := by
  obtain ⟨result, idle⟩ := same.idle
  simp only [Runs, SchedStatic.ops, SchedStatic.step, SchedStatic.run, idle, same.limit, staticAt]

/-- A run of the dynamic scheduler looks at the limit on simulation time first. -/
theorem dynamic_start (same : SameQueue st dy) (queue : dy.buckets = [⟨dy.curTime, st.events⟩])
    (o : Outcome ε) :
    Runs SchedDynamic.ops callback w dy n o ↔ RunEnds SchedDynamic.ops callback
      ⟨w, [], dynamicAt dy.maxTime dy.curTime dy.cancelled st.events
        (if timeLimitReached dy.maxTime dy.curTime then .idle simTimeLimit
          else .inner dy.curTime n)⟩ o := by
  obtain ⟨result, idle⟩ := same.idle'
  have ran : SchedDynamic.ops.step dy (.run n) =
      .ok (dynamicAt dy.maxTime dy.curTime dy.cancelled st.events (.outer n)) := by
    simp only [SchedDynamic.ops, SchedDynamic.step, SchedDynamic.run, idle, dynamicAt, queue]
  have ticked : SchedDynamic.ops.step
      (dynamicAt dy.maxTime dy.curTime dy.cancelled st.events (.outer n)) .tick =
      .ok (dynamicAt dy.maxTime dy.curTime dy.cancelled st.events
        (if timeLimitReached dy.maxTime dy.curTime then .idle simTimeLimit
          else .inner dy.curTime n)) := by
    simp only [SchedDynamic.ops, SchedDynamic.step, SchedDynamic.tick, dynamicAt, same.clock.round_eq]
    split <;> rfl
  simp only [Runs, ran]
  apply runEnds_next_iff rfl (turn_quiet ticked _)
  split <;> rfl

/-- Without events there is nothing to run. -/
theorem dynamic_start_empty (same : SameQueue st dy) (queue : dy.buckets = []) (o : Outcome ε) :
    Runs SchedDynamic.ops callback w dy n o ↔ o = .returned [] success [] := by
  obtain ⟨result, idle⟩ := same.idle'
  have ran : SchedDynamic.ops.step dy (.run n) = .ok { dy with phase := .outer n } := by
    simp only [SchedDynamic.ops, SchedDynamic.step, SchedDynamic.run, idle]
  have ticked : SchedDynamic.ops.step { dy with phase := .outer n } .tick =
      .ok { dy with phase := .idle success } := by
    simp only [SchedDynamic.ops, SchedDynamic.step, SchedDynamic.tick, queue]
  have left : SchedDynamic.ops.queue { dy with phase := .idle success } = [] := by
    simp [SchedDynamic.ops, queue]
  simp only [Runs, ran]
  rw [runEnds_next_iff rfl (turn_quiet ticked rfl), ← left]
  exact runEnds_iff_eq (.returned rfl)

/-- A static run with events executes some. -/
theorem static_executes {result : Int} {left : List ε} (ends : RunEnds SchedStatic.ops callback
    ⟨w, [], staticAt maxTime c q (.loop n)⟩ (.returned [] result left)) : result = success := by
  cases q with
  | nil =>
    have same := runEnds_deterministic ends static_drained
    cases same
    rfl
  | cons ctx rest =>
    have more := runEnds_executed ((runEnds_next_iff rfl static_turn_cons).mp ends) rfl
    simp at more

/-- The two schedulers run alike: they execute the same events, return the same result and leave
the same queue, if and only if no callback served fails, the time limit is not met, and the queue
of the dynamic scheduler does not overflow. -/
theorem schedulers_agree_iff (zero : ZeroDelay callback) (same : SameQueue st dy) (w : ω) (n : Nat) :
    (∀ o, Runs SchedStatic.ops callback w st n o ↔ Runs SchedDynamic.ops callback w dy n o) ↔
      (dy.buckets ≠ [] → ¬ timeLimitReached dy.maxTime dy.curTime) ∧
        Smooth callback dy.maxTime st.curTime n w st.events := by
  simp only [static_start same]
  rcases same.queue with ⟨noEvents, noBuckets⟩ | queue
  · -- both return at once
    rw [noEvents]
    constructor
    · intro _
      refine ⟨fun some => absurd noBuckets some, fun k w' ctx rest _ served => ?_⟩
      simp [serve_nil] at served
    · intro _ o
      rw [dynamic_start_empty same noBuckets]
      exact runEnds_iff_eq static_drained
  · simp only [dynamic_start same queue]
    by_cases limit : timeLimitReached dy.maxTime dy.curTime
    · simp only [if_pos limit]
      constructor
      · intro agree
        cases static_executes ((agree _).mpr dynamic_idle)
      · intro smooth
        exact absurd limit (smooth.1 (by simp [queue]))
    · simp only [if_neg limit]
      constructor
      · intro agree
        exact ⟨fun _ => limit, smooth_of_agree same.clock zero agree⟩
      · intro smooth
        exact agree_of_smooth same.clock zero smooth.2

end Start

end Agreement

/-! ## A family of callbacks -/

section Countdown

/-- An event counts down by posting the next one, or fails with a result. -/
def countdown (result : Int) : Callback Unit Nat := fun _ ctx =>
  match ctx with
  | 0 => ((), [], result)
  | k + 1 => ((), [⟨k, 0, .rel⟩], success)

theorem countdown_zeroDelay (result : Int) : ZeroDelay (countdown result) := by
  intro w ctx p posted
  cases ctx with
  | zero => cases posted
  | succ k =>
    cases List.mem_singleton.mp posted
    exact ⟨rfl, rfl⟩

/-- Both schedulers, with one queue posted to them when they were created. -/
theorem sameQueue_created (q : List ε) :
    SameQueue { events := q } { buckets := [⟨0, q⟩] } where
  idle := ⟨success, rfl⟩
  idle' := ⟨success, rfl⟩
  limit := rfl
  clock := single.exact_zero
  queue := .inr rfl

theorem no_limit (curTime : Time) : ¬ timeLimitReached 0 curTime :=
  fun reached => absurd reached.1 (lt_irrefl 0)

theorem schedulers_agree_countdown :
    Runs SchedStatic.ops (countdown success) () { events := [1] } 0 (.returned [1, 0] success []) ↔
      Runs SchedDynamic.ops (countdown success) () { buckets := [⟨0, [1]⟩] } 0
        (.returned [1, 0] success []) := by
  refine (schedulers_agree_iff (countdown_zeroDelay success) (sameQueue_created [1]) () 0).mpr
    ⟨fun _ => no_limit _, ?_⟩ _
  intro k w ctx rest _ served
  match k with
  | 0 =>
    cases served
    exact ⟨rfl, no_limit _, .inr (by decide)⟩
  | 1 =>
    cases served
    exact ⟨rfl, no_limit _, .inl rfl⟩
  | k + 2 =>
    have drained : serve (countdown success) (k + 2) ((), [1]) = ((), []) := serve_nil _ k ()
    rw [drained] at served
    cases served

/-- The callback of the second event fails: the static scheduler stops, the dynamic one goes on. -/
theorem failed_callback_ignored :
    ¬ ∀ (callback : Callback Unit Nat) (st : SchedStatic Nat) (dy : SchedDynamic Nat) (n : Nat),
      ZeroDelay callback → SameQueue st dy →
        ∀ o, Runs SchedStatic.ops callback () st n o ↔ Runs SchedDynamic.ops callback () dy n o := by
  intro agree
  have same := sameQueue_created [1]
  have ends : Runs SchedStatic.ops (countdown (-1)) () { events := [1] } 0 (.returned [1, 0] (-1) []) := by
    rw [static_start same]
    exact .next rfl rfl (.next rfl rfl (.returned rfl))
  have ends' := (agree _ _ _ 0 (countdown_zeroDelay (-1)) same _).mp ends
  rw [dynamic_start same rfl, if_neg (no_limit _)] at ends'
  cases dynamic_returns_success same.clock (countdown_zeroDelay (-1)) ends' rfl rfl

end Countdown

end Cbgp.Verified
