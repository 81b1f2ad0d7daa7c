import Cbgp.Lib.Binary
import Cbgp.Lib.Run

/-! # Event schedulers

The dynamic scheduler (`sim/scheduler.c`) and the static one (`sim/static_scheduler.c`).  A run is
a sequence of steps, so that what holds while a callback is running can be told: the body of each
loop is a `tick`, a callback posts events and returns (`ret`).  What a callback does between is up
to the environment; `turn` runs it for a given family of callbacks.
-/

namespace Cbgp.Sim

open Cbgp.Lib

/-! ## Simulation times -/

/-- The `float` format, in units of the smallest `double`. -/
def single : BinaryFormat where
  precision := 24
  quantum := 925
  bound := 1202
  precision_pos := by decide

/-- The `double` format, in the same units. -/
def double : BinaryFormat where
  precision := 53
  quantum := 0
  bound := 2098
  precision_pos := by decide

/-- The unit of simulation time. -/
def second : Nat :=
  2 ^ 1074

/-- Times that are not negative. -/
abbrev Time := WithTop Nat

inductive TimeType where
  | abs -- SIM_TIME_ABS
  | rel -- SIM_TIME_REL
  deriving DecidableEq, Repr

/-- What `sim_post_event` is called with.  The time is a finite `double`, of any sign. -/
structure Post (ε : Type) where
  ctx : ε
  time : Int
  timeType : TimeType
  deriving DecidableEq, Repr

/-- How a scheduler ends the program. -/
inductive Fatal where
  | past -- impossible to schedule events in the past
  | queueFull -- fifo_push fails in an assertion
  deriving DecidableEq, Repr

/-- ESUCCESS -/
def success : Int := 0

/-- ESIM_TIME_LIMIT -/
def simTimeLimit : Int := -1000

/-- What a scheduler is asked to do. -/
inductive Input (ε : Type) where
  | post (p : Post ε)
  | run (numSteps : Nat)
  | tick -- the next entry of a loop of the run
  | ret (result : Int) -- the callback that is running returns
  | cancel
  | setMaxTime (time : Time)

variable {ε ω σ : Type}

/-- The limit on simulation time, 0 for none. -/
def timeLimitReached (maxTime curTime : Time) : Prop :=
  0 < maxTime ∧ maxTime ≤ curTime

instance (maxTime curTime : Time) : Decidable (timeLimitReached maxTime curTime) :=
  inferInstanceAs (Decidable (_ ∧ _))

/-! ## Dynamic scheduler -/

/-- The events of one time, first in first out. -/
structure Bucket (ε : Type) where
  time : Time
  events : List ε
  deriving DecidableEq, Repr

/-- EVENT_QUEUE_DEPTH of the dynamic scheduler -/
def eventQueueDepth : Nat := 40000000

/-- Where a run is.  The inner loop holds on to one bucket, known by its time. -/
inductive Phase (ε : Type) where
  | idle (result : Int)
  | outer (numSteps : Nat)
  | inner (bucket : Time) (numSteps : Nat)
  | callback (bucket : Time) (numSteps : Nat) (ctx : ε)
  deriving DecidableEq, Repr

structure SchedDynamic (ε : Type) where
  buckets : List (Bucket ε) := []
  curTime : Time := 0
  maxTime : Time := 0 -- of the simulator
  cancelled : Bool := false
  phase : Phase ε := .idle success
  deriving DecidableEq

/-- The time at which a posted event is due. -/
def dueTime (curTime : Time) (p : Post ε) : Except Fatal Time :=
  match p.timeType with
  | .rel =>
    match curTime with
    | ⊤ => .ok ⊤
    | WithTop.some now =>
      if now + p.time < 0 then .error .past
      else .ok (double.round (WithTop.some (now + p.time).toNat))
  | .abs =>
    if p.time < 0 ∨ WithTop.some p.time.toNat < curTime then .error .past
    else .ok (WithTop.some p.time.toNat)

/-- Add an event to the bucket of its time, which is created when there is none. -/
def pushEvent (time : Time) (ctx : ε) : List (Bucket ε) → Except Fatal (List (Bucket ε))
  | [] => .ok [⟨time, [ctx]⟩]
  | b :: bs =>
    if time < b.time then .ok (⟨time, [ctx]⟩ :: b :: bs)
    else if time = b.time then
      -- the FIFO of a bucket does not grow
      if b.events.length < eventQueueDepth then .ok ({ b with events := b.events ++ [ctx] } :: bs)
      else .error .queueFull
    else (pushEvent time ctx bs).map fun bs' => b :: bs'

/-- Take the first event of a bucket, if it has one. -/
def popEvent (time : Time) : List (Bucket ε) → Option (ε × List (Bucket ε))
  | [] => none
  | b :: bs =>
    if b.time = time then
      match b.events with
      | [] => none
      | ctx :: events => some (ctx, { b with events := events } :: bs)
    else (popEvent time bs).map fun popped => (popped.1, b :: popped.2)

/-- The events in the buckets, with their times. -/
def timedEvents (buckets : List (Bucket ε)) : List (Time × ε) :=
  buckets.flatMap fun b => b.events.map fun ctx => (b.time, ctx)

namespace SchedDynamic

def post (s : SchedDynamic ε) (p : Post ε) : Except Fatal (SchedDynamic ε) := do
  let time ← dueTime s.curTime p
  let buckets ← pushEvent time p.ctx s.buckets
  return { s with buckets := buckets }

/-- The next entry of a loop of `_run`. -/
def tick (s : SchedDynamic ε) : SchedDynamic ε :=
  match s.phase with
  | .outer numSteps =>
    match s.buckets with
    | [] => { s with phase := .idle success }
    | b :: _ =>
      let curTime := single.round b.time
      if timeLimitReached s.maxTime curTime then
        { s with curTime := curTime, phase := .idle simTimeLimit }
      else { s with curTime := curTime, phase := .inner b.time numSteps }
  | .inner bucket numSteps =>
    match popEvent bucket s.buckets with
    | some (ctx, buckets) => { s with buckets := buckets, phase := .callback bucket numSteps ctx }
    -- the bucket is drained: the first bucket of the list is removed
    | none => { s with buckets := s.buckets.tail, phase := .outer numSteps }
  | .idle _ | .callback _ _ _ => s

/-- What `_run` does after a callback, whatever its result. -/
def ret (s : SchedDynamic ε) (_ : Int) : SchedDynamic ε :=
  match s.phase with
  | .callback bucket numSteps _ =>
    if 0 < numSteps ∧ numSteps - 1 = 0 then { s with phase := .idle success }
    else { s with phase := .inner bucket (numSteps - 1) }
  | .idle _ | .outer _ | .inner _ _ => s

def run (s : SchedDynamic ε) (numSteps : Nat) : SchedDynamic ε :=
  match s.phase with
  | .idle _ => { s with phase := .outer numSteps }
  | .outer _ | .inner _ _ | .callback _ _ _ => s

def step (s : SchedDynamic ε) : Input ε → Except Fatal (SchedDynamic ε)
  | .post p => s.post p
  | .run numSteps => .ok (s.run numSteps)
  | .tick => .ok s.tick
  | .ret result => .ok (s.ret result)
  | .cancel => .ok { s with cancelled := true }
  | .setMaxTime time => .ok { s with maxTime := time }

def queued (s : SchedDynamic ε) : List (Time × ε) :=
  timedEvents s.buckets

/-- The number of events, an `unsigned int`. -/
def numEvents (s : SchedDynamic ε) : Nat :=
  s.buckets.foldl (fun n b => (n + b.events.length) % 2 ^ 32) 0

end SchedDynamic

/-! ## Static scheduler -/

inductive StaticPhase (ε : Type) where
  | idle (result : Int)
  | loop (numSteps : Nat)
  | callback (numSteps : Nat) (ctx : ε)
  deriving DecidableEq, Repr

/-- One queue, which grows as needed; the time counts the events. -/
structure SchedStatic (ε : Type) where
  events : List ε := []
  curTime : Nat := 0
  maxTime : Time := 0 -- of the simulator
  cancelled : Bool := false
  phase : StaticPhase ε := .idle success
  deriving DecidableEq

namespace SchedStatic

def post (s : SchedStatic ε) (p : Post ε) : SchedStatic ε :=
  { s with events := s.events ++ [p.ctx] }

def tick (s : SchedStatic ε) : SchedStatic ε :=
  match s.phase with
  | .loop numSteps =>
    if s.cancelled then { s with phase := .idle success }
    else
      match s.events with
      | [] => { s with phase := .idle success }
      | ctx :: events => { s with events := events, phase := .callback numSteps ctx }
  | .idle _ | .callback _ _ => s

/-- What `_run` does after a callback. -/
def ret (s : SchedStatic ε) (result : Int) : SchedStatic ε :=
  match s.phase with
  | .callback numSteps _ =>
    if result ≠ success then { s with phase := .idle result }
    else
      let curTime := (s.curTime + 1) % 2 ^ 32
      if timeLimitReached s.maxTime (WithTop.some (curTime * second)) then
        { s with curTime := curTime, phase := .idle simTimeLimit }
      else if 0 < numSteps ∧ numSteps - 1 = 0 then
        { s with curTime := curTime, phase := .idle success }
      else { s with curTime := curTime, phase := .loop (numSteps - 1) }
  | .idle _ | .loop _ => s

def run (s : SchedStatic ε) (numSteps : Nat) : SchedStatic ε :=
  match s.phase with
  | .idle _ => { s with cancelled := false, phase := .loop numSteps }
  | .loop _ | .callback _ _ => s

def step (s : SchedStatic ε) : Input ε → Except Fatal (SchedStatic ε)
  | .post p => .ok (s.post p)
  | .run numSteps => .ok (s.run numSteps)
  | .tick => .ok s.tick
  | .ret result => .ok (s.ret result)
  | .cancel => .ok { s with cancelled := true }
  | .setMaxTime time => .ok { s with maxTime := time }

end SchedStatic

/-! ## Running callbacks -/

/-- The methods of a scheduler, and what a simulator sees of it. -/
structure SchedOps (σ ε : Type) where
  step : σ → Input ε → Except Fatal σ
  calling : σ → Option ε -- the event whose callback is running
  result : σ → Option Int -- the result of the last run, when none is going on
  queue : σ → List ε

def SchedDynamic.ops : SchedOps (SchedDynamic ε) ε where
  step := SchedDynamic.step
  calling s :=
    match s.phase with
    | .callback _ _ ctx => some ctx
    | .idle _ | .outer _ | .inner _ _ => none
  result s :=
    match s.phase with
    | .idle result => some result
    | .outer _ | .inner _ _ | .callback _ _ _ => none
  queue s := s.buckets.flatMap fun b => b.events

def SchedStatic.ops : SchedOps (SchedStatic ε) ε where
  step := SchedStatic.step
  calling s :=
    match s.phase with
    | .callback _ ctx => some ctx
    | .idle _ | .loop _ => none
  result s :=
    match s.phase with
    | .idle result => some result
    | .loop _ | .callback _ _ => none
  queue s := s.events

/-- What the callback of an event does to the program's state, posts and returns. -/
abbrev Callback (ω ε : Type) := ω → ε → ω × List (Post ε) × Int

/-- A simulation: the program's state, the events whose callbacks ran and the scheduler. -/
structure Simulation (ω ε σ : Type) where
  world : ω
  executed : List ε
  sched : σ

/-- One entry of a loop of the run, with the callback it leads to. -/
def turn (ops : SchedOps σ ε) (callback : Callback ω ε) (sim : Simulation ω ε σ) :
    Except Fatal (Simulation ω ε σ) := do
  let s ← ops.step sim.sched .tick
  match ops.calling s with
  | none => return { sim with sched := s }
  | some ctx =>
    let (world, posts, result) := callback sim.world ctx
    let s ← posts.foldlM (fun s p => ops.step s (.post p)) s
    let s ← ops.step s (.ret result)
    return { world := world, executed := sim.executed ++ [ctx], sched := s }

/-- How a run ends: it returns a result, with the events executed and those left, or the program
is aborted. -/
inductive Outcome (ε : Type) where
  | returned (executed : List ε) (result : Int) (queue : List ε)
  | aborted (why : Fatal)
  deriving DecidableEq

/-- The run that is going on ends so. -/
inductive RunEnds (ops : SchedOps σ ε) (callback : Callback ω ε) :
    Simulation ω ε σ → Outcome ε → Prop where
  | returned {sim : Simulation ω ε σ} {result : Int} :
      ops.result sim.sched = some result →
      RunEnds ops callback sim (.returned sim.executed result (ops.queue sim.sched))
  | aborted {sim : Simulation ω ε σ} {why : Fatal} :
      ops.result sim.sched = none → turn ops callback sim = .error why →
      RunEnds ops callback sim (.aborted why)
  | next {sim sim' : Simulation ω ε σ} {outcome : Outcome ε} :
      ops.result sim.sched = none → turn ops callback sim = .ok sim' →
      RunEnds ops callback sim' outcome → RunEnds ops callback sim outcome

/-- `sim_step`, or `sim_run` for the largest number of steps, ends so. -/
def Runs (ops : SchedOps σ ε) (callback : Callback ω ε) (world : ω) (s : σ) (numSteps : Nat)
    (outcome : Outcome ε) : Prop :=
  match ops.step s (.run numSteps) with
  | .ok s => RunEnds ops callback ⟨world, [], s⟩ outcome
  | .error why => outcome = .aborted why

end Cbgp.Sim
