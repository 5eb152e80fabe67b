import EmbenetNode.Services.LateTasks

/-!
# The times of the tasks

A task that schedules itself for a period after the time it was scheduled for keeps to a grid that
begins with the time it was first scheduled for: the delays of its executions do not add up.

* `grid`: the times of such a task;
* `CustomService.OnGrid`, `custom_on_grid`: the task of the custom service, with the numbers of its
  messages;
* `Mqttsn.OnGrid`, `mqttsn_on_grid`: the task of the MQTT-SN service while it connects or runs.
-/

namespace EmbenetNode.Services

/-- The time of an execution, when the first one is at `first`. -/
def grid (first period : UInt64) (runs : ℕ) : UInt64 := first + period * UInt64.ofNat runs

theorem grid_zero (first period : UInt64) : grid first period 0 = first := by
  rw [grid, show UInt64.ofNat 0 = 0 from rfl, UInt64.mul_zero, UInt64.add_zero]

theorem grid_succ (first period : UInt64) (runs : ℕ) :
    grid first period (runs + 1) = grid first period runs + period := by
  rw [grid, grid, UInt64.ofNat_add, UInt64.mul_add, UInt64.ofNat_one, UInt64.mul_one,
    UInt64.add_assoc]

end EmbenetNode.Services

/-! ### The custom service -/

namespace EmbenetNode.CustomService

open Services GuardedRun
open Mqttsn (TaskId Scheduler)

/-- The message of a call that sends one. -/
def Call.message : Call → Option (List UInt8)
  | .udpSend _ message => some message
  | .registerSocket _ | .taskCreate | .taskSchedule .. | .taskCancel _ | .print _ => none

/-- The messages passed to `EMBENET_UDP_Send`. -/
def System.messages (s : System) : List (List UInt8) := s.calls.filterMap Call.message

/-- The service, the time of the first execution of its task since the last start that took effect,
and the number of its executions since. -/
structure Timed where
  system : System
  first : UInt64 := 0
  runs : ℕ := 0

/-- One event. -/
def Timed.step (scheduler : Scheduler) (s : Timed) (e : Event) : Option Timed := do
  let system ← CustomService.step scheduler s.system e
  match e with
  | .start now =>
      if scheduler s.system.statics.customServiceTaskId .local now (now + 2000) then
        return ⟨system, now + 2000, 0⟩
      else return { s with system }
  | .stop => return { s with system }
  | .taskRun .. => return ⟨system, s.first, s.runs + 1⟩

/-- After the initialization, whatever the node returns in it. -/
def Timed.initialized (registered : Result) (taskId : TaskId) : Timed :=
  { system := .initialized registered taskId }

/-- The task is scheduled for the next time of its grid, and the messages are numbered. -/
structure OnGrid (s : Timed) : Prop where
  scheduled : ∀ t ∈ s.system.scheduled, t = grid s.first 5000 s.runs
  messages : s.system.messages = (List.range s.system.statics.counter).map fun i => message i

variable {scheduler : Scheduler} {s s' : Timed} {e : Event}

theorem timed_step (h : s.step scheduler e = some s') :
    CustomService.step scheduler s.system e = some s'.system := by
  obtain ⟨system, hsystem, heq⟩ := Option.bind_eq_some_iff.1 h
  rw [hsystem]
  cases e with
  | start now =>
    simp only at heq
    split_ifs at heq <;> cases heq <;> rfl
  | stop | taskRun =>
    cases heq
    rfl

/-- What the task function sends. -/
theorem filterMap_customServiceTask (taskId : TaskId) (t : UInt64) (sent : Result) (s : Statics) :
    (customServiceTask taskId .local t sent s).2.filterMap Call.message = [message s.counter] := by
  by_cases hsent : sent = .ok <;> simp [customServiceTask, hsent, Call.message]

/-- The event is an execution of the task. -/
def Event.isTaskRun : Event → Bool
  | .taskRun .. => true
  | .start _ | .stop => false

/-- What an event does to the counter and to the messages sent: each execution sends one. -/
theorem messages_step {s s' : System} (h : step scheduler s e = some s') :
    s'.statics.counter = s.statics.counter + e.isTaskRun.toNat ∧
      s'.messages =
        s.messages ++ if e.isTaskRun then [message s.statics.counter] else [] := by
  cases e with
  | start now =>
    cases h
    obtain ⟨hstatics, hcalls⟩ := System.apply_effect scheduler now s (start now s.statics)
    refine ⟨by rw [hstatics]; rfl, ?_⟩
    rw [System.messages, hcalls, List.filterMap_append]
    rfl
  | stop =>
    cases h
    obtain ⟨hstatics, hcalls⟩ := System.apply_effect scheduler 0 s (stop s.statics)
    refine ⟨by rw [hstatics]; rfl, ?_⟩
    rw [System.messages, hcalls, List.filterMap_append]
    rfl
  | taskRun now sent =>
    obtain ⟨t, -, -, rfl⟩ := step_taskRun h
    obtain ⟨hstatics, hcalls⟩ := System.apply_effect scheduler now { s with scheduled := none }
      (customServiceTask s.statics.customServiceTaskId .local t sent s.statics)
    refine ⟨by rw [hstatics]; rfl, ?_⟩
    rw [System.messages, hcalls, List.filterMap_append, filterMap_customServiceTask]
    rfl

theorem messages_numbered {s s' : System} (h : step scheduler s e = some s')
    (hs : s.messages = (List.range s.statics.counter).map fun i => message i) :
    s'.messages = (List.range s'.statics.counter).map fun i => message i := by
  obtain ⟨hcounter, hmessages⟩ := messages_step h
  rw [hmessages, hcounter, hs]
  cases e.isTaskRun with
  | false => exact List.append_nil _
  | true =>
    rw [Bool.toNat_true, List.range_succ, List.map_append]
    rfl

/-- **The step lemma**: every event keeps to the grid. -/
theorem onGrid_step (hs : OnGrid s) (h : s.step scheduler e = some s') : OnGrid s' := by
  have hstep := timed_step h
  refine ⟨?_, messages_numbered hstep hs.messages⟩
  obtain ⟨system, hsystem, heq⟩ := Option.bind_eq_some_iff.1 h
  cases e with
  | start now =>
    obtain ⟨-, hscheduled⟩ := scheduled_start hsystem
    simp only at heq
    split_ifs at heq hscheduled with haccepts
    · cases heq
      intro t ht
      rw [hscheduled] at ht
      rw [← Option.some.inj ht, grid_zero]
    · -- the node refuses the time: what was scheduled stays, on the old grid
      cases heq
      intro t ht
      rw [hscheduled] at ht
      exact hs.scheduled t ht
  | stop =>
    cases heq
    cases hsystem
    exact nofun
  | taskRun now sent =>
    obtain ⟨t, ht, -, hscheduled⟩ := scheduled_taskRun hsystem
    cases heq
    intro t' ht'
    rw [hscheduled] at ht'
    split_ifs at ht'
    · -- the next time is counted from the time scheduled, not from the time of the execution
      rw [← Option.some.inj ht', grid_succ, ← hs.scheduled t ht]
    · cases ht'

theorem onGrid_initialized (registered : Result) (taskId : TaskId) :
    OnGrid (.initialized registered taskId) := by
  refine ⟨nofun, ?_⟩
  have hcounter : (init registered taskId {}).1.counter = 0 := by
    unfold init
    split_ifs <;> rfl
  show [] = (List.range (init registered taskId {}).1.counter).map _
  rw [hcounter]
  rfl

/-- An execution is one at the time of the grid. -/
def RunsOnGrid (s : Timed) : Event → Prop
  | .taskRun .. => s.system.scheduled = some (grid s.first 5000 s.runs)
  | .start _ | .stop => True

theorem runsOnGrid_of_step (hs : OnGrid s) (h : s.step scheduler e = some s') : RunsOnGrid s e := by
  cases e with
  | start | stop => trivial
  | taskRun now sent =>
    obtain ⟨t, ht, -⟩ := scheduled_taskRun (timed_step h)
    rw [RunsOnGrid, ht, hs.scheduled t ht]

/-- **The custom service keeps time and count.** Along any run from the initialization, however late
the task is executed: the execution number `k` after a start at the time `now` is scheduled for
exactly `now + 2000 + 5000 k`, and the messages passed to EMBENET_UDP_Send over all starts and stops
are numbered 0, 1, 2, ... without a gap or a repetition. -/
theorem custom_on_grid (scheduler : Scheduler) (registered : Result) (taskId : TaskId)
    (es : List Event) :
    Along (Timed.step scheduler)
      (fun s e s' => RunsOnGrid s e ∧
        s'.system.messages =
          (List.range s'.system.statics.counter).map fun i => message i)
      (.initialized registered taskId) es := by
  have hstep : ∀ s e s', OnGrid s → True → Timed.step scheduler s e = some s' →
      (RunsOnGrid s e ∧ s'.system.messages =
        (List.range s'.system.statics.counter).map fun i => message i) ∧ OnGrid s' := by
    intro s e s' hs _ h
    have hs' := onGrid_step hs h
    exact ⟨⟨runsOnGrid_of_step hs h, hs'.messages⟩, hs'⟩
  exact Along.of_invariant hstep (onGrid_initialized registered taskId)
    (along_of_forall_mem es _ fun _ _ _ _ => trivial)

end EmbenetNode.CustomService

/-! ### The MQTT-SN service -/

namespace EmbenetNode.Mqttsn

open Services GuardedRun

/-- The time that the function which an event runs asks its task to be scheduled for, when it is not
one period after the last. -/
def Event.newTime (s : System) : Event → Option UInt64
  | .start now | .connected now | .topicRegistered now _ => some now
  | .disconnected now => some (now + 5000)
  | .taskRun now _ => if s.statics.serviceState = .subscribeToTopic then some (now + 1000) else none
  | .stop | .proc .. => none

/-- The service, the time for which its task was scheduled last by anything but itself, one period
later, and the number of its executions since. -/
structure Timed where
  system : System
  first : UInt64 := 0
  runs : ℕ := 0

/-- An execution in one of the states in which the task schedules itself one period later. -/
def PeriodicRun (s : System) : Event → Prop
  | .taskRun .. => s.statics.serviceState.Periodic
  | .start _ | .stop | .connected _ | .disconnected _ | .topicRegistered .. | .proc .. => False

instance (s : System) : ∀ e, Decidable (PeriodicRun s e)
  | .taskRun .. => inferInstanceAs (Decidable s.statics.serviceState.Periodic)
  | .start _ | .stop | .connected _ | .disconnected _ | .topicRegistered .. | .proc .. =>
      isFalse id

/-- One event. A time that the node refuses changes nothing. -/
def Timed.step (uid : UInt64) (scheduler : Scheduler) (s : Timed) (e : Event) : Option Timed := do
  let system ← Mqttsn.step uid scheduler s.system e
  if PeriodicRun s.system e then return ⟨system, s.first, s.runs + 1⟩
  else
    match e.newTime s.system with
    | some t => if system.scheduled = some t then return ⟨system, t, 0⟩ else return { s with system }
    | none => return { s with system }

/-- The task is scheduled for the next time of its grid. -/
def OnGrid (s : Timed) : Prop := ∀ t ∈ s.system.scheduled, t = grid s.first 10000 s.runs

variable {uid : UInt64} {scheduler : Scheduler}

/-- Any event but an execution in CONNECTING or RUNNING schedules the task for a new time, leaves it
alone or cancels it. -/
theorem scheduled_cases {s s' : System} {e : Event} (he : ¬ PeriodicRun s e)
    (h : step uid scheduler s e = some s') :
    (∃ t, e.newTime s = some t ∧ s'.scheduled = some t) ∨ s'.scheduled = s.scheduled ∨
      s'.scheduled = none := by
  cases e with
  | start now | connected now | topicRegistered now topicName =>
    cases h
    by_cases haccepts : scheduler s.statics.mqttsnTaskId .local now now = true
    · exact .inl ⟨now, rfl, by
        simp [System.apply, System.perform, System.answered, start, onMQTTConnected,
          onMQTTTopicRegistered, haccepts]⟩
    · exact .inr (.inl (by
        simp [System.apply, System.perform, System.answered, start, onMQTTConnected,
          onMQTTTopicRegistered, haccepts]))
  | stop => exact .inr (.inr (scheduled_of_stop h))
  | disconnected now =>
    cases h
    by_cases haccepts : scheduler s.statics.mqttsnTaskId .local now (now + 5000) = true
    · exact .inl ⟨_, rfl, by
        simp [System.apply, System.perform, onMQTTDisconnected, haccepts]⟩
    · exact .inr (.inr (by simp [System.apply, System.perform, onMQTTDisconnected, haccepts]))
  | proc low low' now now' => exact .inr (.inl (scheduled_of_proc h))
  | taskRun now result =>
    obtain ⟨t, -, heq⟩ := Option.bind_eq_some_iff.1 h
    cases heq
    cases hstate : s.statics.serviceState with
    | connecting => exact absurd (.inl hstate) he
    | running => exact absurd (.inr hstate) he
    | registerUptimeTopic | registerButtonStateTopic =>
      refine .inr (.inr ?_)
      simp only [mqttsnServiceTask, hstate, System.apply, List.foldl_cons, List.foldl_nil,
        System.perform]
      split_ifs <;> rfl
    | subscribeToTopic =>
      by_cases haccepts : scheduler s.statics.mqttsnTaskId .local now (now + 1000) = true
      · refine .inl ⟨now + 1000, by simp [Event.newTime, hstate], ?_⟩
        simp [mqttsnServiceTask, hstate, System.apply, System.perform, haccepts]
      · refine .inr (.inr ?_)
        simp [mqttsnServiceTask, hstate, System.apply, System.perform, haccepts]

variable {s s' : Timed} {e : Event}

theorem timed_step (h : s.step uid scheduler e = some s') :
    step uid scheduler s.system e = some s'.system ∧
      ((PeriodicRun s.system e ∧ s'.first = s.first ∧ s'.runs = s.runs + 1) ∨
        (¬ PeriodicRun s.system e ∧ ∃ t, e.newTime s.system = some t ∧
          s'.system.scheduled = some t ∧ s'.first = t ∧ s'.runs = 0) ∨
        (¬ PeriodicRun s.system e ∧
          (∀ t, e.newTime s.system = some t → s'.system.scheduled ≠ some t) ∧
            s'.first = s.first ∧ s'.runs = s.runs)) := by
  obtain ⟨system, hsystem, heq⟩ := Option.bind_eq_some_iff.1 h
  by_cases hperiodic : PeriodicRun s.system e
  · rw [if_pos hperiodic] at heq
    cases heq
    exact ⟨hsystem, .inl ⟨hperiodic, rfl, rfl⟩⟩
  · rw [if_neg hperiodic] at heq
    cases hnew : e.newTime s.system with
    | none =>
      rw [hnew] at heq
      cases heq
      exact ⟨hsystem, .inr (.inr ⟨hperiodic, nofun, rfl, rfl⟩)⟩
    | some t =>
      simp only [hnew] at heq
      split_ifs at heq with hscheduled
      · cases heq
        exact ⟨hsystem, .inr (.inl ⟨hperiodic, t, rfl, hscheduled, rfl, rfl⟩)⟩
      · cases heq
        refine ⟨hsystem, .inr (.inr ⟨hperiodic, ?_, rfl, rfl⟩)⟩
        intro t' ht'
        rw [← Option.some.inj ht']
        exact hscheduled

/-- **The step lemma**: every event keeps to the grid. -/
theorem onGrid_step (hs : OnGrid s) (h : s.step uid scheduler e = some s') : OnGrid s' := by
  obtain ⟨hstep, ⟨hperiodic, hfirst, hruns⟩ | ⟨-, t, -, hscheduled, hfirst, hruns⟩ |
    ⟨hperiodic, hnot, hfirst, hruns⟩⟩ := timed_step h
  · cases e with
    | taskRun now result =>
      obtain ⟨t, ht, hscheduled⟩ := scheduled_taskRun hperiodic hstep
      intro t' ht'
      rw [hscheduled] at ht'
      split_ifs at ht'
      · rw [← Option.some.inj ht', hfirst, hruns, grid_succ, ← hs t ht]
      · cases ht'
    | start | stop | connected | disconnected | topicRegistered | proc => cases hperiodic
  · intro t' ht'
    rw [hscheduled] at ht'
    rw [← Option.some.inj ht', hfirst, hruns, grid_zero]
  · intro t' ht'
    rw [hfirst, hruns]
    rcases scheduled_cases hperiodic hstep with ⟨t, hnew, hscheduled⟩ | hsame | hnone
    · exact absurd hscheduled (hnot t hnew)
    · rw [hsame] at ht'
      exact hs t' ht'
    · rw [hnone] at ht'
      cases ht'

/-- An execution in CONNECTING or RUNNING is one at the time of the grid. -/
def RunsOnGrid (s : Timed) (e : Event) : Prop :=
  PeriodicRun s.system e → s.system.scheduled = some (grid s.first 10000 s.runs)

theorem runsOnGrid_of_step (hs : OnGrid s) (h : s.step uid scheduler e = some s') :
    RunsOnGrid s e := by
  intro hperiodic
  cases e with
  | taskRun now result =>
    obtain ⟨t, ht, -⟩ := scheduled_taskRun hperiodic (timed_step h).1
    rw [ht, hs t ht]
  | start | stop | connected | disconnected | topicRegistered | proc => cases hperiodic

/-- **The MQTT-SN service keeps time.** Along any run from the initialization, however late the task
is executed: in CONNECTING and in RUNNING, the execution number `k` since the task was scheduled for
a time `t` by a start, by a callback or by the subscription is scheduled for exactly `t + 10000 k`;
so attempts to connect and uptime messages come every ten seconds on the average. -/
theorem mqttsn_on_grid (uid : UInt64) (scheduler : Scheduler) (result : ClientResult)
    (taskId : TaskId) (es : List Event) :
    Along (Timed.step uid scheduler) (fun s e _ => RunsOnGrid s e)
      { system := .initialized uid result taskId } es := by
  have hstep : ∀ s e s', OnGrid s → True → Timed.step uid scheduler s e = some s' →
      RunsOnGrid s e ∧ OnGrid s' := by
    intro s e s' hs _ h
    exact ⟨runsOnGrid_of_step hs h, onGrid_step hs h⟩
  exact Along.of_invariant hstep nofun (along_of_forall_mem es _ fun _ _ _ _ => trivial)

end EmbenetNode.Mqttsn
