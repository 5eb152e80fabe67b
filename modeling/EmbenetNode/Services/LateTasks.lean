import EmbenetNode.CustomService.Model
import EmbenetNode.Mqttsn.Model
import EmbenetNode.Lib.GuardedRun

/-!
# Tasks that run late

The tasks of the two services schedule themselves for a time after the one they were scheduled for,
not after the one they run at, and do not look at the result. A time in the past is refused, so one
execution that is late by more than the period is the last one.

* `Documented`: what is documented of `EMBENET_NODE_TaskSchedule`;
* `Rescheduled`, `OnTime`: the task is scheduled again, and runs within its period;
* `lateTasks_iff`: along every part of a run, the tasks are scheduled again exactly if they run
  within their periods.
-/

namespace EmbenetNode.Services

open Mqttsn (TaskId Scheduler)

/-- What is documented of `EMBENET_NODE_TaskSchedule`, for the local time: it refuses a time in the
past and an invalid task, and nothing else. -/
structure Documented (scheduler : Scheduler) : Prop where
  past : ∀ taskId now t, t < now → scheduler taskId .local now t = false
  invalid : ∀ now t, scheduler none .local now t = false
  ok : ∀ id now t, now ≤ t → scheduler (some id) .local now t = true

/-- Only a task that was created is scheduled. -/
def Created (taskId : TaskId) (scheduled : Option UInt64) : Prop :=
  scheduled ≠ none → taskId ≠ none

/-- `now` is at most `period` after the time a task is scheduled for. -/
def Within (period : UInt64) (scheduled : Option UInt64) (now : UInt64) : Prop :=
  ∀ t ∈ scheduled, now ≤ t + period

instance (period : UInt64) (scheduled : Option UInt64) (now : UInt64) :
    Decidable (Within period scheduled now) := Option.decidableForallMem scheduled

theorem within_some {period t now : UInt64} : Within period (some t) now ↔ now ≤ t + period := by
  simp [Within]

variable {scheduler : Scheduler} {taskId : TaskId} {now t : UInt64}

theorem Documented.accepts_iff_le (hdoc : Documented scheduler) (hid : taskId ≠ none) :
    scheduler taskId .local now t = true ↔ now ≤ t := by
  obtain ⟨id, rfl⟩ := Option.ne_none_iff_exists'.1 hid
  constructor
  · intro h
    by_contra hlt
    rw [hdoc.past _ _ _ (UInt64.not_le.1 hlt)] at h
    cases h
  · exact hdoc.ok id now t

/-- A schedule that the node accepts is one of a task that was created. -/
theorem Documented.created (hdoc : Documented scheduler) {scheduled : Option UInt64}
    (hs : Created taskId scheduled) :
    Created taskId (if scheduler taskId .local now t then some t else scheduled) := by
  split_ifs with haccepts
  · rintro - rfl
    rw [hdoc.invalid] at haccepts
    cases haccepts
  · exact hs

/-- A task that is scheduled anew from its execution at `now` is scheduled again exactly if the new
time has not passed. -/
theorem Documented.rescheduled_iff (hdoc : Documented scheduler) (hid : taskId ≠ none) :
    (if scheduler taskId .local now t then some t else none) ≠ none ↔ now ≤ t := by
  rw [← hdoc.accepts_iff_le hid]
  split_ifs with haccepts <;> simp [haccepts]

end EmbenetNode.Services

/-! ### The custom service -/

namespace EmbenetNode.CustomService

open Services
open Mqttsn (TaskId Scheduler)

/-- When the task function returns, the task is scheduled. -/
def Rescheduled : Event → System → Prop
  | .taskRun .., s' => s'.scheduled ≠ none
  | .start _, _ | .stop, _ => True

/-- The task runs within 5 s after the time it was scheduled for. -/
def OnTime (s : System) : Event → Prop
  | .taskRun now _ => Within 5000 s.scheduled now
  | .start _ | .stop => True

instance : ∀ e s', Decidable (Rescheduled e s')
  | .taskRun .., s' => inferInstanceAs (Decidable (s'.scheduled ≠ none))
  | .start _, _ | .stop, _ => isTrue trivial

instance (s : System) : ∀ e, Decidable (OnTime s e)
  | .taskRun now _ => inferInstanceAs (Decidable (Within 5000 s.scheduled now))
  | .start _ | .stop => isTrue trivial

/-- The invariant: the task is scheduled only when it was created. -/
def TaskCreated (s : System) : Prop := Created s.statics.customServiceTaskId s.scheduled

variable {scheduler : Scheduler} {s s' : System} {e : Event}

/-- The task schedules itself for 5 s after the time it was scheduled for. -/
theorem scheduled_taskRun {now : UInt64} {sent : Result}
    (h : step scheduler s (.taskRun now sent) = some s') :
    ∃ t, s.scheduled = some t ∧
      s'.statics.customServiceTaskId = s.statics.customServiceTaskId ∧
      s'.scheduled =
        if scheduler s.statics.customServiceTaskId .local now (t + 5000) then some (t + 5000)
        else none := by
  obtain ⟨t, ht, -, rfl⟩ := step_taskRun h
  refine ⟨t, ht, ?_⟩
  by_cases hsent : sent = .ok <;>
    simp only [System.apply, customServiceTask, hsent] <;>
    constructor <;> simp [System.perform] <;> split_ifs <;> rfl

theorem scheduled_start {now : UInt64} (h : step scheduler s (.start now) = some s') :
    s'.statics.customServiceTaskId = s.statics.customServiceTaskId ∧
      s'.scheduled =
        if scheduler s.statics.customServiceTaskId .local now (now + 2000) then some (now + 2000)
        else s.scheduled := by
  cases h
  simp only [System.apply, start]
  constructor <;> simp [System.perform] <;> split_ifs <;> rfl

theorem taskCreated_step (hdoc : Documented scheduler) (hs : TaskCreated s)
    (h : step scheduler s e = some s') : TaskCreated s' := by
  unfold TaskCreated
  cases e with
  | start now =>
    obtain ⟨hid, hscheduled⟩ := scheduled_start h
    rw [hid, hscheduled]
    exact hdoc.created hs
  | stop =>
    cases h
    exact fun hscheduled => absurd rfl hscheduled
  | taskRun now sent =>
    obtain ⟨t, -, hid, hscheduled⟩ := scheduled_taskRun h
    rw [hid, hscheduled]
    exact hdoc.created fun hnone => absurd rfl hnone

theorem taskCreated_initialized (registered : Result) (taskId : TaskId) :
    TaskCreated (.initialized registered taskId) :=
  fun hscheduled => absurd rfl hscheduled

/-- **The step lemma**: the task is scheduled again exactly if it runs on time. -/
theorem rescheduled_step_iff (hdoc : Documented scheduler) (hs : TaskCreated s)
    (h : step scheduler s e = some s') : Rescheduled e s' ↔ OnTime s e := by
  cases e with
  | start | stop => exact Iff.rfl
  | taskRun now sent =>
    obtain ⟨t, ht, -, hscheduled⟩ := scheduled_taskRun h
    have hid : s.statics.customServiceTaskId ≠ none := hs (by rw [ht]; exact Option.some_ne_none t)
    rw [Rescheduled, hscheduled, hdoc.rescheduled_iff hid, OnTime, ht, within_some]

end EmbenetNode.CustomService

/-! ### The MQTT-SN service -/

namespace EmbenetNode.Mqttsn

open Services

/-- In CONNECTING and RUNNING the task schedules itself for 10 s after the time it was scheduled
for. -/
def ServiceState.Periodic (state : ServiceState) : Prop := state = .connecting ∨ state = .running

/-- When the task function returns that has run in CONNECTING or RUNNING, the task is scheduled. -/
def Rescheduled (s : System) : Event → System → Prop
  | .taskRun .., s' => s.statics.serviceState.Periodic → s'.scheduled ≠ none
  | .start _, _ | .stop, _ | .connected _, _ | .disconnected _, _ | .topicRegistered .., _
  | .proc .., _ => True

/-- The task runs in these states within 10 s after the time it was scheduled for. -/
def OnTime (s : System) : Event → Prop
  | .taskRun now _ => s.statics.serviceState.Periodic → Within 10000 s.scheduled now
  | .start _ | .stop | .connected _ | .disconnected _ | .topicRegistered .. | .proc .. => True

instance (state : ServiceState) : Decidable state.Periodic :=
  inferInstanceAs (Decidable (state = .connecting ∨ state = .running))

instance (s : System) : ∀ e s', Decidable (Rescheduled s e s')
  | .taskRun .., s' =>
      inferInstanceAs (Decidable (s.statics.serviceState.Periodic → s'.scheduled ≠ none))
  | .start _, _ | .stop, _ | .connected _, _ | .disconnected _, _ | .topicRegistered .., _
  | .proc .., _ => isTrue trivial

instance (s : System) : ∀ e, Decidable (OnTime s e)
  | .taskRun now _ =>
      inferInstanceAs
        (Decidable (s.statics.serviceState.Periodic → Within 10000 s.scheduled now))
  | .start _ | .stop | .connected _ | .disconnected _ | .topicRegistered .. | .proc .. =>
      isTrue trivial

/-- The invariant: the task is scheduled only when it was created. -/
def TaskCreated (s : System) : Prop := Created s.statics.mqttsnTaskId s.scheduled

variable {uid : UInt64} {scheduler : Scheduler} {s s' : System} {e : Event}

/-- The functions of the service leave the task id alone, and schedule no other task. -/
theorem effect_taskId (uid : UInt64) (s : System) (e : Event) :
    (e.effect uid s).1.mqttsnTaskId = s.statics.mqttsnTaskId ∧
      ∀ call ∈ (e.effect uid s).2, ∀ id timeSource t, call = .taskSchedule id timeSource t →
        id = s.statics.mqttsnTaskId ∧ timeSource = .local := by
  cases e with
  | start now => simp [Event.effect, start]
  | stop => simp [Event.effect, stop]
  | connected now => simp [Event.effect, onMQTTConnected]
  | disconnected now => simp [Event.effect, onMQTTDisconnected]
  | topicRegistered now topicName => simp [Event.effect, onMQTTTopicRegistered]
  | taskRun now result =>
    unfold Event.effect mqttsnServiceTask
    cases s.statics.serviceState <;> simp
  | proc low low' now now' =>
    by_cases hpressed : Pressed low now s.statics
    · rw [Event.effect, proc_of_pressed hpressed]
      cases low' <;> simp
    · rw [Event.effect, proc_of_not_pressed hpressed]
      cases low' <;> simp

/-- Calls that schedule the task of the service only. -/
theorem created_foldl (hdoc : Documented scheduler) {taskId : TaskId} {now : UInt64}
    {result : ClientResult} (calls : List Call) (hs : Created taskId s.scheduled)
    (hcalls : ∀ call ∈ calls, ∀ id timeSource t, call = .taskSchedule id timeSource t →
      id = taskId ∧ timeSource = .local) :
    Created taskId (calls.foldl (System.perform scheduler now result) s).scheduled := by
  induction calls generalizing s with
  | nil => exact hs
  | cons call calls ih =>
    rw [List.forall_mem_cons] at hcalls
    refine ih ?_ hcalls.2
    cases call with
    | taskSchedule id timeSource t =>
      obtain ⟨rfl, rfl⟩ := hcalls.1 id timeSource t rfl
      have hcreated := @Documented.created scheduler id now t hdoc s.scheduled hs
      simp only [System.perform]
      split_ifs at hcreated ⊢ <;> exact hcreated
    | taskCancel => exact fun hscheduled => absurd rfl hscheduled
    | cleanConnect | registerTopic =>
      simp only [System.perform]
      split_ifs <;> exact hs
    | taskCreate | clientInit | clientDeinit | subscribe | publishMessage | led1 => exact hs

theorem taskCreated_step (hdoc : Documented scheduler) (hs : TaskCreated s)
    (h : step uid scheduler s e = some s') : TaskCreated s' := by
  obtain ⟨hid, hcalls⟩ := effect_taskId uid s e
  rw [TaskCreated, (step_effect h).1, hid]
  cases e with
  | taskRun now result =>
    obtain ⟨t, ht, heq⟩ := Option.bind_eq_some_iff.1 h
    cases heq
    rw [Event.effect, ht] at hcalls
    exact created_foldl hdoc _ (fun hscheduled => absurd rfl hscheduled) hcalls
  | proc low low' now now' =>
    obtain ⟨-, rfl⟩ := step_proc h
    exact created_foldl hdoc _ hs hcalls
  | start | stop | connected | disconnected | topicRegistered =>
    cases h
    exact created_foldl hdoc _ hs hcalls

/-- The task in CONNECTING and RUNNING. -/
theorem scheduled_taskRun {now : UInt64} {result : ClientResult}
    (hperiodic : s.statics.serviceState.Periodic)
    (h : step uid scheduler s (.taskRun now result) = some s') :
    ∃ t, s.scheduled = some t ∧
      s'.scheduled =
        if scheduler s.statics.mqttsnTaskId .local now (t + 10000) then some (t + 10000)
        else none := by
  obtain ⟨t, ht, heq⟩ := Option.bind_eq_some_iff.1 h
  cases heq
  refine ⟨t, ht, ?_⟩
  rcases hperiodic with hstate | hstate <;>
    simp only [mqttsnServiceTask, hstate, System.apply, List.foldl_cons, List.foldl_nil,
      System.perform] <;>
    split_ifs <;> rfl

/-- **The step lemma**: in CONNECTING and RUNNING the task is scheduled again exactly if it runs on
time. -/
theorem rescheduled_step_iff (hdoc : Documented scheduler) (hs : TaskCreated s)
    (h : step uid scheduler s e = some s') : Rescheduled s e s' ↔ OnTime s e := by
  cases e with
  | start | stop | connected | disconnected | topicRegistered | proc => exact Iff.rfl
  | taskRun now result =>
    refine imp_congr_right fun hperiodic => ?_
    obtain ⟨t, ht, hscheduled⟩ := scheduled_taskRun hperiodic h
    have hid : s.statics.mqttsnTaskId ≠ none := hs (by rw [ht]; exact Option.some_ne_none t)
    rw [hscheduled, hdoc.rescheduled_iff hid, ht, within_some]

/-- After the initialization, whatever the client and the node return in it. -/
def System.initialized (uid : UInt64) (result : ClientResult) (taskId : TaskId) : System :=
  { statics := (init uid result taskId {}).1 }

theorem taskCreated_initialized (uid : UInt64) (result : ClientResult) (taskId : TaskId) :
    TaskCreated (.initialized uid result taskId) :=
  fun hscheduled => absurd rfl hscheduled

end EmbenetNode.Mqttsn

/-! ### Whole runs -/

namespace EmbenetNode.Services

open GuardedRun

/-- **The tasks survive late executions** exactly as long as none is late by more than the period.
From every state of a run, and so between a start and the next stop, the tasks of both services
are scheduled again whenever their functions return, exactly if the custom service's runs within
5 s, and that of the MQTT-SN service in CONNECTING and RUNNING within 10 s, after the time it was
scheduled for. -/
theorem lateTasks_iff {scheduler : Mqttsn.Scheduler} (hdoc : Documented scheduler) :
    (∀ registered taskId (before : List CustomService.Event) s es,
        before.foldlM (CustomService.step scheduler)
          (CustomService.System.initialized registered taskId) = some s →
        (Along (CustomService.step scheduler) (fun _ e s' => CustomService.Rescheduled e s') s es ↔
          Along (CustomService.step scheduler) (fun s e _ => CustomService.OnTime s e) s es)) ∧
      ∀ uid result taskId (before : List Mqttsn.Event) s es,
        before.foldlM (Mqttsn.step uid scheduler)
          (Mqttsn.System.initialized uid result taskId) = some s →
        (Along (Mqttsn.step uid scheduler) (fun s e s' => Mqttsn.Rescheduled s e s') s es ↔
          Along (Mqttsn.step uid scheduler) (fun s e _ => Mqttsn.OnTime s e) s es) := by
  constructor
  · intro registered taskId before s es
    exact along_iff_of_foldlM (fun _ _ _ => CustomService.taskCreated_step hdoc)
      (fun _ _ _ => CustomService.rescheduled_step_iff hdoc)
      (CustomService.taskCreated_initialized registered taskId)
  · intro uid result taskId before s es
    exact along_iff_of_foldlM (fun _ _ _ => Mqttsn.taskCreated_step hdoc)
      (fun _ _ _ => Mqttsn.rescheduled_step_iff hdoc)
      (Mqttsn.taskCreated_initialized uid result taskId)

/-- A scheduler as documented. -/
def notInPast : Mqttsn.Scheduler := fun taskId _ now t => decide (taskId ≠ none ∧ now ≤ t)

theorem documented_notInPast : Documented notInPast where
  past _ _ _ h := decide_eq_false fun haccepts => UInt64.not_le.2 h haccepts.2
  invalid _ _ := decide_eq_false fun haccepts => haccepts.1 rfl
  ok id _ _ h := decide_eq_true ⟨Option.some_ne_none id, h⟩

/-- Executions that are late by less than the period. -/
theorem lateTasks_onTime :
    Along (CustomService.step notInPast) (fun _ e s' => CustomService.Rescheduled e s')
        (.initialized .ok (some 0)) [.start 0, .taskRun 2100 .ok, .taskRun 11900 .ok] ∧
      Along (Mqttsn.step 1 notInPast) (fun s e s' => Mqttsn.Rescheduled s e s')
        (.initialized 1 .ok (some 0)) [.start 10, .taskRun 15 .ok, .taskRun 20000 .ok] := by
  obtain ⟨hcustom, hmqttsn⟩ := lateTasks_iff documented_notInPast
  exact ⟨(hcustom .ok (some 0) [] _ _ rfl).2 (by decide +kernel),
    (hmqttsn 1 .ok (some 0) [] _ _ rfl).2 (by decide +kernel)⟩

/-- One execution that is late by more than the period is the last one. -/
theorem late_once_not_rescheduled :
    Documented notInPast ∧
      ¬ Along (CustomService.step notInPast) (fun _ e s' => CustomService.Rescheduled e s')
        (.initialized .ok (some 0)) [.start 0, .taskRun 7001 .ok] ∧
      ¬ Along (Mqttsn.step 1 notInPast) (fun s e s' => Mqttsn.Rescheduled s e s')
        (.initialized 1 .ok (some 0)) [.start 10, .taskRun 10 .ok, .taskRun 20011 .ok] :=
  ⟨documented_notInPast, by decide +kernel, by decide +kernel⟩

end EmbenetNode.Services
