import EmbenetNode.Mqttsn.Liveness

/-!
# A stopped service publishes nothing

The service publishes from its task, which a stop cancels, and from `mqttsn_client_service_proc`,
which looks at the state alone. Start and the disconnection set the state to CONNECTING; a stop
leaves it as it is. So a service stopped while RUNNING still publishes when the button is pressed,
and this is the only way (`silent_iff`).

* `Phase`, `Lifecycle`: whether the service has to be started, or to come up again; the session of
  its client;
* `Silent`: nothing is published before it has come up again;
* `ButtonReleased`: no press of the button meets a service stopped while RUNNING.
-/

namespace EmbenetNode.Mqttsn

open GuardedRun

/-- `stopped`: after a stop, until the next start. `restarting`: from there, or from a
disconnection, until the service is RUNNING again. -/
inductive Phase
  | active
  | stopped
  | restarting
  deriving DecidableEq

/-- The phase after an event that leaves the service in `state`. -/
def Phase.after (phase : Phase) (state : ServiceState) : Event → Phase
  | .stop => .stopped
  | .disconnected _ => .restarting
  | .start _ => if phase = .stopped then .restarting else phase
  | .taskRun .. | .connected _ | .topicRegistered .. | .proc .. =>
      if phase = .restarting ∧ state = .running then .active else phase

/-- The service, its phase, and whether the client has accepted a request to connect since it was
last deinitialized. -/
structure Lifecycle where
  system : System
  phase : Phase := .active
  session : Bool := false
  deriving DecidableEq

/-- The session after an event. -/
def Lifecycle.sessionAfter (uid : UInt64) (s : Lifecycle) : Event → Bool
  | .stop | .disconnected _ => false
  | .taskRun now result =>
      s.session ||
        (.cleanConnect ∈ ((Event.taskRun now result).effect uid s.system).2 ∧ result = .ok)
  | .start _ | .connected _ | .topicRegistered .. | .proc .. => s.session

/-- The event is a callback of the client. -/
def Event.isCallback : Event → Bool
  | .connected _ | .disconnected _ | .topicRegistered .. => true
  | .start _ | .stop | .taskRun .. | .proc .. => false

/-- One event; the callbacks are those of the current session. -/
def Lifecycle.step (uid : UInt64) (scheduler : Scheduler) (s : Lifecycle) (e : Event) :
    Option Lifecycle := do
  if e.isCallback ∧ ¬ s.session then none
  else
    let system ← Mqttsn.step uid scheduler s.system e
    return ⟨system, s.phase.after system.statics.serviceState e, s.sessionAfter uid e⟩

/-- After the initialization, whatever the client and the node return in it. -/
def Lifecycle.initialized (uid : UInt64) (result : ClientResult) (taskId : TaskId) : Lifecycle :=
  { system := { statics := (init uid result taskId {}).1 } }

def Call.isPublish : Call → Bool
  | .publishMessage .. => true
  | .taskCreate | .taskSchedule .. | .taskCancel _ | .clientInit _ | .clientDeinit | .cleanConnect
  | .registerTopic _ | .subscribe _ | .led1 _ => false

/-- The messages published. -/
def System.published (s : System) : List Call := s.calls.filter Call.isPublish

/-- Between a stop, or a disconnection, and the moment the service is RUNNING again, nothing is
published and no press of the button counted. -/
def Silent (s : Lifecycle) (s' : Lifecycle) : Prop :=
  s.phase ≠ .active →
    s'.system.published = s.system.published ∧
      s'.system.statics.buttonPressCounter = s.system.statics.buttonPressCounter

/-- Between a stop and the next start, `mqttsn_client_service_proc` does not find the button pressed
with the state still RUNNING. -/
def ButtonReleased (s : Lifecycle) : Event → Prop
  | .proc low _ now _ => s.phase = .stopped → ¬ Pressed low now s.system.statics
  | .start _ | .stop | .taskRun .. | .connected _ | .disconnected _ | .topicRegistered .. => True

instance (s s' : Lifecycle) : Decidable (Silent s s') := by unfold Silent; infer_instance

/-- The invariant: a stopped service has no task scheduled and no session, one that restarts is not
yet RUNNING. -/
structure Dormant (s : Lifecycle) : Prop where
  stopped : s.phase = .stopped → s.system.scheduled = none ∧ s.session = false
  restarting : s.phase = .restarting → s.system.statics.serviceState ≠ .running

variable {uid : UInt64} {scheduler : Scheduler} {s s' : Lifecycle} {e : Event}

theorem lifecycle_step (h : s.step uid scheduler e = some s') :
    (e.isCallback = true → s.session = true) ∧
      step uid scheduler s.system e = some s'.system ∧
      s'.phase = s.phase.after s'.system.statics.serviceState e ∧
      s'.session = s.sessionAfter uid e := by
  unfold Lifecycle.step at h
  split_ifs at h with hcallback
  obtain ⟨system, hsystem, heq⟩ := Option.bind_eq_some_iff.1 h
  cases heq
  refine ⟨fun he => ?_, hsystem, rfl, rfl⟩
  by_contra hsession
  exact hcallback ⟨he, hsession⟩

/-! ### What is published -/

/-- The function that the event runs publishes nothing and counts no press of the button. -/
structure Quiet (uid : UInt64) (s : System) (e : Event) : Prop where
  calls : (e.effect uid s).2.filter Call.isPublish = []
  counter : (e.effect uid s).1.buttonPressCounter = s.statics.buttonPressCounter

theorem filter_reset (low' : Bool) :
    (if low' then [] else [Call.led1 false]).filter Call.isPublish = [] := by
  cases low' <;> rfl

theorem quiet_proc {s : System} {low low' : Bool} {now now' : UInt64}
    (h : ¬ Pressed low now s.statics) : Quiet uid s (.proc low low' now now') where
  calls := by
    rw [Event.effect, proc_of_not_pressed h]
    exact filter_reset low'
  counter := by rw [Event.effect, proc_of_not_pressed h]

/-- Only a running service publishes. -/
theorem quiet_of_ne {s : System} (h : s.statics.serviceState ≠ .running) (e : Event) :
    Quiet uid s e := by
  cases e with
  | start | stop | connected | disconnected | topicRegistered => exact ⟨rfl, rfl⟩
  | taskRun now result =>
    cases hstate : s.statics.serviceState with
    | connecting | registerUptimeTopic | registerButtonStateTopic | subscribeToTopic =>
      constructor <;> simp [Event.effect, mqttsnServiceTask, hstate, Call.isPublish]
    | running => exact absurd hstate h
  | proc low low' now now' => exact quiet_proc fun hpressed => h hpressed.1

theorem silent_of_quiet (hquiet : Quiet uid s.system e) (h : s.step uid scheduler e = some s') :
    Silent s s' := by
  obtain ⟨-, hstep, -, -⟩ := lifecycle_step h
  obtain ⟨hstatics, hcalls⟩ := step_effect hstep
  intro _
  rw [System.published, hcalls, List.filter_append, hquiet.calls, List.append_nil, hstatics,
    hquiet.counter]
  exact ⟨rfl, rfl⟩

/-- A press of the button that meets a running service is published. -/
theorem not_silent_of_pressed {low low' : Bool} {now now' : UInt64} (hphase : s.phase ≠ .active)
    (hpressed : Pressed low now s.system.statics)
    (h : s.step uid scheduler (.proc low low' now now') = some s') : ¬ Silent s s' := by
  obtain ⟨-, hstep, -, -⟩ := lifecycle_step h
  have hstatics := (step_effect hstep).1
  rw [Event.effect, proc_of_pressed hpressed] at hstatics
  intro hsilent
  have hcounter := (hsilent hphase).2
  rw [hstatics] at hcounter
  exact absurd hcounter (Nat.succ_ne_self _)

/-! ### The steps -/

/-- Whether a step is silent. -/
theorem silent_step_iff (hs : Dormant s) (h : s.step uid scheduler e = some s') :
    Silent s s' ↔ ButtonReleased s e := by
  obtain ⟨hcallback, hstep, -, -⟩ := lifecycle_step h
  cases hphase : s.phase with
  | active =>
    refine iff_of_true (fun hne => absurd hphase hne) ?_
    cases e with
    | proc => exact fun hstopped => absurd (hphase.symm.trans hstopped) (by decide)
    | start | stop | taskRun | connected | disconnected | topicRegistered => trivial
  | restarting =>
    refine iff_of_true (silent_of_quiet (quiet_of_ne (hs.restarting hphase) e) h) ?_
    cases e with
    | proc => exact fun hstopped => absurd (hphase.symm.trans hstopped) (by decide)
    | start | stop | taskRun | connected | disconnected | topicRegistered => trivial
  | stopped =>
    obtain ⟨hscheduled, hsession⟩ := hs.stopped hphase
    cases e with
    | start | stop => exact iff_of_true (silent_of_quiet ⟨rfl, rfl⟩ h) trivial
    | taskRun => exact absurd hscheduled (scheduled_of_taskRun hstep)
    | connected | disconnected | topicRegistered =>
      have hcurrent := hcallback rfl
      rw [hsession] at hcurrent
      cases hcurrent
    | proc low low' now now' =>
      constructor
      · intro hsilent _ hpressed
        have hne : s.phase ≠ .active := by rw [hphase]; decide
        exact not_silent_of_pressed hne hpressed h hsilent
      · intro hreleased
        exact silent_of_quiet (quiet_proc (hreleased hphase)) h

/-- Coming up to RUNNING ends the restart; it does not end a stop. -/
theorem Phase.goneOn (phase : Phase) (state : ServiceState) :
    ((if phase = .restarting ∧ state = .running then .active else phase) = Phase.stopped →
        phase = .stopped) ∧
      ((if phase = .restarting ∧ state = .running then .active else phase) = Phase.restarting →
        state ≠ .running) := by
  split_ifs with hup
  · exact ⟨nofun, nofun⟩
  · exact ⟨id, fun hrestarting hrunning => hup ⟨hrestarting, hrunning⟩⟩

/-- A service that is not stopped stays so, but for a stop. -/
theorem dormant_of_goneOn (hphase : s.phase ≠ .stopped)
    (hphase' : s'.phase = if s.phase = .restarting ∧ s'.system.statics.serviceState = .running
      then .active else s.phase) : Dormant s' := by
  obtain ⟨hstopped, hrestarting⟩ := s.phase.goneOn s'.system.statics.serviceState
  constructor
  · intro h
    exact absurd (hstopped (hphase'.symm.trans h)) hphase
  · intro h
    exact hrestarting (hphase'.symm.trans h)

/-- **The step lemma**: every event keeps the invariant. -/
theorem dormant_step (hs : Dormant s) (h : s.step uid scheduler e = some s') : Dormant s' := by
  obtain ⟨hcallback, hstep, hphase, hsession⟩ := lifecycle_step h
  have hstatics := (step_effect hstep).1
  -- the task of a stopped service does not run, and its client does not call back
  have hrun : s.system.scheduled ≠ none → s.phase ≠ .stopped := fun hscheduled hstopped =>
    hscheduled (hs.stopped hstopped).1
  have hcalled : s.session = true → s.phase ≠ .stopped := fun hcurrent hstopped =>
    absurd (hcurrent.symm.trans (hs.stopped hstopped).2) (by decide)
  cases e with
  | start now =>
    constructor
    · intro hstopped
      rw [hphase, Phase.after] at hstopped
      split_ifs at hstopped with hold
      exact absurd hstopped hold
    · intro _
      rw [hstatics]
      nofun
  | stop =>
    constructor
    · intro _
      exact ⟨scheduled_of_stop hstep, hsession⟩
    · intro hrestarting
      rw [hphase] at hrestarting
      cases hrestarting
  | disconnected now =>
    constructor
    · intro hstopped
      rw [hphase] at hstopped
      cases hstopped
    · intro _
      rw [hstatics]
      nofun
  | taskRun now result => exact dormant_of_goneOn (hrun (scheduled_of_taskRun hstep)) hphase
  | connected now | topicRegistered now topicName =>
    exact dormant_of_goneOn (hcalled (hcallback rfl)) hphase
  | proc low low' now now' =>
    obtain ⟨hstopped, hrestarting⟩ := s.phase.goneOn s'.system.statics.serviceState
    constructor
    · intro hstopped'
      rw [scheduled_of_proc hstep, hsession]
      exact hs.stopped (hstopped (hphase.symm.trans hstopped'))
    · intro hrestarting'
      exact hrestarting (hphase.symm.trans hrestarting')

theorem dormant_initialized (uid : UInt64) (result : ClientResult) (taskId : TaskId) :
    Dormant (.initialized uid result taskId) := ⟨nofun, nofun⟩

/-- **A stopped service publishes nothing**, exactly as long as no press of the button meets it in
the state RUNNING: along any run from the initialization, with any order of starts, stops, callbacks
of the current session, executions of the task and calls of the process function. -/
theorem silent_iff (uid : UInt64) (scheduler : Scheduler) (result : ClientResult)
    (taskId : TaskId) (es : List Event) :
    Along (Lifecycle.step uid scheduler) (fun s _ s' => Silent s s')
        (.initialized uid result taskId) es ↔
      Along (Lifecycle.step uid scheduler) (fun s e _ => ButtonReleased s e)
        (.initialized uid result taskId) es := by
  refine along_iff ?_ (dormant_initialized uid result taskId) (H := fun _ _ _ => True)
    (along_of_forall_mem es _ fun _ _ _ _ => trivial)
  intro s e s' hs _ h
  exact ⟨silent_step_iff hs h, fun _ => dormant_step hs h⟩

/-- The node leaves the network while the service is RUNNING, and the button is pressed. -/
def pressedAfterStop : List Event := .start 10 :: setUp ++ [.stop, .proc true true 9000 9001]

theorem not_silent_pressedAfterStop :
    ¬ Along (Lifecycle.step 1 always) (fun s _ s' => Silent s s') (.initialized 1 .ok (some 0))
      pressedAfterStop := by
  decide +kernel

end EmbenetNode.Mqttsn
