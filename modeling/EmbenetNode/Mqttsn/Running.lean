import EmbenetNode.Mqttsn.Liveness

/-!
# Is a running service set up?

The service counts its way to RUNNING: it does not look at the topic that a registration callback
names, nor at the result of the subscription, and a stop leaves its state as it is. So a repeated
callback, a failed subscription or a stop makes it RUNNING with a part of the set-up missing.

* `Milestones`, `Session`: what has happened since the latest start, stop or disconnect;
* `InOrder`: the steps that do not skip a part of the set-up;
* `setUp_of_inOrder`: along these a running service is set up;
* `exists_not_setUp`: after any other step it is not, at once or when its task runs.
-/

namespace EmbenetNode.Mqttsn

open GuardedRun

/-- What has happened since the latest start, stop or disconnect: onMQTTConnected was called, the
registration callback was called for each of the two topics, the subscription to the control topic
succeeded. -/
structure Milestones where
  connected : Bool := false
  uptimeRegistered : Bool := false
  buttonRegistered : Bool := false
  subscribed : Bool := false
  deriving DecidableEq

/-- The service, and what has happened to it. -/
structure Session where
  system : System
  milestones : Milestones := {}
  deriving DecidableEq

/-- The milestones after an event. -/
def Milestones.after (uid : UInt64) (s : System) (m : Milestones) : Event → Milestones
  | .start _ | .stop | .disconnected _ => {}
  | .connected _ => { m with connected := true }
  | .topicRegistered _ topicName =>
      { m with
        uptimeRegistered := m.uptimeRegistered || topicName = s.statics.uptimeTopic
        buttonRegistered := m.buttonRegistered || topicName = s.statics.buttonTopic }
  | .taskRun now result =>
      { m with
        subscribed := m.subscribed ||
          (.subscribe ledControlTopic ∈ ((Event.taskRun now result).effect uid s).2 ∧
            result = .ok) }
  | .proc .. => m

/-- One event. -/
def Session.step (uid : UInt64) (scheduler : Scheduler) (s : Session) (e : Event) :
    Option Session := do
  let system ← Mqttsn.step uid scheduler s.system e
  return ⟨system, s.milestones.after uid s.system e⟩

/-- After the initialization, whatever the client and the node return in it. -/
def Session.initialized (uid : UInt64) (result : ClientResult) (taskId : TaskId) : Session :=
  { system := { statics := (init uid result taskId {}).1 } }

/-- A running service has connected, registered both topics and subscribed. -/
def SetUp (s : Session) : Prop :=
  s.system.statics.serviceState = .running →
    s.milestones.connected ∧ s.milestones.uptimeRegistered ∧ s.milestones.buttonRegistered ∧
      s.milestones.subscribed

/-- The step does not skip a part of the set-up. A registration callback that takes the service to
SUBSCRIBE_TO_TOPIC comes after the connection, and both topics have been registered with it; the
subscription succeeds; a running service is not stopped. -/
def InOrder (uid : UInt64) (s : Session) : Event → Prop
  | .topicRegistered now topicName =>
      s.system.statics.serviceState ≠ .registerUptimeTopic →
        let m := s.milestones.after uid s.system (.topicRegistered now topicName)
        m.connected ∧ m.uptimeRegistered ∧ m.buttonRegistered
  | .taskRun _ result =>
      s.system.statics.serviceState = .subscribeToTopic → result = .ok ∨ s.milestones.subscribed
  | .stop => s.system.statics.serviceState ≠ .running
  | .start _ | .connected _ | .disconnected _ | .proc .. => True

instance (s : Session) : Decidable (SetUp s) := by unfold SetUp; infer_instance

instance (uid : UInt64) (s : Session) : ∀ e, Decidable (InOrder uid s e)
  | .topicRegistered .. | .taskRun .. | .stop => by unfold InOrder; infer_instance
  | .start _ | .connected _ | .disconnected _ | .proc .. => isTrue trivial

/-- The invariant: what is missing in SUBSCRIBE_TO_TOPIC is at most the subscription, unless the
service is stopped and its task will not run. -/
structure Progressing (s : Session) : Prop where
  setUp : SetUp s
  subscribing : s.system.statics.serviceState = .subscribeToTopic → s.system.scheduled ≠ none →
    s.milestones.connected ∧ s.milestones.uptimeRegistered ∧ s.milestones.buttonRegistered

variable {uid : UInt64} {scheduler : Scheduler} {s s' : Session} {e : Event}

theorem session_step (h : s.step uid scheduler e = some s') :
    step uid scheduler s.system e = some s'.system ∧
      s'.system.statics = (e.effect uid s.system).1 ∧
      s'.milestones = s.milestones.after uid s.system e := by
  obtain ⟨system, hsystem, heq⟩ := Option.bind_eq_some_iff.1 h
  cases heq
  exact ⟨hsystem, (step_effect hsystem).1, rfl⟩

/-- In the other states nothing is missing. -/
theorem progressing_of_ne (hrunning : s.system.statics.serviceState ≠ .running)
    (hsubscribe : s.system.statics.serviceState ≠ .subscribeToTopic) : Progressing s :=
  ⟨fun h => absurd h hrunning, fun h => absurd h hsubscribe⟩

/-- The task subscribes in one state, and does not make up for what is missing in the others. -/
theorem progressing_taskRun {now : UInt64} {result : ClientResult} (hs : Progressing s)
    (he : InOrder uid s (.taskRun now result))
    (h : s.step uid scheduler (.taskRun now result) = some s') : Progressing s' := by
  obtain ⟨hstep, hstatics, hmilestones⟩ := session_step h
  have hstate' : s'.system.statics.serviceState =
      if s.system.statics.serviceState = .subscribeToTopic then .running
      else s.system.statics.serviceState := by
    rw [hstatics]
    exact mqttsnServiceTask_serviceState _ _ _ _ _
  by_cases hstate : s.system.statics.serviceState = .subscribeToTopic
  · rw [if_pos hstate] at hstate'
    obtain ⟨hconnected, huptime, hbutton⟩ := hs.subscribing hstate (scheduled_of_taskRun hstep)
    have hsubscribed : s'.milestones.subscribed = true := by
      rw [hmilestones]
      rcases he hstate with hok | hsubscribed
      · simp [Milestones.after, Event.effect, mqttsnServiceTask, hstate, hok]
      · simp [Milestones.after, hsubscribed]
    rw [hmilestones] at hsubscribed
    constructor
    · intro _
      rw [hmilestones]
      exact ⟨hconnected, huptime, hbutton, hsubscribed⟩
    · intro hsubscribe
      rw [hstate'] at hsubscribe
      cases hsubscribe
  · rw [if_neg hstate] at hstate'
    constructor
    · intro hrunning
      obtain ⟨hconnected, huptime, hbutton, hsubscribed⟩ := hs.setUp (hstate'.symm.trans hrunning)
      rw [hmilestones]
      exact ⟨hconnected, huptime, hbutton, by simp [Milestones.after, hsubscribed]⟩
    · intro hsubscribe
      exact absurd (hstate'.symm.trans hsubscribe) hstate

/-- **The step lemma**: a step in order keeps the invariant. -/
theorem progressing_step (hs : Progressing s) (he : InOrder uid s e)
    (h : s.step uid scheduler e = some s') : Progressing s' := by
  obtain ⟨hstep, hstatics, hmilestones⟩ := session_step h
  cases e with
  | start now | disconnected now | connected now =>
    exact progressing_of_ne (by rw [hstatics]; nofun) (by rw [hstatics]; nofun)
  | stop =>
    refine ⟨fun hrunning => ?_, fun _ hscheduled => absurd (scheduled_of_stop hstep) hscheduled⟩
    rw [hstatics] at hrunning
    exact absurd hrunning he
  | taskRun now result => exact progressing_taskRun hs he h
  | topicRegistered now topicName =>
    by_cases hstate : s.system.statics.serviceState = .registerUptimeTopic
    · have hstate' : s'.system.statics.serviceState = .registerButtonStateTopic := by
        rw [hstatics]
        exact if_pos hstate
      exact progressing_of_ne (by rw [hstate']; nofun) (by rw [hstate']; nofun)
    · have hstate' : s'.system.statics.serviceState = .subscribeToTopic := by
        rw [hstatics]
        exact if_neg hstate
      refine ⟨fun hrunning => ?_, fun _ _ => ?_⟩
      · rw [hstate'] at hrunning
        cases hrunning
      · rw [hmilestones]
        exact he hstate
  | proc low low' now now' =>
    have hstate' : s'.system.statics.serviceState = s.system.statics.serviceState := by
      rw [hstatics]
      exact proc_serviceState _ _ _ _ _
    constructor
    · rw [SetUp, hstate', hmilestones]
      exact hs.setUp
    · rw [hstate', hmilestones, scheduled_of_proc hstep]
      exact hs.subscribing

theorem progressing_initialized (uid : UInt64) (result : ClientResult) (taskId : TaskId) :
    Progressing (.initialized uid result taskId) := by
  have hstate : (Session.initialized uid result taskId).system.statics.serviceState =
      .connecting := by
    unfold Session.initialized init
    dsimp only
    split_ifs <;> rfl
  exact progressing_of_ne (by rw [hstate]; nofun) (by rw [hstate]; nofun)

/-- **A running service is set up**, in every state that is reached by steps in order, with any
scheduler and any results of the client apart from the subscription. -/
theorem setUp_of_inOrder (uid : UInt64) (scheduler : Scheduler) (result : ClientResult)
    (taskId : TaskId) (es : List Event)
    (hes : Along (Session.step uid scheduler) (fun s e _ => InOrder uid s e)
      (.initialized uid result taskId) es) :
    Along (Session.step uid scheduler) (fun _ _ s' => SetUp s')
      (.initialized uid result taskId) es := by
  refine Along.of_invariant ?_ (progressing_initialized uid result taskId) hes
  intro s e s' hs he h
  have hs' := progressing_step hs he h
  exact ⟨hs'.setUp, hs'⟩

/-- The run in which every request is answered once. -/
theorem setUp_along_setUp :
    Along (Session.step 1 always) (fun _ _ s' => SetUp s') (.initialized 1 .ok (some 0))
      (.start 10 :: setUp) :=
  setUp_of_inOrder 1 always .ok (some 0) _ (by decide +kernel)

/-- The registration of the uptime topic is acknowledged twice. -/
def acknowledgedTwice : List Event :=
  [.start 10, .taskRun 10 .ok, .connected 100, .taskRun 100 .ok,
    .topicRegistered 200 (uptimeTopicOf 1), .taskRun 200 .ok,
    .topicRegistered 300 (uptimeTopicOf 1), .taskRun 300 .ok]

/-- The service is RUNNING before the button topic is registered. -/
theorem not_setUp_acknowledgedTwice :
    ¬ Along (Session.step 1 always) (fun _ _ s' => SetUp s') (.initialized 1 .ok (some 0))
      acknowledgedTwice := by
  decide +kernel

/-! ### Steps out of order -/

/-- A running service that has missed a milestone is not set up. -/
theorem not_along_of_step {es : List Event} (h : s.step uid scheduler e = some s')
    (hs' : ¬ SetUp s') :
    ¬ Along (Session.step uid scheduler) (fun _ _ s' => SetUp s') s (e :: es) := by
  rw [along_cons_of_step h]
  exact fun hes => hs' hes.1

/-- A stop forgets the milestones, not the state. -/
theorem not_setUp_of_stop (h : s.step uid scheduler .stop = some s')
    (he : ¬ InOrder uid s .stop) : ¬ SetUp s' := by
  obtain ⟨-, hstatics, hmilestones⟩ := session_step h
  have hrunning : s'.system.statics.serviceState = .running := by
    rw [hstatics]
    exact not_not.1 he
  intro hsetUp
  have hconnected := (hsetUp hrunning).1
  rw [hmilestones] at hconnected
  cases hconnected

/-- The result of the subscription is not looked at. -/
theorem not_setUp_of_refused {now : UInt64} {result : ClientResult}
    (h : s.step uid scheduler (.taskRun now result) = some s')
    (he : ¬ InOrder uid s (.taskRun now result)) : ¬ SetUp s' := by
  obtain ⟨-, hstatics, hmilestones⟩ := session_step h
  simp only [InOrder, not_forall, not_or] at he
  obtain ⟨hstate, hresult, hsubscribed⟩ := he
  have hrunning : s'.system.statics.serviceState = .running := by
    rw [hstatics, Event.effect, mqttsnServiceTask_serviceState, if_pos hstate]
  intro hsetUp
  have hsubscribed' := (hsetUp hrunning).2.2.2
  simp [hmilestones, Milestones.after, hsubscribed, hresult] at hsubscribed'

/-- Every registration callback but the first leads to the subscription, and this to RUNNING. -/
theorem not_setUp_of_topicRegistered {now : UInt64} {topicName : CString}
    (h : s.step uid always (.topicRegistered now topicName) = some s')
    (he : ¬ InOrder uid s (.topicRegistered now topicName)) :
    ∃ s'', s'.step uid always (.taskRun now .ok) = some s'' ∧ ¬ SetUp s'' := by
  obtain ⟨hstep, hstatics, hmilestones⟩ := session_step h
  simp only [InOrder, not_forall] at he
  obtain ⟨hstate, hmissing⟩ := he
  have hscheduled : s'.system.scheduled = some now := by
    rw [← Option.some.inj hstep]
    rfl
  have hstate' : s'.system.statics.serviceState = .subscribeToTopic := by
    rw [hstatics]
    exact if_neg hstate
  have htask : ∃ s'', s'.step uid always (.taskRun now .ok) = some s'' := by
    simp [Session.step, step, hscheduled]
  obtain ⟨s'', hs''⟩ := htask
  obtain ⟨-, hstatics', hmilestones'⟩ := session_step hs''
  have hrunning : s''.system.statics.serviceState = .running := by
    rw [hstatics', Event.effect, mqttsnServiceTask_serviceState, if_pos hstate']
  refine ⟨s'', hs'', fun hsetUp => hmissing ?_⟩
  obtain ⟨hconnected, huptime, hbutton, -⟩ := hsetUp hrunning
  rw [hmilestones'] at hconnected huptime hbutton
  rw [hmilestones] at hconnected huptime hbutton
  exact ⟨hconnected, huptime, hbutton⟩

/-- **Every step out of order is a way to a running service that is not set up**, if the node
schedules the task when asked. -/
theorem exists_not_setUp (h : s.step uid always e = some s') (he : ¬ InOrder uid s e) :
    ∃ es, ¬ Along (Session.step uid always) (fun _ _ s' => SetUp s') s (e :: es) := by
  cases e with
  | start | connected | disconnected | proc => exact absurd trivial he
  | stop => exact ⟨[], not_along_of_step h (not_setUp_of_stop h he)⟩
  | taskRun now result => exact ⟨[], not_along_of_step h (not_setUp_of_refused h he)⟩
  | topicRegistered now topicName =>
    obtain ⟨s'', hs'', hsetUp⟩ := not_setUp_of_topicRegistered h he
    refine ⟨[.taskRun now .ok], ?_⟩
    rw [along_cons_of_step h]
    exact fun hes => not_along_of_step hs'' hsetUp hes.2

end EmbenetNode.Mqttsn
