import EmbenetNode.Lib.Simulation
import EmbenetNode.Mqttsn.Liveness

/-!
# How the service comes up

After a start or a disconnection the service attempts to connect until the client reports the
connection, has its two topics registered and subscribes to the third. The calls of
`mqttsn_client_service_proc` in between do not disturb it.

* `Connection`, `Connection.step`: what of the service takes part in this, as a state machine;
* `connection_step`: the service is that state machine;
* `handshake`, `comes_up`: from any state at all, it comes up to RUNNING.
-/

namespace EmbenetNode.Mqttsn

open Simulation

/-- A call that has to do with the connection to the gateway. -/
def Call.isOfConnection : Call → Bool
  | .clientInit _ | .clientDeinit | .cleanConnect | .registerTopic _ | .subscribe _ => true
  | .taskCreate | .taskSchedule .. | .taskCancel _ | .publishMessage .. | .led1 _ => false

/-- The service as far as the connection to the gateway is concerned. -/
structure Connection where
  serviceState : ServiceState
  uptimeTopic : CString
  buttonTopic : CString
  scheduled : Option UInt64
  calls : List Call
  deriving DecidableEq

/-- Of all states of the service. -/
def System.connection (s : System) : Connection where
  serviceState := s.statics.serviceState
  uptimeTopic := s.statics.uptimeTopic
  buttonTopic := s.statics.buttonTopic
  scheduled := s.scheduled
  calls := s.calls.filter Call.isOfConnection

/-- An execution of the task that was scheduled for the time `t`. -/
def Connection.run (t now : UInt64) (c : Connection) : Connection :=
  match c.serviceState with
  | .connecting => { c with scheduled := some (t + 10000), calls := c.calls ++ [.cleanConnect] }
  | .registerUptimeTopic =>
      { c with scheduled := none, calls := c.calls ++ [.registerTopic c.uptimeTopic] }
  | .registerButtonStateTopic =>
      { c with scheduled := none, calls := c.calls ++ [.registerTopic c.buttonTopic] }
  | .subscribeToTopic =>
      { c with
        serviceState := .running
        scheduled := some (now + 1000)
        calls := c.calls ++ [.subscribe ledControlTopic] }
  | .running => { c with scheduled := some (t + 10000) }

/-- One event. -/
def Connection.step (uid : UInt64) (c : Connection) : Event → Option Connection
  | .start now => some { c with serviceState := .connecting, scheduled := some now }
  | .stop =>
      some { c with
        scheduled := none, calls := c.calls ++ [.clientDeinit, .clientInit (clientId uid)] }
  | .taskRun now _ => c.scheduled.map fun t => c.run t now
  | .connected now => some { c with serviceState := .registerUptimeTopic, scheduled := some now }
  | .disconnected now =>
      some { c with
        serviceState := .connecting
        scheduled := some (now + 5000)
        calls := c.calls ++ [.clientDeinit, .clientInit (clientId uid)] }
  | .topicRegistered now _ =>
      some { c with
        serviceState :=
          if c.serviceState = .registerUptimeTopic then .registerButtonStateTopic
          else .subscribeToTopic
        scheduled := some now }
  | .proc .. => some c

/-! ### The service is that state machine -/

/-- The event is a call of the process function. -/
def Event.isProc : Event → Bool
  | .proc .. => true
  | .start _ | .stop | .taskRun .. | .connected _ | .disconnected _ | .topicRegistered .. => false

section Step

variable {uid : UInt64} {s : System}

/-- What a function does to the connection, from its effect on the variables, its calls and the
schedule that they leave. -/
theorem connection_apply {now : UInt64} {result : ClientResult} {effect : Statics × List Call}
    {scheduled : Option UInt64}
    (hscheduled : (s.apply always now result effect).scheduled = scheduled) :
    (s.apply always now result effect).connection =
      ⟨effect.1.serviceState, effect.1.uptimeTopic, effect.1.buttonTopic, scheduled,
        s.calls.filter Call.isOfConnection ++ effect.2.filter Call.isOfConnection⟩ := by
  obtain ⟨hstatics, hcalls⟩ := @System.apply_effect always s now result effect
  rw [System.connection, hstatics, hcalls, hscheduled, List.filter_append]

/-- A function that asks for its task to be scheduled last leaves it scheduled. -/
theorem scheduled_of_last (calls : List Call) {now t : UInt64} {result : ClientResult}
    {statics : Statics} {taskId : TaskId} {timeSource : TimeSource} :
    (s.apply always now result
      (statics, calls ++ [.taskSchedule taskId timeSource t])).scheduled = some t := by
  simp [System.apply, System.perform, always]

theorem connection_taskRun (s : System) (now : UInt64) (result : ClientResult) :
    (step uid always s (.taskRun now result)).map System.connection =
      Connection.step uid s.connection (.taskRun now result) := by
  cases hscheduled : s.scheduled with
  | none => simp [step, Connection.step, System.connection, hscheduled]
  | some t =>
    have hstep : step uid always s (.taskRun now result) =
        some (System.apply always now result { s with scheduled := none }
          (mqttsnServiceTask s.statics.mqttsnTaskId .local t now s.statics)) := by
      rw [step, hscheduled]
      rfl
    have hmap : (s.connection.scheduled.map fun t => s.connection.run t now) =
        some (s.connection.run t now) := by
      rw [show s.connection.scheduled = some t from hscheduled]
      rfl
    rw [hstep, Connection.step, hmap, Option.map_some, Option.some.injEq]
    cases hstate : s.statics.serviceState with
    | connecting =>
      have hnew : (System.apply always now result { s with scheduled := none }
          (mqttsnServiceTask s.statics.mqttsnTaskId .local t now s.statics)).scheduled =
            some (t + 10000) := by
        rw [mqttsnServiceTask, hstate]
        exact scheduled_of_last [_]
      rw [connection_apply hnew]
      simp [mqttsnServiceTask, hstate, Connection.run, System.connection, Call.isOfConnection,
        List.filter_cons]
    | subscribeToTopic =>
      have hnew : (System.apply always now result { s with scheduled := none }
          (mqttsnServiceTask s.statics.mqttsnTaskId .local t now s.statics)).scheduled =
            some (now + 1000) := by
        rw [mqttsnServiceTask, hstate]
        exact scheduled_of_last [_]
      rw [connection_apply hnew]
      simp [mqttsnServiceTask, hstate, Connection.run, System.connection, Call.isOfConnection,
        List.filter_cons]
    | running =>
      have hnew : (System.apply always now result { s with scheduled := none }
          (mqttsnServiceTask s.statics.mqttsnTaskId .local t now s.statics)).scheduled =
            some (t + 10000) := by
        rw [mqttsnServiceTask, hstate]
        exact scheduled_of_last [_]
      rw [connection_apply hnew]
      simp [mqttsnServiceTask, hstate, Connection.run, System.connection, Call.isOfConnection]
    | registerUptimeTopic | registerButtonStateTopic =>
      -- it is left to the callback to schedule the task
      have hnew : (System.apply always now result { s with scheduled := none }
          (mqttsnServiceTask s.statics.mqttsnTaskId .local t now s.statics)).scheduled = none := by
        simp only [mqttsnServiceTask, hstate, System.apply, List.foldl_cons, List.foldl_nil,
          System.perform]
        split_ifs <;> rfl
      rw [connection_apply hnew]
      simp [mqttsnServiceTask, hstate, Connection.run, System.connection, Call.isOfConnection,
        List.filter_cons]

/-- The process function has nothing to do with the connection. -/
theorem connection_proc {s : System} {low : Bool} {now : UInt64}
    (hcountable : Countable low now s.statics) (low' : Bool) (now' : UInt64) :
    (step uid always s (.proc low low' now now')).map System.connection = some s.connection := by
  rw [step, if_pos hcountable, Option.map_some, connection_apply (scheduled_proc low low' now now'),
    Option.some.injEq]
  by_cases hpressed : Pressed low now s.statics
  · rw [proc_of_pressed hpressed]
    cases low' <;> simp [System.connection, Call.isOfConnection]
  · rw [proc_of_not_pressed hpressed]
    cases low' <;> simp [System.connection, Call.isOfConnection]

/-- **The service is that state machine**, as long as the node schedules its task when asked and the
presses of the button can be counted: event by event, they do the same or are stuck together. -/
theorem connection_step {s : System} {e : Event}
    (hcounter : e.isProc = true → s.statics.buttonPressCounter < Checked.intMax) :
    (step uid always s e).map System.connection = Connection.step uid s.connection e := by
  cases e with
  | taskRun now result => exact connection_taskRun s now result
  | proc low low' now now' => exact connection_proc (fun _ => hcounter rfl) low' now'
  | start now =>
    have hnew : (s.apply always now .ok (start now s.statics)).scheduled = some now :=
      scheduled_of_last []
    rw [step, Option.map_some, connection_apply hnew]
    simp [start, Connection.step, System.connection, Call.isOfConnection]
  | connected now =>
    have hnew : ((s.answered .connect).apply always now .ok
        (onMQTTConnected now s.statics)).scheduled = some now := scheduled_of_last []
    rw [step, Option.map_some, connection_apply hnew]
    simp [onMQTTConnected, Connection.step, System.connection, System.answered,
      Call.isOfConnection]
  | topicRegistered now topicName =>
    have hnew : ((s.answered (.register topicName)).apply always now .ok
        (onMQTTTopicRegistered now s.statics)).scheduled = some now := scheduled_of_last []
    rw [step, Option.map_some, connection_apply hnew]
    by_cases hstate : s.statics.serviceState = .registerUptimeTopic <;>
      simp [onMQTTTopicRegistered, Connection.step, System.connection, System.answered,
        Call.isOfConnection, hstate]
  | stop =>
    have hnone : (s.apply always 0 .ok (stop uid s.statics)).scheduled = none := rfl
    rw [step, Option.map_some, connection_apply hnone]
    simp [stop, Connection.step, System.connection, Call.isOfConnection, List.filter_cons]
  | disconnected now =>
    have hnew : (s.apply always now .ok (onMQTTDisconnected uid now s.statics)).scheduled =
        some (now + 5000) := scheduled_of_last [_, _, _]
    rw [step, Option.map_some, connection_apply hnew]
    simp [onMQTTDisconnected, Connection.step, System.connection, Call.isOfConnection,
      List.filter_cons]

/-- A call of the process function counts one press at most, and nothing else counts any. -/
theorem counter_step_le {scheduler : Scheduler} {s' : System} {e : Event}
    (h : step uid scheduler s e = some s') :
    s'.statics.buttonPressCounter ≤ s.statics.buttonPressCounter + e.isProc.toNat := by
  rw [(step_effect h).1]
  cases e with
  | start | stop | connected | disconnected | topicRegistered => exact Nat.le_refl _
  | taskRun now result =>
    unfold Event.effect mqttsnServiceTask
    cases s.statics.serviceState <;> exact Nat.le_refl _
  | proc low low' now now' =>
    by_cases hpressed : Pressed low now s.statics
    · rw [Event.effect, proc_of_pressed hpressed]
      exact Nat.le_refl _
    · rw [Event.effect, proc_of_not_pressed hpressed]
      exact Nat.le_succ _

/-- The same for runs. -/
theorem connection_run {s : System} {es : List Event}
    (hcounter : s.statics.buttonPressCounter + es.countP Event.isProc ≤ Checked.intMax) :
    (es.foldlM (step uid always) s).map System.connection =
      es.foldlM (Connection.step uid) s.connection := by
  let Room (s : System) (es : List Event) : Prop :=
    s.statics.buttonPressCounter + es.countP Event.isProc ≤ Checked.intMax
  have hstep : ∀ s e es, Room s (e :: es) →
      (step uid always s e).map System.connection = Connection.step uid s.connection e := by
    intro s e es hroom
    refine connection_step fun hproc => ?_
    have hroom : s.statics.buttonPressCounter + _ ≤ Checked.intMax := hroom
    rw [List.countP_cons_of_pos hproc] at hroom
    omega
  have hroom : ∀ s e es s', Room s (e :: es) → step uid always s e = some s' → Room s' es := by
    intro s e es s' hroom h
    have hroom : s.statics.buttonPressCounter + _ ≤ Checked.intMax := hroom
    have hcounter := counter_step_le h
    show s'.statics.buttonPressCounter + _ ≤ Checked.intMax
    rw [List.countP_cons] at hroom
    cases hproc : e.isProc <;> simp [hproc] at hroom hcounter <;> omega
  exact map_foldlM hstep hroom hcounter

end Step

/-! ### Coming up -/

/-- The event has the service connect anew: a start or a disconnection. -/
def Event.Begins : Event → Prop
  | .start _ | .disconnected _ => True
  | .stop | .taskRun .. | .connected _ | .topicRegistered .. | .proc .. => False

/-- The calls of the connection in such an event. -/
def Event.beginningCalls (uid : UInt64) : Event → List Call
  | .disconnected _ => [.clientDeinit, .clientInit (clientId uid)]
  | .start _ | .stop | .taskRun .. | .connected _ | .topicRegistered .. | .proc .. => []

/-- Such an event, and what it takes to come up: some attempts to connect, the connection, the
registration of two topics and the subscription. `time` are the times of the latter. -/
def handshake (uid : UInt64) (begins : Event) (attempts : List (UInt64 × ClientResult))
    (time : ℕ → UInt64) (result : ClientResult) : List Event :=
  begins :: attempts.map (fun a => .taskRun a.1 a.2) ++
    [.connected (time 0), .taskRun (time 1) .ok, .topicRegistered (time 2) (uptimeTopicOf uid),
      .taskRun (time 3) .ok, .topicRegistered (time 4) (buttonTopicOf uid),
      .taskRun (time 5) result]

/-- The calls of the service that have to do with it. -/
def handshakeCalls (uid : UInt64) (begins : Event) (attempts : ℕ) (c : Connection) : List Call :=
  begins.beginningCalls uid ++ List.replicate attempts .cleanConnect ++
    [.registerTopic c.uptimeTopic, .registerTopic c.buttonTopic, .subscribe ledControlTopic]

/-- Every attempt to connect schedules the next one. -/
theorem foldlM_attempts (uid : UInt64) (attempts : List (UInt64 × ClientResult)) {c : Connection}
    (hstate : c.serviceState = .connecting) (hscheduled : c.scheduled ≠ none) :
    ∃ t, (attempts.map fun a => Event.taskRun a.1 a.2).foldlM (Connection.step uid) c =
      some { c with
        scheduled := some t
        calls := c.calls ++ List.replicate attempts.length .cleanConnect } := by
  obtain ⟨t, ht⟩ := Option.ne_none_iff_exists'.1 hscheduled
  induction attempts generalizing c t with
  | nil =>
    refine ⟨t, ?_⟩
    rw [← ht]
    exact congrArg some (by simp)
  | cons a attempts ih =>
    have hrun : Connection.step uid c (.taskRun a.1 a.2) =
        some { c with scheduled := some (t + 10000), calls := c.calls ++ [.cleanConnect] } := by
      simp [Connection.step, ht, Connection.run, hstate]
    obtain ⟨t', hrest⟩ := @ih
      { c with scheduled := some (t + 10000), calls := c.calls ++ [.cleanConnect] } hstate nofun _
      rfl
    refine ⟨t', ?_⟩
    rw [List.map_cons, List.foldlM_cons, hrun]
    refine hrest.trans ?_
    rw [List.length_cons, List.replicate_succ, List.append_assoc]
    rfl

/-- What such an event does. -/
theorem step_begins {begins : Event} (hbegins : begins.Begins) (uid : UInt64) (c : Connection) :
    ∃ t, Connection.step uid c begins =
      some { c with
        serviceState := .connecting
        scheduled := some t
        calls := c.calls ++ begins.beginningCalls uid } := by
  cases begins with
  | start now => exact ⟨now, by rw [Event.beginningCalls, List.append_nil]; rfl⟩
  | disconnected now => exact ⟨now + 5000, rfl⟩
  | stop | taskRun | connected | topicRegistered | proc => exact hbegins.elim

/-- The state machine comes up. -/
theorem foldlM_handshake {begins : Event} (hbegins : begins.Begins) (uid : UInt64)
    (attempts : List (UInt64 × ClientResult)) (time : ℕ → UInt64) (result : ClientResult)
    (c : Connection) :
    (handshake uid begins attempts time result).foldlM (Connection.step uid) c =
      some { c with
        serviceState := .running
        scheduled := some (time 5 + 1000)
        calls := c.calls ++ handshakeCalls uid begins attempts.length c } := by
  obtain ⟨t₀, hfirst⟩ := step_begins hbegins uid c
  obtain ⟨t, hattempts⟩ := @foldlM_attempts uid attempts
    { c with
      serviceState := .connecting
      scheduled := some t₀
      calls := c.calls ++ begins.beginningCalls uid } rfl nofun
  rw [handshake, List.cons_append, List.foldlM_cons, hfirst]
  refine GuardedRun.foldlM_append_eq_some.2 ⟨_, hattempts, ?_⟩
  simp [Connection.step, Connection.run, handshakeCalls]

/-- **The service comes up.** Whatever state it is in when it is started, or when the client
disconnects, whatever the number of attempts to connect, and with any calls of the process function
in between, short of an overflow of the counter of the presses: once the client has reported the connection and the registration of two topics, the
service is RUNNING and its task scheduled for a second later. In the meantime it has, after a
disconnection, initialized its client anew, made one attempt to connect in each execution, and then
registered its two topics and subscribed to the third, in this order and once each. -/
theorem comes_up {uid : UInt64} {s : System} {begins : Event}
    {attempts : List (UInt64 × ClientResult)} {time : ℕ → UInt64} {result : ClientResult}
    {es : List Event} (hbegins : begins.Begins)
    (hes : (es.filter fun e => !e.isProc) = handshake uid begins attempts time result)
    (hcounter : s.statics.buttonPressCounter + es.countP Event.isProc ≤ Checked.intMax) :
    ∃ s', es.foldlM (step uid always) s = some s' ∧ s'.statics.serviceState = .running ∧
      s'.scheduled = some (time 5 + 1000) ∧
      s'.calls.filter Call.isOfConnection = s.calls.filter Call.isOfConnection ++
        handshakeCalls uid begins attempts.length s.connection := by
  have hidle : ∀ c (e : Event), (!e.isProc) = false → Connection.step uid c e = some c := by
    intro c e he
    cases e with
    | proc => rfl
    | start | stop | taskRun | connected | disconnected | topicRegistered => cases he
  -- the run is one of the state machine, where the calls of the process function drop out
  have hrun := @connection_run uid s es hcounter
  rw [← foldlM_filter hidle, hes, foldlM_handshake hbegins] at hrun
  obtain ⟨s', hs', hconnection⟩ := Option.map_eq_some_iff.1 hrun
  exact ⟨s', hs', congrArg Connection.serviceState hconnection,
    congrArg Connection.scheduled hconnection, congrArg Connection.calls hconnection⟩

/-- A RUNNING service. -/
def upAndRunning : System where
  statics := { (init 1 .ok (some 0) {}).1 with serviceState := .running }

/-- A disconnection, two attempts to connect, and a press of the button that is not published. -/
def pressedMeanwhile : List Event :=
  [.disconnected 10, .taskRun 5010 .failedToSendPacket, .taskRun 15010 .ok, .connected 15100,
    .proc true true 15105 15105, .taskRun 15110 .ok, .topicRegistered 15200 (uptimeTopicOf 1),
    .taskRun 15210 .ok, .topicRegistered 15300 (buttonTopicOf 1), .taskRun 15310 .ok]

/-- The times of the events after the attempts, but for the press. -/
def pressedMeanwhileAt (i : ℕ) : UInt64 := [15100, 15110, 15200, 15210, 15300, 15310].getD i 0

theorem comes_up_pressed :
    ∃ s', pressedMeanwhile.foldlM (step 1 always) upAndRunning = some s' ∧
      s'.statics.serviceState = .running ∧ s'.scheduled = some (pressedMeanwhileAt 5 + 1000) ∧
      s'.calls.filter Call.isOfConnection = upAndRunning.calls.filter Call.isOfConnection ++
        handshakeCalls 1 (.disconnected 10) 2 upAndRunning.connection :=
  comes_up (show Event.Begins (.disconnected 10) from trivial)
    (show (pressedMeanwhile.filter fun e => !e.isProc) =
      handshake 1 (.disconnected 10) [(5010, .failedToSendPacket), (15010, .ok)]
        pressedMeanwhileAt .ok from rfl)
    (by decide)

end EmbenetNode.Mqttsn
