import EmbenetNode.Lib.Checked

/-!
# The MQTT-SN service: `mqttsn_client_service.c`

The service is a state machine run by one task of the node and by the callbacks of the MQTT-SN
client. No function looks at what the node or the client returns, except the initialization, so a
function is its effect on the variables and the list of its calls; `System.perform` is what the
calls do to the schedule of the task and to the requests of the client.

* `Statics`, `Call`: the variables, and the calls into the node, the client and the board;
* `onMQTTConnected`, `onMQTTDisconnected`, `onMQTTTopicRegistered`, `mqttsnServiceTask`, `init`,
  `start`, `stop`, `proc`: the functions;
* `System`, `Event`, `step`: the service with its task and its client;
* `Event.effect`, `step_effect`: the function that an event runs, and what it does.
-/

namespace EmbenetNode.Mqttsn

/-- A string without its terminator. -/
abbrev CString := List Char

/-- `mqttsnServiceState` -/
inductive ServiceState
  | connecting
  | registerUptimeTopic
  | registerButtonStateTopic
  | subscribeToTopic
  | running
  deriving DecidableEq

/-- `EMBENET_NODE_TimeSource` -/
inductive TimeSource
  | local
  | network
  deriving DecidableEq

/-- `EMBENET_TaskId`; `none` is `EMBENET_TASKID_INVALID`. -/
abbrev TaskId := Option ℕ

/-- `MQTTSNClientResult`: the results documented for the calls of the service. -/
inductive ClientResult
  | ok
  | invalidInputArgument
  | failedToRegisterUdpSocket
  | failedToCreateTask
  | failedToSendPacket
  | connectSerializationErr
  | txTopicsBufferFull
  | registerSerializationError
  | subscribeSerializationError
  | clientNotConnected
  | clientNotDisconnected
  | subscribeBufferFull
  deriving DecidableEq

/-- Calls into the node, the MQTT-SN client and the board. -/
inductive Call
  | taskCreate
  | taskSchedule (taskId : TaskId) (timeSource : TimeSource) (t : UInt64)
  | taskCancel (taskId : TaskId)
  | clientInit (clientId : CString)
  | clientDeinit
  | cleanConnect
  | registerTopic (topic : CString)
  | subscribe (topic : CString)
  | publishMessage (topic : CString) (message : CString)
  | led1 (on : Bool)
  deriving DecidableEq

/-- The variables of `mqttsn_client_service.c`. `buttonPressCounter` is an `int`; `step` is not
defined where it would overflow. -/
structure Statics where
  serviceState : ServiceState := .connecting
  mqttsnTaskId : TaskId := none
  uptimeTopic : CString := []
  buttonTopic : CString := []
  lastTimestamp : UInt64 := 0
  buttonPressCounter : ℕ := 0
  deriving DecidableEq

/-! ### Texts -/

/-- `%x` of an `unsigned`. -/
def hex (n : UInt32) : CString := Nat.toDigits 16 n.toNat

/-- `%08x` of an `unsigned`. -/
def hex08 (n : UInt32) : CString := (hex n).leftpad 8 '0'

/-- The two halves of the UID, as in `"%x%08x"`. -/
def uidText (uid : UInt64) : CString := hex (uid >>> 32).toUInt32 ++ hex08 uid.toUInt32

def clientId (uid : UInt64) : CString := "Client".toList ++ uidText uid

def uptimeTopicOf (uid : UInt64) : CString := "uptime/".toList ++ uidText uid

def buttonTopicOf (uid : UInt64) : CString := "button/".toList ++ uidText uid

def ledControlTopic : CString := "ledcontrol".toList

/-- `"{\"uptime\":%u}"` of the seconds since the start, as an `unsigned`. -/
def uptimeStr (uptime : UInt64) : CString :=
  "\x7b\"uptime\":".toList ++ Nat.toDigits 10 (uptime / 1000).toUInt32.toNat ++ ['\x7d']

/-- `"{\"button\":%d}"` -/
def payloadStr (buttonPressCounter : ℕ) : CString :=
  "\x7b\"button\":".toList ++ Nat.toDigits 10 buttonPressCounter ++ ['\x7d']

/-! ### The functions of the service

`now` is the local time of the node when the function reads it, `uid` the UID of the node. -/

/-- `onMQTTConnected` -/
def onMQTTConnected (now : UInt64) (s : Statics) : Statics × List Call :=
  ({ s with serviceState := .registerUptimeTopic }, [.taskSchedule s.mqttsnTaskId .local now])

/-- `onMQTTDisconnected` -/
def onMQTTDisconnected (uid now : UInt64) (s : Statics) : Statics × List Call :=
  ({ s with serviceState := .connecting },
    [.taskCancel s.mqttsnTaskId, .clientDeinit, .clientInit (clientId uid),
      .taskSchedule s.mqttsnTaskId .local (now + 5000)])

/-- `onMQTTTopicRegistered`, which only logs the topic it is called for. -/
def onMQTTTopicRegistered (now : UInt64) (s : Statics) : Statics × List Call :=
  ({ s with
      serviceState :=
        if s.serviceState = .registerUptimeTopic then .registerButtonStateTopic
        else .subscribeToTopic },
    [.taskSchedule s.mqttsnTaskId .local now])

/-- `mqttsnServiceTask`, run as task `taskId` that was scheduled for the time `t`. -/
def mqttsnServiceTask (taskId : TaskId) (timeSource : TimeSource) (t now : UInt64) (s : Statics) :
    Statics × List Call :=
  match s.serviceState with
  | .connecting => (s, [.cleanConnect, .taskSchedule s.mqttsnTaskId timeSource (t + 10000)])
  -- the next two states leave it to the callback to schedule the task
  | .registerUptimeTopic => (s, [.registerTopic s.uptimeTopic])
  | .registerButtonStateTopic => (s, [.registerTopic s.buttonTopic])
  | .subscribeToTopic =>
      ({ s with serviceState := .running },
        [.subscribe ledControlTopic, .taskSchedule s.mqttsnTaskId timeSource (now + 1000)])
  | .running =>
      (s, [.publishMessage s.uptimeTopic (uptimeStr now),
        .taskSchedule taskId timeSource (t + 10000)])

/-- `mqttsn_client_service_init`, when the client and the node return `result` and `taskId`. -/
def init (uid : UInt64) (result : ClientResult) (taskId : TaskId) (s : Statics) :
    Statics × List Call :=
  let s := { s with uptimeTopic := uptimeTopicOf uid, buttonTopic := buttonTopicOf uid }
  if result = .ok then
    ({ s with mqttsnTaskId := taskId },
      [.clientInit (clientId uid), .taskCreate] ++
        if taskId = none then [.clientDeinit] else [])
  else
    (s, [.clientInit (clientId uid)])

/-- `mqttsn_client_service_start` -/
def start (now : UInt64) (s : Statics) : Statics × List Call :=
  ({ s with serviceState := .connecting }, [.taskSchedule s.mqttsnTaskId .local now])

/-- `mqttsn_client_service_stop` -/
def stop (uid : UInt64) (s : Statics) : Statics × List Call :=
  (s, [.taskCancel s.mqttsnTaskId, .clientDeinit, .clientInit (clientId uid)])

/-- `mqttsn_client_service_proc`, when the button reads low the two times it is read, and the local
time is `now` before and `now'` after the message is published. -/
def proc (low low' : Bool) (now now' : UInt64) (s : Statics) : Statics × List Call :=
  let reset : List Call := if low' then [] else [.led1 false]
  if s.serviceState = .running ∧ low ∧ s.lastTimestamp + 1000 < now then
    let buttonPressCounter := s.buttonPressCounter + 1
    ({ s with buttonPressCounter := buttonPressCounter, lastTimestamp := now' },
      [.led1 true, .publishMessage s.buttonTopic (payloadStr buttonPressCounter)] ++ reset)
  else
    (s, reset)

/-- The service runs, the button is pressed, and the gateway was notified long enough ago. -/
def Pressed (low : Bool) (now : UInt64) (s : Statics) : Prop :=
  s.serviceState = .running ∧ low ∧ s.lastTimestamp + 1000 < now

instance (low : Bool) (now : UInt64) (s : Statics) : Decidable (Pressed low now s) :=
  inferInstanceAs (Decidable (_ ∧ _ ∧ _))

theorem proc_of_pressed {low low' : Bool} {now now' : UInt64} {s : Statics}
    (h : Pressed low now s) :
    proc low low' now now' s =
      ({ s with buttonPressCounter := s.buttonPressCounter + 1, lastTimestamp := now' },
        [.led1 true, .publishMessage s.buttonTopic (payloadStr (s.buttonPressCounter + 1))] ++
          if low' then [] else [.led1 false]) := if_pos h

theorem proc_of_not_pressed {low low' : Bool} {now now' : UInt64} {s : Statics}
    (h : ¬ Pressed low now s) :
    proc low low' now now' s = (s, if low' then [] else [.led1 false]) := if_neg h

/-- If the press is published, it can be counted. -/
def Countable (low : Bool) (now : UInt64) (s : Statics) : Prop :=
  Pressed low now s → s.buttonPressCounter < Checked.intMax

instance (low : Bool) (now : UInt64) (s : Statics) : Decidable (Countable low now s) :=
  inferInstanceAs (Decidable (_ → _))

/-- The task moves on from one state only. -/
theorem mqttsnServiceTask_serviceState (taskId : TaskId) (timeSource : TimeSource) (t now : UInt64)
    (s : Statics) :
    (mqttsnServiceTask taskId timeSource t now s).1.serviceState =
      if s.serviceState = .subscribeToTopic then .running else s.serviceState := by
  unfold mqttsnServiceTask
  cases hstate : s.serviceState with
  | connecting | registerUptimeTopic | registerButtonStateTopic | running => exact hstate
  | subscribeToTopic => rfl

theorem proc_serviceState (low low' : Bool) (now now' : UInt64) (s : Statics) :
    (proc low low' now now' s).1.serviceState = s.serviceState := by
  by_cases hpressed : Pressed low now s
  · rw [proc_of_pressed hpressed]
  · rw [proc_of_not_pressed hpressed]

/-! ### The transition system -/

/-- The requests whose callback schedules the service task. -/
inductive Request
  | connect
  | register (topic : CString)
  deriving DecidableEq

/-- The service, the time its task is scheduled for, the requests the client has accepted and not
answered yet, and the calls made. -/
structure System where
  statics : Statics := {}
  scheduled : Option UInt64 := none
  outstanding : List Request := []
  calls : List Call := []
  deriving DecidableEq

/-- Calls of the service by the application, by the task scheduler and by the client. -/
inductive Event
  | start (now : UInt64)
  | stop
  | taskRun (now : UInt64) (result : ClientResult)
  | connected (now : UInt64)
  | disconnected (now : UInt64)
  | topicRegistered (now : UInt64) (topicName : CString)
  | proc (low low' : Bool) (now now' : UInt64)

/-- Whether the node schedules a task when asked at the time `now` for the time `t`. -/
abbrev Scheduler := TaskId → TimeSource → (now t : UInt64) → Bool

/-- What a call does to the task and the client, when the client returns `result`. -/
def System.perform (scheduler : Scheduler) (now : UInt64) (result : ClientResult) (s : System)
    (call : Call) : System :=
  let s := { s with calls := s.calls ++ [call] }
  match call with
  | .taskSchedule taskId timeSource t =>
      if scheduler taskId timeSource now t then { s with scheduled := some t } else s
  | .taskCancel _ => { s with scheduled := none }
  | .clientDeinit => { s with outstanding := [] }
  | .cleanConnect => if result = .ok then { s with outstanding := .connect :: s.outstanding } else s
  | .registerTopic topic =>
      if result = .ok then { s with outstanding := .register topic :: s.outstanding } else s
  | .taskCreate | .clientInit _ | .subscribe _ | .publishMessage .. | .led1 _ => s

/-- The effect of a function of the service and of its calls. -/
def System.apply (scheduler : Scheduler) (now : UInt64) (result : ClientResult) (s : System)
    (effect : Statics × List Call) : System :=
  effect.2.foldl (System.perform scheduler now result) { s with statics := effect.1 }

/-- The client answers a request. -/
def System.answered (s : System) (request : Request) : System :=
  { s with outstanding := s.outstanding.filter (· ≠ request) }

/-- One event; the task runs only when it is scheduled, and the button is pressed as long as its
presses can be counted. -/
def step (uid : UInt64) (scheduler : Scheduler) (s : System) : Event → Option System
  | .start now => some (s.apply scheduler now .ok (start now s.statics))
  | .stop => some (s.apply scheduler 0 .ok (stop uid s.statics))
  | .taskRun now result => do
      let t ← s.scheduled
      return { s with scheduled := none }.apply scheduler now result
        (mqttsnServiceTask s.statics.mqttsnTaskId .local t now s.statics)
  | .connected now =>
      some ((s.answered .connect).apply scheduler now .ok (onMQTTConnected now s.statics))
  | .disconnected now => some (s.apply scheduler now .ok (onMQTTDisconnected uid now s.statics))
  | .topicRegistered now topicName =>
      some ((s.answered (.register topicName)).apply scheduler now .ok
        (onMQTTTopicRegistered now s.statics))
  | .proc low low' now now' =>
      if Countable low now s.statics then
        some (s.apply scheduler now .ok (proc low low' now now' s.statics))
      else none

/-! ### What an event does -/

/-- The effect of the function of the service that an event runs. -/
def Event.effect (uid : UInt64) (s : System) : Event → Statics × List Call
  | .start now => Mqttsn.start now s.statics
  | .stop => Mqttsn.stop uid s.statics
  | .taskRun now _ =>
      mqttsnServiceTask s.statics.mqttsnTaskId .local (s.scheduled.getD 0) now s.statics
  | .connected now => onMQTTConnected now s.statics
  | .disconnected now => onMQTTDisconnected uid now s.statics
  | .topicRegistered now _ => onMQTTTopicRegistered now s.statics
  | .proc low low' now now' => Mqttsn.proc low low' now now' s.statics

section Effect

variable {uid : UInt64} {scheduler : Scheduler} {s s' : System} {e : Event}

@[simp] theorem System.perform_statics (now : UInt64) (result : ClientResult) (call : Call) :
    (s.perform scheduler now result call).statics = s.statics := by
  cases call <;> simp only [System.perform] <;> split <;> rfl

@[simp] theorem System.perform_calls (now : UInt64) (result : ClientResult) (call : Call) :
    (s.perform scheduler now result call).calls = s.calls ++ [call] := by
  cases call <;> simp only [System.perform] <;> split <;> rfl

theorem System.foldl_perform (now : UInt64) (result : ClientResult) (calls : List Call) :
    (calls.foldl (System.perform scheduler now result) s).statics = s.statics ∧
      (calls.foldl (System.perform scheduler now result) s).calls = s.calls ++ calls := by
  induction calls generalizing s with
  | nil => exact ⟨rfl, (List.append_nil _).symm⟩
  | cons call calls ih => simp [ih]

/-- A function sets the variables and makes its calls. -/
theorem System.apply_effect (now : UInt64) (result : ClientResult)
    (effect : Statics × List Call) :
    (s.apply scheduler now result effect).statics = effect.1 ∧
      (s.apply scheduler now result effect).calls = s.calls ++ effect.2 :=
  System.foldl_perform now result effect.2

/-- A call of the process function. -/
theorem step_proc {low low' : Bool} {now now' : UInt64}
    (h : step uid scheduler s (.proc low low' now now') = some s') :
    Countable low now s.statics ∧
      s' = s.apply scheduler now .ok (proc low low' now now' s.statics) := by
  obtain ⟨hcountable, heq⟩ := Option.ite_none_right_eq_some.1 h
  cases heq
  exact ⟨hcountable, rfl⟩

/-- **The effect of an event** on the variables and on the calls made. -/
theorem step_effect (h : step uid scheduler s e = some s') :
    s'.statics = (e.effect uid s).1 ∧ s'.calls = s.calls ++ (e.effect uid s).2 := by
  cases e with
  | taskRun now result =>
    obtain ⟨t, ht, heq⟩ := Option.bind_eq_some_iff.1 h
    cases heq
    rw [Event.effect, ht]
    exact System.apply_effect now result _
  | proc low low' now now' =>
    obtain ⟨-, rfl⟩ := step_proc h
    exact System.apply_effect _ _ _
  | start | stop | connected | disconnected | topicRegistered =>
    cases h
    exact System.apply_effect _ _ _

/-- The task runs only when it is scheduled. -/
theorem scheduled_of_taskRun {now : UInt64} {result : ClientResult}
    (h : step uid scheduler s (.taskRun now result) = some s') : s.scheduled ≠ none := by
  intro hnone
  rw [step, hnone] at h
  cases h

/-- A stop cancels the task. -/
theorem scheduled_of_stop (h : step uid scheduler s .stop = some s') : s'.scheduled = none := by
  cases h
  rfl

/-- The process function leaves the schedule of the task alone. -/
theorem scheduled_proc (low low' : Bool) (now now' : UInt64) :
    (s.apply scheduler now .ok (proc low low' now now' s.statics)).scheduled = s.scheduled := by
  by_cases hpressed : Pressed low now s.statics
  · rw [proc_of_pressed hpressed]
    cases low' <;> rfl
  · rw [proc_of_not_pressed hpressed]
    cases low' <;> rfl

theorem scheduled_of_proc {low low' : Bool} {now now' : UInt64}
    (h : step uid scheduler s (.proc low low' now now') = some s') :
    s'.scheduled = s.scheduled := by
  obtain ⟨-, rfl⟩ := step_proc h
  exact scheduled_proc low low' now now'

end Effect

end EmbenetNode.Mqttsn
