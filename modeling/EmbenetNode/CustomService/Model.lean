import EmbenetNode.Lib.CString
import EmbenetNode.Mqttsn.Model
import EmbenetNode.Services.Output

/-!
# The custom service: `custom_service.c`

A task of the node sends a message every five seconds, and the datagrams received on the socket are
commands that switch the LEDs.

* `Command`, `commands`, `customServiceReceptionHandler`: the commands and the reception handler;
* `Statics`, `Call`, `customServiceTask`, `init`, `start`, `stop`: the task and its control, as
  their effect on the variables and their calls;
* `System`, `Event`, `step`: the service with its task.
-/

namespace EmbenetNode.CustomService

open CString Services
open Mqttsn (TaskId TimeSource Scheduler)

/-! ### The reception handler -/

/-- A branch of the handler: the text and the number of characters that are compared, what is
printed, and the value written to a LED. -/
structure Command where
  text : List UInt8
  count : ℕ
  log : List UInt8
  led : Led
  on : Bool
  deriving DecidableEq

/-- The branches of `customServiceReceptionHandler`, in order. -/
def commands : List Command :=
  [⟨ascii "led1on", 6, ascii "CUSTOM_SERVICE: Led 1 on\n", .led0, true⟩,
    ⟨ascii "led1off", 7, ascii "CUSTOM_SERVICE: Led 1 off\n", .led0, false⟩,
    ⟨ascii "led2on", 6, ascii "CUSTOM_SERVICE: Led 2 on\n", .led1, true⟩,
    ⟨ascii "led2off", 7, ascii "CUSTOM_SERVICE: Led 2 off\n", .led1, false⟩,
    ⟨ascii "led3on", 6, ascii "CUSTOM_SERVICE: Led 3 on\n", .led2, true⟩,
    ⟨ascii "led3off", 7, ascii "CUSTOM_SERVICE: Led 3 off\n", .led2, false⟩,
    ⟨ascii "led4on", 6, ascii "CUSTOM_SERVICE: Led 4 on\n", .led3, true⟩,
    ⟨ascii "led4off", 7, ascii "CUSTOM_SERVICE: Led 4 off\n", .led3, false⟩]

/-- The first command that the message at `msg` begins with. -/
def firstMatch (msg : List UInt8) : List Command → Option (Option Command)
  | [] => some none
  | c :: cs => do
      let r ← strncmp msg (c.text ++ [0]) c.count
      if r = 0 then return some c else firstMatch msg cs

def unrecognized (dataSize : ℕ) : Output :=
  .log (ascii "CUSTOM_SERVICE: Unrecognized command with size: " ++ decimal (toInt dataSize) ++
    ascii "\n")

/-- `customServiceReceptionHandler` of the `dataSize` bytes at `msg`. -/
def customServiceReceptionHandler (msg : List UInt8) (dataSize : ℕ) : Option (List Output) :=
  if 6 ≤ dataSize then do
    match ← firstMatch msg commands with
    | some c => return [.log c.log, .gpioWrite c.led c.on]
    | none => return [unrecognized dataSize]
  else some [unrecognized dataSize]

/-! ### The task -/

/-- `EMBENET_Result` -/
inductive Result
  | ok
  | unspecifiedError
  | invalidArgument
  | calledOutsideATask
  | notSynchronized
  | unableToScheduleInThePast
  | invalidCredentials
  | rootCapabilitiesDisabled
  | udpMaxDataSizeExceeded
  | udpPacketQueueFull
  | udpForwardingError
  | udpSocketUnregistered
  | joinRuleAlreadyExists
  | joinRuleNotFound
  | joinRuleRegisterFull
  deriving DecidableEq

/-- The variables of `custom_service.c`. `counter` is an `int`; `step` is not defined where it would
overflow. -/
structure Statics where
  customServiceTaskId : TaskId := none
  counter : ℕ := 0
  deriving DecidableEq

/-- Calls into the node, and what is printed. -/
inductive Call
  | registerSocket (port : UInt16)
  | taskCreate
  | taskSchedule (taskId : TaskId) (timeSource : TimeSource) (t : UInt64)
  | taskCancel (taskId : TaskId)
  | udpSend (port : UInt16) (message : List UInt8)
  | print (text : List UInt8)
  deriving DecidableEq

/-- `"Custom message no %d"` -/
def message (counter : ℕ) : List UInt8 := ascii "Custom message no " ++ decimal counter

/-- `customServiceTask`, run as task `taskId` that was scheduled for the time `t`, when the node
returns `sent` for the packet. -/
def customServiceTask (taskId : TaskId) (timeSource : TimeSource) (t : UInt64) (sent : Result)
    (s : Statics) : Statics × List Call :=
  ({ s with counter := s.counter + 1 },
    [.udpSend 1234 (message s.counter)] ++
      (if sent ≠ .ok then [.print (ascii "CUSTOM_SERVICE: Failed to send UDP packet\n")] else []) ++
      [.taskSchedule taskId timeSource (t + 5000)])

/-- `custom_service_init`, when the node returns `registered` and `taskId`. -/
def init (registered : Result) (taskId : TaskId) (s : Statics) : Statics × List Call :=
  if registered = .ok then
    ({ s with customServiceTaskId := taskId },
      [.registerSocket 1234,
        .print (ascii "CUSTOM_SERVICE: Socket " ++ decimal 1234 ++
          ascii " registered successfully\n"),
        .taskCreate,
        .print (ascii (if taskId = none then "CUSTOM_SERVICE: Unable to create task\n"
          else "CUSTOM_SERVICE: Service initialized\n"))])
  else
    (s, [.registerSocket 1234,
      .print (ascii "CUSTOM_SERVICE: Registering socket failed with status " ++
        decimal registered.ctorIdx ++ ascii "\n")])

/-- `custom_service_start` at the local time `now` -/
def start (now : UInt64) (s : Statics) : Statics × List Call :=
  (s, [.print (ascii "CUSTOM_SERVICE: Starting service\n"),
    .taskSchedule s.customServiceTaskId .local (now + 2000)])

/-- `custom_service_stop` -/
def stop (s : Statics) : Statics × List Call :=
  (s, [.print (ascii "CUSTOM_SERVICE: Stopping service\n"), .taskCancel s.customServiceTaskId])

/-! ### The transition system -/

/-- The service, the time its task is scheduled for, and the calls made. -/
structure System where
  statics : Statics := {}
  scheduled : Option UInt64 := none
  calls : List Call := []
  deriving DecidableEq

/-- Calls of the service by the application and by the task scheduler. -/
inductive Event
  | start (now : UInt64)
  | stop
  | taskRun (now : UInt64) (sent : Result)

/-- What a call does to the schedule of the task. -/
def System.perform (scheduler : Scheduler) (now : UInt64) (s : System) (call : Call) : System :=
  let s := { s with calls := s.calls ++ [call] }
  match call with
  | .taskSchedule taskId timeSource t =>
      if scheduler taskId timeSource now t then { s with scheduled := some t } else s
  | .taskCancel _ => { s with scheduled := none }
  | .registerSocket _ | .taskCreate | .udpSend .. | .print _ => s

/-- The effect of a function of the service and of its calls. -/
def System.apply (scheduler : Scheduler) (now : UInt64) (s : System)
    (effect : Statics × List Call) : System :=
  effect.2.foldl (System.perform scheduler now) { s with statics := effect.1 }

/-- After the initialization, whatever the node returns in it. -/
def System.initialized (registered : Result) (taskId : TaskId) : System :=
  { statics := (init registered taskId {}).1 }

/-- One event; the task runs only when it is scheduled, and while its messages can be counted. -/
def step (scheduler : Scheduler) (s : System) : Event → Option System
  | .start now => some (s.apply scheduler now (start now s.statics))
  | .stop => some (s.apply scheduler 0 (stop s.statics))
  | .taskRun now sent => do
      let t ← s.scheduled
      if s.statics.counter < Checked.intMax then
        return { s with scheduled := none }.apply scheduler now
          (customServiceTask s.statics.customServiceTaskId .local t sent s.statics)
      else none

section Effect

variable (scheduler : Scheduler) (now : UInt64) (s : System)

@[simp] theorem System.perform_statics (call : Call) :
    (s.perform scheduler now call).statics = s.statics := by
  cases call <;> simp only [System.perform]
  split <;> rfl

@[simp] theorem System.perform_calls (call : Call) :
    (s.perform scheduler now call).calls = s.calls ++ [call] := by
  cases call <;> simp only [System.perform]
  split <;> rfl

theorem System.foldl_perform (calls : List Call) :
    (calls.foldl (System.perform scheduler now) s).statics = s.statics ∧
      (calls.foldl (System.perform scheduler now) s).calls = s.calls ++ calls := by
  induction calls generalizing s with
  | nil => exact ⟨rfl, (List.append_nil _).symm⟩
  | cons call calls ih => simp [ih]

/-- A function sets the variables and makes its calls. -/
theorem System.apply_effect (effect : Statics × List Call) :
    (s.apply scheduler now effect).statics = effect.1 ∧
      (s.apply scheduler now effect).calls = s.calls ++ effect.2 :=
  System.foldl_perform scheduler now { s with statics := effect.1 } effect.2

/-- An execution of the task. -/
theorem step_taskRun {scheduler : Scheduler} {now : UInt64} {sent : Result} {s s' : System}
    (h : step scheduler s (.taskRun now sent) = some s') :
    ∃ t, s.scheduled = some t ∧ s.statics.counter < Checked.intMax ∧
      s' = { s with scheduled := none }.apply scheduler now
        (customServiceTask s.statics.customServiceTaskId .local t sent s.statics) := by
  obtain ⟨t, ht, heq⟩ := Option.bind_eq_some_iff.1 h
  obtain ⟨hcounter, heq⟩ := Option.ite_none_right_eq_some.1 heq
  cases heq
  exact ⟨t, ht, hcounter, rfl⟩

end Effect

end EmbenetNode.CustomService
