import EmbenetNode.CustomService.Model
import EmbenetNode.Lib.Simulation
import EmbenetNode.Mqttsn.Control
import EmbenetNode.Mqttsn.Stopped

/-!
# The program: `main.c`

The program initializes the network stack and its services, and runs the stack and
`mqttsn_client_service_proc` in a loop. The stack calls back: the functions of `main.c` when the
node joins and leaves the network, the tasks of the services, their handlers, and the callbacks of
the MQTT-SN client. Built with `IS_ROOT`, the program has no services.

* `Call`, `main`, `loop`, `onJoined`, `onLeft`: the functions of `main.c`, as their calls;
* `System`, `Event`, `step`: the program with its services;
* `Event.custom`, `Event.mqttsn`, `services_step`, `services_run`: what an event, and a run, is for
  each of the services.
-/

namespace EmbenetNode.Application

open CustomService (Result)
open Mqttsn (Lifecycle ClientResult TaskId Scheduler)
open Services Simulation

/-- `EnmsNodeResult` -/
inductive EnmsNodeResult
  | ok
  | invalidInputArgument
  | failedToRegisterUdpSocket
  | failedToCreateTask
  | failedToRunTask
  | failedToRegisterService
  | serviceAlreadyRegistered
  | failedToSendPacket
  deriving DecidableEq

/-- Calls of `main.c`. Those of the services come with what the services read, or are given, in
them. -/
inductive Call
  | print (text : List UInt8)
  | boardInitGeneral
  | gpioInit
  | enableLogging
  | noRtosStart
  | nodeInit
  | join (k1 psk : List UInt8)
  | rootStart
  | enmsInit (port : UInt16) (hardwareId : List UInt8)
  | enmsRegisterService (serviceName : List UInt8) (serviceState : UInt8)
  | enmsStart
  | enmsStop
  | customServiceInit (registered : Result) (taskId : TaskId)
  | customServiceStart (now : UInt64)
  | customServiceStop
  | mqttsnClientServiceInit (result : ClientResult) (taskId : TaskId)
  | mqttsnClientServiceStart (now : UInt64)
  | mqttsnClientServiceStop
  | mqttsnClientServiceProc (low low' : Bool) (now now' : UInt64)
  deriving DecidableEq

/-! ### The functions of `main.c` -/

/-- `%04x` of a `uint16_t`. -/
def hex04 (n : UInt16) : List UInt8 :=
  ((Nat.toDigits 16 n.toNat).leftpad 4 '0').map fun c => UInt8.ofNat c.toNat

/-- The two halves of the UID, as in `"%x%08x"`. -/
def uidText (uid : UInt64) : List UInt8 := (Mqttsn.uidText uid).map fun c => UInt8.ofNat c.toNat

/-- `onJoined`, when `ENMS_NODE_Start` returns `enmsStartStatus`, and the services read the local
times `now` and `now'` when they are started. -/
def onJoined (isRoot : Bool) (panId : UInt16) (enmsStartStatus : EnmsNodeResult)
    (now now' : UInt64) : List Call :=
  [.print (ascii "Joined network with PANID: 0x" ++ hex04 panId ++ ascii "\n"),
    .enmsStart,
    .print (if enmsStartStatus = .ok then ascii "ENMS service started\n"
      else ascii "ENMS service failed to start with status: " ++ decimal enmsStartStatus.ctorIdx ++
        ascii "\n")] ++
    if isRoot then [] else [.customServiceStart now, .mqttsnClientServiceStart now']

/-- `onLeft`, when `ENMS_NODE_Stop` returns `enmsStopStatus`. -/
def onLeft (isRoot : Bool) (enmsStopStatus : EnmsNodeResult) : List Call :=
  [.print (ascii "Node has left the network\n"),
    .enmsStop,
    .print (if enmsStopStatus = .ok then ascii "ENMS service stopped\n"
      else ascii "ENMS service failed to stop with status: " ++ decimal enmsStopStatus.ctorIdx ++
        ascii "\n")] ++
    if isRoot then [] else [.customServiceStop, .mqttsnClientServiceStop]

def onJoinAttempt (panId : UInt16) (panDataSize : UInt32) : List Call :=
  [.print (ascii "Node is attempting to join the network with PANID 0x" ++ hex04 panId ++
      ascii "\n"),
    .print (ascii "Network-wide data (" ++ decimal panDataSize.toNat ++ ascii "B)\n")]

def dataOnUregisteredPort (port : UInt16) : List Call :=
  [.print (ascii "Got UDP datagram on unregistered port no: " ++ decimal port.toNat ++ ascii "\n")]

def onQuickJoinCredentialsObsolete : List Call :=
  [.print (ascii "Quick join credentials became obsolete\n")]

/-- The hardware identifier: eight zero bytes, and the UID as it lies in the memory. -/
def hardwareId (uid : UInt64) : List UInt8 :=
  List.replicate 8 0 ++ (List.range 8).map fun i => (uid >>> UInt64.ofNat (8 * i)).toUInt8

/-- `config.k1` -/
def k1 : List UInt8 :=
  [0xc0, 0x8b, 0x76, 0x62, 0x77, 0x09, 0x9e, 0x7d, 0x7e, 0x9c, 0x02, 0x22, 0xf1, 0x68, 0xcc, 0x9e]

/-- `config.psk` -/
def psk : List UInt8 :=
  [0x46, 0xd7, 0xdc, 0x94, 0xe8, 0xee, 0x74, 0x96, 0xce, 0xaf, 0x54, 0xa3, 0xab, 0x64, 0xcb, 0xeb]

/-- What the stack, the ENMS service and the MQTT-SN client return while the program is
initialized. -/
structure Results where
  nodeInit : Result := .ok
  enmsInit : EnmsNodeResult := .ok
  registered : Result := .ok
  customTaskId : TaskId := some 0
  clientInit : ClientResult := .ok
  mqttsnTaskId : TaskId := some 1
  deriving DecidableEq

/-- `main`, up to its loop. -/
def main (isRoot : Bool) (uid : UInt64) (results : Results) : List Call :=
  -- the only UART carries the log of a node, and the border router interface of a root
  [.boardInitGeneral, .gpioInit] ++ (if isRoot then [] else [.enableLogging]) ++
    [.noRtosStart,
      .print (ascii "\n+----------------------------------------------------+\n" ++
        ascii "  embeNET Node demo for CC1312\n" ++
        ascii "+----------------------------------------------------+\n"),
      .nodeInit,
      .print (ascii (if results.nodeInit = .ok then "embeNET Node initialized\n"
        else "Failed to initialize embeNET Node\n")),
      .enmsInit 0xf0b1 (hardwareId uid),
      .print (ascii (if results.enmsInit = .ok then "ENMS service initialized\n"
        else "Failed to initialize ENMS service!\n"))] ++
    if isRoot then
      [.print (ascii "Acting as root with UID: 0x" ++ uidText uid ++ ascii "\n"), .rootStart]
    else
      [.print (ascii "Acting as node with UID: 0x" ++ uidText uid ++ ascii "\n"),
        .customServiceInit results.registered results.customTaskId,
        .mqttsnClientServiceInit results.clientInit results.mqttsnTaskId,
        .enmsRegisterService (ascii "custom") 1,
        .enmsRegisterService (ascii "mqttsn") 1,
        .print (ascii "Trying to join a network...\n"),
        .join k1 psk]

/-- What the loop does after `EMBENET_NODE_Proc`. -/
def loop (isRoot : Bool) (low low' : Bool) (now now' : UInt64) : List Call :=
  if isRoot then [] else [.mqttsnClientServiceProc low low' now now']

/-! ### The transition system -/

/-- The program: its services, whether the socket of the custom service is registered, whether the
node is in the network, the calls of `main.c`, and the outputs of the services. -/
structure System where
  custom : CustomService.System := {}
  mqttsn : Lifecycle := { system := {} }
  socket : Bool := false
  joined : Bool := false
  calls : List Call := []
  outputs : List Output := []
  deriving DecidableEq

/-- The LED that a call of the MQTT-SN service writes to. -/
def ledOfCall : Mqttsn.Call → Option Output
  | .led1 on => some (.gpioWrite .led1 on)
  | .taskCreate | .taskSchedule .. | .taskCancel _ | .clientInit _ | .clientDeinit | .cleanConnect
  | .registerTopic _ | .subscribe _ | .publishMessage .. => none

/-- What a call of `main.c` does to the services. -/
def System.perform (uid : UInt64) (scheduler : Scheduler) (s : System) (call : Call) :
    Option System :=
  let s := { s with calls := s.calls ++ [call] }
  match call with
  | .customServiceInit registered taskId =>
      some { s with
        custom := .initialized registered taskId, socket := decide (registered = .ok) }
  | .customServiceStart now => do
      let custom ← CustomService.step scheduler s.custom (.start now)
      return { s with custom }
  | .customServiceStop => do
      let custom ← CustomService.step scheduler s.custom .stop
      return { s with custom }
  | .mqttsnClientServiceInit result taskId =>
      some { s with mqttsn := .initialized uid result taskId }
  | .mqttsnClientServiceStart now => do
      let mqttsn ← s.mqttsn.step uid scheduler (.start now)
      return { s with mqttsn }
  | .mqttsnClientServiceStop => do
      let mqttsn ← s.mqttsn.step uid scheduler .stop
      return { s with mqttsn }
  | .mqttsnClientServiceProc low low' now now' => do
      let mqttsn ← s.mqttsn.step uid scheduler (.proc low low' now now')
      let calls := (Mqttsn.proc low low' now now' s.mqttsn.system.statics).2
      return { s with mqttsn, outputs := s.outputs ++ calls.filterMap ledOfCall }
  | .print _ | .boardInitGeneral | .gpioInit | .enableLogging | .noRtosStart | .nodeInit
  | .join .. | .rootStart | .enmsInit .. | .enmsRegisterService .. | .enmsStart
  | .enmsStop => some s

/-- Calls by the stack, and what the loop does in between. -/
inductive Event
  | onJoined (panId : UInt16) (enmsStartStatus : EnmsNodeResult) (now now' : UInt64)
  | onLeft (enmsStopStatus : EnmsNodeResult)
  | onJoinAttempt (panId : UInt16) (panDataSize : UInt32)
  | dataOnUregisteredPort (port : UInt16)
  | onQuickJoinCredentialsObsolete
  | customServiceTask (now : UInt64) (sent : Result)
  | customServiceReceptionHandler (msg : List UInt8) (dataSize : ℕ)
  | mqttsnServiceTask (now : UInt64) (result : ClientResult)
  | onMQTTConnected (now : UInt64)
  | onMQTTDisconnected (now : UInt64)
  | onMQTTTopicRegistered (now : UInt64) (topicName : Mqttsn.CString)
  | onLedcontrolUpdate (msg : List UInt8) (dataSize : ℕ)
  | loop (low low' : Bool) (now now' : UInt64)
  deriving DecidableEq

/-- One event. The datagrams come to a registered socket, the messages of the control topic in a
session of the client. -/
def step (isRoot : Bool) (uid : UInt64) (scheduler : Scheduler) (s : System) :
    Event → Option System
  | .onJoined panId enmsStartStatus now now' =>
      (onJoined isRoot panId enmsStartStatus now now').foldlM (System.perform uid scheduler)
        { s with joined := true }
  | .onLeft enmsStopStatus =>
      (onLeft isRoot enmsStopStatus).foldlM (System.perform uid scheduler)
        { s with joined := false }
  | .onJoinAttempt panId panDataSize =>
      (onJoinAttempt panId panDataSize).foldlM (System.perform uid scheduler) s
  | .dataOnUregisteredPort port =>
      (dataOnUregisteredPort port).foldlM (System.perform uid scheduler) s
  | .onQuickJoinCredentialsObsolete =>
      onQuickJoinCredentialsObsolete.foldlM (System.perform uid scheduler) s
  | .customServiceTask now sent => do
      let custom ← CustomService.step scheduler s.custom (.taskRun now sent)
      return { s with custom }
  | .customServiceReceptionHandler msg dataSize =>
      if s.socket then do
        let outputs ← CustomService.customServiceReceptionHandler msg dataSize
        return { s with outputs := s.outputs ++ outputs }
      else none
  | .mqttsnServiceTask now result => do
      let mqttsn ← s.mqttsn.step uid scheduler (.taskRun now result)
      return { s with mqttsn }
  | .onMQTTConnected now => do
      let mqttsn ← s.mqttsn.step uid scheduler (.connected now)
      return { s with mqttsn }
  | .onMQTTDisconnected now => do
      let mqttsn ← s.mqttsn.step uid scheduler (.disconnected now)
      return { s with mqttsn }
  | .onMQTTTopicRegistered now topicName => do
      let mqttsn ← s.mqttsn.step uid scheduler (.topicRegistered now topicName)
      return { s with mqttsn }
  | .onLedcontrolUpdate msg dataSize =>
      if s.mqttsn.session then do
        let outputs ← Mqttsn.onLedcontrolUpdate msg dataSize
        return { s with outputs := s.outputs ++ outputs }
      else none
  | .loop low low' now now' =>
      (loop isRoot low low' now now').foldlM (System.perform uid scheduler) s

/-- The program when it enters its loop. -/
def System.started (isRoot : Bool) (uid : UInt64) (results : Results) : System :=
  let s : System := { calls := main isRoot uid results }
  if isRoot then s
  else
    { s with
      custom := .initialized results.registered results.customTaskId
      mqttsn := .initialized uid results.clientInit results.mqttsnTaskId
      socket := decide (results.registered = .ok) }

/-- That is where `main` leads. -/
theorem foldlM_main (isRoot : Bool) (uid : UInt64) (scheduler : Scheduler) (results : Results) :
    (main isRoot uid results).foldlM (System.perform uid scheduler) {} =
      some (.started isRoot uid results) := by
  cases isRoot <;> rfl

/-! ### What an event is for the services -/

/-- For the custom service. -/
def Event.custom (isRoot : Bool) : Event → Option CustomService.Event
  | .onJoined _ _ now _ => if isRoot then none else some (.start now)
  | .onLeft _ => if isRoot then none else some .stop
  | .customServiceTask now sent => some (.taskRun now sent)
  | .onJoinAttempt .. | .dataOnUregisteredPort _ | .onQuickJoinCredentialsObsolete
  | .customServiceReceptionHandler .. | .mqttsnServiceTask .. | .onMQTTConnected _
  | .onMQTTDisconnected _ | .onMQTTTopicRegistered .. | .onLedcontrolUpdate .. | .loop .. => none

/-- For the MQTT-SN service. -/
def Event.mqttsn (isRoot : Bool) : Event → Option Mqttsn.Event
  | .onJoined _ _ _ now' => if isRoot then none else some (.start now')
  | .onLeft _ => if isRoot then none else some .stop
  | .mqttsnServiceTask now result => some (.taskRun now result)
  | .onMQTTConnected now => some (.connected now)
  | .onMQTTDisconnected now => some (.disconnected now)
  | .onMQTTTopicRegistered now topicName => some (.topicRegistered now topicName)
  | .loop low low' now now' => if isRoot then none else some (.proc low low' now now')
  | .onJoinAttempt .. | .dataOnUregisteredPort _ | .onQuickJoinCredentialsObsolete
  | .customServiceTask .. | .customServiceReceptionHandler .. | .onLedcontrolUpdate .. => none

/-- Whether the node is in the network after an event. -/
def Event.joined (joined : Bool) : Event → Bool
  | .onJoined .. => true
  | .onLeft _ => false
  | .onJoinAttempt .. | .dataOnUregisteredPort _ | .onQuickJoinCredentialsObsolete
  | .customServiceTask .. | .customServiceReceptionHandler .. | .mqttsnServiceTask ..
  | .onMQTTConnected _ | .onMQTTDisconnected _ | .onMQTTTopicRegistered .. | .onLedcontrolUpdate ..
  | .loop .. => joined

/-- What the services print and write in an event. -/
def Event.outputs (isRoot : Bool) (s : System) : Event → Option (List Output)
  | .customServiceReceptionHandler msg dataSize =>
      CustomService.customServiceReceptionHandler msg dataSize
  | .onLedcontrolUpdate msg dataSize => Mqttsn.onLedcontrolUpdate msg dataSize
  | .loop low low' now now' =>
      if isRoot then some []
      else some ((Mqttsn.proc low low' now now' s.mqttsn.system.statics).2.filterMap ledOfCall)
  | .onJoined .. | .onLeft _ | .onJoinAttempt .. | .dataOnUregisteredPort _
  | .onQuickJoinCredentialsObsolete | .customServiceTask .. | .mqttsnServiceTask ..
  | .onMQTTConnected _ | .onMQTTDisconnected _ | .onMQTTTopicRegistered .. => some []

/-- What a step is for the services. -/
structure ServicesStep (isRoot : Bool) (uid : UInt64) (scheduler : Scheduler) (s : System)
    (e : Event) (s' : System) : Prop where
  custom : (e.custom isRoot).toList.foldlM (CustomService.step scheduler) s.custom =
    some s'.custom
  mqttsn : (e.mqttsn isRoot).toList.foldlM (Lifecycle.step uid scheduler) s.mqttsn =
    some s'.mqttsn
  joined : s'.joined = e.joined s.joined
  socket : s'.socket = s.socket
  outputs : ∃ outputs, e.outputs isRoot s = some outputs ∧ s'.outputs = s.outputs ++ outputs

variable {isRoot : Bool} {uid : UInt64} {scheduler : Scheduler} {s s' : System} {e : Event}

theorem services_step (h : step isRoot uid scheduler s e = some s') :
    ServicesStep isRoot uid scheduler s e s' := by
  cases e with
  | onJoined panId enmsStartStatus now now' =>
    cases isRoot <;> cases h <;> exact ⟨rfl, rfl, rfl, rfl, [], rfl, (List.append_nil _).symm⟩
  | onLeft enmsStopStatus =>
    cases isRoot <;> cases h <;> exact ⟨rfl, rfl, rfl, rfl, [], rfl, (List.append_nil _).symm⟩
  | onJoinAttempt | dataOnUregisteredPort | onQuickJoinCredentialsObsolete =>
    cases h
    exact ⟨rfl, rfl, rfl, rfl, [], rfl, (List.append_nil _).symm⟩
  | customServiceTask now sent =>
    obtain ⟨custom, hcustom, heq⟩ := Option.bind_eq_some_iff.1 h
    cases heq
    exact ⟨foldlM_toList_some.2 hcustom, rfl, rfl, rfl, [], rfl, (List.append_nil _).symm⟩
  | mqttsnServiceTask | onMQTTConnected | onMQTTDisconnected | onMQTTTopicRegistered =>
    obtain ⟨mqttsn, hmqttsn, heq⟩ := Option.bind_eq_some_iff.1 h
    cases heq
    exact ⟨rfl, foldlM_toList_some.2 hmqttsn, rfl, rfl, [], rfl, (List.append_nil _).symm⟩
  | customServiceReceptionHandler | onLedcontrolUpdate =>
    rw [step] at h
    split_ifs at h
    obtain ⟨outputs, houtputs, heq⟩ := Option.bind_eq_some_iff.1 h
    cases heq
    exact ⟨rfl, rfl, rfl, rfl, outputs, houtputs, rfl⟩
  | loop low low' now now' =>
    cases isRoot with
    | true =>
      cases h
      exact ⟨rfl, rfl, rfl, rfl, [], rfl, (List.append_nil _).symm⟩
    | false =>
      obtain ⟨s₁, hproc, hdone⟩ := GuardedRun.foldlM_cons_eq_some.1 h
      obtain ⟨mqttsn, hmqttsn, heq⟩ := Option.bind_eq_some_iff.1 hproc
      cases heq
      cases hdone
      exact ⟨rfl, foldlM_toList_some.2 hmqttsn, rfl, rfl, _, rfl, rfl⟩

/-- **The services run along**: a run of the program is a run of each service, with the joins as its
starts and the leaves as its stops. -/
theorem services_run {es : List Event} (h : es.foldlM (step isRoot uid scheduler) s = some s') :
    (es.filterMap (Event.custom isRoot)).foldlM (CustomService.step scheduler) s.custom =
        some s'.custom ∧
      (es.filterMap (Event.mqttsn isRoot)).foldlM (Lifecycle.step uid scheduler) s.mqttsn =
        some s'.mqttsn :=
  ⟨foldlM_filterMap (fun _ _ _ hstep => (services_step hstep).custom) es h,
    foldlM_filterMap (fun _ _ _ hstep => (services_step hstep).mqttsn) es h⟩

end EmbenetNode.Application
