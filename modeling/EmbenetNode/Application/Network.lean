import EmbenetNode.Application.Model
import EmbenetNode.Services.Periodic

/-!
# In the network and out of it

The services are started when the node joins the network and stopped when it leaves it. Out of the
network they send nothing, with one exception: `mqttsn_client_service_proc` is called all the same,
and a press of the button is published when the service was stopped while RUNNING.

* `System.Away`, `Idle`, `idle_step`: out of the network, and in a root, no task is scheduled and
  the client has no session;
* `away_silent`: what is sent then;
* `datagrams_numbered`: what the custom service sends in all;
* `scheduled_iff_joined`: the task of the custom service is scheduled in the network only, and
  always there.
-/

namespace EmbenetNode.Application

open CustomService (Result)
open Mqttsn (Lifecycle Scheduler Pressed payloadStr)
open Services GuardedRun Simulation

/-- A call of the client that has it send something to the gateway. -/
def isRequest : Mqttsn.Call → Bool
  | .cleanConnect | .registerTopic _ | .subscribe _ | .publishMessage .. => true
  | .taskCreate | .taskSchedule .. | .taskCancel _ | .clientInit _ | .clientDeinit | .led1 _ =>
      false

/-- What the MQTT-SN service has sent. -/
def System.requests (s : System) : List Mqttsn.Call := s.mqttsn.system.calls.filter isRequest

/-- The services are not to run. -/
def System.Away (isRoot : Bool) (s : System) : Prop := isRoot = true ∨ s.joined = false

/-- The message of a press of the button, if the event is one that finds the service RUNNING. -/
def System.pressed (isRoot : Bool) (s : System) : Event → List Mqttsn.Call
  | .loop low _ now _ =>
      if isRoot = false ∧ Pressed low now s.mqttsn.system.statics then
        [.publishMessage s.mqttsn.system.statics.buttonTopic
          (payloadStr (s.mqttsn.system.statics.buttonPressCounter + 1))]
      else []
  | .onJoined .. | .onLeft _ | .onJoinAttempt .. | .dataOnUregisteredPort _
  | .onQuickJoinCredentialsObsolete | .customServiceTask .. | .customServiceReceptionHandler ..
  | .mqttsnServiceTask .. | .onMQTTConnected _ | .onMQTTDisconnected _ | .onMQTTTopicRegistered ..
  | .onLedcontrolUpdate .. => []

/-- The services sleep. -/
structure Idle (s : System) : Prop where
  custom : s.custom.scheduled = none
  mqttsn : s.mqttsn.system.scheduled = none
  session : s.mqttsn.session = false

variable {isRoot : Bool} {uid : UInt64} {scheduler : Scheduler} {s s' : System} {e : Event}

/-! ### The services, event by event -/

theorem custom_of_none (h : ServicesStep isRoot uid scheduler s e s')
    (he : e.custom isRoot = none) : s'.custom = s.custom := by
  have hrun := h.custom
  rwa [he, foldlM_toList_none] at hrun

theorem custom_of_some (h : ServicesStep isRoot uid scheduler s e s') {e' : CustomService.Event}
    (he : e.custom isRoot = some e') :
    CustomService.step scheduler s.custom e' = some s'.custom := by
  have hrun := h.custom
  rwa [he, foldlM_toList_some] at hrun

theorem mqttsn_of_none (h : ServicesStep isRoot uid scheduler s e s')
    (he : e.mqttsn isRoot = none) : s'.mqttsn = s.mqttsn := by
  have hrun := h.mqttsn
  rwa [he, foldlM_toList_none] at hrun

theorem mqttsn_of_some (h : ServicesStep isRoot uid scheduler s e s') {e' : Mqttsn.Event}
    (he : e.mqttsn isRoot = some e') : s.mqttsn.step uid scheduler e' = some s'.mqttsn := by
  have hrun := h.mqttsn
  rwa [he, foldlM_toList_some] at hrun

/-- The task of the custom service and that of the MQTT-SN service do not run, and its client does
not call back, while the services sleep. -/
theorem Idle.not_mem_wakes (hs : Idle s) (h : ServicesStep isRoot uid scheduler s e s') :
    (∀ now sent, e.custom isRoot ≠ some (.taskRun now sent)) ∧
      (∀ now result, e.mqttsn isRoot ≠ some (.taskRun now result)) ∧
      ∀ e', e.mqttsn isRoot = some e' → e'.isCallback = false := by
  refine ⟨fun now sent he => ?_, fun now result he => ?_, fun e' he => ?_⟩
  · have hstep := custom_of_some h he
    rw [CustomService.step, hs.custom] at hstep
    cases hstep
  · obtain ⟨-, hstep, -, -⟩ := Mqttsn.lifecycle_step (mqttsn_of_some h he)
    exact Mqttsn.scheduled_of_taskRun hstep hs.mqttsn
  · obtain ⟨hcallback, -, -, -⟩ := Mqttsn.lifecycle_step (mqttsn_of_some h he)
    rw [hs.session] at hcallback
    cases hcase : e'.isCallback with
    | false => rfl
    | true => exact absurd (hcallback hcase) nofun

/-- The events that a sleeping service takes part in. -/
theorem Idle.cases (hs : Idle s) (h : ServicesStep isRoot uid scheduler s e s') :
    (isRoot = false ∧ ∃ panId enmsStartStatus now now',
        e = .onJoined panId enmsStartStatus now now') ∨
      (isRoot = false ∧ ∃ enmsStopStatus, e = .onLeft enmsStopStatus) ∨
      (isRoot = false ∧ ∃ low low' now now', e = .loop low low' now now') ∨
      (e.custom isRoot = none ∧ e.mqttsn isRoot = none) := by
  obtain ⟨hcustom, hmqttsn, hcallback⟩ := hs.not_mem_wakes h
  cases e with
  | onJoined panId enmsStartStatus now now' =>
    cases isRoot with
    | false => exact .inl ⟨rfl, panId, enmsStartStatus, now, now', rfl⟩
    | true => exact .inr (.inr (.inr ⟨rfl, rfl⟩))
  | onLeft enmsStopStatus =>
    cases isRoot with
    | false => exact .inr (.inl ⟨rfl, enmsStopStatus, rfl⟩)
    | true => exact .inr (.inr (.inr ⟨rfl, rfl⟩))
  | loop low low' now now' =>
    cases isRoot with
    | false => exact .inr (.inr (.inl ⟨rfl, low, low', now, now', rfl⟩))
    | true => exact .inr (.inr (.inr ⟨rfl, rfl⟩))
  | customServiceTask now sent => exact absurd rfl (hcustom now sent)
  | mqttsnServiceTask now result => exact absurd rfl (hmqttsn now result)
  | onMQTTConnected | onMQTTDisconnected | onMQTTTopicRegistered =>
    exact absurd (hcallback _ rfl) nofun
  | onJoinAttempt | dataOnUregisteredPort | onQuickJoinCredentialsObsolete
  | customServiceReceptionHandler | onLedcontrolUpdate =>
    exact .inr (.inr (.inr ⟨rfl, rfl⟩))

/-! ### Out of the network -/

theorem idle_of_onLeft {enmsStopStatus : EnmsNodeResult}
    (h : ServicesStep false uid scheduler s (.onLeft enmsStopStatus) s') : Idle s' := by
  obtain ⟨-, hstep, -, hsession⟩ := Mqttsn.lifecycle_step (mqttsn_of_some h rfl)
  have hcustom : some (s.custom.apply scheduler 0 (CustomService.stop s.custom.statics)) =
      some s'.custom := custom_of_some h rfl
  exact ⟨by rw [← Option.some.inj hcustom]; rfl, Mqttsn.scheduled_of_stop hstep, hsession⟩

theorem idle_of_loop (hs : Idle s) {low low' : Bool} {now now' : UInt64}
    (h : ServicesStep false uid scheduler s (.loop low low' now now') s') : Idle s' := by
  obtain ⟨-, hstep, -, hsession⟩ := Mqttsn.lifecycle_step (mqttsn_of_some h rfl)
  exact ⟨by rw [custom_of_none h rfl, hs.custom],
    by rw [Mqttsn.scheduled_of_proc hstep, hs.mqttsn], by rw [hsession]; exact hs.session⟩

/-- The node leaves the network in `onLeft` only. -/
theorem onLeft_of_joined (he : e.joined true = false) : ∃ enmsStopStatus, e = .onLeft enmsStopStatus
    := by
  cases e with
  | onLeft enmsStopStatus => exact ⟨enmsStopStatus, rfl⟩
  | onJoined | onJoinAttempt | dataOnUregisteredPort | onQuickJoinCredentialsObsolete
  | customServiceTask | customServiceReceptionHandler | mqttsnServiceTask | onMQTTConnected
  | onMQTTDisconnected | onMQTTTopicRegistered | onLedcontrolUpdate | loop => cases he

/-- **The step lemma**: the services sleep when they are not to run. -/
theorem idle_step (hs : s.Away isRoot → Idle s) (h : ServicesStep isRoot uid scheduler s e s') :
    s'.Away isRoot → Idle s' := by
  intro haway'
  by_cases haway : s.Away isRoot
  · rcases (hs haway).cases h with ⟨rfl, panId, enmsStartStatus, now, now', rfl⟩ |
      ⟨rfl, enmsStopStatus, rfl⟩ | ⟨rfl, low, low', now, now', rfl⟩ | ⟨hcustom, hmqttsn⟩
    · rcases haway' with hroot | hjoined
      · cases hroot
      · exact absurd (h.joined.symm.trans hjoined) nofun
    · exact idle_of_onLeft h
    · exact idle_of_loop (hs haway) h
    · obtain ⟨hcustomIdle, hmqttsnIdle, hsession⟩ := hs haway
      refine ⟨?_, ?_, ?_⟩
      · rw [custom_of_none h hcustom, hcustomIdle]
      · rw [mqttsn_of_none h hmqttsn, hmqttsnIdle]
      · rw [mqttsn_of_none h hmqttsn, hsession]
  · -- the node was in the network and is not any more
    obtain ⟨hroot, hjoined⟩ := not_or.1 haway
    have hroot : isRoot = false := Bool.eq_false_iff.2 hroot
    have hjoined : s.joined = true := by rwa [Bool.not_eq_false] at hjoined
    subst hroot
    have hleft : e.joined true = false := by
      rw [← hjoined, ← h.joined]
      exact haway'.resolve_left nofun
    obtain ⟨enmsStopStatus, rfl⟩ := onLeft_of_joined hleft
    exact idle_of_onLeft h

theorem idle_started (isRoot : Bool) (uid : UInt64) (results : Results) :
    (System.started isRoot uid results).Away isRoot → Idle (.started isRoot uid results) := by
  intro _
  cases isRoot <;> exact ⟨rfl, rfl, rfl⟩

/-! ### What is sent -/

theorem messages_of_some (h : ServicesStep isRoot uid scheduler s e s') {e' : CustomService.Event}
    (he : e.custom isRoot = some e') (hrun : e'.isTaskRun = false) :
    s'.custom.messages = s.custom.messages := by
  rw [(CustomService.messages_step (custom_of_some h he)).2, hrun]
  exact List.append_nil _

theorem requests_of_some (h : ServicesStep isRoot uid scheduler s e s') {e' : Mqttsn.Event}
    (he : e.mqttsn isRoot = some e') :
    s'.requests = s.requests ++ (e'.effect uid s.mqttsn.system).2.filter isRequest := by
  obtain ⟨-, hstep, -, -⟩ := Mqttsn.lifecycle_step (mqttsn_of_some h he)
  rw [System.requests, (Mqttsn.step_effect hstep).2, List.filter_append]
  rfl

theorem requests_of_loop {low low' : Bool} {now now' : UInt64}
    (h : ServicesStep false uid scheduler s (.loop low low' now now') s') :
    s'.requests = s.requests ++ s.pressed false (.loop low low' now now') := by
  rw [requests_of_some h rfl, Mqttsn.Event.effect]
  by_cases hpressed : Pressed low now s.mqttsn.system.statics
  · have hmessage : s.pressed false (.loop low low' now now') = _ := if_pos ⟨rfl, hpressed⟩
    rw [Mqttsn.proc_of_pressed hpressed, hmessage]
    cases low' <;> rfl
  · have hnone : s.pressed false (.loop low low' now now') = [] :=
      if_neg fun hboth => hpressed hboth.2
    rw [Mqttsn.proc_of_not_pressed hpressed, hnone]
    cases low' <;> rfl

theorem pressed_of_none (he : e.mqttsn isRoot = none) : s.pressed isRoot e = [] := by
  cases e with
  | loop low low' now now' =>
    cases isRoot with
    | false => cases he
    | true => rfl
  | onJoined | onLeft | onJoinAttempt | dataOnUregisteredPort | onQuickJoinCredentialsObsolete
  | customServiceTask | customServiceReceptionHandler | mqttsnServiceTask | onMQTTConnected
  | onMQTTDisconnected | onMQTTTopicRegistered | onLedcontrolUpdate => rfl

/-- A step of sleeping services sends what the button asks for. -/
theorem sent_of_idle (hs : Idle s) (h : ServicesStep isRoot uid scheduler s e s') :
    s'.custom.messages = s.custom.messages ∧ s'.requests = s.requests ++ s.pressed isRoot e := by
  rcases hs.cases h with ⟨rfl, panId, enmsStartStatus, now, now', rfl⟩ |
    ⟨rfl, enmsStopStatus, rfl⟩ | ⟨rfl, low, low', now, now', rfl⟩ | ⟨hcustom, hmqttsn⟩
  · exact ⟨messages_of_some h rfl rfl, requests_of_some h rfl⟩
  · exact ⟨messages_of_some h rfl rfl, requests_of_some h rfl⟩
  · exact ⟨by rw [custom_of_none h rfl], requests_of_loop h⟩
  · rw [custom_of_none h hcustom, System.requests, mqttsn_of_none h hmqttsn,
      pressed_of_none hmqttsn]
    exact ⟨rfl, (List.append_nil _).symm⟩

/-- Out of the network, and in a root, a step sends nothing but the message of a press of the
button that meets the MQTT-SN service in the state RUNNING. -/
def SilentAway (isRoot : Bool) (s : System) (e : Event) (s' : System) : Prop :=
  s.Away isRoot →
    s'.custom.messages = s.custom.messages ∧ s'.requests = s.requests ++ s.pressed isRoot e

/-- **Out of the network the services are silent**, but for the button: along any run of the
program, with any joins and leaves, and in a root throughout, no datagram of the custom service is
sent and no request of the MQTT-SN service made, except the message of a press of the button that
`mqttsn_client_service_proc` finds with the service still RUNNING. -/
theorem away_silent (isRoot : Bool) (uid : UInt64) (scheduler : Scheduler) (results : Results)
    (es : List Event) :
    Along (step isRoot uid scheduler) (SilentAway isRoot) (.started isRoot uid results) es := by
  have hstep : ∀ s e s', (s.Away isRoot → Idle s) → True → step isRoot uid scheduler s e = some s' →
      SilentAway isRoot s e s' ∧ (s'.Away isRoot → Idle s') := by
    intro s e s' hs _ h
    have hservices := services_step h
    exact ⟨fun haway => sent_of_idle (hs haway) hservices, idle_step hs hservices⟩
  exact .of_invariant hstep (idle_started isRoot uid results)
    (along_of_forall_mem es _ fun _ _ _ _ => trivial)

/-! ### The datagrams -/

/-- The event is an execution of the task of the custom service. -/
def Event.isCustomTask : Event → Bool
  | .customServiceTask .. => true
  | .onJoined .. | .onLeft _ | .onJoinAttempt .. | .dataOnUregisteredPort _
  | .onQuickJoinCredentialsObsolete | .customServiceReceptionHandler .. | .mqttsnServiceTask ..
  | .onMQTTConnected _ | .onMQTTDisconnected _ | .onMQTTTopicRegistered .. | .onLedcontrolUpdate ..
  | .loop .. => false

theorem isTaskRun_custom (isRoot : Bool) (e : Event) :
    ((e.custom isRoot).map CustomService.Event.isTaskRun).getD false = e.isCustomTask := by
  cases e with
  | onJoined | onLeft => cases isRoot <;> rfl
  | customServiceTask | onJoinAttempt | dataOnUregisteredPort | onQuickJoinCredentialsObsolete
  | customServiceReceptionHandler | mqttsnServiceTask | onMQTTConnected | onMQTTDisconnected
  | onMQTTTopicRegistered | onLedcontrolUpdate | loop => rfl

/-- Messages are sent, numbered from 0, one in each execution of the task. -/
theorem messages_run {es : List CustomService.Event} {s s' : CustomService.System}
    (hs : s.messages = (List.range s.statics.counter).map fun i => CustomService.message i)
    (h : es.foldlM (CustomService.step scheduler) s = some s') :
    s'.messages = (List.range
      (s.statics.counter + es.countP CustomService.Event.isTaskRun)).map fun i =>
        CustomService.message i := by
  induction es generalizing s with
  | nil =>
    cases h
    exact hs
  | cons e es ih =>
    obtain ⟨s₁, hs₁, h⟩ := foldlM_cons_eq_some.1 h
    have hcounter := (CustomService.messages_step hs₁).1
    rw [ih (CustomService.messages_numbered hs₁ hs) h, hcounter, List.countP_cons]
    cases e.isTaskRun <;> simp [Nat.add_comm, Nat.add_left_comm]

/-- **The datagrams are numbered** over the whole life of the program: in any run, through any joins
and leaves, the custom service has sent the messages 0, 1, 2, ..., one in each execution of its
task, also when the node refused to send some of them. -/
theorem datagrams_numbered {results : Results} {es : List Event}
    (h : es.foldlM (step isRoot uid scheduler) (.started isRoot uid results) = some s') :
    s'.custom.messages =
      (List.range (es.countP Event.isCustomTask)).map fun i => CustomService.message i := by
  have hcounter : (System.started isRoot uid results).custom.statics.counter = 0 := by
    cases isRoot with
    | true => rfl
    | false =>
      unfold System.started CustomService.System.initialized CustomService.init
      by_cases hok : results.registered = .ok <;> simp [hok]
  have hmessages : (System.started isRoot uid results).custom.messages = [] := by
    cases isRoot <;> rfl
  have hrun := messages_run (by rw [hmessages, hcounter]; rfl) (services_run h).1
  rw [hrun, hcounter, Nat.zero_add, List.countP_filterMap]
  simp only [isTaskRun_custom]

/-- The node joins, leaves and joins again; one packet is refused. -/
def rejoined : List Event :=
  [.onJoined 1 .ok 100 100, .customServiceTask 7000 .ok, .loop false false 7000 7000,
    .onLeft .ok, .onJoined 1 .ok 9000 9000, .customServiceTask 11000 .udpPacketQueueFull]

theorem datagrams_numbered_rejoined :
    ((rejoined.foldlM (step false 1 notInPast) (.started false 1 {})).map
      fun s => s.custom.messages) = some ((List.range 2).map fun i => CustomService.message i) := by
  obtain ⟨s', hs'⟩ : ∃ s', rejoined.foldlM (step false 1 notInPast) (.started false 1 {}) =
      some s' := ⟨_, rfl⟩
  rw [hs', Option.map_some, datagrams_numbered hs']
  rfl

/-! ### In the network -/

/-- The task of the custom service is scheduled in the network, and there only. -/
def ScheduledInNetwork (s : System) : Prop := s.custom.scheduled ≠ none ↔ s.joined = true

instance (s : System) : Decidable (ScheduledInNetwork s) := inferInstanceAs (Decidable (_ ↔ _))

/-- The task runs within 5 s after the time it was scheduled for, and the local time does not
overflow in the 2 s after a join. -/
def InTime (s : System) : Event → Prop
  | .customServiceTask now _ => Within 5000 s.custom.scheduled now
  | .onJoined _ _ now _ => now ≤ now + 2000 ∨ s.joined = true
  | .onLeft _ | .onJoinAttempt .. | .dataOnUregisteredPort _ | .onQuickJoinCredentialsObsolete
  | .customServiceReceptionHandler .. | .mqttsnServiceTask .. | .onMQTTConnected _
  | .onMQTTDisconnected _ | .onMQTTTopicRegistered .. | .onLedcontrolUpdate .. | .loop .. => True

instance (s : System) : ∀ e, Decidable (InTime s e)
  | .customServiceTask now _ => inferInstanceAs (Decidable (Within 5000 s.custom.scheduled now))
  | .onJoined _ _ now _ => inferInstanceAs (Decidable (now ≤ now + 2000 ∨ s.joined = true))
  | .onLeft _ | .onJoinAttempt .. | .dataOnUregisteredPort _ | .onQuickJoinCredentialsObsolete
  | .customServiceReceptionHandler .. | .mqttsnServiceTask .. | .onMQTTConnected _
  | .onMQTTDisconnected _ | .onMQTTTopicRegistered .. | .onLedcontrolUpdate .. | .loop .. =>
      isTrue trivial

/-- The invariant: besides, the task was created. -/
structure Serving (s : System) : Prop where
  scheduled : ScheduledInNetwork s
  created : s.custom.statics.customServiceTaskId ≠ none

theorem serving_onJoined (hdoc : Documented scheduler) (hs : Serving s) {panId : UInt16}
    {enmsStartStatus : EnmsNodeResult} {now now' : UInt64}
    (h : ServicesStep false uid scheduler s (.onJoined panId enmsStartStatus now now') s') :
    (ScheduledInNetwork s' ↔ now ≤ now + 2000 ∨ s.joined = true) ∧
      s'.custom.statics.customServiceTaskId ≠ none := by
  obtain ⟨hid, hscheduled⟩ := CustomService.scheduled_start (custom_of_some h rfl)
  have haccepts := @Documented.accepts_iff_le _ _ now (now + 2000) hdoc hs.created
  have hjoined : s'.joined = true := h.joined
  have hbefore : s.custom.scheduled ≠ none ↔ s.joined = true := hs.scheduled
  rw [hid]
  refine ⟨?_, hs.created⟩
  -- a start that is refused leaves the task scheduled if it was
  rw [ScheduledInNetwork, hjoined, hscheduled, ← haccepts, ← hbefore]
  split_ifs with hyes <;> simp [hyes]

theorem serving_customServiceTask (hdoc : Documented scheduler) (hs : Serving s) {now : UInt64}
    {sent : Result} (h : ServicesStep false uid scheduler s (.customServiceTask now sent) s') :
    (ScheduledInNetwork s' ↔ Within 5000 s.custom.scheduled now) ∧
      s'.custom.statics.customServiceTaskId ≠ none := by
  obtain ⟨t, ht, hid, hscheduled⟩ := CustomService.scheduled_taskRun (custom_of_some h rfl)
  have hjoined : s'.joined = true := by
    rw [h.joined]
    exact hs.scheduled.1 (by rw [ht]; nofun)
  rw [hid]
  refine ⟨?_, hs.created⟩
  rw [ScheduledInNetwork, hjoined, hscheduled, hdoc.rescheduled_iff hs.created, ht, within_some]
  simp

theorem serving_onLeft (hs : Serving s) {enmsStopStatus : EnmsNodeResult}
    (h : ServicesStep false uid scheduler s (.onLeft enmsStopStatus) s') : Serving s' := by
  have hcustom : some (s.custom.apply scheduler 0 (CustomService.stop s.custom.statics)) =
      some s'.custom := custom_of_some h rfl
  rw [Option.some.injEq] at hcustom
  constructor
  · rw [ScheduledInNetwork, (idle_of_onLeft h).custom, h.joined]
    simp [Event.joined]
  · rw [← hcustom, (CustomService.System.apply_effect _ _ _ _).1]
    exact hs.created

theorem serving_of_none (hs : Serving s) (h : ServicesStep false uid scheduler s e s')
    (he : e.custom false = none) (hjoined : e.joined s.joined = s.joined) : Serving s' := by
  have hcustom := custom_of_none h he
  constructor
  · rw [ScheduledInNetwork, hcustom, h.joined, hjoined]
    exact hs.scheduled
  · rw [hcustom]
    exact hs.created

/-- **The step lemma**: the task stays scheduled in the network exactly if the step is in time. -/
theorem serving_step_iff (hdoc : Documented scheduler) (hs : Serving s)
    (h : step false uid scheduler s e = some s') :
    (ScheduledInNetwork s' ↔ InTime s e) ∧ (InTime s e → Serving s') := by
  have hservices := services_step h
  cases e with
  | onJoined panId enmsStartStatus now now' =>
    obtain ⟨hiff, hid⟩ := serving_onJoined hdoc hs hservices
    exact ⟨hiff, fun htime => ⟨hiff.2 htime, hid⟩⟩
  | customServiceTask now sent =>
    obtain ⟨hiff, hid⟩ := serving_customServiceTask hdoc hs hservices
    exact ⟨hiff, fun htime => ⟨hiff.2 htime, hid⟩⟩
  | onLeft enmsStopStatus =>
    have hs' := serving_onLeft hs hservices
    exact ⟨iff_of_true hs'.scheduled trivial, fun _ => hs'⟩
  | onJoinAttempt | dataOnUregisteredPort | onQuickJoinCredentialsObsolete
  | customServiceReceptionHandler | mqttsnServiceTask | onMQTTConnected | onMQTTDisconnected
  | onMQTTTopicRegistered | onLedcontrolUpdate | loop =>
    have hs' := serving_of_none hs hservices rfl rfl
    exact ⟨iff_of_true hs'.scheduled trivial, fun _ => hs'⟩

theorem serving_started (uid : UInt64) {results : Results} (hregistered : results.registered = .ok)
    (hcreated : results.customTaskId ≠ none) : Serving (.started false uid results) := by
  constructor
  · exact iff_of_false (fun h => h rfl) nofun
  · have hinit : (System.started false uid results).custom.statics.customServiceTaskId =
        results.customTaskId := by
      simp [System.started, CustomService.System.initialized, CustomService.init, hregistered]
    rw [hinit]
    exact hcreated

/-- **The custom service serves in the network**: when its socket is registered and its task created
in the initialization, the task is scheduled in the network and there only, along any run of the
program with any joins and leaves, exactly as long as no execution of the task is late by more than
its period, and no join happens within the last 2 s of the local time. -/
theorem scheduled_iff_joined (hdoc : Documented scheduler) (uid : UInt64) {results : Results}
    (hregistered : results.registered = .ok) (hcreated : results.customTaskId ≠ none)
    (es : List Event) :
    Along (step false uid scheduler) (fun _ _ s' => ScheduledInNetwork s')
        (.started false uid results) es ↔
      Along (step false uid scheduler) (fun s e _ => InTime s e)
        (.started false uid results) es := by
  refine along_iff ?_ (serving_started uid hregistered hcreated) (H := fun _ _ _ => True)
    (along_of_forall_mem es _ fun _ _ _ _ => trivial)
  intro s e s' hs _ h
  exact serving_step_iff hdoc hs h

theorem scheduled_iff_joined_rejoined :
    Along (step false 1 notInPast) (fun _ _ s' => ScheduledInNetwork s') (.started false 1 {})
      rejoined :=
  (scheduled_iff_joined documented_notInPast 1 rfl (by decide) rejoined).2 (by decide +kernel)

end EmbenetNode.Application
