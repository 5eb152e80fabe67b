import Mathlib.Tactic.SplitIfs
import EmbenetNode.Mqttsn.Model
import EmbenetNode.Lib.GuardedRun

/-!
# The service never gets stuck

The service goes on as long as its task is scheduled or the client owes it a callback that schedules
it. The task reschedules itself in every state but the two in which it registers a topic: there it
relies on the callback, also when the client refuses the request. So between a start and the next
stop the service stays alive exactly if every registration is accepted that is made with no other
request outstanding (`alive_iff`).
-/

namespace EmbenetNode.Mqttsn

open GuardedRun

/-- A scheduler that never refuses. -/
def always : Scheduler := fun _ _ _ _ => true

/-- The task is scheduled, or an accepted request is outstanding whose callback schedules it. -/
def Alive (s : System) : Prop := s.scheduled ≠ none ∨ s.outstanding ≠ []

/-- The task is about to register a topic. -/
def ServiceState.Registering (state : ServiceState) : Prop :=
  state = .registerUptimeTopic ∨ state = .registerButtonStateTopic

/-- The registration of a topic is accepted, unless another request is outstanding. -/
def RegistersOrWaits (s : System) : Event → Prop
  | .taskRun _ result => s.statics.serviceState.Registering → result = .ok ∨ s.outstanding ≠ []
  | _ => True

instance (s : System) : Decidable (Alive s) :=
  inferInstanceAs (Decidable (s.scheduled ≠ none ∨ s.outstanding ≠ []))

instance (state : ServiceState) : Decidable state.Registering :=
  inferInstanceAs (Decidable (state = .registerUptimeTopic ∨ state = .registerButtonStateTopic))

instance (s : System) : ∀ e, Decidable (RegistersOrWaits s e)
  | .taskRun .. => by unfold RegistersOrWaits; infer_instance
  | .start _ | .stop | .connected _ | .disconnected _ | .topicRegistered .. | .proc .. =>
      isTrue trivial

section Step

variable {uid : UInt64} {s s' : System}

/-- The calls of the service that schedule its task last leave it scheduled. -/
theorem alive_of_scheduled (calls : List Call) {now t : UInt64} {result : ClientResult}
    {statics : Statics} {taskId : TaskId} {timeSource : TimeSource} :
    Alive (s.apply always now result (statics, calls ++ [.taskSchedule taskId timeSource t])) := by
  left
  simp [System.apply, System.perform, always]

/-- The task in the two states that register a topic. -/
theorem taskRun_of_registering {now : UInt64} {result : ClientResult}
    (hstate : s.statics.serviceState.Registering)
    (h : step uid always s (.taskRun now result) = some s') :
    Alive s' ↔ result = .ok ∨ s.outstanding ≠ [] := by
  obtain ⟨t, ht, heq⟩ := Option.bind_eq_some_iff.1 h
  cases heq
  rcases hstate with hstate | hstate <;>
    by_cases hresult : result = .ok <;>
    simp [Alive, mqttsnServiceTask, hstate, System.apply, System.perform, hresult]

/-- The task in the other states schedules itself. -/
theorem taskRun_of_not_registering {now : UInt64} {result : ClientResult}
    (hstate : ¬ s.statics.serviceState.Registering)
    (h : step uid always s (.taskRun now result) = some s') : Alive s' := by
  obtain ⟨t, ht, heq⟩ := Option.bind_eq_some_iff.1 h
  cases heq
  unfold mqttsnServiceTask
  cases hs : s.statics.serviceState with
  | connecting | subscribeToTopic | running => exact alive_of_scheduled [_]
  | registerUptimeTopic => exact absurd (.inl hs) hstate
  | registerButtonStateTopic => exact absurd (.inr hs) hstate

/-- The process function leaves the task and the requests alone. -/
theorem alive_proc {low low' : Bool} {now now' : UInt64}
    (h : step uid always s (.proc low low' now now') = some s') : Alive s' ↔ Alive s := by
  obtain ⟨-, rfl⟩ := step_proc h
  unfold proc
  cases low' <;> split_ifs <;> rfl

/-- **The step lemma**: short of a stop, a service that is alive stays alive exactly if a topic it
registers is accepted, or another request is outstanding. -/
theorem alive_step_iff {e : Event} (hs : Alive s) (hstop : e ≠ .stop)
    (h : step uid always s e = some s') : Alive s' ↔ RegistersOrWaits s e := by
  cases e with
  | start now =>
    cases h
    exact iff_of_true (alive_of_scheduled []) trivial
  | stop => exact absurd rfl hstop
  | taskRun now result =>
    by_cases hstate : s.statics.serviceState.Registering
    · rw [taskRun_of_registering hstate h]
      exact ⟨fun h _ => h, fun h => h hstate⟩
    · exact iff_of_true (taskRun_of_not_registering hstate h) fun h => absurd h hstate
  | connected now =>
    cases h
    exact iff_of_true (alive_of_scheduled []) trivial
  | disconnected now =>
    cases h
    exact iff_of_true (alive_of_scheduled [_, _, _]) trivial
  | topicRegistered now topicName =>
    cases h
    exact iff_of_true (alive_of_scheduled []) trivial
  | proc low low' now now' =>
    exact iff_of_true ((alive_proc h).2 hs) trivial

end Step

/-- **The service never gets stuck.** After a start and before the next stop, in any order of task
executions and client callbacks and with any results of the client, the task is scheduled or a
request that schedules it is outstanding, exactly if every registration of a topic is accepted that
is made with no request outstanding. -/
theorem alive_iff (uid now : UInt64) (s : System) (es : List Event) (hstop : .stop ∉ es) :
    Along (step uid always) (fun _ _ s' => Alive s') s (.start now :: es) ↔
      Along (step uid always) (fun s e _ => RegistersOrWaits s e) s (.start now :: es) := by
  have hstart : step uid always s (.start now) = some (s.apply always now .ok (start now s.statics)) :=
    rfl
  have halive : Alive (s.apply always now .ok (start now s.statics)) := alive_of_scheduled []
  rw [along_cons_of_step hstart, along_cons_of_step hstart]
  refine and_congr (iff_of_true halive trivial) (along_iff ?_ halive
    (H := fun _ e _ => e ≠ .stop) (along_of_forall_mem es _ ?_))
  · intro s e s' hs hne hstep
    have hiff := alive_step_iff hs hne hstep
    exact ⟨hiff, hiff.2⟩
  · rintro e he _ _ rfl
    exact hstop he

/-- The service after its initialization on a node with the UID 1. -/
def initialized : System := { statics := (init 1 .ok (some 0) {}).1 }

/-- The service up to the publication of its first message. -/
def setUp : List Event :=
  [.taskRun 10 .ok, .connected 100, .taskRun 100 .ok, .topicRegistered 200 (uptimeTopicOf 1),
    .taskRun 200 .ok, .topicRegistered 300 (buttonTopicOf 1), .taskRun 300 .ok, .taskRun 1300 .ok]

/-- Every request is accepted. -/
theorem alive_setUp :
    Along (step 1 always) (fun _ _ s' => Alive s') initialized (.start 10 :: setUp) :=
  (alive_iff 1 10 initialized setUp (by simp [setUp])).2 (by decide +kernel)

/-- The gateway is connected, and the client has no room for the topic: nothing runs any more. -/
theorem not_alive_after_refusal :
    ¬ Along (step 1 always) (fun _ _ s' => Alive s') initialized
      [.start 10, .taskRun 10 .ok, .connected 100, .taskRun 100 .txTopicsBufferFull] := by
  decide +kernel

end EmbenetNode.Mqttsn
