import EmbenetNode.Lib.GuardedRun
import EmbenetNode.Mqttsn.Identity
import EmbenetNode.Mqttsn.Liveness

/-!
# The messages of the button

`mqttsn_client_service_proc` counts the presses of the button that it publishes, and does not look
at it again for a second. The counter and the time of the last message outlive a disconnection and
a stop.

* `buttonMessages`: what was published on the topic of the button;
* `Counted`, `counted_step`: they are numbered from 1, and there is at most one in 1001 ms;
* `button_counted`: the same for every run;
* `Fits`, `messages_fit`: every message published fits into a packet.
-/

namespace EmbenetNode.Mqttsn

open GuardedRun Numeral

/-- `MQTTSN_MAX_MESSAGE_DATA` -/
def maxMessageData : ℕ := 32

/-- The message of a call that publishes on the topic. -/
def Call.messageOn (topic : CString) : Call → Option CString
  | .publishMessage topic' message => if topic' = topic then some message else none
  | .taskCreate | .taskSchedule .. | .taskCancel _ | .clientInit _ | .clientDeinit | .cleanConnect
  | .registerTopic _ | .subscribe _ | .led1 _ => none

/-- What was published on the topic of the button. -/
def System.buttonMessages (s : System) : List CString :=
  s.calls.filterMap (Call.messageOn s.statics.buttonTopic)

/-- The local time does not run backwards while `mqttsn_client_service_proc` publishes, and is not
about to overflow. -/
def TimeRuns : Event → Prop
  | .proc _ _ now now' => now ≤ now' ∧ now'.toNat + 1000 < 2 ^ 64
  | .start _ | .stop | .taskRun .. | .connected _ | .disconnected _ | .topicRegistered .. => True

instance : ∀ e, Decidable (TimeRuns e)
  | .proc .. => inferInstanceAs (Decidable (_ ∧ _))
  | .start _ | .stop | .taskRun .. | .connected _ | .disconnected _ | .topicRegistered .. =>
      isTrue trivial

/-- The messages are those of the presses counted, in order; and each press took 1001 ms. -/
structure Counted (uid : UInt64) (s : System) : Prop where
  uptimeTopic : s.statics.uptimeTopic = uptimeTopicOf uid
  buttonTopic : s.statics.buttonTopic = buttonTopicOf uid
  messages : s.buttonMessages =
    (List.range s.statics.buttonPressCounter).map fun i => payloadStr (i + 1)
  rate : 1001 * s.statics.buttonPressCounter ≤ s.statics.lastTimestamp.toNat
  time : s.statics.lastTimestamp.toNat + 1000 < 2 ^ 64

variable {uid : UInt64} {scheduler : Scheduler} {s s' : System} {e : Event}

theorem uptimeTopicOf_ne_buttonTopicOf (uid : UInt64) : uptimeTopicOf uid ≠ buttonTopicOf uid := by
  intro h
  exact absurd (List.cons.inj h).1 (by decide)

/-! ### What a function does to the counter -/

/-- The function leaves the counter and the time of the last message alone, and publishes nothing on
the topic of the button. -/
structure Uncounted (s : System) (effect : Statics × List Call) : Prop where
  uptimeTopic : effect.1.uptimeTopic = s.statics.uptimeTopic
  buttonTopic : effect.1.buttonTopic = s.statics.buttonTopic
  counter : effect.1.buttonPressCounter = s.statics.buttonPressCounter
  time : effect.1.lastTimestamp = s.statics.lastTimestamp
  messages : effect.2.filterMap (Call.messageOn s.statics.buttonTopic) = []

theorem uncounted_taskRun (hne : s.statics.uptimeTopic ≠ s.statics.buttonTopic) (now : UInt64)
    (result : ClientResult) : Uncounted s ((Event.taskRun now result).effect uid s) := by
  unfold Event.effect mqttsnServiceTask
  cases hstate : s.statics.serviceState <;>
    exact ⟨rfl, rfl, rfl, rfl, by simp [Call.messageOn, hne]⟩

theorem uncounted_proc {low low' : Bool} {now now' : UInt64} (h : ¬ Pressed low now s.statics) :
    Uncounted s ((Event.proc low low' now now').effect uid s) := by
  rw [Event.effect, proc_of_not_pressed h]
  refine ⟨rfl, rfl, rfl, rfl, ?_⟩
  cases low' <;> rfl

/-- Only a press of the button counts. -/
theorem uncounted_of_ne (hne : s.statics.uptimeTopic ≠ s.statics.buttonTopic)
    (he : ∀ low low' now now', e ≠ .proc low low' now now') : Uncounted s (e.effect uid s) := by
  cases e with
  | start | stop | connected | disconnected | topicRegistered => exact ⟨rfl, rfl, rfl, rfl, rfl⟩
  | taskRun now result => exact uncounted_taskRun hne now result
  | proc low low' now now' => exact absurd rfl (he low low' now now')

theorem counted_of_uncounted (hs : Counted uid s) (heffect : Uncounted s (e.effect uid s))
    (h : step uid scheduler s e = some s') : Counted uid s' := by
  obtain ⟨hstatics, hcalls⟩ := step_effect h
  have hbutton : s'.statics.buttonTopic = s.statics.buttonTopic := by
    rw [hstatics, heffect.buttonTopic]
  have hcounter : s'.statics.buttonPressCounter = s.statics.buttonPressCounter := by
    rw [hstatics, heffect.counter]
  have htime : s'.statics.lastTimestamp = s.statics.lastTimestamp := by
    rw [hstatics, heffect.time]
  constructor
  · rw [hstatics, heffect.uptimeTopic]
    exact hs.uptimeTopic
  · rw [hbutton]
    exact hs.buttonTopic
  · rw [System.buttonMessages, hbutton, hcalls, List.filterMap_append, heffect.messages,
      List.append_nil, hcounter]
    exact hs.messages
  · rw [hcounter, htime]
    exact hs.rate
  · rw [htime]
    exact hs.time

/-- A press of the button that is published. -/
theorem counted_of_pressed {low low' : Bool} {now now' : UInt64} (hs : Counted uid s)
    (htime : now ≤ now' ∧ now'.toNat + 1000 < 2 ^ 64) (hpressed : Pressed low now s.statics)
    (h : step uid scheduler s (.proc low low' now now') = some s') : Counted uid s' := by
  obtain ⟨hstatics, hcalls⟩ := step_effect h
  rw [Event.effect, proc_of_pressed hpressed] at hstatics hcalls
  have hbutton : s'.statics.buttonTopic = s.statics.buttonTopic := by rw [hstatics]
  have hcounter : s'.statics.buttonPressCounter = s.statics.buttonPressCounter + 1 := by
    rw [hstatics]
  have hlast : s'.statics.lastTimestamp = now' := by rw [hstatics]
  -- more than a second has passed since the last message
  have hlater : s.statics.lastTimestamp.toNat + 1000 < now.toNat := by
    have hlt := UInt64.lt_iff_toNat_lt.1 hpressed.2.2
    have hmod : (s.statics.lastTimestamp.toNat + 1000) % 2 ^ 64 = _ := Nat.mod_eq_of_lt hs.time
    rwa [UInt64.toNat_add, show (1000 : UInt64).toNat = 1000 from rfl, hmod] at hlt
  have hle := UInt64.le_iff_toNat_le.1 htime.1
  have hrate := hs.rate
  constructor
  · rw [hstatics]
    exact hs.uptimeTopic
  · rw [hbutton]
    exact hs.buttonTopic
  · have hmessage : ([Call.led1 true, .publishMessage s.statics.buttonTopic
        (payloadStr (s.statics.buttonPressCounter + 1))] ++
          if low' then [] else [Call.led1 false]).filterMap
            (Call.messageOn s.statics.buttonTopic) =
        [payloadStr (s.statics.buttonPressCounter + 1)] := by
      cases low' <;> simp [List.filterMap_cons, Call.messageOn]
    rw [System.buttonMessages, hbutton, hcalls, List.filterMap_append, hmessage, hcounter,
      List.range_succ, List.map_append]
    exact congrArg (· ++ _) hs.messages
  · rw [hcounter, hlast]
    omega
  · rw [hlast]
    exact htime.2

/-- **The step lemma**: every event keeps the count. -/
theorem counted_step (hs : Counted uid s) (htime : TimeRuns e)
    (h : step uid scheduler s e = some s') : Counted uid s' := by
  have hne : s.statics.uptimeTopic ≠ s.statics.buttonTopic := by
    rw [hs.uptimeTopic, hs.buttonTopic]
    exact uptimeTopicOf_ne_buttonTopicOf uid
  cases e with
  | proc low low' now now' =>
    by_cases hpressed : Pressed low now s.statics
    · exact counted_of_pressed hs htime hpressed h
    · exact counted_of_uncounted hs (uncounted_proc hpressed) h
  | start | stop | taskRun | connected | disconnected | topicRegistered =>
    exact counted_of_uncounted hs (uncounted_of_ne hne (by simp)) h

/-- After the initialization, whatever the client and the node return in it. -/
theorem counted_initialized (uid : UInt64) (result : ClientResult) (taskId : TaskId) :
    Counted uid { statics := (init uid result taskId {}).1 } := by
  unfold init
  by_cases hok : result = .ok
  · simp only [hok, if_true]
    exact ⟨rfl, rfl, rfl, Nat.le_refl _, show (0 : UInt64).toNat + 1000 < 2 ^ 64 by decide⟩
  · simp only [hok, if_false]
    exact ⟨rfl, rfl, rfl, Nat.le_refl _, show (0 : UInt64).toNat + 1000 < 2 ^ 64 by decide⟩

/-! ### Every message -/

/-- The message of a call that publishes. -/
def Call.message : Call → Option CString
  | .publishMessage _ message => some message
  | .taskCreate | .taskSchedule .. | .taskCancel _ | .clientInit _ | .clientDeinit | .cleanConnect
  | .registerTopic _ | .subscribe _ | .led1 _ => none

/-- The messages published fit into a packet. -/
def Fits (s : System) : Prop :=
  ∀ message ∈ s.calls.filterMap Call.message, message.length ≤ maxMessageData

/-- A text around a numeral of at most 17 digits. -/
theorem length_text {before digits after : CString} (hbefore : before.length = 10)
    (hdigits : digits.length ≤ 17) (hafter : after.length = 1) :
    (before ++ digits ++ after).length ≤ maxMessageData := by
  rw [List.length_append, List.length_append, maxMessageData]
  omega

theorem length_uptimeStr (uptime : UInt64) : (uptimeStr uptime).length ≤ maxMessageData := by
  have hlt : (uptime / 1000).toUInt32.toNat < 10 ^ 10 :=
    Nat.lt_trans (UInt32.toNat_lt _) (by decide)
  have hdigits := (Nat.length_toDigits_le_iff (by decide) (by decide)).2 hlt
  exact length_text rfl (Nat.le_trans hdigits (by decide)) rfl

/-- The rate bounds the count, and so the number of its digits. -/
theorem length_payloadStr {n : ℕ} (hn : 1001 * n < 2 ^ 64) :
    (payloadStr n).length ≤ maxMessageData := by
  have hlt : n < 10 ^ 17 := by omega
  have hdigits := (Nat.length_toDigits_le_iff (by decide) (by decide)).2 hlt
  exact length_text rfl hdigits rfl

theorem fits_step (hs : Counted uid s) (hfits : Fits s) (htime : TimeRuns e)
    (h : step uid scheduler s e = some s') : Fits s' := by
  obtain ⟨-, hcalls⟩ := step_effect h
  unfold Fits
  rw [hcalls, List.filterMap_append, List.forall_mem_append]
  refine ⟨hfits, ?_⟩
  cases e with
  | start | stop | connected | disconnected | topicRegistered => exact nofun
  | taskRun now result =>
    unfold Event.effect mqttsnServiceTask
    cases s.statics.serviceState <;> simp [Call.message, length_uptimeStr]
  | proc low low' now now' =>
    by_cases hpressed : Pressed low now s.statics
    · rw [Event.effect, proc_of_pressed hpressed]
      have hcounted := (counted_of_pressed hs htime hpressed h).rate
      have hlast := (counted_of_pressed hs htime hpressed h).time
      have hcounter : s'.statics.buttonPressCounter = s.statics.buttonPressCounter + 1 := by
        rw [(step_effect h).1, Event.effect, proc_of_pressed hpressed]
      have hlength : (payloadStr (s.statics.buttonPressCounter + 1)).length ≤ maxMessageData :=
        length_payloadStr (by omega)
      cases low' <;> simp [Call.message, hlength]
    · rw [Event.effect, proc_of_not_pressed hpressed]
      cases low' <;> simp [Call.message]

/-! ### Runs -/

/-- **The presses of the button are counted.** Along any run from the initialization, through
disconnections, stops and starts: the messages published on the topic of the button are numbered 1,
2, 3, ... without a gap or a repetition, by a time `t` of the last of them at most `t / 1001` have
been published, and every message published on any topic fits into a packet. -/
theorem button_counted {result : ClientResult} {taskId : TaskId} {es : List Event}
    (htime : ∀ e ∈ es, TimeRuns e) :
    Along (step uid scheduler)
      (fun _ _ s' => s'.buttonMessages =
          (List.range s'.statics.buttonPressCounter).map (fun i => payloadStr (i + 1)) ∧
        1001 * s'.statics.buttonPressCounter ≤ s'.statics.lastTimestamp.toNat ∧ Fits s')
      { statics := (init uid result taskId {}).1 } es := by
  have hstep : ∀ s e s', (Counted uid s ∧ Fits s) → TimeRuns e →
      step uid scheduler s e = some s' →
        (s'.buttonMessages =
            (List.range s'.statics.buttonPressCounter).map (fun i => payloadStr (i + 1)) ∧
          1001 * s'.statics.buttonPressCounter ≤ s'.statics.lastTimestamp.toNat ∧ Fits s') ∧
        Counted uid s' ∧ Fits s' := by
    intro s e s' hs htime h
    have hcounted := counted_step hs.1 htime h
    have hfits := fits_step hs.1 hs.2 htime h
    exact ⟨⟨hcounted.messages, hcounted.rate, hfits⟩, hcounted, hfits⟩
  exact Along.of_invariant hstep ⟨counted_initialized uid result taskId, nofun⟩
    (along_of_forall_mem es _ fun e he _ _ => htime e he)

/-- Presses before and after a disconnection, one of them too early. -/
def pressedThrice : List Event :=
  .start 10 :: setUp ++ [.proc true true 2000 2001, .proc true false 2500 2500,
    .disconnected 2600, .proc true true 9000 9000]

theorem button_counted_pressedThrice :
    Along (step 1 always)
      (fun _ _ s' => s'.buttonMessages =
          (List.range s'.statics.buttonPressCounter).map (fun i => payloadStr (i + 1)) ∧
        1001 * s'.statics.buttonPressCounter ≤ s'.statics.lastTimestamp.toNat ∧ Fits s')
      { statics := (init 1 .ok (some 0) {}).1 } pressedThrice :=
  button_counted (by decide +kernel)

end EmbenetNode.Mqttsn
