import EmbenetNode.Radio.Reception

/-!
# Callbacks of aborted commands

The callbacks ignore the handle they are given: what keeps the callback of a command that Idle has
aborted from acting is the idle flag, which TxEnable and RxEnable clear. So along a run in which
every such callback is delivered before the radio is enabled again, none has an effect
(`harmless_of_inTime`); after that, the callback acts for the command posted since
(`startOfFrame_of_stale`).
-/

namespace EmbenetNode.Radio

open GuardedRun

/-- The callback belongs to a command posted before the most recent Idle. -/
def Event.Stale (s : System) : Event → Prop
  | .rxCallback ch .. | .txCallback ch .. => ch < s.firstLive
  | _ => False

instance (s : System) : ∀ e : Event, Decidable (e.Stale s)
  | .rxCallback .. | .txCallback .. => by unfold Event.Stale; infer_instance
  | .init | .setCallbacks .. | .deinit | .idle | .txEnable .. | .txNow _ | .rxEnable _ | .rxNow _
  | .getReceivedFrame .. | .startContinuousTx .. | .core _ => isFalse id

/-- No handler is called, the packet received is not overwritten, and the handles of the commands
posted after the most recent Idle are kept. -/
structure Unaffected (s s' : System) : Prop where
  handlerCalls : s'.handlerCalls = s.handlerCalls
  rxPacket : s'.statics.rxPacket = s.statics.rxPacket
  rxPacketLength : s'.statics.rxPacketLength = s.statics.rxPacketLength
  rxTransaction : ∀ handle, s.firstLive ≤ handle → s.statics.rxTransaction = some handle →
    s'.statics.rxTransaction = some handle
  txTransaction : ∀ handle, s.firstLive ≤ handle → s.statics.txTransaction = some handle →
    s'.statics.txTransaction = some handle

/-- A callback of an aborted command has no effect. -/
def Harmless (s : System) (e : Event) (s' : System) : Prop := e.Stale s → Unaffected s s'

/-- A callback of an aborted command is delivered before the radio is enabled again. -/
def InTime (s : System) (e : Event) : Prop := e.Stale s → s.enabled = false

instance (s : System) (e : Event) : Decidable (InTime s e) :=
  inferInstanceAs (Decidable (e.Stale s → s.enabled = false))

/-- The invariant: once commands were aborted, the radio is idle until it is enabled. -/
structure Quiet (s : System) : Prop where
  idle : 0 < s.firstLive → s.enabled = false → s.statics.idle = true
  live : s.enabled = true → s.statics.idle = false

theorem quiet_start : Quiet start := by
  constructor
  · intro h
    exact absurd h (by decide)
  · nofun

theorem quiet_of_idle {s : System} (hidle : s.statics.idle = true) (henabled : s.enabled = false) :
    Quiet s :=
  ⟨fun _ _ => hidle, fun h => absurd (h.symm.trans henabled) (by decide)⟩

theorem quiet_of_live {s : System} (hidle : s.statics.idle = false) (henabled : s.enabled = true) :
    Quiet s :=
  ⟨fun _ h => absurd (henabled.symm.trans h) (by decide), fun _ => hidle⟩

theorem Quiet.congr {s s' : System} (h : Quiet s) (hfirst : s'.firstLive = s.firstLive)
    (henabled : s'.enabled = s.enabled) (hidle : s'.statics.idle = s.statics.idle) : Quiet s' := by
  constructor
  · rw [hfirst, henabled, hidle]
    exact h.idle
  · rw [henabled, hidle]
    exact h.live

/-- **The step lemma**: every event keeps the invariant. -/
theorem quiet_step {s s' : System} {e : Event} (hs : Quiet s) (h : step s e = some s') :
    Quiet s' := by
  cases e with
  | init =>
    cases h
    exact quiet_of_idle rfl rfl
  | deinit =>
    rcases step_deinit h with rfl | rfl
    · exact quiet_of_idle rfl rfl
    · exact hs
  | idle =>
    cases h
    exact quiet_of_idle rfl rfl
  | txEnable channel psdu psduLen =>
    obtain ⟨buffer, rfl⟩ := step_txEnable h
    exact quiet_of_live rfl rfl
  | rxEnable channel =>
    cases h
    rcases rxEnable_cases channel s.statics with ⟨-, hr⟩ | ⟨-, hr⟩ <;>
      exact quiet_of_live (by rw [hr]) rfl
  | startContinuousTx mode channel =>
    obtain ⟨buffer, rfl⟩ := step_startContinuousTx h
    exact quiet_of_live rfl rfl
  | setCallbacks | txNow | rxNow =>
    cases h
    exact hs.congr rfl rfl rfl
  | getReceivedFrame bufferLength buffer =>
    obtain ⟨length, rfl⟩ := step_getReceivedFrame h
    exact hs.congr rfl rfl rfl
  | core e =>
    cases h
    exact hs.congr rfl rfl (e.effect_idle s.statics)
  | rxCallback ch e t =>
    obtain ⟨statics, calls, hcb, rfl⟩ := step_rxCallback h
    obtain ⟨item, handle, packet, length, rssi, rfl⟩ := rxProcessCb_statics hcb
    exact hs.congr rfl rfl rfl
  | txCallback ch e t t' =>
    obtain ⟨handle, rfl⟩ := step_txCallback h
    exact hs.congr rfl rfl rfl

/-- A callback delivered while the radio is idle has no effect. -/
theorem unaffected_of_idle {s s' : System} {e : Event} (hstale : e.Stale s)
    (hidle : s.statics.idle = true) (h : step s e = some s') : Unaffected s s' := by
  cases e with
  | rxCallback ch e t =>
    obtain ⟨statics, calls, hcb, rfl⟩ := step_rxCallback h
    rw [rxProcessCb_of_idle hidle] at hcb
    cases hcb
    exact ⟨List.append_nil _, rfl, rfl, fun _ _ => id, fun _ _ => id⟩
  | txCallback ch e t t' =>
    simp only [step, txProcessCb_of_idle hidle, Option.some.injEq] at h
    subst h
    exact ⟨List.append_nil _, rfl, rfl, fun _ _ => id, fun _ _ => id⟩
  | init | setCallbacks | deinit | idle | txEnable | txNow | rxEnable | rxNow | getReceivedFrame
  | startContinuousTx | core => exact hstale.elim

/-- Commands are stale only after an Idle. -/
theorem Event.Stale.pos {s : System} {e : Event} (h : e.Stale s) : 0 < s.firstLive := by
  cases e with
  | rxCallback ch | txCallback ch => exact Nat.zero_lt_of_lt h
  | init | setCallbacks | deinit | idle | txEnable | txNow | rxEnable | rxNow | getReceivedFrame
  | startContinuousTx | core => exact h.elim

/-- **Callbacks of aborted commands.** Along any run from a reset in which every callback of an
aborted command is delivered before the radio is enabled again, none of these callbacks has an
effect. -/
theorem harmless_of_inTime (es : List Event)
    (hinTime : Along step (fun s e _ => InTime s e) start es) :
    Along step Harmless start es := by
  refine Along.of_invariant ?_ quiet_start hinTime
  intro s e s' hs he hstep
  refine ⟨fun hstale => ?_, quiet_step hs hstep⟩
  exact unaffected_of_idle hstale (hs.idle hstale.pos (he hstale)) hstep

/-- Once the radio is enabled again, the callback of an aborted reception reports the start of a
frame that nobody receives. -/
theorem startOfFrame_of_stale {s s' : System} {ch : ℕ} {e : EventMask} {t : UInt32} (hs : Quiet s)
    (henabled : s.enabled = true) (hregistered : s.statics.onStartOfFrameHandler = true)
    (hstale : ch < s.firstLive) (hsoft : e.mdmSoft = true)
    (h : step s (.rxCallback ch e t) = some s') : ¬ Harmless s (.rxCallback ch e t) s' := by
  obtain ⟨statics, calls, hcb, rfl⟩ := step_rxCallback h
  rw [rxProcessCb_syncWord (hs.live henabled) hsoft, hregistered] at hcb
  cases hcb
  intro hharmless
  have hcalls := (hharmless hstale).handlerCalls
  simp [callHandler] at hcalls

/-- A reception aborted, with its callback delivered before the next transmission. -/
theorem harmless_before_txEnable :
    Along step Harmless start [.init, .rxEnable 3, .rxNow true, .idle,
      .rxCallback 0 { mdmSoft := true } 5000, .txEnable 4 [1] 1, .txNow true] :=
  harmless_of_inTime _ (by decide)

/-- The same callback after the next TxEnable calls the handler of the start of a frame. -/
theorem not_harmless_after_txEnable :
    ¬ Along step Harmless start [.init, .setCallbacks true true 7, .rxEnable 3, .rxNow true, .idle,
      .txEnable 4 [1] 1, .rxCallback 0 { mdmSoft := true } 5000] := by
  intro hharmless
  have hcalls := hharmless.imp (R := fun s e s' => e.Stale s → s'.handlerCalls = s.handlerCalls)
    fun _ _ _ h hstale => (h hstale).handlerCalls
  exact absurd hcalls (by decide)

end EmbenetNode.Radio
