import Mathlib.Algebra.Order.Field.Rat
import Mathlib.Tactic.Linarith
import Mathlib.Tactic.NormNum
import EmbenetNode.Radio.System

/-!
# The channel of a transmission and of a reception

`setChannel` assigns 0 to the channel after it has clipped it, and converts the fraction of a MHz
with the factor 65536 / 1000 rounded down. So every chain posted after TxEnable or RxEnable has the
frequency 863 + 6500 / 65536 MHz, which no channel is close to: along a run the chains carry the
channel asked for exactly if none is posted after a channel was asked for
(`onRequestedChannel_iff`).
-/

namespace EmbenetNode.Radio

open GuardedRun

/-- The frequency of the operation, in MHz. -/
def FsCommand.mhz (fs : FsCommand) : ℚ := fs.frequency.toNat + fs.fractFreq.toNat / 65536

/-- The frequency of a channel, in MHz. -/
def channelMhz (channel : UInt8) : ℚ := (863100 + 100 * (min channel.toNat 68 : ℕ)) / 1000

/-- The operation sets the frequency of the channel, up to its resolution. -/
def FsCommand.OnChannel (fs : FsCommand) (channel : UInt8) : Prop :=
  |fs.mhz - channelMhz channel| < 1 / 65536

/-- A chain that the driver accepts is on the channel requested. -/
def RfCall.Carries (requested : Option UInt8) : RfCall → Prop
  | .postTxChain setFs _ _ result | .postRxChain setFs result =>
      result ≠ none → ∀ channel, requested = some channel → setFs.OnChannel channel
  | _ => True

/-- Every chain posted is on the channel of the most recent successful TxEnable or RxEnable. -/
def OnRequestedChannel (s : System) : Event → Prop
  | .txNow accepted =>
      ∀ call ∈ (txNow (s.postCmd accepted) s.statics).calls, call.Carries s.txChannel
  | .rxNow accepted =>
      ∀ call ∈ (rxNow (s.postCmd accepted) s.statics).calls, call.Carries s.rxChannel
  | _ => True

/-- No chain is posted on a channel requested. -/
def NothingRequested (s : System) : Event → Prop
  | .txNow accepted => accepted = true → s.txChannel = none
  | .rxNow accepted => accepted = true → s.rxChannel = none
  | _ => True

instance (s : System) : ∀ e, Decidable (NothingRequested s e)
  | .txNow _ | .rxNow _ => by unfold NothingRequested; infer_instance
  | .init | .setCallbacks .. | .deinit | .idle | .txEnable .. | .rxEnable _ | .getReceivedFrame ..
  | .startContinuousTx .. | .core _ | .rxCallback .. | .txCallback .. => isTrue trivial

/-! ### The frequency -/

/-- The channel passed makes no difference. -/
theorem setChannel_eq (channel : UInt8) : setChannel channel = ⟨863, 6500⟩ := by
  unfold setChannel
  by_cases h : channel ≥ bandChannelCount
  · simp only [h, if_true]
    rfl
  · simp only [h, if_false]
    rfl

/-- Every channel lies more than 1/65536 MHz above the frequency set. -/
theorem not_onChannel_setChannel (channel channel' : UInt8) :
    ¬ (setChannel channel).OnChannel channel' := by
  have hmhz : (setChannel channel).mhz = 863 + 6500 / 65536 := by
    rw [setChannel_eq]
    show ((863 : ℕ) : ℚ) + (6500 : ℕ) / 65536 = 863 + 6500 / 65536
    norm_num
  have hchannel : 8631 / 10 ≤ channelMhz channel' := by
    have hnonneg : (0 : ℚ) ≤ (min channel'.toNat 68 : ℕ) := Nat.cast_nonneg _
    rw [channelMhz]
    linarith
  intro hon
  rw [FsCommand.OnChannel, hmhz, abs_lt] at hon
  linarith [hon.1]

/-! ### Runs -/

/-- The invariant: the frequency of a chain whose channel was requested has been set. -/
structure Tuned (s : System) : Prop where
  tx : ∀ channel, s.txChannel = some channel → s.statics.txChainSetFs = setChannel channel
  rx : ∀ channel, s.rxChannel = some channel → s.statics.rxChainSetFs = setChannel channel

theorem tuned_start : Tuned start := ⟨nofun, nofun⟩

theorem Tuned.congr {s s' : System} (h : Tuned s) (htx : s'.txChannel = s.txChannel)
    (hrx : s'.rxChannel = s.rxChannel) (htxFs : s'.statics.txChainSetFs = s.statics.txChainSetFs)
    (hrxFs : s'.statics.rxChainSetFs = s.statics.rxChainSetFs) : Tuned s' := by
  constructor
  · rw [htx, htxFs]
    exact h.tx
  · rw [hrx, hrxFs]
    exact h.rx

/-- **The step lemma**: every event keeps the invariant. -/
theorem tuned_step {s s' : System} {e : Event} (hs : Tuned s) (h : step s e = some s') :
    Tuned s' := by
  cases e with
  | init | setCallbacks | idle | txNow | rxNow =>
    cases h
    exact hs.congr rfl rfl rfl rfl
  | deinit =>
    rcases step_deinit h with rfl | rfl
    · exact hs.congr rfl rfl rfl rfl
    · exact hs
  | txEnable channel psdu psduLen =>
    obtain ⟨buffer, rfl⟩ := step_txEnable h
    refine ⟨?_, hs.rx⟩
    rintro _ ⟨⟩
    rfl
  | rxEnable channel =>
    cases h
    rcases rxEnable_cases channel s.statics with ⟨-, hr⟩ | ⟨-, hr⟩
    · -- the receiver is free: the frequency is set
      refine ⟨?_, ?_⟩ <;> rw [hr]
      · exact hs.tx
      · rintro _ ⟨⟩
        rfl
    · -- RxEnable fails: the channel requested before stays
      refine ⟨?_, ?_⟩ <;> rw [hr]
      · exact hs.tx
      · exact hs.rx
  | startContinuousTx mode channel =>
    obtain ⟨buffer, rfl⟩ := step_startContinuousTx h
    refine ⟨?_, hs.rx⟩
    rintro _ ⟨⟩
    rfl
  | getReceivedFrame bufferLength buffer =>
    obtain ⟨length, rfl⟩ := step_getReceivedFrame h
    exact hs.congr rfl rfl rfl rfl
  | core e =>
    cases h
    cases e <;> exact hs.congr rfl rfl rfl rfl
  | rxCallback ch e t =>
    obtain ⟨statics, calls, hcb, rfl⟩ := step_rxCallback h
    obtain ⟨item, handle, packet, length, rssi, rfl⟩ := rxProcessCb_statics hcb
    exact hs.congr rfl rfl rfl rfl
  | txCallback ch e t t' =>
    obtain ⟨handle, rfl⟩ := step_txCallback h
    exact hs.congr rfl rfl rfl rfl

/-- Once the frequency is set for the channel requested, it misses that channel. -/
theorem onChannel_iff_none {requested : Option UInt8} {fs : FsCommand}
    (htuned : ∀ channel, requested = some channel → fs = setChannel channel) :
    (∀ channel, requested = some channel → fs.OnChannel channel) ↔ requested = none := by
  cases requested with
  | none => simp
  | some channel =>
    constructor
    · intro hon
      rw [htuned channel rfl] at hon
      exact absurd (hon channel rfl) (not_onChannel_setChannel channel channel)
    · nofun

theorem onRequestedChannel_of_tuned {s : System} (hs : Tuned s) (e : Event) :
    OnRequestedChannel s e ↔ NothingRequested s e := by
  cases e with
  | txNow accepted =>
    have h := onChannel_iff_none hs.tx
    cases accepted <;> simp [OnRequestedChannel, NothingRequested, txNow, RfCall.Carries, h,
      System.postCmd]
  | rxNow accepted =>
    have h := onChannel_iff_none hs.rx
    cases accepted <;> simp [OnRequestedChannel, NothingRequested, rxNow, RfCall.Carries, h,
      System.postCmd]
  | init | setCallbacks | deinit | idle | txEnable | rxEnable | getReceivedFrame
  | startContinuousTx | core | rxCallback | txCallback => exact Iff.rfl

/-- The run lemma. -/
theorem along_onRequestedChannel (es : List Event) :
    Along step (fun s e _ => OnRequestedChannel s e) start es ↔
      Along step (fun s e _ => NothingRequested s e) start es := by
  refine along_iff ?_ tuned_start (along_of_forall_mem es start fun _ _ _ _ => trivial)
  intro s e s' hs _ hstep
  exact ⟨onRequestedChannel_of_tuned hs e, fun _ => tuned_step hs hstep⟩

/-- **The channel of a frame.** Along any run of the radio, every chain posted is on the channel of
the most recent successful TxEnable or RxEnable exactly if no chain is posted after one; any two
channels have the same frequency. -/
theorem onRequestedChannel_iff (es : List Event) :
    (Along step (fun s e _ => OnRequestedChannel s e) start es ↔
      Along step (fun s e _ => NothingRequested s e) start es) ∧
    ∀ channel channel', setChannel channel = setChannel channel' := by
  constructor
  · exact along_onRequestedChannel es
  · intro channel channel'
    rw [setChannel_eq, setChannel_eq]

/-- A transmission requested on channel 12, of 864.3 MHz, goes out below 863.1 MHz. -/
theorem not_onRequestedChannel_twelve :
    ¬ Along step (fun s e _ => OnRequestedChannel s e) start
      [.init, .txEnable 12 [1] 1, .txNow true] := by
  rw [along_onRequestedChannel]
  decide

end EmbenetNode.Radio
