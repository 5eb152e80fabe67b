import EmbenetNode.Radio.RoundTrip

/-!
# What is transmitted

TxEnable copies a frame into the transmit buffer, TxNow posts a command that names the buffer, and
the RF core reads the buffer while it transmits. So the command carries the frame loaded last, and
what goes on the air is that frame as long as no other is loaded meanwhile.

* `Sender`, `Sender.step`: the runs of the radio, with the frame loaded last, the frames posted and
  the transmission under way;
* `Loads`, `loads_step`: the transmit buffer holds the frame loaded last;
* `posted_loaded`: every transmission posted carries it;
* `LeavesAlone`, `OnAir`, `onAir_step`: the transmission under way is one that was posted.
-/

namespace EmbenetNode.Radio

open GuardedRun

/-- The port and its past: the frame loaded last, the frames of the transmissions that the driver
has accepted, and those of them that have not ended, each with its handle. -/
structure Sender where
  system : System := {}
  loaded : List UInt8 := []
  posted : List (List UInt8) := []
  onAir : List (ℕ × List UInt8) := []

/-- After a reset. -/
def Sender.start : Sender := {}

/-- The frame that a call loads: TxEnable cuts it to the longest one allowed, and the continuous
transmission loads a dummy. -/
def Event.loads : Event → Option (List UInt8)
  | .txEnable _ psdu psduLen => some (psdu.take (min psduLen maxPsduLength))
  | .startContinuousTx .. => some [0]
  | _ => none

/-- The transmissions that have not ended, after an event: the driver queues its commands. Idle
aborts the one whose handle is recorded, with those behind it, and closing the driver aborts
all. -/
def Sender.onAirAfter (s : Sender) : Event → List (ℕ × List UInt8)
  | .txNow true => s.onAir ++ [(s.system.nextHandle, s.loaded)]
  | .core (.transmissionDone _) => s.onAir.tail
  | .idle => s.onAir.takeWhile fun t => s.system.statics.txTransaction ≠ some t.1
  | .deinit => if s.system.statics.rfHandle then [] else s.onAir
  | _ => s.onAir

/-- The transmissions posted after an event. -/
def Sender.postedAfter (s : Sender) : Event → List (List UInt8)
  | .txNow true => s.posted ++ [s.loaded]
  | _ => s.posted

/-- One event. -/
def Sender.step (s : Sender) (e : Event) : Option Sender :=
  (Radio.step s.system e).map fun system =>
    { system, loaded := e.loads.getD s.loaded, posted := s.postedAfter e, onAir := s.onAirAfter e }

/-- The command carries the frame. -/
def RfCall.CarriesFrame (frame : List UInt8) : RfCall → Prop
  | .postTxChain _ pktLen pPkt _ =>
      pktLen.toNat = frame.length ∧ pPkt.toList.take pktLen.toNat = frame
  | _ => True

/-- A transmission posted carries the frame loaded last. -/
def PostsLoaded (s : Sender) : Event → Prop
  | .txNow accepted =>
      ∀ call ∈ (txNow (s.system.postCmd accepted) s.system.statics).calls,
        call.CarriesFrame s.loaded
  | _ => True

/-- The invariant: the transmit buffer holds the frame loaded last. -/
structure Loads (s : Sender) : Prop where
  length_le : s.loaded.length ≤ maxPsduLength
  pktLen : s.system.statics.txChainDoTxPktLen.toNat = s.loaded.length
  buffer : s.system.statics.radioTxBuffer.toList.take s.loaded.length = s.loaded

/-! ### The transmit buffer -/

/-- TxEnable loads the frame. -/
theorem txEnable_loads {channel : UInt8} {psdu : List UInt8} {psduLen : ℕ} {s : Statics}
    {r : Result} (h : txEnable channel psdu psduLen s = some r) :
    r.statics.txChainDoTxPktLen.toNat = (psdu.take (min psduLen maxPsduLength)).length ∧
      r.statics.radioTxBuffer.toList.take (psdu.take (min psduLen maxPsduLength)).length =
        psdu.take (min psduLen maxPsduLength) := by
  have hmin : (if psduLen > maxPsduLength then maxPsduLength else psduLen) =
      min psduLen maxPsduLength := by
    split_ifs <;> omega
  simp only [txEnable, hmin, Option.bind_eq_bind, Option.bind_eq_some_iff, Option.pure_def,
    Option.some.injEq] at h
  obtain ⟨buffer, hcopy, rfl⟩ := h
  -- the copy stays inside the frame and the buffer
  have hfits : min psduLen maxPsduLength ≤ txBufferLength ∧
      min psduLen maxPsduLength ≤ psdu.length := by
    by_contra hfits
    rw [Checked.memcpy, dif_neg hfits] at hcopy
    cases hcopy
  obtain ⟨buffer', hcopy', hbuffer⟩ := Checked.memcpy_of_le s.radioTxBuffer psdu hfits.1 hfits.2
  cases hcopy.symm.trans hcopy'
  have hlength : (psdu.take (min psduLen maxPsduLength)).length = min psduLen maxPsduLength := by
    rw [List.length_take]
    omega
  have hmax : min psduLen maxPsduLength ≤ 128 := Nat.min_le_right _ _
  constructor
  · show (UInt8.ofNat (min psduLen maxPsduLength)).toNat = _
    rw [hlength, UInt8.toNat_ofNat', Nat.mod_eq_of_lt (by omega)]
  · show buffer.toList.take _ = _
    rw [hbuffer, List.take_left]

theorem length_of_loads {e : Event} {frame : List UInt8} (h : e.loads = some frame) :
    frame.length ≤ maxPsduLength := by
  cases e with
  | txEnable channel psdu psduLen =>
    cases h
    rw [List.length_take]
    omega
  | startContinuousTx mode channel =>
    cases h
    decide
  | _ => cases h

/-- A call that loads a frame leaves it in the transmit buffer. -/
theorem step_of_loads {s s' : System} {e : Event} {frame : List UInt8} (he : e.loads = some frame)
    (h : step s e = some s') :
    s'.statics.txChainDoTxPktLen.toNat = frame.length ∧
      s'.statics.radioTxBuffer.toList.take frame.length = frame := by
  cases e with
  | txEnable channel psdu psduLen =>
    obtain ⟨r, hr, heq⟩ := Option.bind_eq_some_iff.1 h
    cases heq
    cases he
    exact txEnable_loads hr
  | startContinuousTx mode channel =>
    simp only [step, Option.bind_eq_bind, Option.bind_eq_some_iff, Option.pure_def,
      Option.some.injEq] at h
    obtain ⟨r, hr, rfl⟩ := h
    obtain ⟨r₀, hr₀, hstatics⟩ := startContinuousTx_eq hr
    cases he
    show r.statics.txChainDoTxPktLen.toNat = _ ∧ r.statics.radioTxBuffer.toList.take _ = _
    rw [hstatics]
    exact txEnable_loads hr₀
  | _ => cases he

/-- No other event writes the transmit buffer. -/
theorem step_of_not_loads {s s' : System} {e : Event} (he : e.loads = none)
    (h : step s e = some s') :
    s'.statics.txChainDoTxPktLen = s.statics.txChainDoTxPktLen ∧
      s'.statics.radioTxBuffer = s.statics.radioTxBuffer := by
  cases e with
  | init | idle | setCallbacks | txNow | rxNow =>
    cases h
    exact ⟨rfl, rfl⟩
  | deinit =>
    rcases step_deinit h with rfl | rfl
    · exact ⟨rfl, rfl⟩
    · exact ⟨rfl, rfl⟩
  | txEnable | startContinuousTx => cases he
  | rxEnable channel =>
    cases h
    rcases rxEnable_cases channel s.statics with ⟨-, hr⟩ | ⟨-, hr⟩ <;> simp only [hr, and_self]
  | getReceivedFrame bufferLength buffer =>
    obtain ⟨length, rfl⟩ := step_getReceivedFrame h
    exact ⟨rfl, rfl⟩
  | core e =>
    cases h
    cases e <;> exact ⟨rfl, rfl⟩
  | rxCallback ch e t =>
    obtain ⟨statics, calls, hcb, rfl⟩ := step_rxCallback h
    obtain ⟨item, handle, packet, length, rssi, rfl⟩ := rxProcessCb_statics hcb
    exact ⟨rfl, rfl⟩
  | txCallback ch e t t' =>
    obtain ⟨handle, rfl⟩ := step_txCallback h
    exact ⟨rfl, rfl⟩

/-! ### Runs -/

variable {s s' : Sender} {e : Event}

theorem sender_step (h : s.step e = some s') :
    step s.system e = some s'.system ∧ s'.loaded = e.loads.getD s.loaded ∧
      s'.posted = s.postedAfter e ∧ s'.onAir = s.onAirAfter e := by
  obtain ⟨system, hsystem, rfl⟩ := Option.map_eq_some_iff.1 h
  exact ⟨hsystem, rfl, rfl, rfl⟩

theorem loads_start : Loads .start := ⟨Nat.zero_le _, rfl, rfl⟩

/-- **The step lemma**: every event keeps the invariant. -/
theorem loads_step (hs : Loads s) (h : s.step e = some s') : Loads s' := by
  obtain ⟨hstep, hloaded, -, -⟩ := sender_step h
  cases hload : e.loads with
  | none =>
    obtain ⟨hpktLen, hbuffer⟩ := step_of_not_loads hload hstep
    rw [hload, Option.getD_none] at hloaded
    constructor
    · rw [hloaded]
      exact hs.length_le
    · rw [hloaded, hpktLen]
      exact hs.pktLen
    · rw [hloaded, hbuffer]
      exact hs.buffer
  | some frame =>
    obtain ⟨hpktLen, hbuffer⟩ := step_of_loads hload hstep
    rw [hload, Option.getD_some] at hloaded
    rw [← hloaded] at hpktLen hbuffer
    exact ⟨hloaded ▸ length_of_loads hload, hpktLen, hbuffer⟩

theorem postsLoaded_of_loads (hs : Loads s) (e : Event) : PostsLoaded s e := by
  cases e with
  | txNow accepted =>
    intro call hcall
    cases List.mem_singleton.1 hcall
    refine ⟨hs.pktLen, ?_⟩
    rw [hs.pktLen]
    exact hs.buffer
  | _ => trivial

/-- **Every transmission carries the frame loaded last**: along any run of the radio, each command
that TxNow posts has the length and the bytes of the packet passed to the most recent TxEnable, cut
to 128 bytes, or of the dummy of a continuous transmission started since. -/
theorem posted_loaded (es : List Event) :
    Along Sender.step (fun s e _ => PostsLoaded s e) .start es := by
  have hstep : ∀ s e s', Loads s → True → Sender.step s e = some s' →
      PostsLoaded s e ∧ Loads s' := by
    intro s e s' hs _ h
    exact ⟨postsLoaded_of_loads hs e, loads_step hs h⟩
  exact Along.of_invariant hstep loads_start
    (along_of_forall_mem es _ fun _ _ _ _ => trivial)

/-! ### On the air -/

/-- No frame is loaded while a transmission is under way. -/
def LeavesAlone (s : Sender) (e : Event) : Prop := s.onAir ≠ [] → e.loads = none

instance (s : Sender) (e : Event) : Decidable (LeavesAlone s e) :=
  inferInstanceAs (Decidable (_ → _))

/-- The transmissions under way are of the frame in the transmit buffer, and were posted. -/
def OnAir (s : Sender) : Prop :=
  ∀ t ∈ s.onAir, t.2 = s.loaded ∧ t.2 ∈ s.posted

/-- The transmissions posted stay posted. -/
theorem mem_postedAfter {frame : List UInt8} (h : frame ∈ s.posted) (e : Event) :
    frame ∈ s.postedAfter e := by
  unfold Sender.postedAfter
  split
  · exact List.mem_append_left _ h
  · exact h

/-- A transmission under way was posted by this event, or under way before. -/
theorem onAirAfter_cases {t : ℕ × List UInt8} (h : t ∈ s.onAirAfter e) :
    (e = .txNow true ∧ t = (s.system.nextHandle, s.loaded)) ∨ t ∈ s.onAir := by
  unfold Sender.onAirAfter at h
  split at h
  · rcases List.mem_append.1 h with hbefore | hnow
    · exact .inr hbefore
    · exact .inl ⟨rfl, List.mem_singleton.1 hnow⟩
  · exact .inr (List.mem_of_mem_tail h)
  · exact .inr (List.takeWhile_subset _ h)
  · split_ifs at h
    · cases h
    · exact .inr h
  · exact .inr h

theorem onAir_start : OnAir .start := nofun

/-- **The step lemma** for the transmissions under way. -/
theorem onAir_step (hs : OnAir s) (hguard : LeavesAlone s e) (h : s.step e = some s') : OnAir s' := by
  obtain ⟨-, hloaded, hposted, honAir⟩ := sender_step h
  intro t ht
  rw [honAir] at ht
  rw [hloaded, hposted]
  rcases onAirAfter_cases ht with ⟨rfl, rfl⟩ | hbefore
  · exact ⟨rfl, List.mem_append_right _ (List.mem_singleton_self _)⟩
  · obtain ⟨hlast, hmem⟩ := hs t hbefore
    rw [hguard (List.ne_nil_of_mem hbefore), Option.getD_none]
    exact ⟨hlast, mem_postedAfter hmem e⟩

end EmbenetNode.Radio
