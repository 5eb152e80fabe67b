import EmbenetNode.Radio.LengthCheck
import EmbenetNode.Radio.Reception

/-!
# Frames that are out of date

A frame handed out should be of a reception that ended well after the most recent Idle and the most
recent RxNow, and there should be none after a reception that ended otherwise. The length of the
frame is cleared by a checksum error only: Idle, RxNow, an error of the driver and an unexpected
status leave it, and a callback that comes late puts the frame of an earlier reception in its place.

A reception can be said to end when its callback is delivered, or already when the RF core is done
with it. All results hold for both (`Ending`).

* `History`, `hstep`: the runs of the radio with the frames received so far;
* `Fresh`, `fresh_iff`: what is handed out, and that it is decided by the frame held;
* `HeldBack`, `holdsFresh_step`: when an event leaves no frame that is out of date;
* `fresh_along_iff`: along the runs from a reset.
-/

namespace EmbenetNode.Radio

open GuardedRun

/-! ### The frames received -/

/-- The frame in the receive buffer. -/
def frameIn (s : Statics) : List UInt8 := (s.radioRxBuffer.toList.drop 1).take (rxLength s)

/-- The reception has ended well. -/
def EndsWell (s : Statics) (e : EventMask) : Prop :=
  e.rxDone = true ∧ s.rxChainDoRxStatus = .propDoneOk ∧ rxLength s ≤ rxBufferLength

/-- The reception has ended in any other way: with another status, or by an error of the driver. -/
def EndsBadly (s : Statics) (e : EventMask) : Prop :=
  ¬ EndsWell s e ∧ (e.rxDone = true ∨ e.mdmSoft = false)

instance (s : Statics) (e : EventMask) : Decidable (EndsWell s e) :=
  inferInstanceAs (Decidable (_ ∧ _))

instance (s : Statics) (e : EventMask) : Decidable (EndsBadly s e) :=
  inferInstanceAs (Decidable (_ ∧ _))

/-- When a reception ends: when its callback is delivered, or when the RF core is done with it; an
error of the driver is known from the callback only. -/
inductive Ending
  | callback
  | core
  deriving DecidableEq

/-- How a reception ends: well, with the frame received, or in any other way. -/
inductive ReceptionEnd
  | good (psdu : List UInt8)
  | bad

/-- What these events of a reception say of its end, if anything. -/
def receptionEnd (s : Statics) (e : EventMask) : Option ReceptionEnd :=
  if EndsWell s e then some (.good (frameIn s))
  else if EndsBadly s e then some .bad
  else none

/-- The port and its past: whether an RxNow has posted a command since the most recent Idle, and the
frames of the receptions that have ended well since the most recent Idle and RxNow, up to one that
ended badly. -/
structure History where
  system : System := {}
  listening : Bool := false
  received : List (List UInt8) := []

/-- After a reset. -/
def History.start : History := {}

namespace History

variable (h : History) (ending : Ending)

/-- An Idle, also as a part of Init or Deinit. -/
def idles : Event → Bool
  | .init | .idle => true
  | .deinit => h.system.statics.rfHandle
  | _ => false

/-- An Idle or an RxNow: what has been received before is out of date. -/
def startsOver : Event → Bool
  | .rxNow _ => true
  | e => h.idles e

/-- Whether a command is posted after an event. -/
def listeningAfter : Event → Bool
  | .rxNow accepted => accepted || h.listening
  | e => !h.idles e && h.listening

/-- The end of a reception, unless an Idle has aborted its command. -/
def ends : Event → Option ReceptionEnd
  | .rxCallback ch e _ =>
      if h.system.firstLive ≤ ch ∧ (ending = .callback ∨ e.rxDone = false) then
        receptionEnd h.system.statics e
      else none
  | .core e =>
      if h.listening = true ∧ ending = .core ∧ e.ofReception = true then
        receptionEnd (e.effect h.system.statics) e.mask
      else none
  | _ => none

/-- The frames received after an event. -/
def receivedAfter (e : Event) : List (List UInt8) :=
  if h.startsOver e then []
  else
    match h.ends ending e with
    | some (.good psdu) => psdu :: h.received
    | some .bad => []
    | none => h.received

end History

/-- One event. -/
def hstep (ending : Ending) (h : History) (e : Event) : Option History :=
  (step h.system e).map fun system =>
    { system, listening := h.listeningAfter e, received := h.receivedAfter ending e }

/-- A caller is handed out a frame only if it is one of those received; while there is none, the
length reported is 0. -/
def Fresh (h : History) : Prop :=
  ∀ bufferLength (buffer : Vector UInt8 bufferLength) info buffer' s',
    getReceivedFrame buffer h.system.statics = some (info, buffer', s') →
      (info.crcValid = true → ∃ psdu ∈ h.received, info.mpduLength = psdu.length ∧
        buffer'.toList.take psdu.length = psdu) ∧
      (h.received = [] → info.mpduLength = 0 ∧ info.crcValid = false)

/-! ### The frame held -/

/-- The frame that the port keeps for the next caller. -/
def frameHeld (s : Statics) : List UInt8 := s.rxPacket.toList.take s.rxPacketLength

/-- It is one of those received, if there is one. -/
def HoldsFresh (h : History) : Prop :=
  h.system.statics.rxPacketLength = 0 ∨ frameHeld h.system.statics ∈ h.received

theorem length_frameHeld {s : Statics} (h : s.rxPacketLength ≤ rxBufferLength) :
    (frameHeld s).length = s.rxPacketLength := by
  rw [frameHeld, List.length_take, Vector.length_toList, Nat.min_eq_left h]

theorem fresh_iff {h : History} (hlength : h.system.statics.rxPacketLength ≤ rxBufferLength) :
    Fresh h ↔ HoldsFresh h := by
  constructor
  · intro hfresh
    have hroom := Vector.replicate h.system.statics.rxPacketLength (0 : UInt8)
    obtain ⟨info, buffer', s', hget, hmpdu, hvalid, hbytes⟩ := getReceivedFrame_of_le hlength hroom
    rw [if_neg (Nat.lt_irrefl _)] at hmpdu
    by_cases hzero : h.system.statics.rxPacketLength = 0
    · exact .inl hzero
    · have hcrc : info.crcValid = true := by
        rw [hvalid, hmpdu]
        exact decide_eq_true hzero
      obtain ⟨psdu, hmem, hlen, hpsdu⟩ := (hfresh _ _ _ _ _ hget).1 hcrc
      right
      rw [← hlen, hbytes, hmpdu] at hpsdu
      rw [frameHeld, hpsdu]
      exact hmem
  · intro hheld bufferLength buffer info buffer' s' hget
    obtain ⟨info₁, buffer₁, s₁, hget₁, hmpdu, hvalid, hbytes⟩ := getReceivedFrame_of_le hlength buffer
    cases hget.symm.trans hget₁
    constructor
    · intro hcrc
      rw [hvalid, decide_eq_true_iff] at hcrc
      by_cases hshort : bufferLength < h.system.statics.rxPacketLength
      · rw [if_pos hshort] at hmpdu
        exact absurd hmpdu hcrc
      · rw [if_neg hshort] at hmpdu
        have hmem : frameHeld h.system.statics ∈ h.received :=
          hheld.resolve_left (by rw [← hmpdu]; exact hcrc)
        refine ⟨_, hmem, ?_, ?_⟩
        · rw [length_frameHeld hlength, hmpdu]
        · rw [length_frameHeld hlength, ← hmpdu, hbytes, frameHeld, hmpdu]
    · intro hnone
      have hzero : h.system.statics.rxPacketLength = 0 :=
        hheld.resolve_right (by rw [hnone]; exact List.not_mem_nil)
      have hmpdu' : info.mpduLength = 0 := by rw [hmpdu, hzero]; exact ite_self 0
      exact ⟨hmpdu', by rw [hvalid, hmpdu']; rfl⟩

/-! ### The callback -/

/-- The callback leaves the frame held as it is: the radio is idle, the callback is taken for the
start of a frame or for an error of the driver, or the status is not one that it expects. -/
def Overlooked (s : Statics) (e : EventMask) : Prop :=
  s.idle = true ∨ e.mdmSoft = true ∨ e.rxDone = false ∨
    ¬ (s.rxChainDoRxStatus = .propDoneOk ∨ s.rxChainDoRxStatus = .propDoneRxErr)

instance (s : Statics) (e : EventMask) : Decidable (Overlooked s e) :=
  inferInstanceAs (Decidable (_ ∨ _))

/-- What the callback makes of the frame held: it is left, replaced by the frame in the receive
buffer, or forgotten. -/
inductive Makes (s : Statics) (e : EventMask) (s' : Statics) : Prop
  | left (hover : Overlooked s e) (hlength : s'.rxPacketLength = s.rxPacketLength)
      (hpacket : s'.rxPacket = s.rxPacket)
  | replaced (hover : ¬ Overlooked s e) (hwell : EndsWell s e)
      (hlength : s'.rxPacketLength = rxLength s) (hframe : frameHeld s' = frameIn s)
  | forgotten (hover : ¬ Overlooked s e) (hbad : ¬ EndsWell s e) (hlength : s'.rxPacketLength = 0)

theorem frameHeld_of_takeFrame {s s' : Statics} (h : takeFrame s = some s') :
    frameHeld s' = frameIn s := by
  have hle : rxLength s ≤ 134 := (takeFrame_isSome_iff s).1 (by rw [h]; rfl)
  simp only [takeFrame, Option.bind_eq_bind, Option.bind_eq_some_iff, Option.pure_def,
    Option.some.injEq] at h
  obtain ⟨rssi, -, packet, hcopy, rfl⟩ := h
  have hsrc : rxLength s ≤ (s.radioRxBuffer.toList.drop 1).length := by
    rw [List.length_drop, Vector.length_toList]
    show rxLength s ≤ 136 - 1
    omega
  obtain ⟨packet', hcopy', hpacket⟩ := Checked.memcpy_of_le s.rxPacket _
    (Nat.le_trans hle (by decide)) hsrc
  cases (show some packet' = some packet from hcopy'.symm.trans hcopy)
  have hfirst : rxLength s ≤ ((s.radioRxBuffer.toList.drop 1).take (rxLength s)).length := by
    rw [List.length_take]
    omega
  show packet.toList.take (rxLength s) = frameIn s
  rw [hpacket, List.take_append_of_le_length hfirst, List.take_take, Nat.min_self, frameIn]

theorem makes_of_callback {e : EventMask} {t : UInt32} {s s' : Statics} {calls : List HandlerCall}
    (h : rxProcessCb e t s = some (s', calls)) : Makes s e s' := by
  unfold rxProcessCb at h
  split_ifs at h with hidle hsoft hdone hstatus hgood
  · cases h
    exact .left (.inl hidle) rfl rfl
  · cases h
    exact .left (.inr (.inl hsoft)) rfl rfl
  · obtain ⟨s₁, hs₁, heq⟩ := Option.bind_eq_some_iff.1 h
    cases heq
    have hlength : s₁.rxPacketLength = rxLength s := rxPacketLength_of_takeFrame hs₁
    have hframe : frameHeld s₁ = frameIn s := frameHeld_of_takeFrame hs₁
    exact .replaced (by simp [Overlooked, hidle, hsoft, hdone, hstatus]) ⟨hdone, hgood⟩ hlength
      hframe
  · cases h
    refine .forgotten (by simp [Overlooked, hidle, hsoft, hdone, hstatus]) ?_ rfl
    rintro ⟨-, hgood'⟩
    exact hgood hgood'
  · cases h
    exact .left (.inr (.inr (.inr hstatus))) rfl rfl
  · cases h
    exact .left (.inr (.inr (.inl (eq_false_of_ne_true hdone)))) rfl rfl

/-! ### Steps and runs -/

/-- No frame is held at an Idle, at an RxNow and when a reception ends badly, unless its callback
clears up after it; and a callback that takes a frame over takes over one of those received, or an
empty one. -/
def HeldBack (ending : Ending) (h : History) : Event → Prop
  | .rxCallback ch e t =>
      (h.ends ending (.rxCallback ch e t) = some .bad → Overlooked h.system.statics e →
        h.system.statics.rxPacketLength = 0) ∧
      (EndsWell h.system.statics e → ¬ Overlooked h.system.statics e →
        rxLength h.system.statics = 0 ∨
          frameIn h.system.statics ∈ h.receivedAfter ending (.rxCallback ch e t))
  | e => h.startsOver e = true ∨ h.ends ending e = some .bad → h.system.statics.rxPacketLength = 0

variable {ending : Ending} {h h' : History}

/-- The length held is bounded by the length that passes the check. -/
theorem rxPacketLength_step {s s' : System} {e : Event}
    (hs : s.statics.rxPacketLength ≤ rxBufferLength) (hstep : step s e = some s') :
    s'.statics.rxPacketLength ≤ rxBufferLength := by
  cases e with
  | getReceivedFrame bufferLength buffer =>
    obtain ⟨⟨info, buffer', statics⟩, hr, heq⟩ := Option.bind_eq_some_iff.1 hstep
    cases heq
    rw [getReceivedFrame_statics hr, dropUnlessFits]
    split_ifs
    · exact Nat.zero_le _
    · exact hs
  | rxCallback ch e t =>
    obtain ⟨statics, calls, hcb, rfl⟩ := step_rxCallback hstep
    cases makes_of_callback hcb with
    | left _ hlength _ =>
      rw [hlength]
      exact hs
    | replaced _ hwell hlength _ =>
      rw [hlength]
      exact hwell.2.2
    | forgotten _ _ hlength =>
      rw [hlength]
      exact Nat.zero_le _
  | _ =>
    obtain ⟨-, hlength, -⟩ := step_packet hstep rfl
    rw [hlength]
    exact hs

/-- When the frame is left, only the frames received decide. -/
theorem holdsFresh_of_left {e : Event} (hs : HoldsFresh h)
    (hlength : h'.system.statics.rxPacketLength = h.system.statics.rxPacketLength)
    (hpacket : h'.system.statics.rxPacket = h.system.statics.rxPacket)
    (hreceived : h'.received = h.receivedAfter ending e) :
    HoldsFresh h' ↔
      (h.startsOver e = true ∨ h.ends ending e = some .bad →
        h.system.statics.rxPacketLength = 0) := by
  have hheld : frameHeld h'.system.statics = frameHeld h.system.statics := by
    rw [frameHeld, hlength, hpacket, frameHeld]
  rw [HoldsFresh, hlength, hheld, hreceived, History.receivedAfter]
  by_cases hover : h.startsOver e = true
  · simp [hover]
  · rcases hends : h.ends ending e with _ | (psdu | _)
    · simpa [hover, HoldsFresh] using hs
    · simpa [hover] using hs.imp_right .inr
    · simp [hover]

theorem holdsFresh_callback {ch : ℕ} {e : EventMask} {t : UInt32} (hs : HoldsFresh h)
    (hnext : hstep ending h (.rxCallback ch e t) = some h') :
    HoldsFresh h' ↔ HeldBack ending h (.rxCallback ch e t) := by
  obtain ⟨s', hsys, rfl⟩ := Option.map_eq_some_iff.1 hnext
  obtain ⟨statics, calls, hcb, rfl⟩ := step_rxCallback hsys
  have hover : h.startsOver (.rxCallback ch e t) = false := rfl
  cases makes_of_callback hcb with
  | left hleft hlength hpacket =>
    rw [holdsFresh_of_left (e := .rxCallback ch e t) hs hlength hpacket rfl, HeldBack]
    simp only [hover, hleft, Bool.false_eq_true, false_or, true_implies, not_true_eq_false,
      false_implies, implies_true, and_true]
  | replaced htaken hwell hlength hframe =>
    rw [HoldsFresh, hlength, hframe, HeldBack]
    simp only [htaken, hwell, false_implies, implies_true, true_and, not_false_eq_true,
      true_implies]
  | forgotten htaken hbad hlength =>
    rw [HoldsFresh, hlength, HeldBack]
    simp only [htaken, hbad, false_implies, implies_true, and_true, true_or]

/-- **The step lemma**: from a state that holds no frame out of date, an event leads to another
exactly if it finds none to leave behind. -/
theorem holdsFresh_step {e : Event} (hs : HoldsFresh h) (hnext : hstep ending h e = some h') :
    HoldsFresh h' ↔ HeldBack ending h e := by
  cases e with
  | rxCallback ch e t => exact holdsFresh_callback hs hnext
  | getReceivedFrame bufferLength buffer =>
    obtain ⟨s', hsys, rfl⟩ := Option.map_eq_some_iff.1 hnext
    obtain ⟨⟨info, buffer', statics⟩, hr, heq⟩ := Option.bind_eq_some_iff.1 hsys
    cases heq
    refine iff_of_true ?_ (by rintro (hover | hbad) <;> contradiction)
    show (_ ∨ _)
    rw [getReceivedFrame_statics hr, dropUnlessFits]
    split_ifs
    · exact .inl rfl
    · exact hs
  | init | idle | rxNow | deinit | setCallbacks | txEnable | txNow | rxEnable | startContinuousTx
  | core | txCallback =>
    obtain ⟨s', hsys, rfl⟩ := Option.map_eq_some_iff.1 hnext
    obtain ⟨hpacket, hlength, -⟩ := step_packet hsys rfl
    exact holdsFresh_of_left hs hlength hpacket rfl

/-- **No frame out of date.** Along any run from a reset, what callers are handed out in each state
is fresh exactly if no frame is held at an Idle, at an RxNow and at the end of a reception that the
callback does not clear up after, and no late callback puts an earlier frame in its place. -/
theorem fresh_along_iff (ending : Ending) (es : List Event) :
    Along (hstep ending) (fun _ _ h' => Fresh h') .start es ↔
      Along (hstep ending) (fun h e _ => HeldBack ending h e) .start es := by
  have hstep : ∀ h e h',
      (HoldsFresh h ∧ h.system.statics.rxPacketLength ≤ rxBufferLength) → True →
      hstep ending h e = some h' → (Fresh h' ↔ HeldBack ending h e) ∧
        (HeldBack ending h e →
          HoldsFresh h' ∧ h'.system.statics.rxPacketLength ≤ rxBufferLength) := by
    rintro h e h' ⟨hheld, hlength⟩ - hnext
    obtain ⟨s', hsys, rfl⟩ := Option.map_eq_some_iff.1 hnext
    have hlength' : s'.statics.rxPacketLength ≤ rxBufferLength := rxPacketLength_step hlength hsys
    have hiff := holdsFresh_step hheld hnext
    exact ⟨(fresh_iff hlength').trans hiff, fun he => ⟨hiff.2 he, hlength'⟩⟩
  have hstart : HoldsFresh .start ∧
      History.start.system.statics.rxPacketLength ≤ rxBufferLength := ⟨.inl rfl, Nat.zero_le _⟩
  exact along_iff hstep hstart (along_of_forall_mem es History.start fun _ _ _ _ => trivial)

/-- A frame is received. -/
def received : List Event :=
  [.init, .rxEnable 0, .rxNow true, .core (.receptionDone true .finished .propDoneOk byteBuffer),
    .rxCallback 0 { rxOk := true } 0]

/-- The frames received in a run, and what a caller is handed out after it. -/
def handedOut (ending : Ending) (es : List Event) :
    Option (List (List UInt8) × Bool × ℕ × List UInt8) :=
  (es.foldlM (hstep ending) .start).bind fun h =>
    (handedByte h.system.statics).map fun handed => (h.received, handed)

/-- After the frame an Idle, another RxNow, an error of the driver, and a reception that ends with an
unexpected status; and an Idle before its callback. -/
def staleRuns : List (List Event) :=
  [received ++ [.idle],
    received ++ [.rxEnable 0, .rxNow true],
    received ++ [.rxCallback 0 {} 0],
    received ++ [.core (.receptionDone false .finished .other byteBuffer),
      .rxCallback 0 { rxNOk := true } 0],
    received.take 4 ++ [.idle, .rxEnable 0, .rxCallback 0 { rxOk := true } 0]]

/-- The frame is handed out after all of them, although it is out of date. -/
theorem stale_frame_handedOut :
    staleRuns.map (handedOut .callback) = List.replicate 5 (some ([], true, 1, [0x41])) ∧
      staleRuns.map (handedOut .core) = List.replicate 5 (some ([], true, 1, [0x41])) := by
  constructor <;> decide +kernel

/-- A second RxNow before the reception, accepted or not, makes no difference. -/
example (ending : Ending) (accepted : Bool) :
    handedOut ending [.init, .rxEnable 0, .rxNow true, .rxNow accepted,
      .core (.receptionDone true .finished .propDoneOk byteBuffer),
      .rxCallback 0 { rxOk := true } 0] = some ([[0x41]], true, 1, [0x41]) := by
  cases ending <;> cases accepted <;> decide +kernel

end EmbenetNode.Radio
