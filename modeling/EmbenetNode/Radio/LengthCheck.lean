import EmbenetNode.Radio.System

/-!
# The check of the received length

`rxProcessCb` compares the length byte with the size of the receive buffer. Three other bounds
matter: the payload starts after the length byte, the signal strength comes after the payload, and a
frame handed out as valid has at most EMBENET_RADIO_MAX_PSDU_LENGTH bytes.

* `takeFrame_isSome_iff`: the lengths for which all accesses are inside the buffers;
* `checkSuffices_iff`: the lengths for which what is handed out meets the contract of RxInfo.
-/

namespace EmbenetNode.Radio

/-- The length byte. -/
def rxLength (s : Statics) : ℕ :=
  have := rxBufferLength_pos
  s.radioRxBuffer[0].toNat

/-- The callback of a reception that has ended well, while the radio is not idle, with a length that
passes the check. -/
structure PassesCheck (e : EventMask) (s : Statics) : Prop where
  live : s.idle = false
  soft : e.mdmSoft = false
  done : e.rxDone = true
  status : s.rxChainDoRxStatus = .propDoneOk
  length : rxLength s ≤ rxBufferLength

/-- What RxInfo demands: a frame is valid only if its length is one that a frame can have. -/
def RxInfo.MeetsContract (info : RxInfo) : Prop :=
  info.crcValid = true → 1 ≤ info.mpduLength ∧ info.mpduLength ≤ maxPsduLength

/-- The callback stays inside the buffers, and EMBENET_RADIO_GetReceivedFrame after it meets the
contract of RxInfo, into a buffer of any length. -/
def CheckSuffices (e : EventMask) (t : UInt32) (s : Statics) : Prop :=
  ∃ s' calls, rxProcessCb e t s = some (s', calls) ∧
    ∀ bufferLength (buffer : Vector UInt8 bufferLength),
      ∃ info buffer' s'', getReceivedFrame buffer s' = some (info, buffer', s'') ∧
        info.MeetsContract

/-! ### The accesses of the callback -/

/-- The signal strength is the last byte read, and it has to be in the receive buffer. -/
theorem takeFrame_isSome_iff (s : Statics) : (takeFrame s).isSome ↔ rxLength s ≤ 134 := by
  constructor
  · intro h
    obtain ⟨s', hs'⟩ := Option.isSome_iff_exists.1 h
    obtain ⟨rssi, hrssi, -⟩ := Option.bind_eq_some_iff.1 hs'
    obtain ⟨hlt, -⟩ := Vector.getElem?_eq_some_iff.1 hrssi
    have hlt' : rxLength s + 1 < 136 := hlt
    omega
  · intro hle
    have hlt : rxLength s + 1 < rxBufferLength := show rxLength s + 1 < 136 by omega
    have hdst : rxLength s ≤ rxBufferLength := Nat.le_of_lt (Nat.lt_of_succ_lt hlt)
    have hsrc : rxLength s ≤ (s.radioRxBuffer.toList.drop 1).length := by
      rw [List.length_drop, Vector.length_toList]
      exact Nat.le_of_lt_succ (Nat.lt_of_succ_lt hlt)
    obtain ⟨packet, hcopy, -⟩ := Checked.memcpy_of_le s.rxPacket _ hdst hsrc
    rw [rxLength] at hlt hcopy
    simp only [takeFrame, Vector.getElem?_eq_getElem hlt, hcopy, Option.bind_eq_bind,
      Option.bind_some, Option.pure_def, Option.isSome_some]

/-- What a frame taken over leaves as the length. -/
theorem rxPacketLength_of_takeFrame {s s' : Statics} (h : takeFrame s = some s') :
    s'.rxPacketLength = rxLength s := by
  simp only [takeFrame, Option.bind_eq_bind, Option.bind_eq_some_iff, Option.pure_def,
    Option.some.injEq] at h
  obtain ⟨rssi, -, packet, -, rfl⟩ := h
  rfl

/-- The callback takes the frame over. -/
theorem rxProcessCb_of_passesCheck {e : EventMask} {s : Statics} (h : PassesCheck e s)
    (t : UInt32) :
    rxProcessCb e t s = (takeFrame s).map fun s' =>
      (clearReception s',
        callHandler s'.onEndOfFrameHandler (.endOfFrame s'.handlersContext t)) := by
  have hlength : s.radioRxBuffer[0].toNat ≤ rxBufferLength := h.length
  simp only [rxProcessCb, h.live, h.soft, h.done, h.status, hlength, Bool.false_eq_true, if_false,
    if_true, true_or, and_self, Option.map_eq_bind]
  rfl

/-! ### What is handed out -/

/-- With a frame that fits into `rxPacket`, EMBENET_RADIO_GetReceivedFrame returns; it reports the
length if the caller has room, and then hands out the frame. -/
theorem getReceivedFrame_of_le {s : Statics} (hlength : s.rxPacketLength ≤ rxBufferLength)
    {bufferLength : ℕ} (buffer : Vector UInt8 bufferLength) :
    ∃ info buffer' s', getReceivedFrame buffer s = some (info, buffer', s') ∧
      info.mpduLength = (if bufferLength < s.rxPacketLength then 0 else s.rxPacketLength) ∧
      info.crcValid = decide (info.mpduLength ≠ 0) ∧
      buffer'.toList.take info.mpduLength = s.rxPacket.toList.take info.mpduLength := by
  have hpacket : (dropUnlessFits bufferLength s).rxPacket = s.rxPacket := by
    unfold dropUnlessFits
    split <;> rfl
  have hkept : (dropUnlessFits bufferLength s).rxPacketLength =
      if bufferLength < s.rxPacketLength then 0 else s.rxPacketLength := by
    unfold dropUnlessFits
    split <;> rfl
  by_cases hzero : (dropUnlessFits bufferLength s).rxPacketLength = 0
  · refine ⟨_, _, _, by rw [getReceivedFrame, if_neg (not_not.2 hzero)]; rfl, hkept, rfl, ?_⟩
    show buffer.toList.take (dropUnlessFits bufferLength s).rxPacketLength = _
    rw [hzero, List.take_zero, List.take_zero]
  · have hdst : (dropUnlessFits bufferLength s).rxPacketLength ≤ bufferLength := by
      rw [hkept] at hzero ⊢
      split at hzero <;> split <;> omega
    have hsrc : (dropUnlessFits bufferLength s).rxPacketLength ≤
        (dropUnlessFits bufferLength s).rxPacket.toList.length := by
      rw [hkept, Vector.length_toList]
      split <;> omega
    obtain ⟨buffer', hcopy, hbuffer⟩ := Checked.memcpy_of_le buffer _ hdst hsrc
    refine ⟨_, _, _, by rw [getReceivedFrame, if_pos hzero, hcopy]; rfl, hkept, rfl, ?_⟩
    show buffer'.toList.take (dropUnlessFits bufferLength s).rxPacketLength = _
    have hfirst : (dropUnlessFits bufferLength s).rxPacketLength ≤
        ((dropUnlessFits bufferLength s).rxPacket.toList.take
          (dropUnlessFits bufferLength s).rxPacketLength).length := by
      rw [List.length_take]
      omega
    rw [hbuffer, List.take_append_of_le_length hfirst, List.take_take, Nat.min_self, hpacket]

/-- Every caller is told the truth exactly when the length held is one that a frame can have. -/
theorem meetsContract_iff {s : Statics} (hlength : s.rxPacketLength ≤ rxBufferLength) :
    (∀ bufferLength (buffer : Vector UInt8 bufferLength), ∃ info buffer' s',
      getReceivedFrame buffer s = some (info, buffer', s') ∧ info.MeetsContract) ↔
        s.rxPacketLength ≤ maxPsduLength := by
  constructor
  · intro h
    obtain ⟨info, buffer', s', hget, hcontract⟩ :=
      h s.rxPacketLength (Vector.replicate s.rxPacketLength 0)
    obtain ⟨info₁, buffer₁, s₁, hget₁, hmpdu, hvalid, -⟩ :=
      getReceivedFrame_of_le hlength (Vector.replicate s.rxPacketLength 0)
    cases hget.symm.trans hget₁
    rw [if_neg (Nat.lt_irrefl _)] at hmpdu
    by_cases hzero : s.rxPacketLength = 0
    · omega
    · have hmax := (hcontract (by rw [hvalid, hmpdu]; exact decide_eq_true hzero)).2
      omega
  · intro hmax bufferLength buffer
    obtain ⟨info, buffer', s', hget, hmpdu, hvalid, -⟩ := getReceivedFrame_of_le hlength buffer
    refine ⟨info, buffer', s', hget, fun hcrc => ?_⟩
    rw [hvalid, decide_eq_true_iff] at hcrc
    rw [hmpdu] at hcrc ⊢
    split at hcrc <;> split <;> omega

variable {e : EventMask} {s : Statics}

theorem checkSuffices_iff (h : PassesCheck e s) (t : UInt32) :
    CheckSuffices e t s ↔ rxLength s ≤ maxPsduLength := by
  unfold CheckSuffices
  rw [rxProcessCb_of_passesCheck h]
  constructor
  · rintro ⟨s', calls, hcb, hcontract⟩
    obtain ⟨s₁, hs₁, heq⟩ := Option.map_eq_some_iff.1 hcb
    cases heq
    have hlength : s₁.rxPacketLength = rxLength s := rxPacketLength_of_takeFrame hs₁
    rw [← hlength]
    exact (meetsContract_iff (s := clearReception s₁) (hlength ▸ h.length)).1 hcontract
  · intro hmax
    have hsome : (takeFrame s).isSome :=
      (takeFrame_isSome_iff s).2 (Nat.le_trans hmax (by decide))
    obtain ⟨s₁, hs₁⟩ := Option.isSome_iff_exists.1 hsome
    have hlength : s₁.rxPacketLength = rxLength s := rxPacketLength_of_takeFrame hs₁
    refine ⟨_, _, by rw [hs₁]; rfl, ?_⟩
    exact (meetsContract_iff (s := clearReception s₁) (hlength ▸ h.length)).2 (hlength ▸ hmax)

/-- **The length check.** Among the buffers that pass it, the accesses stay in bounds up to a length
of 134, and what is handed out meets the contract up to EMBENET_RADIO_MAX_PSDU_LENGTH. -/
theorem lengthCheck_iff (h : PassesCheck e s) (t : UInt32) :
    ((rxProcessCb e t s).isSome ↔ rxLength s ≤ 134) ∧
      (CheckSuffices e t s ↔ rxLength s ≤ maxPsduLength) := by
  refine ⟨?_, checkSuffices_iff h t⟩
  rw [rxProcessCb_of_passesCheck h, Option.isSome_map, takeFrame_isSome_iff]

/-- A reception that has ended well, with a length byte. -/
def lengthReceived (length : UInt8) : Statics where
  rxChainDoRxStatus := .propDoneOk
  radioRxBuffer := (Vector.replicate rxBufferLength 0).set 0 length rxBufferLength_pos

theorem lengthCheck_longest :
    PassesCheck { rxOk := true } (lengthReceived 128) ∧
      ((rxProcessCb { rxOk := true } 0 (lengthReceived 128)).isSome ↔
        rxLength (lengthReceived 128) ≤ 134) ∧
      (CheckSuffices { rxOk := true } 0 (lengthReceived 128) ↔
        rxLength (lengthReceived 128) ≤ maxPsduLength) :=
  have h : PassesCheck { rxOk := true } (lengthReceived 128) := ⟨rfl, rfl, rfl, rfl, by decide⟩
  ⟨h, lengthCheck_iff h 0⟩

/-- A length of 129 passes the check and is handed out as valid; with one of 135 the signal strength
is read behind the receive buffer. -/
theorem lengthCheck_insufficient :
    PassesCheck { rxOk := true } (lengthReceived 129) ∧
      ¬ CheckSuffices { rxOk := true } 0 (lengthReceived 129) ∧
      PassesCheck { rxOk := true } (lengthReceived 135) ∧
      rxProcessCb { rxOk := true } 0 (lengthReceived 135) = none := by
  have h129 : PassesCheck { rxOk := true } (lengthReceived 129) := ⟨rfl, rfl, rfl, rfl, by decide⟩
  have h135 : PassesCheck { rxOk := true } (lengthReceived 135) := ⟨rfl, rfl, rfl, rfl, by decide⟩
  refine ⟨h129, ?_, h135, ?_⟩
  · rw [checkSuffices_iff h129]
    decide
  · rw [rxProcessCb_of_passesCheck h135, Option.map_eq_none_iff, ← Option.not_isSome_iff_eq_none,
      takeFrame_isSome_iff]
    decide

end EmbenetNode.Radio
