import EmbenetNode.Radio.System

/-!
# What the callbacks make of a frame

The RF core leaves a frame in the receive buffer as its length byte, the frame and a byte with the
signal strength. `rxProcessCb` takes the frame over when it finds the reception done
(`rxProcessCb_received`), and forgets the one before when the checksum failed
(`rxProcessCb_corrupted`).
-/

namespace EmbenetNode.Radio

/-- A frame as the RF core leaves it in the receive buffer: it is no longer than `maxPktLen`. -/
structure ReceivedFrame where
  psdu : List UInt8
  rssi : UInt8
  buffer : Vector UInt8 rxBufferLength
  length_le : psdu.length ≤ maxPsduLength
  holds : buffer.toList.take (psdu.length + 2) = UInt8.ofNat psdu.length :: (psdu ++ [rssi])

namespace ReceivedFrame

variable (f : ReceivedFrame)

/-- The length byte, the frame and the signal strength fit into the buffer. -/
theorem length_add_two_le : f.psdu.length + 2 ≤ 130 := Nat.add_le_add_right f.length_le 2

theorem getElem?_buffer {i : ℕ} (h : i < f.psdu.length + 2) :
    f.buffer[i]? = (UInt8.ofNat f.psdu.length :: (f.psdu ++ [f.rssi]))[i]? := by
  rw [← f.holds, List.getElem?_take_of_lt h, Vector.getElem?_toList]

theorem length_byte : f.buffer[0].toNat = f.psdu.length := by
  have h := f.getElem?_buffer (i := 0) (by omega)
  rw [List.getElem?_cons_zero, Vector.getElem?_eq_getElem (by decide), Option.some.injEq] at h
  have hlength := f.length_add_two_le
  rw [h, UInt8.toNat_ofNat', Nat.mod_eq_of_lt (by omega)]

theorem rssi_byte : f.buffer[f.psdu.length + 1]? = some f.rssi := by
  rw [f.getElem?_buffer (by omega), List.getElem?_cons_succ, List.getElem?_concat_length]

theorem psdu_bytes : (f.buffer.toList.drop 1).take f.psdu.length = f.psdu := by
  have h := congrArg (fun l => (l.drop 1).take f.psdu.length) f.holds
  simpa [List.take_take, List.drop_take] using h

end ReceivedFrame

/-- The receive buffer after a frame of one byte. -/
def byteBuffer : Vector UInt8 rxBufferLength := Vector.ofFn fun i => [1, 0x41, 0xb0].getD i 0

/-- What a caller with room for one byte is handed out. -/
def handedByte (s : Statics) : Option (Bool × ℕ × List UInt8) := do
  let (info, buffer, _) ← getReceivedFrame (Vector.replicate 1 0) s
  return (info.crcValid, info.mpduLength, buffer.toList)

/-- The frame is taken over: its length, its bytes, and the signal strength as a signed value. -/
theorem takeFrame_received (f : ReceivedFrame) {s : Statics} (h : s.radioRxBuffer = f.buffer) :
    ∃ packet : Vector UInt8 rxBufferLength,
      takeFrame s = some { s with
        rxPacketLength := f.psdu.length
        rxPacketRssi := f.rssi.toInt8
        rxPacket := packet } ∧
      packet.toList = f.psdu ++ s.rxPacket.toList.drop f.psdu.length := by
  have hlength := f.length_add_two_le
  have hdst : f.psdu.length ≤ rxBufferLength := show f.psdu.length ≤ 136 by omega
  have hsrc : f.psdu.length ≤ (f.buffer.toList.drop 1).length := by
    rw [List.length_drop, Vector.length_toList]
    show f.psdu.length ≤ 136 - 1
    omega
  obtain ⟨packet, hcopy, hpacket⟩ := Checked.memcpy_of_le s.rxPacket _ hdst hsrc
  rw [f.psdu_bytes] at hpacket
  refine ⟨packet, ?_, hpacket⟩
  simp only [takeFrame, h, f.length_byte, f.rssi_byte, hcopy, Option.bind_eq_bind,
    Option.bind_some, Option.pure_def]

variable {s : Statics} {e : EventMask}

/-- The callback at the end of a frame takes it over and clears the reception. -/
theorem rxProcessCb_received (f : ReceivedFrame) (hidle : s.idle = false)
    (hsoft : e.mdmSoft = false) (hdone : e.rxDone = true)
    (hstatus : s.rxChainDoRxStatus = .propDoneOk) (hbuffer : s.radioRxBuffer = f.buffer)
    (t : UInt32) :
    ∃ packet : Vector UInt8 rxBufferLength,
      rxProcessCb e t s = some (clearReception { s with
          rxPacketLength := f.psdu.length
          rxPacketRssi := f.rssi.toInt8
          rxPacket := packet },
        callHandler s.onEndOfFrameHandler (.endOfFrame s.handlersContext t)) ∧
      packet.toList = f.psdu ++ s.rxPacket.toList.drop f.psdu.length := by
  obtain ⟨packet, htake, hpacket⟩ := takeFrame_received f hbuffer
  have hfits : s.radioRxBuffer[0].toNat ≤ rxBufferLength := by
    have hlength := f.length_add_two_le
    rw [hbuffer, f.length_byte]
    show f.psdu.length ≤ 136
    omega
  refine ⟨packet, ?_, hpacket⟩
  simp only [rxProcessCb, hidle, hsoft, hdone, hstatus, hfits, htake, Bool.false_eq_true,
    if_false, if_true, true_or, and_self, Option.bind_eq_bind, Option.bind_some, Option.pure_def]

/-- The callback after a checksum error forgets the frame before and clears the reception. -/
theorem rxProcessCb_corrupted (hidle : s.idle = false) (hsoft : e.mdmSoft = false)
    (hdone : e.rxDone = true) (hstatus : s.rxChainDoRxStatus = .propDoneRxErr) (t : UInt32) :
    rxProcessCb e t s = some (clearReception { s with rxPacketLength := 0, rxPacketRssi := 0 },
      callHandler s.onEndOfFrameHandler (.endOfFrame s.handlersContext t)) := by
  simp [rxProcessCb, hidle, hsoft, hdone, hstatus]

/-- The callback at the sync word changes nothing, whatever else its mask carries. -/
theorem rxProcessCb_syncWord (hidle : s.idle = false) (hsoft : e.mdmSoft = true) (t : UInt32) :
    rxProcessCb e t s = some (s, callHandler s.onStartOfFrameHandler
      (.startOfFrame s.handlersContext (t - rxStartCorrection))) := by
  simp [rxProcessCb, hidle, hsoft]

/-! ### The callback of a transmission -/

/-- The callback when the synthesizer is set calls the handler of the start. -/
theorem txProcessCb_start (hidle : s.idle = false) (hlast : e.lastCmdDone = false)
    (hdone : e.cmdDone = true) (t t' : UInt32) :
    txProcessCb e t t' s = (s, callHandler s.onStartOfFrameHandler
      (.startOfFrame s.handlersContext (t' + txStartCorrection))) := by
  simp [txProcessCb, hidle, hlast, hdone]

/-- The callback after the last command clears the handle, whatever else its mask carries. -/
theorem txProcessCb_last (hidle : s.idle = false) (hlast : e.lastCmdDone = true) (t t' : UInt32) :
    txProcessCb e t t' s = ({ s with txTransaction := none },
      if s.txChainDoTxStatus = .propDoneOk ∨ s.txChainDoTxStatus = .doneOk then
        callHandler s.onEndOfFrameHandler (.endOfFrame s.handlersContext (t + txEndCorrection))
      else []) := by
  simp [txProcessCb, hidle, hlast]

end EmbenetNode.Radio
