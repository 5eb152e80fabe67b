import EmbenetNode.Lib.Checked

/-!
# The border router interface: `embenet_brt.c`

Packets travel over a UART in HDLC style: an opening flag, the escaped packet and its two CRC
bytes, a closing flag. `send` is the encoder, `receive` the decoder, which keeps four static
variables from one call to the next.

The UART is a byte queue. `UART2_getRxCount` is its length and `UART2_read` of one byte takes its
head; the critical section around the read is left out. The sender is written over any UART state
`σ` and any effect of `UART2_write` on it.
-/

namespace EmbenetNode.Brt

open Checked

/-- `EMBENET_BRT_MAX_FRAME_SIZE` -/
def maxFrameSize : ℕ := 256

/-- `HDLC_FLAG` -/
def hdlcFlag : UInt8 := 0x7e

/-- `HDLC_ESCAPE` -/
def hdlcEscape : UInt8 := 0x7d

/-- `HDLC_ESCAPE_MASK` -/
def hdlcEscapeMask : UInt8 := 0x20

/-- `HDLC_CRCINIT` -/
def hdlcCrcInit : UInt16 := 0xffff

/-! ### The CRC -/

set_option maxRecDepth 4096 in
/-- The lookup table of `EMBENET_BRT_CalculateCRC`. -/
def lut : Vector UInt16 256 := #v[
  0x0000, 0x1189, 0x2312, 0x329b, 0x4624, 0x57ad, 0x6536, 0x74bf, 0x8c48, 0x9dc1, 0xaf5a, 0xbed3,
  0xca6c, 0xdbe5, 0xe97e, 0xf8f7, 0x1081, 0x0108, 0x3393, 0x221a, 0x56a5, 0x472c, 0x75b7, 0x643e,
  0x9cc9, 0x8d40, 0xbfdb, 0xae52, 0xdaed, 0xcb64, 0xf9ff, 0xe876, 0x2102, 0x308b, 0x0210, 0x1399,
  0x6726, 0x76af, 0x4434, 0x55bd, 0xad4a, 0xbcc3, 0x8e58, 0x9fd1, 0xeb6e, 0xfae7, 0xc87c, 0xd9f5,
  0x3183, 0x200a, 0x1291, 0x0318, 0x77a7, 0x662e, 0x54b5, 0x453c, 0xbdcb, 0xac42, 0x9ed9, 0x8f50,
  0xfbef, 0xea66, 0xd8fd, 0xc974, 0x4204, 0x538d, 0x6116, 0x709f, 0x0420, 0x15a9, 0x2732, 0x36bb,
  0xce4c, 0xdfc5, 0xed5e, 0xfcd7, 0x8868, 0x99e1, 0xab7a, 0xbaf3, 0x5285, 0x430c, 0x7197, 0x601e,
  0x14a1, 0x0528, 0x37b3, 0x263a, 0xdecd, 0xcf44, 0xfddf, 0xec56, 0x98e9, 0x8960, 0xbbfb, 0xaa72,
  0x6306, 0x728f, 0x4014, 0x519d, 0x2522, 0x34ab, 0x0630, 0x17b9, 0xef4e, 0xfec7, 0xcc5c, 0xddd5,
  0xa96a, 0xb8e3, 0x8a78, 0x9bf1, 0x7387, 0x620e, 0x5095, 0x411c, 0x35a3, 0x242a, 0x16b1, 0x0738,
  0xffcf, 0xee46, 0xdcdd, 0xcd54, 0xb9eb, 0xa862, 0x9af9, 0x8b70, 0x8408, 0x9581, 0xa71a, 0xb693,
  0xc22c, 0xd3a5, 0xe13e, 0xf0b7, 0x0840, 0x19c9, 0x2b52, 0x3adb, 0x4e64, 0x5fed, 0x6d76, 0x7cff,
  0x9489, 0x8500, 0xb79b, 0xa612, 0xd2ad, 0xc324, 0xf1bf, 0xe036, 0x18c1, 0x0948, 0x3bd3, 0x2a5a,
  0x5ee5, 0x4f6c, 0x7df7, 0x6c7e, 0xa50a, 0xb483, 0x8618, 0x9791, 0xe32e, 0xf2a7, 0xc03c, 0xd1b5,
  0x2942, 0x38cb, 0x0a50, 0x1bd9, 0x6f66, 0x7eef, 0x4c74, 0x5dfd, 0xb58b, 0xa402, 0x9699, 0x8710,
  0xf3af, 0xe226, 0xd0bd, 0xc134, 0x39c3, 0x284a, 0x1ad1, 0x0b58, 0x7fe7, 0x6e6e, 0x5cf5, 0x4d7c,
  0xc60c, 0xd785, 0xe51e, 0xf497, 0x8028, 0x91a1, 0xa33a, 0xb2b3, 0x4a44, 0x5bcd, 0x6956, 0x78df,
  0x0c60, 0x1de9, 0x2f72, 0x3efb, 0xd68d, 0xc704, 0xf59f, 0xe416, 0x90a9, 0x8120, 0xb3bb, 0xa232,
  0x5ac5, 0x4b4c, 0x79d7, 0x685e, 0x1ce1, 0x0d68, 0x3ff3, 0x2e7a, 0xe70e, 0xf687, 0xc41c, 0xd595,
  0xa12a, 0xb0a3, 0x8238, 0x93b1, 0x6b46, 0x7acf, 0x4854, 0x59dd, 0x2d62, 0x3ceb, 0x0e70, 0x1ff9,
  0xf78f, 0xe606, 0xd49d, 0xc514, 0xb1ab, 0xa022, 0x92b9, 0x8330, 0x7bc7, 0x6a4e, 0x58d5, 0x495c,
  0x3de3, 0x2c6a, 0x1ef1, 0x0f78]

/-- `(crc ^ byte) & 0xff`, the index into the table. -/
def lutIndex (crc : UInt16) (byte : UInt8) : ℕ := ((crc ^^^ byte.toUInt16) &&& 0xff).toNat

theorem lutIndex_lt (crc : UInt16) (byte : UInt8) : lutIndex crc byte < 256 := by
  have h : lutIndex crc byte ≤ (0xff : UInt16).toNat := by
    rw [lutIndex, UInt16.toNat_and]
    exact Nat.and_le_right
  exact Nat.lt_succ_of_le h

/-- `EMBENET_BRT_CalculateCRC` -/
def calculateCRC (crc : UInt16) (byte : UInt8) : UInt16 :=
  have := lutIndex_lt crc byte
  (crc >>> 8) ^^^ lut[lutIndex crc byte]

/-! ### Sending -/

section Send

variable {σ : Type*} (uart2Write : σ → UInt8 → σ)

/-- `EMBENET_BRT_WriteByte`: one byte to the UART, the status of the write unused. -/
def writeByte (uart : σ) (data : UInt8) : σ := uart2Write uart data

/-- `EMBENET_BRT_EncodeAndWrite` -/
def encodeAndWrite (uart : σ) (data : UInt8) : σ :=
  if data = hdlcFlag ∨ data = hdlcEscape then
    writeByte uart2Write (writeByte uart2Write uart hdlcEscape) (data ^^^ hdlcEscapeMask)
  else writeByte uart2Write uart data

/-- The loop of `EMBENET_BRT_Send` over the bytes of the packet. -/
def sendLoop (uart : σ) (finalCrc : UInt16) : List UInt8 → σ × UInt16
  | [] => (uart, finalCrc)
  | byte :: rest =>
      sendLoop (encodeAndWrite uart2Write uart byte) (calculateCRC finalCrc byte) rest

/-- `EMBENET_BRT_Send` -/
def send (uart : σ) (packet : List UInt8) : σ :=
  let uart := writeByte uart2Write uart hdlcFlag
  let (uart, finalCrc) := sendLoop uart2Write uart hdlcCrcInit packet
  let finalCrc := ~~~finalCrc
  let uart := encodeAndWrite uart2Write uart ((finalCrc >>> 0) &&& 0xff).toUInt8
  let uart := encodeAndWrite uart2Write uart ((finalCrc >>> 8) &&& 0xff).toUInt8
  writeByte uart2Write uart hdlcFlag

end Send

/-- The bytes that `EMBENET_BRT_Send` puts on a wire that loses none. -/
def sent (packet : List UInt8) : List UInt8 := send (fun wire byte => wire ++ [byte]) [] packet

/-! ### Receiving -/

/-- The static variables of `EMBENET_BRT_Receive`. -/
structure Statics where
  inputFrame : Vector UInt8 maxFrameSize
  inputFrameDataIndex : ℕ
  inputFrameReceiving : Bool
  lastDataByte : UInt8
  deriving DecidableEq

/-- Static variables start out as zero. -/
def Statics.initial : Statics where
  inputFrame := Vector.replicate maxFrameSize 0
  inputFrameDataIndex := 0
  inputFrameReceiving := false
  lastDataByte := 0

/-- `inputFrame[inputFrameDataIndex++] = b` -/
def Statics.append (s : Statics) (b : UInt8) : Option Statics := do
  let inputFrame ← store s.inputFrame s.inputFrameDataIndex b
  return { s with inputFrame, inputFrameDataIndex := s.inputFrameDataIndex + 1 }

/-- The `if` chain in the loop of `EMBENET_BRT_Receive`, on one byte: the static variables after it,
and whether it sets `frameComplete`. -/
def handleByte (s : Statics) (dataByte : UInt8) : Option (Statics × Bool) :=
  if s.inputFrameReceiving = false then
    if hdlcFlag = dataByte then
      some ({ s with inputFrameReceiving := true, inputFrameDataIndex := 0 }, false)
    else some (s, false)
  else if hdlcFlag = dataByte then
    if hdlcFlag ≠ s.lastDataByte then
      -- finished frame
      some ({ s with inputFrameReceiving := false }, decide (s.inputFrameDataIndex > 2))
    else
      -- two flags at a time, repeating frame start
      some ({ s with inputFrameReceiving := true, inputFrameDataIndex := 0 }, false)
  else if s.inputFrameDataIndex < maxFrameSize then
    if hdlcEscape ≠ dataByte then
      if hdlcEscape ≠ s.lastDataByte then (s.append dataByte).map (·, false)
      else (s.append (dataByte ^^^ hdlcEscapeMask)).map (·, false)
    else some (s, false)
  else some ({ s with inputFrameReceiving := false, inputFrameDataIndex := 0 }, false)

/-- The loop body of `EMBENET_BRT_Receive` once the byte is read. -/
def loopBody (s : Statics) (dataByte : UInt8) : Option (Statics × Bool) := do
  let (s, frameComplete) ← handleByte s dataByte
  return ({ s with lastDataByte := dataByte }, frameComplete)

/-- What the loop of `EMBENET_BRT_Receive` leaves: the static variables, `frameComplete`, the bytes
it read, and the receive queue. -/
structure LoopExit where
  statics : Statics
  frameComplete : Bool
  consumed : List UInt8
  rxQueue : List UInt8

/-- The loop when nothing more arrives while it runs. -/
def receiveDrain (s : Statics) : List UInt8 → Option LoopExit
  | [] => some ⟨s, false, [], []⟩
  | dataByte :: rxQueue => do
      let (s, frameComplete) ← loopBody s dataByte
      if frameComplete then return ⟨s, true, [dataByte], rxQueue⟩
      let exit ← receiveDrain s rxQueue
      return { exit with consumed := dataByte :: exit.consumed }

/-- The loop. `arrivals` lists what the UART receives before each test of the loop condition; what
it lists beyond the last test arrives after the loop. -/
def receiveLoop (s : Statics) (rxQueue : List UInt8) : List (List UInt8) → Option LoopExit
  | [] => receiveDrain s rxQueue
  | chunk :: arrivals =>
      match rxQueue ++ chunk with
      | [] => some ⟨s, false, [], arrivals.flatten⟩
      | dataByte :: rxQueue => do
          let (s, frameComplete) ← loopBody s dataByte
          if frameComplete then return ⟨s, true, [dataByte], rxQueue ++ arrivals.flatten⟩
          let exit ← receiveLoop s rxQueue arrivals
          return { exit with consumed := dataByte :: exit.consumed }

/-- The CRC of the first `length` bytes of the frame buffer. -/
def frameCRC (inputFrame : Vector UInt8 maxFrameSize) (length : ℕ) : Option UInt16 :=
  (List.range length).foldlM
    (fun crc index => do return calculateCRC crc (← inputFrame[index]?)) hdlcCrcInit

/-- What `EMBENET_BRT_Receive` does after its loop: the value returned, and the caller's buffer. -/
def finishFrame {room : ℕ} (s : Statics) (frameComplete : Bool) (packetBuffer : Vector UInt8 room)
    (packetBufferSize : ℕ) : Option (ℕ × Vector UInt8 room) := do
  if frameComplete = true ∧ s.inputFrameDataIndex > 0 then
    -- the last two bytes are the CRC
    let dataLength ← sub s.inputFrameDataIndex 2
    let crc ← frameCRC s.inputFrame dataLength
    let crc := ~~~crc
    let low ← s.inputFrame[← sub s.inputFrameDataIndex 2]?
    let high ← s.inputFrame[← sub s.inputFrameDataIndex 1]?
    if ((crc >>> 0) &&& 0xff) = low.toUInt16 ∧ ((crc >>> 8) &&& 0xff) = high.toUInt16 then
      let returnSize ← sub s.inputFrameDataIndex 2
      if packetBufferSize ≥ returnSize then
        return (returnSize, ← memcpy packetBuffer s.inputFrame.toList returnSize)
      -- too short a buffer is filled all the same
      else return (0, ← memcpy packetBuffer s.inputFrame.toList packetBufferSize)
    else return (0, packetBuffer)
  else return (0, packetBuffer)

/-- A call of `EMBENET_BRT_Receive`: a buffer of the size passed, in a region of `room` bytes, and
what the UART receives while the call runs. -/
structure Call where
  room : ℕ
  packetBuffer : Vector UInt8 room
  packetBufferSize : ℕ
  fits : packetBufferSize ≤ room
  arrivals : List (List UInt8)

/-- What a call returns, and what it leaves in the caller's buffer. `consumed` are the bytes it
read from the UART. -/
structure Return where
  size : ℕ
  packetBuffer : List UInt8
  consumed : List UInt8
  deriving DecidableEq

/-- The receiving side of the port. -/
structure Port where
  statics : Statics
  rxQueue : List UInt8

/-- The port before the first call. -/
def Port.initial : Port := ⟨.initial, []⟩

/-- `EMBENET_BRT_Receive` -/
def receive (port : Port) (call : Call) : Option (Port × Return) := do
  let exit ← receiveLoop port.statics port.rxQueue call.arrivals
  let (size, packetBuffer) ←
    finishFrame exit.statics exit.frameComplete call.packetBuffer call.packetBufferSize
  return (⟨exit.statics, exit.rxQueue⟩, ⟨size, packetBuffer.toList, exit.consumed⟩)

/-- A run: one call after another. -/
def receiveAll (port : Port) : List Call → Option (Port × List Return)
  | [] => some (port, [])
  | call :: calls => do
      let (port, ret) ← receive port call
      let (port, rets) ← receiveAll port calls
      return (port, ret :: rets)

/-- The data handed to the caller. -/
def Return.data (ret : Return) : List UInt8 := ret.packetBuffer.take ret.size

/-- The non-zero results, in order. -/
def delivered (rets : List Return) : List (List UInt8) :=
  (rets.filter (·.size ≠ 0)).map Return.data

/-- All bytes that the UART receives in a run. -/
def arrived (calls : List Call) : List UInt8 := calls.flatMap (·.arrivals.flatten)

end EmbenetNode.Brt
