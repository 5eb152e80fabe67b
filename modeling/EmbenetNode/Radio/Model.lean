import EmbenetNode.Lib.Checked

/-!
# The radio port: `embenet_radio.c`

The file-scope variables of the port, the commands and buffers it shares with the RF core, its
functions, and the two callbacks of its commands.

* `Statics`: the variables; `RfCall`: the calls into the RF driver;
* `setChannel`, `init`, `setCallbacks`, `deinit`, `idle`, `txEnable`, `txNow`, `rxEnable`, `rxNow`,
  `getReceivedFrame`, `startContinuousTx`: the functions;
* `rxProcessCb`, `txProcessCb`: the callbacks, with the calls of the registered handlers.

What `RF_postCmd` returns and what the timer reads are arguments. `none` stands for an access
outside an array.
-/

namespace EmbenetNode.Radio

/-- `EMBENET_RADIO_MAX_PSDU_LENGTH` -/
abbrev maxPsduLength : ℕ := 128

/-- `TX_BUFFER_LENGTH` -/
abbrev txBufferLength : ℕ := maxPsduLength + 2 + 6

/-- `RX_BUFFER_LENGTH` -/
abbrev rxBufferLength : ℕ := maxPsduLength + 2 + 6

theorem rxBufferLength_pos : 0 < rxBufferLength := by decide

/-- `TX_START_CORRECTION` -/
def txStartCorrection : UInt32 := 550

/-- `TX_END_CORRECTION` -/
def txEndCorrection : UInt32 := 330

/-- `RX_START_CORRECTION` -/
def rxStartCorrection : UInt32 := 1620

/-- `BAND_START_FREQUENCY`, in kHz. -/
def bandStartFrequency : UInt32 := 863100

/-- `BAND_CHANNEL_COUNT` -/
def bandChannelCount : UInt8 := 69

/-- `CHANNEL_WIDTH`, in kHz. -/
def channelWidth : UInt32 := 100

/-- `KHZ_TO_HZ_RATIO` -/
def khzToHzRatio : UInt32 := 1000

/-- `EMBENET_RADIO_Status` -/
inductive Status
  | success
  | generalError
  | communicationError
  | wrongState
  | parameterNotImplemented
  | parameterArgsWrongNumber
  | parameterArg1OutOfBounds
  | parameterArg2OutOfBounds
  | parameterArg3OutOfBounds
  | parameterArgsOutOfBounds
  deriving DecidableEq

/-- `EMBENET_RADIO_ContinuousTxMode` -/
inductive ContinuousTxMode
  | pn9
  | carrier
  deriving DecidableEq

/-- `RF_CmdHandle`; `none` is `RF_ALLOC_ERROR`. -/
abbrev CmdHandle := Option ℕ

/-- The status of a data entry of the RF core. -/
inductive EntryStatus
  | pending
  | active
  | busy
  | finished
  deriving DecidableEq

/-- The status of a radio operation, as far as the port distinguishes it. -/
inductive OpStatus
  | other
  | doneOk
  | propDoneOk
  | propDoneRxErr
  deriving DecidableEq

/-- `RF_EventMask`: the event bits that the port tests. -/
structure EventMask where
  cmdDone : Bool := false
  lastCmdDone : Bool := false
  mdmSoft : Bool := false
  rxOk : Bool := false
  rxNOk : Bool := false
  deriving DecidableEq

/-- The bits of `RF_EventRxOk | RF_EventRxNOk`. -/
def EventMask.rxDone (e : EventMask) : Bool := e.rxOk || e.rxNOk

/-- The frequency of a `CMD_FS` operation: whole MHz and a fraction in units of 1/65536 MHz. -/
structure FsCommand where
  frequency : UInt16 := 0
  fractFreq : UInt16 := 0
  deriving DecidableEq

/-- Calls into the RF driver. -/
inductive RfCall
  | openRadio
  | close
  | flushCmd (command : CmdHandle)
  | postFsOff
  | postTxChain (setFs : FsCommand) (pktLen : UInt8) (pPkt : Vector UInt8 txBufferLength)
      (result : CmdHandle)
  | postRxChain (setFs : FsCommand) (result : CmdHandle)
  | runTxTest (useCw : Bool)
  deriving DecidableEq

/-- Calls of the registered handlers. -/
inductive HandlerCall
  | startOfFrame (context : ℕ) (timestamp : UInt32)
  | endOfFrame (context : ℕ) (timestamp : UInt32)
  deriving DecidableEq

/-- The variables of `embenet_radio.c`, with their static initialization. Of a handler only whether
it is registered matters, of `rfHandle` whether it is set. -/
structure Statics where
  rxItemStatus : EntryStatus := .pending
  rxChainDoRxStatus : OpStatus := .other
  rxChainSetFs : FsCommand := {}
  radioRxBuffer : Vector UInt8 rxBufferLength := Vector.replicate rxBufferLength 0
  txChainDoTxStatus : OpStatus := .other
  txChainDoTxPktLen : UInt8 := 0
  txChainSetFs : FsCommand := {}
  radioTxBuffer : Vector UInt8 txBufferLength := Vector.replicate txBufferLength 0
  onStartOfFrameHandler : Bool := false
  onEndOfFrameHandler : Bool := false
  handlersContext : ℕ := 0
  rxPacket : Vector UInt8 rxBufferLength := Vector.replicate rxBufferLength 0
  rxPacketRssi : Int8 := 0
  rxPacketLength : ℕ := 0
  txTransaction : CmdHandle := some 0
  rxTransaction : CmdHandle := some 0
  rfHandle : Bool := false
  idle : Bool := false

/-- What a call returns, the variables it leaves and its calls into the driver. -/
structure Result where
  status : Status
  statics : Statics
  calls : List RfCall := []

/-! ### The functions of the port -/

/-- `setChannel`: the frequency it writes into the command. -/
def setChannel (channel : UInt8) : FsCommand := Id.run do
  let mut channel := channel
  if channel ≥ bandChannelCount then
    channel := bandChannelCount - 1
  -- the source overwrites the channel it has just clipped
  channel := 0
  let f := bandStartFrequency + channel.toUInt32 * channelWidth
  return ⟨(f / khzToHzRatio).toUInt16,
    ((f % khzToHzRatio) * ((65535 + 1) / khzToHzRatio)).toUInt16⟩

/-- `EMBENET_RADIO_Idle` -/
def idle (s : Statics) : Result where
  status := .success
  statics := { s with idle := true }
  calls := [.flushCmd s.txTransaction, .flushCmd s.rxTransaction, .postFsOff]

/-- `EMBENET_RADIO_Init`, when the driver opens the radio; otherwise it does not return. -/
def init (s : Statics) : Result :=
  let s := { s with txTransaction := none, rxTransaction := none, rfHandle := true }
  { idle s with calls := .openRadio :: (idle s).calls }

/-- `EMBENET_RADIO_SetCallbacks` -/
def setCallbacks (onStartFrame onEndFrame : Bool) (cbtContext : ℕ) (s : Statics) : Statics :=
  { s with
    onStartOfFrameHandler := onStartFrame
    onEndOfFrameHandler := onEndFrame
    handlersContext := cbtContext }

/-- `EMBENET_RADIO_Deinit` -/
def deinit (s : Statics) : Statics × List RfCall :=
  if s.rfHandle then ((idle s).statics, (idle s).calls ++ [.close]) else (s, [])

/-- `EMBENET_RADIO_TxEnable` -/
def txEnable (channel : UInt8) (psdu : List UInt8) (psduLen : ℕ) (s : Statics) : Option Result := do
  let psduLen := if psduLen > maxPsduLength then maxPsduLength else psduLen
  let radioTxBuffer ← Checked.memcpy s.radioTxBuffer psdu psduLen
  return {
    status := .success
    statics := { s with
      idle := false
      txChainSetFs := setChannel channel
      radioTxBuffer := radioTxBuffer
      txChainDoTxPktLen := UInt8.ofNat psduLen } }

/-- `EMBENET_RADIO_TxNow`, when `RF_postCmd` returns `result`. -/
def txNow (result : CmdHandle) (s : Statics) : Result where
  status := if result = none then .generalError else .success
  statics := { s with txTransaction := result }
  calls := [.postTxChain s.txChainSetFs s.txChainDoTxPktLen s.radioTxBuffer result]

/-- `EMBENET_RADIO_RxEnable` -/
def rxEnable (channel : UInt8) (s : Statics) : Result :=
  let s := { s with idle := false }
  if s.rxTransaction ≠ none then { status := .wrongState, statics := s }
  else { status := .success, statics := { s with rxChainSetFs := setChannel channel } }

/-- `EMBENET_RADIO_RxNow`, when `RF_postCmd` returns `result`. -/
def rxNow (result : CmdHandle) (s : Statics) : Result where
  status := if result = none then .generalError else .success
  statics := { s with rxTransaction := result }
  calls := [.postRxChain s.rxChainSetFs result]

/-- `EMBENET_RADIO_RxInfo` -/
structure RxInfo where
  rssi : Int8
  lqi : UInt8
  crcValid : Bool
  mpduLength : ℕ
  deriving DecidableEq

/-- A frame that does not fit into a buffer of the length given is dropped. -/
def dropUnlessFits (bufferLength : ℕ) (s : Statics) : Statics :=
  if bufferLength < s.rxPacketLength then { s with rxPacketLength := 0 } else s

/-- `EMBENET_RADIO_GetReceivedFrame`, into a buffer of the length given. -/
def getReceivedFrame {bufferLength : ℕ} (buffer : Vector UInt8 bufferLength) (s : Statics) :
    Option (RxInfo × Vector UInt8 bufferLength × Statics) := do
  let s := dropUnlessFits bufferLength s
  let info : RxInfo := ⟨s.rxPacketRssi, 0, s.rxPacketLength ≠ 0, s.rxPacketLength⟩
  if s.rxPacketLength ≠ 0 then
    let buffer ← Checked.memcpy buffer s.rxPacket.toList s.rxPacketLength
    return (info, buffer, s)
  else
    return (info, buffer, s)

/-- `EMBENET_RADIO_StartContinuousTx` -/
def startContinuousTx (mode : ContinuousTxMode) (channel : UInt8) (s : Statics) : Option Result := do
  let dummy : UInt8 := 0
  let result ← txEnable channel [dummy] 1 s
  if result.status = .success then
    return { result with calls := result.calls ++ [.runTxTest (mode = .carrier)] }
  else
    -- the result of TxEnable is not passed on
    return { result with status := .success }

/-! ### The callbacks -/

/-- A call of a handler, when one is registered. -/
def callHandler (registered : Bool) (call : HandlerCall) : List HandlerCall :=
  if registered then [call] else []

/-- The received frame is taken over from the receive buffer. -/
def takeFrame (s : Statics) : Option Statics := do
  let length := s.radioRxBuffer[0].toNat
  let rssi ← s.radioRxBuffer[length + 1]?
  let rxPacket ← Checked.memcpy s.rxPacket (s.radioRxBuffer.toList.drop 1) length
  return { s with rxPacketLength := length, rxPacketRssi := rssi.toInt8, rxPacket := rxPacket }

/-- The receive entry is handed back to the RF core and the handle of the reception cleared. -/
def clearReception (s : Statics) : Statics :=
  { s with rxItemStatus := .pending, rxTransaction := none }

/-- `rxProcessCb`, when the timer reads `t`. -/
def rxProcessCb (e : EventMask) (t : UInt32) (s : Statics) : Option (Statics × List HandlerCall) :=
  if s.idle then some (s, [])
  else if e.mdmSoft then
    some (s, callHandler s.onStartOfFrameHandler (.startOfFrame s.handlersContext (t - rxStartCorrection)))
  else if e.rxDone then
    if s.rxChainDoRxStatus = .propDoneOk ∨ s.rxChainDoRxStatus = .propDoneRxErr then do
      let s ←
        if s.rxChainDoRxStatus = .propDoneOk ∧ s.radioRxBuffer[0].toNat ≤ rxBufferLength then
          takeFrame s
        else
          some { s with rxPacketLength := 0, rxPacketRssi := 0 }
      return (clearReception s, callHandler s.onEndOfFrameHandler (.endOfFrame s.handlersContext t))
    else
      -- any other status: neither the entry nor the handle is restored
      some (s, [])
  else
    -- an error of the driver
    some (clearReception s, [])

/-- `txProcessCb`, when the timer reads `t` and, a second time, `t'`. -/
def txProcessCb (e : EventMask) (t t' : UInt32) (s : Statics) : Statics × List HandlerCall :=
  if s.idle then (s, [])
  else if e.lastCmdDone then
    ({ s with txTransaction := none },
      if s.txChainDoTxStatus = .propDoneOk ∨ s.txChainDoTxStatus = .doneOk then
        callHandler s.onEndOfFrameHandler (.endOfFrame s.handlersContext (t + txEndCorrection))
      else [])
  else if e.cmdDone then
    -- the synthesizer is set, the packet will start soon
    (s, callHandler s.onStartOfFrameHandler (.startOfFrame s.handlersContext (t' + txStartCorrection)))
  else
    ({ s with txTransaction := none }, [])

end EmbenetNode.Radio
