import EmbenetNode.Radio.Model
import EmbenetNode.Lib.GuardedRun

/-!
# Runs of the radio

The port together with the RF core, which receives and transmits for the posted commands, and the
RF driver, which numbers them and calls back. An event is a call of a function of the port, an
event of the RF core or the delivery of a callback, in any order.

* `CoreEvent`: the events of a reception and of a transmission, with the bit each raises and its
  effect on the memory shared with the RF core;
* `Diagram`: the states of the radio in `embenet_radio.h`;
* `System`, `Event`, `step`: the transition system; next to the variables of the port it keeps the
  state of the diagram, the channels last enabled and which commands an Idle aborted;
* `txEnable_eq`, `rxEnable_cases`, `startContinuousTx_eq`, `getReceivedFrame_eq`, `rxProcessCb_cases`,
  `rxProcessCb_statics`, `txProcessCb_statics`: everything a call or a callback can change.
-/

namespace EmbenetNode.Radio

/-! ### The RF core -/

/-- The events of a posted command: the sync word and the end of a reception, the start of the
synthesizer and the end of a transmission. -/
inductive CoreEvent
  | syncWord
  | receptionDone (ok : Bool) (item : EntryStatus) (status : OpStatus)
      (buffer : Vector UInt8 rxBufferLength)
  | synthesizerDone
  | transmissionDone (status : OpStatus)

/-- The event bits that the RF core raises. -/
def CoreEvent.mask : CoreEvent → EventMask
  | syncWord => { mdmSoft := true }
  | receptionDone ok _ _ _ => { rxOk := ok, rxNOk := !ok }
  | synthesizerDone => { cmdDone := true }
  | transmissionDone _ => { cmdDone := true, lastCmdDone := true }

/-- What the RF core writes. -/
def CoreEvent.effect : CoreEvent → Statics → Statics
  | syncWord, s => { s with rxItemStatus := .active }
  | receptionDone _ item status buffer, s =>
      { s with rxItemStatus := item, rxChainDoRxStatus := status, radioRxBuffer := buffer }
  | synthesizerDone, s => s
  | transmissionDone status, s => { s with txChainDoTxStatus := status }

/-- The RF core writes no variable of the port. -/
@[simp] theorem CoreEvent.effect_idle (e : CoreEvent) (s : Statics) : (e.effect s).idle = s.idle := by
  cases e <;> rfl

/-- An event of a reception. -/
def CoreEvent.ofReception : CoreEvent → Bool
  | syncWord | receptionDone .. => true
  | synthesizerDone | transmissionDone _ => false

/-! ### The state diagram -/

/-- The states of the radio. -/
inductive Diagram
  | uninitialized
  | idle
  | txReady
  | rxReady
  | listen
  | tx
  | rx
  | active
  deriving DecidableEq

/-- LISTEN or RX: a reception is under way. -/
def Diagram.receiving : Diagram → Bool
  | listen | rx => true
  | uninitialized | idle | txReady | rxReady | tx | active => false

/-- The start of a frame leads from LISTEN to RX, its end or an error of the driver to ACTIVE. -/
def Diagram.afterRx (e : EventMask) (d : Diagram) : Diagram :=
  if ¬ d.receiving then d
  else if e.rxDone then .active
  else if e.mdmSoft then .rx
  else .active

/-- The end of the transmission or an error of the driver leads from TX to ACTIVE. -/
def Diagram.afterTx (e : EventMask) (d : Diagram) : Diagram :=
  if d ≠ .tx then d
  else if e.lastCmdDone then .active
  else if e.cmdDone then .tx
  else .active

@[simp] theorem Diagram.receiving_rx : rx.receiving = true := rfl

@[simp] theorem Diagram.receiving_active : active.receiving = false := rfl

theorem Diagram.afterRx_of_not_receiving {d : Diagram} (h : d.receiving = false) (e : EventMask) :
    d.afterRx e = d := by
  rw [afterRx, if_pos (by rw [h]; decide)]

theorem Diagram.afterRx_of_receiving {d : Diagram} (h : d.receiving = true) (e : EventMask) :
    d.afterRx e = if e.rxDone then .active else if e.mdmSoft then .rx else .active := by
  rw [afterRx, if_neg (by rw [h]; decide)]

theorem Diagram.afterTx_cases (d : Diagram) (e : EventMask) :
    d.afterTx e = d ∨ d = .tx ∧ d.afterTx e = .active := by
  unfold afterTx
  split_ifs with htx <;> simp_all

/-! ### The transition system -/

/-- The variables of the port, the number of the next command posted, the log of handler calls and,
to state what the port is for: the state of the diagram, the channels of the most recent successful
TxEnable and RxEnable, the number of the first command posted after the most recent Idle, and
whether the radio was enabled since. -/
structure System where
  statics : Statics := {}
  nextHandle : ℕ := 0
  handlerCalls : List HandlerCall := []
  diagram : Diagram := .uninitialized
  txChannel : Option UInt8 := none
  rxChannel : Option UInt8 := none
  firstLive : ℕ := 0
  enabled : Bool := false

/-- Calls of the port, events of the RF core and callbacks with the handle of their command. -/
inductive Event
  | init
  | setCallbacks (onStartFrame onEndFrame : Bool) (cbtContext : ℕ)
  | deinit
  | idle
  | txEnable (channel : UInt8) (psdu : List UInt8) (psduLen : ℕ)
  | txNow (accepted : Bool)
  | rxEnable (channel : UInt8)
  | rxNow (accepted : Bool)
  | getReceivedFrame (bufferLength : ℕ) (buffer : Vector UInt8 bufferLength)
  | startContinuousTx (mode : ContinuousTxMode) (channel : UInt8)
  | core (e : CoreEvent)
  | rxCallback (ch : ℕ) (e : EventMask) (t : UInt32)
  | txCallback (ch : ℕ) (e : EventMask) (t t' : UInt32)

/-- The callback of a reception can put a packet in place of the one received, and a call that hands
it out can forget it. -/
def Event.writesPacket : Event → Bool
  | .getReceivedFrame .. | .rxCallback .. => true
  | _ => false

/-- The radio is idle: every command posted so far is aborted. -/
def System.idled (s : System) (statics : Statics) : System :=
  { s with
    statics := statics
    diagram := .idle
    firstLive := s.nextHandle
    enabled := false }

/-- The handle the driver gives to a command. -/
def System.postCmd (s : System) (accepted : Bool) : CmdHandle :=
  if accepted then some s.nextHandle else none

/-- One event. -/
def step (s : System) : Event → Option System
  | .init => some (s.idled (init s.statics).statics)
  | .setCallbacks onStartFrame onEndFrame cbtContext =>
      some { s with statics := setCallbacks onStartFrame onEndFrame cbtContext s.statics }
  | .deinit =>
      some (if s.statics.rfHandle then s.idled (deinit s.statics).1
        else { s with statics := (deinit s.statics).1 })
  | .idle => some (s.idled (idle s.statics).statics)
  | .txEnable channel psdu psduLen => do
      let r ← txEnable channel psdu psduLen s.statics
      return { s with
        statics := r.statics
        diagram := .txReady
        txChannel := if r.status = .success then some channel else s.txChannel
        enabled := true }
  | .txNow accepted =>
      some { s with
        statics := (txNow (s.postCmd accepted) s.statics).statics
        nextHandle := if accepted then s.nextHandle + 1 else s.nextHandle
        diagram := if accepted then .tx else s.diagram }
  | .rxEnable channel =>
      let r := rxEnable channel s.statics
      some { s with
        statics := r.statics
        diagram := .rxReady
        rxChannel := if r.status = .success then some channel else s.rxChannel
        enabled := true }
  | .rxNow accepted =>
      some { s with
        statics := (rxNow (s.postCmd accepted) s.statics).statics
        nextHandle := if accepted then s.nextHandle + 1 else s.nextHandle
        diagram := if accepted then .listen else s.diagram }
  | .getReceivedFrame _ buffer => do
      let (_, _, statics) ← getReceivedFrame buffer s.statics
      return { s with statics := statics }
  | .startContinuousTx mode channel => do
      let r ← startContinuousTx mode channel s.statics
      return { s with statics := r.statics, txChannel := some channel, enabled := true }
  | .core e => some { s with statics := e.effect s.statics }
  | .rxCallback _ e t => do
      let (statics, calls) ← rxProcessCb e t s.statics
      return { s with
        statics := statics
        handlerCalls := s.handlerCalls ++ calls
        diagram := s.diagram.afterRx e }
  | .txCallback _ e t t' =>
      let (statics, calls) := txProcessCb e t t' s.statics
      some { s with
        statics := statics
        handlerCalls := s.handlerCalls ++ calls
        diagram := s.diagram.afterTx e }

/-- After a reset. -/
def start : System := {}

/-! ### What a call can do -/

/-- TxEnable succeeds, ends the idle state, and sets the frequency and the packet to send. -/
theorem txEnable_eq {channel : UInt8} {psdu : List UInt8} {psduLen : ℕ} {s : Statics} {r : Result}
    (h : txEnable channel psdu psduLen s = some r) :
    ∃ buffer, r = {
      status := .success
      statics := { s with
        idle := false
        txChainSetFs := setChannel channel
        radioTxBuffer := buffer
        txChainDoTxPktLen := UInt8.ofNat (min psduLen maxPsduLength) } } := by
  have hmin : (if psduLen > maxPsduLength then maxPsduLength else psduLen) =
      min psduLen maxPsduLength := by
    split_ifs <;> omega
  simp only [txEnable, hmin, Option.bind_eq_bind, Option.bind_eq_some_iff, Option.pure_def,
    Option.some.injEq] at h
  obtain ⟨buffer, -, rfl⟩ := h
  exact ⟨buffer, rfl⟩

/-- TxEnable returns on every packet as long as its length says. -/
theorem exists_txEnable (channel : UInt8) {psdu : List UInt8} {psduLen : ℕ}
    (h : psduLen ≤ psdu.length) (s : Statics) : ∃ r, txEnable channel psdu psduLen s = some r := by
  have hle : (if psduLen > maxPsduLength then maxPsduLength else psduLen) ≤ maxPsduLength ∧
      (if psduLen > maxPsduLength then maxPsduLength else psduLen) ≤ psdu.length := by
    split_ifs <;> constructor <;> omega
  obtain ⟨buffer, hcopy, -⟩ := Checked.memcpy_of_le s.radioTxBuffer psdu
    (Nat.le_trans hle.1 (by decide)) hle.2
  simp [txEnable, hcopy]

/-- RxEnable ends the idle state, and sets the frequency unless a reception is recorded. -/
theorem rxEnable_cases (channel : UInt8) (s : Statics) :
    (s.rxTransaction = none ∧ rxEnable channel s =
      { status := .success
        statics := { s with idle := false, rxChainSetFs := setChannel channel } }) ∨
    (s.rxTransaction ≠ none ∧ rxEnable channel s =
      { status := .wrongState, statics := { s with idle := false } }) := by
  by_cases h : s.rxTransaction = none
  · exact .inl ⟨h, if_neg (not_not.2 h)⟩
  · exact .inr ⟨h, if_pos h⟩

/-- The continuous transmission sets up a packet of one byte and starts the test command. -/
theorem startContinuousTx_eq {mode : ContinuousTxMode} {channel : UInt8} {s : Statics} {r : Result}
    (h : startContinuousTx mode channel s = some r) :
    ∃ r₀, txEnable channel [0] 1 s = some r₀ ∧ r.statics = r₀.statics := by
  simp only [startContinuousTx, Option.bind_eq_bind, Option.bind_eq_some_iff] at h
  obtain ⟨r₀, hr₀, h⟩ := h
  refine ⟨r₀, hr₀, ?_⟩
  split_ifs at h <;> cases h <;> rfl

/-- Handing out the received frame changes nothing but a length that the caller has no room for. -/
theorem getReceivedFrame_statics {bufferLength : ℕ} {buffer buffer' : Vector UInt8 bufferLength}
    {s s' : Statics} {info : RxInfo}
    (h : getReceivedFrame buffer s = some (info, buffer', s')) :
    s' = dropUnlessFits bufferLength s := by
  simp only [getReceivedFrame] at h
  split_ifs at h
  · obtain ⟨_, _, h⟩ := Option.bind_eq_some_iff.1 h
    cases h
    rfl
  · cases h
    rfl

/-- Handing out the received frame can only forget its length. -/
theorem getReceivedFrame_eq {bufferLength : ℕ} {buffer buffer' : Vector UInt8 bufferLength}
    {s s' : Statics} {info : RxInfo}
    (h : getReceivedFrame buffer s = some (info, buffer', s')) :
    ∃ length, s' = { s with rxPacketLength := length } := by
  rw [getReceivedFrame_statics h, dropUnlessFits]
  split_ifs
  · exact ⟨0, rfl⟩
  · exact ⟨s.rxPacketLength, rfl⟩

/-! ### What a callback can do -/

/-- A frame taken over changes the packet received and nothing else. -/
theorem takeFrame_eq {s s' : Statics} (h : takeFrame s = some s') :
    ∃ packet length rssi,
      s' = { s with rxPacket := packet, rxPacketLength := length, rxPacketRssi := rssi } := by
  simp only [takeFrame, Option.bind_eq_bind, Option.bind_eq_some_iff, Option.pure_def,
    Option.some.injEq] at h
  obtain ⟨rssi, -, packet, -, rfl⟩ := h
  exact ⟨packet, _, _, rfl⟩

/-- Everything that `rxProcessCb` can do: nothing while the radio is idle; the start of a frame; its
end, after which the entry is handed back and the handle cleared; its end with any other status,
which is dropped; an error of the driver. -/
theorem rxProcessCb_cases {e : EventMask} {t : UInt32} {s s' : Statics} {calls : List HandlerCall}
    (h : rxProcessCb e t s = some (s', calls)) :
    (s.idle = true ∧ s' = s ∧ calls = []) ∨
    (s.idle = false ∧ e.mdmSoft = true ∧ s' = s ∧
      calls = callHandler s.onStartOfFrameHandler
        (.startOfFrame s.handlersContext (t - rxStartCorrection))) ∨
    (s.idle = false ∧ e.mdmSoft = false ∧ e.rxDone = true ∧
      (s.rxChainDoRxStatus = .propDoneOk ∨ s.rxChainDoRxStatus = .propDoneRxErr) ∧
      (∃ packet length rssi, s' = clearReception
        { s with rxPacket := packet, rxPacketLength := length, rxPacketRssi := rssi }) ∧
      calls = callHandler s.onEndOfFrameHandler (.endOfFrame s.handlersContext t)) ∨
    (s.idle = false ∧ e.mdmSoft = false ∧ e.rxDone = true ∧
      ¬ (s.rxChainDoRxStatus = .propDoneOk ∨ s.rxChainDoRxStatus = .propDoneRxErr) ∧
      s' = s ∧ calls = []) ∨
    (s.idle = false ∧ e.mdmSoft = false ∧ e.rxDone = false ∧
      s' = clearReception s ∧ calls = []) := by
  unfold rxProcessCb at h
  split_ifs at h with hidle hsoft hdone hstatus hgood
  · cases h
    exact .inl ⟨hidle, rfl, rfl⟩
  · cases h
    exact .inr (.inl ⟨eq_false_of_ne_true hidle, hsoft, rfl, rfl⟩)
  · obtain ⟨s₁, hs₁, heq⟩ := Option.bind_eq_some_iff.1 h
    cases heq
    obtain ⟨packet, length, rssi, rfl⟩ := takeFrame_eq hs₁
    exact .inr (.inr (.inl ⟨eq_false_of_ne_true hidle, eq_false_of_ne_true hsoft, hdone, hstatus,
      ⟨packet, length, rssi, rfl⟩, rfl⟩))
  · cases h
    exact .inr (.inr (.inl ⟨eq_false_of_ne_true hidle, eq_false_of_ne_true hsoft, hdone, hstatus,
      ⟨s.rxPacket, 0, 0, rfl⟩, rfl⟩))
  · cases h
    exact .inr (.inr (.inr (.inl ⟨eq_false_of_ne_true hidle, eq_false_of_ne_true hsoft, hdone,
      hstatus, rfl, rfl⟩)))
  · cases h
    exact .inr (.inr (.inr (.inr ⟨eq_false_of_ne_true hidle, eq_false_of_ne_true hsoft,
      eq_false_of_ne_true hdone, rfl, rfl⟩)))

/-- `rxProcessCb` writes the packet received, the status of the entry and the handle of the reception,
and no other variable. -/
theorem rxProcessCb_statics {e : EventMask} {t : UInt32} {s s' : Statics} {calls : List HandlerCall}
    (h : rxProcessCb e t s = some (s', calls)) :
    ∃ item handle packet length rssi, s' = { s with
      rxItemStatus := item
      rxTransaction := handle
      rxPacket := packet
      rxPacketLength := length
      rxPacketRssi := rssi } := by
  have hunchanged : ∃ item handle packet length rssi, s = { s with
      rxItemStatus := item
      rxTransaction := handle
      rxPacket := packet
      rxPacketLength := length
      rxPacketRssi := rssi } :=
    ⟨s.rxItemStatus, s.rxTransaction, s.rxPacket, s.rxPacketLength, s.rxPacketRssi, rfl⟩
  rcases rxProcessCb_cases h with ⟨-, rfl, -⟩ | ⟨-, -, rfl, -⟩ |
    ⟨-, -, -, -, ⟨packet, length, rssi, rfl⟩, -⟩ | ⟨-, -, -, -, rfl, -⟩ | ⟨-, -, -, rfl, -⟩
  · exact hunchanged
  · exact hunchanged
  · exact ⟨.pending, none, packet, length, rssi, rfl⟩
  · exact hunchanged
  · exact ⟨.pending, none, s.rxPacket, s.rxPacketLength, s.rxPacketRssi, rfl⟩

/-- `txProcessCb` writes no variable but the handle of the transmission. -/
theorem txProcessCb_statics (e : EventMask) (t t' : UInt32) (s : Statics) :
    ∃ handle, (txProcessCb e t t' s).1 = { s with txTransaction := handle } := by
  unfold txProcessCb
  by_cases hidle : s.idle = true
  · exact ⟨s.txTransaction, by rw [if_pos hidle]⟩
  · rw [if_neg hidle]
    by_cases hlast : e.lastCmdDone = true
    · exact ⟨none, by rw [if_pos hlast]⟩
    · rw [if_neg hlast]
      by_cases hdone : e.cmdDone = true
      · exact ⟨s.txTransaction, by rw [if_pos hdone]⟩
      · exact ⟨none, by rw [if_neg hdone]⟩

/-! ### Inversion of the steps -/

section Inversion

variable {s s' : System}

/-- EMBENET_RADIO_Deinit does nothing before the initialization. -/
theorem step_deinit (h : step s .deinit = some s') :
    s' = s.idled (idle s.statics).statics ∨ s' = s := by
  simp only [step, deinit, Option.some.injEq] at h
  split_ifs at h
  · exact .inl h.symm
  · exact .inr h.symm

theorem step_txEnable {channel : UInt8} {psdu : List UInt8} {psduLen : ℕ}
    (h : step s (.txEnable channel psdu psduLen) = some s') :
    ∃ buffer, s' = { s with
      statics := { s.statics with
        idle := false
        txChainSetFs := setChannel channel
        radioTxBuffer := buffer
        txChainDoTxPktLen := UInt8.ofNat (min psduLen maxPsduLength) }
      diagram := .txReady
      txChannel := some channel
      enabled := true } := by
  obtain ⟨r, hr, heq⟩ := Option.bind_eq_some_iff.1 h
  obtain ⟨buffer, rfl⟩ := txEnable_eq hr
  cases heq
  exact ⟨buffer, rfl⟩

theorem step_startContinuousTx {mode : ContinuousTxMode} {channel : UInt8}
    (h : step s (.startContinuousTx mode channel) = some s') :
    ∃ buffer, s' = { s with
      statics := { s.statics with
        idle := false
        txChainSetFs := setChannel channel
        radioTxBuffer := buffer
        txChainDoTxPktLen := 1 }
      txChannel := some channel
      enabled := true } := by
  simp only [step, Option.bind_eq_bind, Option.bind_eq_some_iff, Option.pure_def,
    Option.some.injEq] at h
  obtain ⟨r, hr, rfl⟩ := h
  obtain ⟨r₀, hr₀, hstatics⟩ := startContinuousTx_eq hr
  obtain ⟨buffer, rfl⟩ := txEnable_eq hr₀
  exact ⟨buffer, by rw [hstatics]; rfl⟩

theorem step_getReceivedFrame {bufferLength : ℕ} {buffer : Vector UInt8 bufferLength}
    (h : step s (.getReceivedFrame bufferLength buffer) = some s') :
    ∃ length, s' = { s with statics := { s.statics with rxPacketLength := length } } := by
  obtain ⟨⟨info, buffer', statics⟩, hr, heq⟩ := Option.bind_eq_some_iff.1 h
  obtain ⟨length, rfl⟩ := getReceivedFrame_eq hr
  cases heq
  exact ⟨length, rfl⟩

theorem step_rxCallback {ch : ℕ} {e : EventMask} {t : UInt32}
    (h : step s (.rxCallback ch e t) = some s') :
    ∃ statics calls, rxProcessCb e t s.statics = some (statics, calls) ∧
      s' = { s with
        statics := statics
        handlerCalls := s.handlerCalls ++ calls
        diagram := s.diagram.afterRx e } := by
  obtain ⟨⟨statics, calls⟩, hcb, heq⟩ := Option.bind_eq_some_iff.1 h
  cases heq
  exact ⟨statics, calls, hcb, rfl⟩

theorem step_txCallback {ch : ℕ} {e : EventMask} {t t' : UInt32}
    (h : step s (.txCallback ch e t t') = some s') :
    ∃ handle, s' = { s with
      statics := { s.statics with txTransaction := handle }
      handlerCalls := s.handlerCalls ++ (txProcessCb e t t' s.statics).2
      diagram := s.diagram.afterTx e } := by
  obtain ⟨handle, hstatics⟩ := txProcessCb_statics e t t' s.statics
  simp only [step, hstatics, Option.some.injEq] at h
  exact ⟨handle, h.symm⟩

/-- The packet received is kept by everything but the callback of a reception and a call that hands
it out. -/
theorem step_packet {e : Event} (h : step s e = some s') (he : e.writesPacket = false) :
    s'.statics.rxPacket = s.statics.rxPacket ∧
      s'.statics.rxPacketLength = s.statics.rxPacketLength ∧
      s'.statics.rxPacketRssi = s.statics.rxPacketRssi := by
  cases e with
  | init | idle | setCallbacks | txNow | rxNow =>
    cases h
    exact ⟨rfl, rfl, rfl⟩
  | deinit =>
    rcases step_deinit h with rfl | rfl
    · exact ⟨rfl, rfl, rfl⟩
    · exact ⟨rfl, rfl, rfl⟩
  | txEnable channel psdu psduLen =>
    obtain ⟨buffer, rfl⟩ := step_txEnable h
    exact ⟨rfl, rfl, rfl⟩
  | rxEnable channel =>
    cases h
    rcases rxEnable_cases channel s.statics with ⟨-, hr⟩ | ⟨-, hr⟩ <;> simp only [hr, and_self]
  | startContinuousTx mode channel =>
    obtain ⟨buffer, rfl⟩ := step_startContinuousTx h
    exact ⟨rfl, rfl, rfl⟩
  | core e =>
    cases h
    cases e <;> exact ⟨rfl, rfl, rfl⟩
  | txCallback ch e t t' =>
    obtain ⟨handle, rfl⟩ := step_txCallback h
    exact ⟨rfl, rfl, rfl⟩
  | getReceivedFrame bufferLength buffer => cases he
  | rxCallback ch e t => cases he

end Inversion

/-- While the radio is idle the callbacks do nothing. -/
theorem rxProcessCb_of_idle {s : Statics} (h : s.idle = true) (e : EventMask) (t : UInt32) :
    rxProcessCb e t s = some (s, []) := by
  rw [rxProcessCb, if_pos h]

theorem txProcessCb_of_idle {s : Statics} (h : s.idle = true) (e : EventMask) (t t' : UInt32) :
    txProcessCb e t t' s = (s, []) := by
  rw [txProcessCb, if_pos h]

end EmbenetNode.Radio
