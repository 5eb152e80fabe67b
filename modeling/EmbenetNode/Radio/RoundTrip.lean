import EmbenetNode.Radio.Reception

/-!
# The round trip of a radio frame

A frame passes three buffers. The transmit buffer holds the frame alone; in the receive buffer a
length byte comes before it and the signal strength after it; `rxPacket` again holds the frame
alone, followed by whatever is left of longer frames. EMBENET_RADIO_GetReceivedFrame hands it out,
as often as it is asked, until another reception ends or a caller has no room for it
(`frame_round_trip`); then the frame is dropped (`short_read_drops`).

* `postTxChain_of_txEnable`: the command that TxEnable and TxNow post;
* `Places`: what the RF core of a receiver makes of it;
* `Held`, `held_step`: the frame is kept by everything but the end of a reception;
* `HandsOut`: the calls of EMBENET_RADIO_GetReceivedFrame on a frame.
-/

namespace EmbenetNode.Radio

open GuardedRun

/-! ### The sender -/

/-- TxEnable and TxNow post a command that sends the frame, whatever the buffer held before. -/
theorem postTxChain_of_txEnable (channel : UInt8) {psdu : List UInt8}
    (hmax : psdu.length ≤ maxPsduLength) (sender : Statics) (result : CmdHandle) :
    ∃ r pktLen pPkt, txEnable channel psdu psdu.length sender = some r ∧
      (txNow result r.statics).calls = [.postTxChain (setChannel channel) pktLen pPkt result] ∧
      pktLen.toNat = psdu.length ∧ pPkt.toList.take psdu.length = psdu := by
  have hlength : ¬ psdu.length > maxPsduLength := Nat.not_lt_of_le hmax
  have hpktLen : (UInt8.ofNat psdu.length).toNat = psdu.length := by
    rw [UInt8.toNat_ofNat', Nat.mod_eq_of_lt (Nat.lt_of_le_of_lt hmax (by decide))]
  obtain ⟨pPkt, hcopy, hpPkt⟩ := Checked.memcpy_of_le sender.radioTxBuffer psdu
    (Nat.le_trans hmax (by decide)) (Nat.le_refl psdu.length)
  let statics : Statics := { sender with
    idle := false
    txChainSetFs := setChannel channel
    radioTxBuffer := pPkt
    txChainDoTxPktLen := UInt8.ofNat psdu.length }
  refine ⟨{ status := .success, statics := statics }, _, pPkt, ?_, rfl, hpktLen, ?_⟩
  · simp only [txEnable, if_neg hlength, hcopy, Option.bind_eq_bind, Option.bind_some,
      Option.pure_def]
    rfl
  · rw [hpPkt, List.take_length, List.take_left]

/-! ### The air -/

/-- The RF core of a receiver has placed the packet of the command in the receive buffer: the length
byte, the `pktLen` bytes at `pPkt`, and the signal strength. -/
def Places (buffer : Vector UInt8 rxBufferLength) (rssi : UInt8) : RfCall → Prop
  | .postTxChain _ pktLen pPkt _ =>
      buffer.toList.take (pktLen.toNat + 2) =
        pktLen :: (pPkt.toList.take pktLen.toNat ++ [rssi])
  | _ => False

/-- What is placed for the command that a sender has posted is a frame. -/
theorem receivedFrame_of_places {psdu : List UInt8} (hmax : psdu.length ≤ maxPsduLength)
    {setFs : FsCommand} {pktLen : UInt8} {pPkt : Vector UInt8 txBufferLength} {result : CmdHandle}
    (hpktLen : pktLen.toNat = psdu.length) (hpPkt : pPkt.toList.take psdu.length = psdu)
    {buffer : Vector UInt8 rxBufferLength} {rssi : UInt8}
    (h : Places buffer rssi (.postTxChain setFs pktLen pPkt result)) :
    ∃ f : ReceivedFrame, f.psdu = psdu ∧ f.rssi = rssi ∧ f.buffer = buffer := by
  rw [Places, hpktLen, hpPkt] at h
  have hbyte : pktLen = UInt8.ofNat psdu.length := by rw [← hpktLen, UInt8.ofNat_toNat]
  rw [hbyte] at h
  exact ⟨⟨psdu, rssi, buffer, hmax, h⟩, rfl, rfl, rfl⟩

/-! ### The frame handed out -/

/-- The frame received last. -/
structure Held (psdu : List UInt8) (rssi : Int8) (s : Statics) : Prop where
  length : s.rxPacketLength = psdu.length
  rssi : s.rxPacketRssi = rssi
  packet : s.rxPacket.toList.take psdu.length = psdu

/-- A call with room for the frame returns it and leaves the rest of the buffer, one without returns
nothing, leaves the buffer, and drops the frame. -/
structure HandsOut (psdu : List UInt8) (rssi : Int8) (s : Statics) : Prop where
  fits : ∀ bufferLength (buffer : Vector UInt8 bufferLength), psdu.length ≤ bufferLength →
    ∃ buffer', getReceivedFrame buffer s =
        some ({ rssi, lqi := 0, crcValid := true, mpduLength := psdu.length }, buffer', s) ∧
      buffer'.toList = psdu ++ buffer.toList.drop psdu.length
  short : ∀ bufferLength (buffer : Vector UInt8 bufferLength), bufferLength < psdu.length →
    getReceivedFrame buffer s =
      some ({ rssi, lqi := 0, crcValid := false, mpduLength := 0 }, buffer,
        { s with rxPacketLength := 0 })

variable {psdu : List UInt8} {rssi : Int8}

theorem dropUnlessFits_of_le {s : Statics} {bufferLength : ℕ}
    (h : s.rxPacketLength ≤ bufferLength) : dropUnlessFits bufferLength s = s :=
  if_neg (Nat.not_lt_of_le h)

theorem handsOut_of_held (hpos : 1 ≤ psdu.length) (hmax : psdu.length ≤ maxPsduLength)
    {s : Statics} (hs : Held psdu rssi s) : HandsOut psdu rssi s where
  fits bufferLength buffer hfits := by
    have hne : s.rxPacketLength ≠ 0 := by
      rw [hs.length]
      omega
    have hsrc : s.rxPacketLength ≤ s.rxPacket.toList.length := by
      rw [hs.length, Vector.length_toList]
      exact Nat.le_trans hmax (by decide)
    obtain ⟨buffer', hcopy, hbuffer⟩ := Checked.memcpy_of_le buffer s.rxPacket.toList
      (hs.length ▸ hfits) hsrc
    rw [hs.length, hs.packet] at hbuffer
    refine ⟨buffer', ?_, hbuffer⟩
    have hkept := dropUnlessFits_of_le (hs.length ▸ hfits : s.rxPacketLength ≤ bufferLength)
    simp only [getReceivedFrame, hkept, hne, hcopy, hs.rssi, ne_eq, not_false_eq_true, if_true,
      decide_true, Option.bind_eq_bind, Option.bind_some, Option.pure_def]
    rw [hs.length]
  short bufferLength buffer hshort := by
    have hdrop : dropUnlessFits bufferLength s = { s with rxPacketLength := 0 } :=
      if_pos (by rw [hs.length]; exact hshort)
    simp only [getReceivedFrame, hdrop, hs.rssi, ne_eq, not_true_eq_false, if_false, decide_false,
      Option.pure_def]

/-! ### The frame kept -/

/-- No reception ends, and a call of EMBENET_RADIO_GetReceivedFrame has room for the frame. -/
def Undisturbed (psdu : List UInt8) : Event → Prop
  | .getReceivedFrame bufferLength _ => psdu.length ≤ bufferLength
  | .rxCallback _ e _ => e.rxDone = false
  | _ => True

/-- The frame is in three variables. -/
theorem Held.congr {s s' : Statics} (hs : Held psdu rssi s)
    (hlength : s'.rxPacketLength = s.rxPacketLength) (hrssi : s'.rxPacketRssi = s.rxPacketRssi)
    (hpacket : s'.rxPacket = s.rxPacket) : Held psdu rssi s' := by
  constructor
  · rw [hlength, hs.length]
  · rw [hrssi, hs.rssi]
  · rw [hpacket, hs.packet]

/-- **The step lemma**: the frame is kept until another reception ends. -/
theorem held_step (hpos : 1 ≤ psdu.length) (hmax : psdu.length ≤ maxPsduLength)
    {s s' : System} {e : Event} (hs : Held psdu rssi s.statics) (he : Undisturbed psdu e)
    (h : step s e = some s') : Held psdu rssi s'.statics := by
  cases e with
  | getReceivedFrame bufferLength buffer =>
    obtain ⟨buffer', hr, -⟩ := (handsOut_of_held hpos hmax hs).fits bufferLength buffer he
    obtain ⟨r, hr', heq⟩ := Option.bind_eq_some_iff.1 h
    cases hr.symm.trans hr'
    cases heq
    exact hs
  | rxCallback ch e t =>
    obtain ⟨statics, calls, hcb, rfl⟩ := step_rxCallback h
    have hdone : ¬ e.rxDone = true := by
      rw [show e.rxDone = false from he]
      decide
    rcases rxProcessCb_cases hcb with ⟨-, rfl, -⟩ | ⟨-, -, rfl, -⟩ | ⟨-, -, hend, -⟩ |
      ⟨-, -, hend, -⟩ | ⟨-, -, -, rfl, -⟩
    · exact hs
    · exact hs
    · exact absurd hend hdone
    · exact absurd hend hdone
    · exact hs.congr rfl rfl rfl
  | _ =>
    obtain ⟨hpacket, hlength, hrssi⟩ := step_packet h rfl
    exact hs.congr hlength hrssi hpacket

/-- The callback at the end of the reception takes the frame over. -/
theorem held_of_callback (f : ReceivedFrame) {receiver : System}
    (hlive : receiver.statics.idle = false) (item : EntryStatus) {e : EventMask}
    (hok : e.rxOk = true) (hsoft : e.mdmSoft = false) (ch : ℕ) (t : UInt32) :
    ∃ s, (step receiver (.core (.receptionDone true item .propDoneOk f.buffer))).bind
        (step · (.rxCallback ch e t)) = some s ∧ Held f.psdu f.rssi.toInt8 s.statics := by
  have hdone : e.rxDone = true := by rw [EventMask.rxDone, hok, Bool.true_or]
  let s₁ : Statics := { receiver.statics with
    rxItemStatus := item, rxChainDoRxStatus := .propDoneOk, radioRxBuffer := f.buffer }
  obtain ⟨packet, hcb, hpacket⟩ :=
    rxProcessCb_received (s := s₁) f hlive hsoft hdone rfl rfl t
  have hcallback : step { receiver with statics := s₁ } (.rxCallback ch e t) = some _ :=
    Option.bind_eq_some_iff.2 ⟨_, hcb, rfl⟩
  refine ⟨_, hcallback, rfl, rfl, ?_⟩
  show packet.toList.take f.psdu.length = f.psdu
  rw [hpacket, List.take_left]

/-- **The round trip of a frame.** The command posted by TxEnable and TxNow has the length of the
frame, and its packet begins with the frame. When the RF core of a receiver that is not idle has
placed it in the receive buffer, with status PROP_DONE_OK, and raises RF_EventRxOk,
EMBENET_RADIO_GetReceivedFrame returns the frame with its signal strength to a caller that has room
for it, and nothing to one that has not. It does so again after any events but the end of another
reception and a call that has no room. -/
theorem frame_round_trip (channel : UInt8) {psdu : List UInt8} (hpos : 1 ≤ psdu.length)
    (hmax : psdu.length ≤ maxPsduLength) (sender : Statics) (result : CmdHandle) :
    ∃ r pktLen pPkt, txEnable channel psdu psdu.length sender = some r ∧
      (txNow result r.statics).calls = [.postTxChain (setChannel channel) pktLen pPkt result] ∧
      pktLen.toNat = psdu.length ∧ pPkt.toList.take psdu.length = psdu ∧
      ∀ (receiver : System) (buffer : Vector UInt8 rxBufferLength) (rssi : UInt8)
        (item : EntryStatus) (e : EventMask) (ch : ℕ) (t : UInt32) (es : List Event),
        receiver.statics.idle = false →
        Places buffer rssi (.postTxChain (setChannel channel) pktLen pPkt result) →
        e.rxOk = true → e.mdmSoft = false →
        ∃ s, (step receiver (.core (.receptionDone true item .propDoneOk buffer))).bind
            (step · (.rxCallback ch e t)) = some s ∧
          HandsOut psdu rssi.toInt8 s.statics ∧
          (Along step (fun _ e _ => Undisturbed psdu e) s es →
            Along step (fun _ _ s' => HandsOut psdu rssi.toInt8 s'.statics) s es) := by
  obtain ⟨r, pktLen, pPkt, hr, hcalls, hpktLen, hpPkt⟩ :=
    postTxChain_of_txEnable channel hmax sender result
  refine ⟨r, pktLen, pPkt, hr, hcalls, hpktLen, hpPkt, ?_⟩
  intro receiver buffer rssi item e ch t es hlive hplaces hok hsoft
  obtain ⟨f, rfl, rfl, rfl⟩ := receivedFrame_of_places hmax hpktLen hpPkt hplaces
  obtain ⟨s, hs, hheld⟩ := held_of_callback f hlive item hok hsoft ch t
  refine ⟨s, hs, handsOut_of_held hpos hmax hheld, ?_⟩
  have hstep : ∀ s e s', Held f.psdu f.rssi.toInt8 s.statics → Undisturbed f.psdu e →
      step s e = some s' →
      HandsOut f.psdu f.rssi.toInt8 s'.statics ∧ Held f.psdu f.rssi.toInt8 s'.statics := by
    intro s e s' hheld he h
    have hheld' := held_step hpos hmax hheld he h
    exact ⟨handsOut_of_held hpos hmax hheld', hheld'⟩
  exact Along.of_invariant hstep hheld

/-- What is placed for a frame of one byte. -/
theorem places_byteBuffer {setFs : FsCommand} {pktLen : UInt8}
    {pPkt : Vector UInt8 txBufferLength} {result : CmdHandle} (hpktLen : pktLen.toNat = 1)
    (hpPkt : pPkt.toList.take 1 = [0x41]) :
    Places byteBuffer 0xb0 (.postTxChain setFs pktLen pPkt result) := by
  have hbyte : pktLen = 1 := UInt8.toNat_inj.1 hpktLen
  rw [Places, hpktLen, hpPkt, hbyte]
  decide

/-- A frame of one byte, handed out twice with the radio idled in between. -/
theorem frame_round_trip_byte :
    ∃ s, (step start (.core (.receptionDone true .finished .propDoneOk byteBuffer))).bind
        (step · (.rxCallback 0 { rxOk := true } 900)) = some s ∧
      HandsOut [0x41] (0xb0 : UInt8).toInt8 s.statics ∧
      Along step (fun _ _ s' => HandsOut [0x41] (0xb0 : UInt8).toInt8 s'.statics) s
        [.getReceivedFrame 1 #v[0], .idle] := by
  have hpos : 1 ≤ [(0x41 : UInt8)].length := by decide
  obtain ⟨r, pktLen, pPkt, -, -, hpktLen, hpPkt, hreceiver⟩ :=
    frame_round_trip 3 hpos (by decide) {} (some 0)
  obtain ⟨s, hs, hout, hlater⟩ := hreceiver start byteBuffer 0xb0 .finished { rxOk := true } 0 900
    [.getReceivedFrame 1 #v[0], .idle] rfl (places_byteBuffer hpktLen hpPkt) rfl rfl
  refine ⟨s, hs, hout, hlater ?_⟩
  apply along_of_forall_mem
  intro e he _ _
  rcases List.mem_cons.1 he with rfl | he
  · exact Nat.le_refl 1
  · cases List.mem_singleton.1 he
    trivial

/-- A frame of one byte is sent and received. -/
def byteReceived : List Event :=
  [.init, .rxEnable 3, .rxNow true, .core (.receptionDone true .finished .propDoneOk byteBuffer),
    .rxCallback 0 { rxOk := true } 900]

/-- What a caller with room for one byte is handed out after a run. -/
def handedByteAfter (es : List Event) : Option (Bool × ℕ × List UInt8) :=
  (es.foldlM step start).bind fun s => handedByte s.statics

/-- The frame sent is handed out, and again; after a call without room for it, it is not handed out
any more, although no other reception has ended. -/
theorem short_read_drops :
    (∃ r call, txEnable 3 [0x41] 1 {} = some r ∧ (txNow (some 0) r.statics).calls = [call] ∧
      Places byteBuffer 0xb0 call) ∧
      handedByteAfter byteReceived = some (true, 1, [0x41]) ∧
      handedByteAfter (byteReceived ++ [.getReceivedFrame 1 #v[0]]) = some (true, 1, [0x41]) ∧
      handedByteAfter (byteReceived ++ [.getReceivedFrame 0 #v[]]) = some (false, 0, [0]) := by
  refine ⟨?_, by decide +kernel, by decide +kernel, by decide +kernel⟩
  obtain ⟨r, pktLen, pPkt, hr, hcalls, hpktLen, hpPkt⟩ :=
    postTxChain_of_txEnable 3 (show [(0x41 : UInt8)].length ≤ maxPsduLength by decide) {} (some 0)
  exact ⟨r, _, hr, hcalls, places_byteBuffer hpktLen hpPkt⟩

end EmbenetNode.Radio
