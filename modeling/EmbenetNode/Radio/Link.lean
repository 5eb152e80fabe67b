import Mathlib.Data.Bool.Basic
import Mathlib.Logic.Function.Basic
import EmbenetNode.Radio.Freshness
import EmbenetNode.Radio.Transmission

/-!
# Two radios

Two nodes call their ports and are called back in any order. What one of them has on the air, the
RF core of the other may place in its receive buffer, with the status PROP_DONE_OK if the checksum
is right; with any other status it may place anything. The frames that a node hands out are whole
frames that the other has posted (`frames_authentic`).

* `Link`, `Link.step`: the two ports and the air between them;
* `Authentic`: what a port keeps of a reception is a frame posted by the other;
* `Sound`, `sound_step`: the invariant of the two nodes, along the runs in which no frame is loaded
  while a transmission is under way.
-/

namespace EmbenetNode.Radio

open GuardedRun

/-- Two ports, with their past. -/
structure Link where
  node : Bool → Sender

/-- After a reset of both. -/
def Link.start : Link := ⟨fun _ => .start⟩

/-- An event of one node, or a frame that one node transmits and the RF core of the other receives
with the right checksum. -/
inductive LinkEvent
  | own (i : Bool) (e : Event)
  | air (i : Bool) (txStatus : OpStatus) (item : EntryStatus) (rssi : UInt8)
      (buffer : Vector UInt8 rxBufferLength)

/-- A reception that ends with the right checksum. -/
def Event.isGoodReception : Event → Bool
  | .core (.receptionDone _ _ .propDoneOk _) => true
  | _ => false

/-- The command that is on the air, as the RF core reads it. -/
def onAirCall (s : Statics) : RfCall :=
  .postTxChain s.txChainSetFs s.txChainDoTxPktLen s.radioTxBuffer s.txTransaction

instance (buffer : Vector UInt8 rxBufferLength) (rssi : UInt8) :
    ∀ call, Decidable (Places buffer rssi call)
  | .postTxChain .. => by unfold Places; infer_instance
  | .openRadio | .close | .flushCmd _ | .postFsOff | .postRxChain .. | .runTxTest _ => isFalse id

/-- One event. A frame passes from a transmission that is under way to the other node. -/
def Link.step (l : Link) : LinkEvent → Option Link
  | .own i e => do
      if e.isGoodReception then none
      else
        let s ← (l.node i).step e
        return ⟨Function.update l.node i s⟩
  | .air i txStatus item rssi buffer => do
      if (l.node i).onAir ≠ [] ∧ Places buffer rssi (onAirCall (l.node i).system.statics) then
        let sender ← (l.node i).step (.core (.transmissionDone txStatus))
        let receiver ← (l.node !i).step (.core (.receptionDone true item .propDoneOk buffer))
        return ⟨Function.update (Function.update l.node i sender) (!i) receiver⟩
      else none

/-- No frame is loaded while a transmission of the node is under way. -/
def Link.LeavesAlone (l : Link) : LinkEvent → Prop
  | .own i e => Radio.LeavesAlone (l.node i) e
  | .air .. => True

instance (l : Link) : ∀ e, Decidable (l.LeavesAlone e)
  | .own i e => inferInstanceAs (Decidable (Radio.LeavesAlone (l.node i) e))
  | .air .. => isTrue trivial

/-- A caller is handed out as valid only whole frames that were posted. -/
def HandsOutPosted (posted : List (List UInt8)) (s : Statics) : Prop :=
  ∀ bufferLength (buffer : Vector UInt8 bufferLength) info buffer' s',
    getReceivedFrame buffer s = some (info, buffer', s') → info.crcValid = true →
      ∃ psdu ∈ posted, info.mpduLength = psdu.length ∧
        buffer'.toList.take psdu.length = psdu

/-- What the port keeps of a reception is a frame that was posted: in the receive buffer, if the
status says that the checksum is right, and in the packet received. -/
structure Authentic (posted : List (List UInt8)) (s : Statics) : Prop where
  inBuffer : s.rxChainDoRxStatus = .propDoneOk → frameIn s ∈ posted
  length_le : s.rxPacketLength ≤ rxBufferLength
  held : s.rxPacketLength = 0 ∨ frameHeld s ∈ posted

/-! ### One port -/

section Port

variable {posted : List (List UInt8)}

theorem authentic_start (posted : List (List UInt8)) : Authentic posted start.statics :=
  ⟨nofun, Nat.zero_le _, .inl rfl⟩

/-- More frames may be posted. -/
theorem Authentic.mono {posted' : List (List UInt8)} {s : Statics} (hs : Authentic posted s)
    (h : ∀ frame ∈ posted, frame ∈ posted') : Authentic posted' s where
  inBuffer hstatus := h _ (hs.inBuffer hstatus)
  length_le := hs.length_le
  held := hs.held.imp_right (h _)

/-- The RF core alone writes the receive buffer and the status of the reception. -/
theorem step_reception {s s' : System} {e : Event} (h : step s e = some s')
    (he : ∀ c, e ≠ .core c) :
    s'.statics.rxChainDoRxStatus = s.statics.rxChainDoRxStatus ∧
      s'.statics.radioRxBuffer = s.statics.radioRxBuffer := by
  cases e with
  | init | idle | setCallbacks | txNow | rxNow =>
    cases h
    exact ⟨rfl, rfl⟩
  | deinit =>
    rcases step_deinit h with rfl | rfl
    · exact ⟨rfl, rfl⟩
    · exact ⟨rfl, rfl⟩
  | txEnable channel psdu psduLen =>
    obtain ⟨buffer, rfl⟩ := step_txEnable h
    exact ⟨rfl, rfl⟩
  | rxEnable channel =>
    cases h
    rcases rxEnable_cases channel s.statics with ⟨-, hr⟩ | ⟨-, hr⟩ <;> simp only [hr, and_self]
  | startContinuousTx mode channel =>
    obtain ⟨buffer, rfl⟩ := step_startContinuousTx h
    exact ⟨rfl, rfl⟩
  | getReceivedFrame bufferLength buffer =>
    obtain ⟨length, rfl⟩ := step_getReceivedFrame h
    exact ⟨rfl, rfl⟩
  | core c => exact absurd rfl (he c)
  | rxCallback ch e t =>
    obtain ⟨statics, calls, hcb, rfl⟩ := step_rxCallback h
    obtain ⟨item, handle, packet, length, rssi, rfl⟩ := rxProcessCb_statics hcb
    exact ⟨rfl, rfl⟩
  | txCallback ch e t t' =>
    obtain ⟨handle, rfl⟩ := step_txCallback h
    exact ⟨rfl, rfl⟩

theorem frameIn_congr {s s' : Statics} (h : s'.radioRxBuffer = s.radioRxBuffer) :
    frameIn s' = frameIn s := by
  simp only [frameIn, rxLength, h]

theorem frameHeld_congr {s s' : Statics} (hlength : s'.rxPacketLength = s.rxPacketLength)
    (hpacket : s'.rxPacket = s.rxPacket) : frameHeld s' = frameHeld s := by
  rw [frameHeld, hlength, hpacket, frameHeld]

/-- The callback of a reception takes over the frame in the receive buffer, if at all. -/
theorem authentic_of_makes {s s' : Statics} {e : EventMask} (hs : Authentic posted s)
    (hmakes : Makes s e s') (hstatus : s'.rxChainDoRxStatus = s.rxChainDoRxStatus)
    (hbuffer : s'.radioRxBuffer = s.radioRxBuffer) : Authentic posted s' := by
  have hin : s'.rxChainDoRxStatus = .propDoneOk → frameIn s' ∈ posted := by
    rw [hstatus, frameIn_congr hbuffer]
    exact hs.inBuffer
  cases hmakes with
  | left hover hlength hpacket =>
    refine ⟨hin, hlength ▸ hs.length_le, ?_⟩
    rw [hlength, frameHeld_congr hlength hpacket]
    exact hs.held
  | replaced hover hwell hlength hframe =>
    refine ⟨hin, hlength ▸ hwell.2.2, .inr ?_⟩
    rw [hframe]
    exact hs.inBuffer hwell.2.1
  | forgotten hover hbad hlength => exact ⟨hin, by rw [hlength]; exact Nat.zero_le _, .inl hlength⟩

/-- A call that hands out the frame forgets it or keeps it. -/
theorem authentic_of_dropUnlessFits {s : Statics} (hs : Authentic posted s) (bufferLength : ℕ) :
    Authentic posted (dropUnlessFits bufferLength s) := by
  unfold dropUnlessFits
  split_ifs
  · exact ⟨hs.inBuffer, Nat.zero_le _, .inl rfl⟩
  · exact hs

/-- Any event of the node but a good reception. -/
theorem authentic_own {s s' : System} {e : Event} (hs : Authentic posted s.statics)
    (he : e.isGoodReception = false) (h : step s e = some s') : Authentic posted s'.statics := by
  cases e with
  | getReceivedFrame bufferLength buffer =>
    obtain ⟨⟨info, buffer', statics⟩, hr, heq⟩ := Option.bind_eq_some_iff.1 h
    cases heq
    show Authentic posted statics
    rw [getReceivedFrame_statics hr]
    exact authentic_of_dropUnlessFits hs bufferLength
  | rxCallback ch e t =>
    obtain ⟨hstatus, hbuffer⟩ := step_reception h nofun
    obtain ⟨statics, calls, hcb, rfl⟩ := step_rxCallback h
    exact authentic_of_makes hs (makes_of_callback hcb) hstatus hbuffer
  | core c =>
    cases h
    cases c with
    | syncWord | synthesizerDone | transmissionDone => exact ⟨hs.inBuffer, hs.length_le, hs.held⟩
    | receptionDone ok item status buffer =>
      -- a failed reception may leave anything in the buffer, but no status that says it is good
      refine ⟨?_, hs.length_le, hs.held⟩
      intro hstatus
      cases (show status = .propDoneOk from hstatus)
      cases he
  | _ =>
    obtain ⟨hstatus, hbuffer⟩ := step_reception h nofun
    obtain ⟨hpacket, hlength, -⟩ := step_packet h rfl
    constructor
    · rw [hstatus, frameIn_congr hbuffer]
      exact hs.inBuffer
    · exact hlength ▸ hs.length_le
    · rw [hlength, frameHeld_congr hlength hpacket]
      exact hs.held

/-- What is kept decides what is handed out. -/
theorem handsOutPosted_of_authentic {s : Statics} (hs : Authentic posted s) :
    HandsOutPosted posted s := by
  intro bufferLength buffer info buffer' s' hget hcrc
  obtain ⟨info₁, buffer₁, s₁, hget₁, hmpdu, hvalid, hbytes⟩ :=
    getReceivedFrame_of_le hs.length_le buffer
  cases hget.symm.trans hget₁
  rw [hvalid, decide_eq_true_iff] at hcrc
  by_cases hshort : bufferLength < s.rxPacketLength
  · rw [if_pos hshort] at hmpdu
    exact absurd hmpdu hcrc
  · rw [if_neg hshort] at hmpdu
    have hmem : frameHeld s ∈ posted := hs.held.resolve_left (by rw [← hmpdu]; exact hcrc)
    refine ⟨_, hmem, ?_, ?_⟩
    · rw [length_frameHeld hs.length_le, hmpdu]
    · rw [length_frameHeld hs.length_le, ← hmpdu, hbytes, frameHeld, hmpdu]

/-- The frame that a good reception places is the one on the air. -/
theorem authentic_received {sender : Sender} (hloads : Loads sender) {s : Statics}
    (hs : Authentic posted s) (hmem : sender.loaded ∈ posted) (item : EntryStatus) {rssi : UInt8}
    {buffer : Vector UInt8 rxBufferLength}
    (hplaces : Places buffer rssi (onAirCall sender.system.statics)) :
    Authentic posted
      (CoreEvent.effect (.receptionDone true item .propDoneOk buffer) s) := by
  obtain ⟨f, hpsdu, -, rfl⟩ :=
    receivedFrame_of_places hloads.length_le hloads.pktLen hloads.buffer hplaces
  refine ⟨fun _ => ?_, hs.length_le, hs.held⟩
  have hframe : frameIn (CoreEvent.effect (.receptionDone true item .propDoneOk f.buffer) s) =
      f.psdu := by
    show (f.buffer.toList.drop 1).take f.buffer[0].toNat = f.psdu
    rw [f.length_byte, f.psdu_bytes]
  rw [hframe, hpsdu]
  exact hmem

end Port

/-! ### Runs of the two -/

/-- The invariant of the two nodes. -/
structure Sound (l : Link) : Prop where
  loads : ∀ i, Loads (l.node i)
  onAir : ∀ i, OnAir (l.node i)
  authentic : ∀ i, Authentic (l.node !i).posted (l.node i).system.statics

theorem sound_start : Sound .start :=
  ⟨fun _ => loads_start, fun _ => onAir_start, fun _ => authentic_start _⟩

variable {l l' : Link}

/-- An event of one node leaves the other alone. -/
theorem step_own {i : Bool} {e : Event} (h : l.step (.own i e) = some l') :
    e.isGoodReception = false ∧ (l.node i).step e = some (l'.node i) ∧
      l'.node (!i) = l.node (!i) := by
  simp only [Link.step] at h
  split_ifs at h with hgood
  obtain ⟨s, hs, heq⟩ := Option.bind_eq_some_iff.1 h
  cases heq
  refine ⟨eq_false_of_ne_true hgood, ?_, Function.update_of_ne (by simp) _ _⟩
  rw [hs]
  exact congrArg some (Function.update_self i s l.node).symm

/-- A frame ends a transmission of one node and a reception of the other. -/
theorem step_air {i : Bool} {txStatus : OpStatus} {item : EntryStatus} {rssi : UInt8}
    {buffer : Vector UInt8 rxBufferLength}
    (h : l.step (.air i txStatus item rssi buffer) = some l') :
    (l.node i).onAir ≠ [] ∧ Places buffer rssi (onAirCall (l.node i).system.statics) ∧
      (l.node i).step (.core (.transmissionDone txStatus)) = some (l'.node i) ∧
      (l.node !i).step (.core (.receptionDone true item .propDoneOk buffer)) =
        some (l'.node !i) := by
  simp only [Link.step] at h
  split_ifs at h with hair
  obtain ⟨sender, hsender, h⟩ := Option.bind_eq_some_iff.1 h
  obtain ⟨receiver, hreceiver, heq⟩ := Option.bind_eq_some_iff.1 h
  cases heq
  refine ⟨hair.1, hair.2, ?_, ?_⟩
  · rw [hsender]
    refine congrArg some ?_
    show sender = Function.update (Function.update l.node i sender) (!i) receiver i
    rw [Function.update_of_ne (by simp), Function.update_self]
  · rw [hreceiver]
    refine congrArg some ?_
    show receiver = Function.update (Function.update l.node i sender) (!i) receiver (!i)
    rw [Function.update_self]

/-- An event of one node, which may post a frame. -/
theorem sound_own {i : Bool} {e : Event} (hl : Sound l) (hguard : Radio.LeavesAlone (l.node i) e)
    (h : l.step (.own i e) = some l') : Sound l' := by
  obtain ⟨hgood, hi, hother⟩ := step_own h
  obtain ⟨hstep, -, hposted, -⟩ := sender_step hi
  constructor
  · intro j
    rcases Bool.eq_or_eq_not j i with rfl | rfl
    · exact loads_step (hl.loads j) hi
    · exact hother ▸ hl.loads _
  · intro j
    rcases Bool.eq_or_eq_not j i with rfl | rfl
    · exact onAir_step (hl.onAir j) hguard hi
    · exact hother ▸ hl.onAir _
  · intro j
    rcases Bool.eq_or_eq_not j i with rfl | rfl
    · rw [hother]
      exact authentic_own (hl.authentic j) hgood hstep
    · -- the other node keeps what it has received, and more may be posted to it
      have hauthentic := hl.authentic (!i)
      rw [Bool.not_not] at hauthentic ⊢
      rw [hother, hposted]
      exact hauthentic.mono fun frame hframe => mem_postedAfter hframe e

/-- A frame that passes from one node to the other. -/
theorem sound_air {i : Bool} {txStatus : OpStatus} {item : EntryStatus} {rssi : UInt8}
    {buffer : Vector UInt8 rxBufferLength} (hl : Sound l)
    (h : l.step (.air i txStatus item rssi buffer) = some l') : Sound l' := by
  obtain ⟨honAir, hplaces, hi, hother⟩ := step_air h
  obtain ⟨hstep, -, hposted, -⟩ := sender_step hi
  obtain ⟨hstep', -, hposted', -⟩ := sender_step hother
  constructor
  · intro j
    rcases Bool.eq_or_eq_not j i with rfl | rfl
    · exact loads_step (hl.loads j) hi
    · exact loads_step (hl.loads _) hother
  · intro j
    rcases Bool.eq_or_eq_not j i with rfl | rfl
    · exact onAir_step (hl.onAir j) (fun _ => rfl) hi
    · exact onAir_step (hl.onAir _) (fun _ => rfl) hother
  · intro j
    rcases Bool.eq_or_eq_not j i with rfl | rfl
    · rw [hposted']
      exact authentic_own (hl.authentic j) rfl hstep
    · -- the receiver: the frame under way is one that the sender posted
      have hauthentic := hl.authentic (!i)
      rw [Bool.not_not] at hauthentic ⊢
      obtain ⟨t, ht⟩ := List.exists_mem_of_ne_nil _ honAir
      obtain ⟨hlast, hmem⟩ := hl.onAir i t ht
      rw [hlast] at hmem
      have hreceived := authentic_received (hl.loads i) hauthentic hmem item hplaces
      rw [hposted]
      rw [← Option.some.inj hstep']
      exact hreceived

/-- **The step lemma** for the two nodes. -/
theorem sound_step {e : LinkEvent} (hl : Sound l) (hguard : l.LeavesAlone e)
    (h : l.step e = some l') : Sound l' := by
  cases e with
  | own i e => exact sound_own hl hguard h
  | air i txStatus item rssi buffer => exact sound_air hl h

/-- **The frames handed out are authentic.** Two nodes call their ports and are called back in any
order, with any event masks, while frames pass between them and receptions fail in any way. As long
as neither loads a frame while a transmission of its own is under way, at every moment a call of
EMBENET_RADIO_GetReceivedFrame hands out as valid only a frame that the other node has posted with
TxNow, whole and unchanged. -/
theorem frames_authentic {es : List LinkEvent}
    (hguard : Along Link.step (fun l e _ => l.LeavesAlone e) .start es) :
    Along Link.step
      (fun _ _ l' => ∀ i, HandsOutPosted (l'.node !i).posted (l'.node i).system.statics) .start
      es := by
  have hstep : ∀ l e l', Sound l → l.LeavesAlone e → Link.step l e = some l' →
      (∀ i, HandsOutPosted (l'.node !i).posted (l'.node i).system.statics) ∧ Sound l' := by
    intro l e l' hl hguard h
    have hl' := sound_step hl hguard h
    exact ⟨fun i => handsOutPosted_of_authentic (hl'.authentic i), hl'⟩
  exact Along.of_invariant hstep sound_start hguard

/-- One byte from the first node to the second. -/
def byteSent : List LinkEvent :=
  [.own false .init, .own true .init, .own false (.txEnable 3 [0x41] 1), .own false (.txNow true),
    .own true (.rxEnable 3), .own true (.rxNow true),
    .air false .propDoneOk .finished 0xb0 byteBuffer,
    .own true (.rxCallback 0 { rxOk := true } 900)]

theorem frames_authentic_byteSent :
    Along Link.step
      (fun _ _ l' => ∀ i, HandsOutPosted (l'.node !i).posted (l'.node i).system.statics) .start
      byteSent :=
  frames_authentic (by decide +kernel)

end EmbenetNode.Radio
