import EmbenetNode.Lib.GuardedRun
import EmbenetNode.Brt.Stream
import EmbenetNode.Brt.Transmit

/-!
# Two nodes on a line

One side calls `EMBENET_BRT_Send`, over a transmit ring that drains at any pace and may be full, the
other side `EMBENET_BRT_Receive`, while the bytes queued are on their way in between.

* `Line`, `Line.step`: both sides, the bytes in flight, and what has been sent and returned;
* `Carried`, `carried_step`: what arrives is what was queued, in order and once;
* `delivered_of_room`: while every frame finds room, the packets sent are delivered;
* `kept`, `kept_delivered`: what becomes of them otherwise.
-/

namespace EmbenetNode.Brt

open ByteStuffing Deframer GuardedRun

/-- A call of `EMBENET_BRT_Send`: the packet, and what the transmit ring took of its frame. -/
structure Sending where
  packet : List UInt8
  bytes : List UInt8

/-- The frame was queued as a whole. -/
def Sending.IsWhole (s : Sending) : Prop := s.bytes = sent s.packet

instance (s : Sending) : Decidable s.IsWhole := inferInstanceAs (Decidable (_ = _))

/-- The transmit ring of the one side, the receiving port of the other, and the bytes that were
queued and have not arrived; the calls made on the one side, and what those on the other returned. -/
structure Line where
  ring : TxRing
  sendings : List Sending := []
  inFlight : List UInt8 := []
  port : Port := .initial
  rets : List Return := []

/-- A call of `EMBENET_BRT_Send`, with the number of bytes that leave the ring before each of its
writes; bytes that leave the ring between calls; a call of `EMBENET_BRT_Receive`, with what arrives
before and during it. -/
inductive LineEvent
  | send (packet : List UInt8) (pace : ℕ → ℕ)
  | drain (n : ℕ)
  | receive (call : Call)

/-- One event. What arrives are the bytes in flight, the oldest first. -/
def Line.step (l : Line) : LineEvent → Option Line
  | .send packet pace =>
      let uart := Brt.send (fun uart data => (uart2Write uart data).1) ⟨l.ring, pace, []⟩ packet
      some { l with
        ring := uart.ring
        sendings := l.sendings ++ [⟨packet, uart.accepted⟩]
        inFlight := l.inFlight ++ uart.accepted }
  | .drain n => some { l with ring := l.ring.drain n }
  | .receive call => do
      if call.arrivals.flatten <+: l.inFlight then
        let (port, ret) ← Brt.receive l.port call
        return { l with
          inFlight := l.inFlight.drop call.arrivals.flatten.length
          port
          rets := l.rets ++ [ret] }
      else none

/-- Before the first call. -/
def Line.start (ring : TxRing) : Line := { ring }

/-- The packets that were passed to `EMBENET_BRT_Send`. -/
def Line.packets (l : Line) : List (List UInt8) := l.sendings.map Sending.packet

/-- The caller's buffer holds any packet. -/
def LineEvent.HasBuffer : LineEvent → Prop
  | .receive call => 254 ≤ call.packetBufferSize
  | .send .. | .drain _ => True

/-- A frame finds room in the transmit ring. -/
def Line.FindsRoom (l : Line) : LineEvent → Prop
  | .send packet _ => (sent packet).length ≤ l.ring.free
  | .drain _ | .receive _ => True

instance decidableLineBuffer : ∀ e : LineEvent, Decidable e.HasBuffer
  | .receive _ => inferInstanceAs (Decidable (_ ≤ _))
  | .send .. | .drain _ => isTrue trivial

instance (l : Line) : ∀ e, Decidable (l.FindsRoom e)
  | .send .. => inferInstanceAs (Decidable (_ ≤ _))
  | .drain _ | .receive _ => isTrue trivial

/-- The state of the receiver after the bytes that were read. -/
def Line.receiver (l : Line) : Receiver := (feed 2 .hunting (consumed l.rets)).1

/-- The invariant: the bytes queued are those read, those received and those in flight, and the
receiving side has decoded what it read. -/
structure Carried (l : Line) : Prop where
  sim : Sim l.port.statics l.receiver
  stream : l.sendings.flatMap Sending.bytes = consumed l.rets ++ l.port.rxQueue ++ l.inFlight
  delivered : delivered l.rets =
    (feed 2 (.hunting : Receiver) (consumed l.rets)).2.filterMap payload

/-! ### The bytes on the line -/

section Line

variable {l l' : Line} {e : LineEvent}

theorem carried_start (ring : TxRing) : Carried (.start ring) := ⟨initial_sim, rfl, rfl⟩

theorem delivered_append (rets rets' : List Return) :
    delivered (rets ++ rets') = delivered rets ++ delivered rets' := by
  rw [delivered, List.filter_append, List.map_append, delivered, delivered]

theorem consumed_append (rets rets' : List Return) :
    consumed (rets ++ rets') = consumed rets ++ consumed rets' := List.flatMap_append

/-- A call of `EMBENET_BRT_Receive` on the line. -/
theorem step_receive {call : Call} (h : l.step (.receive call) = some l') :
    call.arrivals.flatten <+: l.inFlight ∧ ∃ port ret, receive l.port call = some (port, ret) ∧
      l' = { l with
        inFlight := l.inFlight.drop call.arrivals.flatten.length
        port
        rets := l.rets ++ [ret] } := by
  simp only [Line.step] at h
  split_ifs at h with harrivals
  obtain ⟨⟨port, ret⟩, hreceive, heq⟩ := Option.bind_eq_some_iff.1 h
  cases heq
  exact ⟨harrivals, port, ret, hreceive, rfl⟩

/-- **The step lemma**: every event keeps the invariant. -/
theorem carried_step (hl : Carried l) (he : e.HasBuffer) (h : l.step e = some l') :
    Carried l' := by
  cases e with
  | send packet pace =>
    cases h
    refine ⟨hl.sim, ?_, hl.delivered⟩
    show (l.sendings ++ [_]).flatMap Sending.bytes = _
    rw [List.flatMap_append, hl.stream, List.flatMap_singleton, List.append_assoc]
  | drain n =>
    cases h
    exact ⟨hl.sim, hl.stream, hl.delivered⟩
  | receive call =>
    obtain ⟨⟨later, hlater⟩, port, ret, hreceive, rfl⟩ := step_receive h
    obtain ⟨port', ret', hreceive', hsplit, hsim, hout⟩ := receive_sim hl.sim call
    cases hreceive.symm.trans hreceive'
    have hread : consumed (l.rets ++ [ret]) = consumed l.rets ++ ret.consumed := by
      rw [consumed_append, consumed_cons]
      exact congrArg _ (List.append_nil _)
    constructor
    · show Sim port.statics (feed 2 .hunting (consumed (l.rets ++ [ret]))).1
      rw [hread, feed_append]
      exact hsim
    · show l.sendings.flatMap Sending.bytes = consumed (l.rets ++ [ret]) ++ port.rxQueue ++ _
      -- the arrivals move from the line to the end of the queue, the bytes read leave its front
      rw [hl.stream, hread, ← hlater, List.drop_left]
      calc consumed l.rets ++ l.port.rxQueue ++ (call.arrivals.flatten ++ later)
          = consumed l.rets ++ (l.port.rxQueue ++ call.arrivals.flatten) ++ later := by
            simp only [List.append_assoc]
        _ = consumed l.rets ++ ret.consumed ++ port.rxQueue ++ later := by
            rw [hsplit]
            simp only [List.append_assoc]
    · show delivered (l.rets ++ [ret]) = (feed 2 _ (consumed (l.rets ++ [ret]))).2.filterMap payload
      rw [hread, feed_append, List.filterMap_append, delivered_append, hl.delivered,
        delivered_one hout he]
      rfl

/-- A frame that finds room is queued as a whole. -/
theorem isWhole_of_room {packet : List UInt8} {pace : ℕ → ℕ}
    (hroom : l.FindsRoom (.send packet pace)) :
    (⟨packet, transmitted l.ring pace packet⟩ : Sending).IsWhole := transmitted_of_le hroom pace

/-- All frames were queued as a whole. -/
def AllWhole (l : Line) : Prop := ∀ s ∈ l.sendings, s.IsWhole

theorem allWhole_step (hl : AllWhole l) (hroom : l.FindsRoom e) (h : l.step e = some l') :
    AllWhole l' := by
  cases e with
  | send packet pace =>
    cases h
    show ∀ s ∈ l.sendings ++ [_], s.IsWhole
    rw [List.forall_mem_append, List.forall_mem_singleton]
    exact ⟨hl, isWhole_of_room hroom⟩
  | drain n =>
    cases h
    exact hl
  | receive call =>
    obtain ⟨-, port, ret, -, rfl⟩ := step_receive h
    exact hl

theorem flatMap_bytes_of_allWhole (hl : AllWhole l) :
    l.sendings.flatMap Sending.bytes = l.packets.flatMap sent := by
  rw [Line.packets, List.flatMap_map]
  exact List.flatMap_congr hl

/-- What has been delivered when everything has been sent whole. -/
theorem delivered_of_allWhole (hl : Carried l) (hwhole : AllWhole l) :
    delivered l.rets <+: deliverable l.packets ∧
      (l.inFlight = [] → l.port.rxQueue = [] → delivered l.rets = deliverable l.packets) := by
  have hsent := (feed_sent (r := .hunting) (Or.inl rfl) l.packets).2
  have hstream := hl.stream
  rw [flatMap_bytes_of_allWhole hwhole] at hstream
  rw [hl.delivered, ← hsent]
  constructor
  · have hread : consumed l.rets <+: l.packets.flatMap sent := by
      rw [hstream, List.append_assoc]
      exact List.prefix_append _ _
    exact (feed_of_isPrefix 2 _ hread).filterMap payload
  · intro hflight hqueue
    rw [hflight, hqueue, List.append_nil, List.append_nil] at hstream
    rw [hstream]

/-- **Packets sent are delivered.** However the calls on the two sides, the bytes leaving the ring
and those arriving are interleaved: as long as every frame finds room in the transmit ring when it
is sent, at every moment the packets delivered are the first of the packets of 1 to 254 bytes that were
sent, in order, and all of them when no byte is in flight or unread. -/
theorem delivered_of_room {ring : TxRing} {es : List LineEvent}
    (hguard : Along Line.step (fun l e _ => l.FindsRoom e ∧ e.HasBuffer) (.start ring) es) :
    Along Line.step
      (fun _ _ l' => delivered l'.rets <+: deliverable l'.packets ∧
        (l'.inFlight = [] → l'.port.rxQueue = [] → delivered l'.rets = deliverable l'.packets))
      (.start ring) es := by
  have hstep : ∀ l e l', (Carried l ∧ AllWhole l) → (l.FindsRoom e ∧ e.HasBuffer) →
      Line.step l e = some l' →
        (delivered l'.rets <+: deliverable l'.packets ∧
          (l'.inFlight = [] → l'.port.rxQueue = [] →
            delivered l'.rets = deliverable l'.packets)) ∧ Carried l' ∧ AllWhole l' := by
    intro l e l' hl hguard h
    have hcarried := carried_step hl.1 hguard.2 h
    have hwhole := allWhole_step hl.2 hguard.1 h
    exact ⟨delivered_of_allWhole hcarried hwhole, hcarried, hwhole⟩
  exact Along.of_invariant hstep ⟨carried_start ring, nofun⟩ hguard

/-- Two packets over the ring of the configuration, the second sent while the first is read. -/
def twoSent : List LineEvent :=
  [.send [1, hdlcFlag] (fun _ => 1), .receive (fullCall [[hdlcFlag, 1]]), .send [2] (fun _ => 0),
    .drain 7, .receive (fullCall [[0x7d, 0x5e], [0x66, 0x8c, hdlcFlag]]),
    .receive (fullCall [sent [2]])]

theorem delivered_of_room_twoSent :
    Along Line.step
      (fun _ _ l' => delivered l'.rets <+: deliverable l'.packets ∧
        (l'.inFlight = [] → l'.port.rxQueue = [] → delivered l'.rets = deliverable l'.packets))
      (.start ⟨1024, 1024, by decide, by decide⟩) twoSent :=
  delivered_of_room (by decide +kernel)

/-! ### Frames that find no room -/

/-- The packets that are certain to be delivered: those whose frame was queued as a whole, when the
frame before it was, too. A frame of which nothing was queued does no harm. -/
def kept (inStep : Bool) : List Sending → List (List UInt8)
  | [] => []
  | s :: sendings =>
      if s.IsWhole then (if inStep then deliverable [s.packet] else []) ++ kept true sendings
      else if s.bytes = [] then kept inStep sendings
      else kept false sendings

/-- They come out of the receiver, among others perhaps. -/
theorem kept_sublist {r : Receiver} {inStep : Bool} (hr : inStep = true → Ready r)
    (sendings : List Sending) :
    (kept inStep sendings).Sublist
      ((feed 2 r (sendings.flatMap Sending.bytes)).2.filterMap payload) := by
  induction sendings generalizing r inStep with
  | nil => exact List.nil_sublist _
  | cons s sendings ih =>
    rw [List.flatMap_cons, feed_append, List.filterMap_append, kept]
    split_ifs with hwhole hstep hnone
    · -- in step: the packet is delivered
      obtain ⟨hready, hone⟩ := feed_sent (hr hstep) [s.packet]
      rw [List.flatMap_singleton, ← hwhole] at hready hone
      rw [hone]
      exact (List.Sublist.refl _).append (ih fun _ => hready)
    · -- out of step: the frame brings the receiver into step
      have hready := (feed_frame_any 2 r (s.packet ++ fcs s.packet)).1
      rw [← sent_eq_frame, ← hwhole] at hready
      exact (List.nil_sublist _).append (ih fun _ => hready)
    · rw [hnone]
      exact ih hr
    · have hout : false = true → Ready (feed 2 r s.bytes).1 := nofun
      exact (ih hout).trans (List.sublist_append_right _ _)

/-- What was queued is part of the frame. -/
def AllParts (l : Line) : Prop := ∀ s ∈ l.sendings, s.bytes.Sublist (sent s.packet)

theorem allParts_step (hl : AllParts l) (h : l.step e = some l') : AllParts l' := by
  cases e with
  | send packet pace =>
    cases h
    show ∀ s ∈ l.sendings ++ [_], s.bytes.Sublist (sent s.packet)
    rw [List.forall_mem_append, List.forall_mem_singleton]
    refine ⟨hl, ?_⟩
    obtain ⟨taken, haccepted, htaken⟩ := exists_accepted ⟨l.ring, pace, []⟩ (sent packet)
    show (transmitted l.ring pace packet).Sublist (sent packet)
    rw [transmitted_eq, haccepted]
    exact htaken
  | drain n =>
    cases h
    exact hl
  | receive call =>
    obtain ⟨-, port, ret, -, rfl⟩ := step_receive h
    exact hl

/-- Every frame has at most two flags on the line. -/
theorem count_flag_le (hl : AllParts l) :
    (l.sendings.flatMap Sending.bytes).count hdlcFlag ≤ 2 * l.sendings.length := by
  unfold AllParts at hl
  generalize l.sendings = sendings at hl ⊢
  induction sendings with
  | nil => exact Nat.le_refl _
  | cons s sendings ih =>
    rw [List.forall_mem_cons] at hl
    have hone : s.bytes.count hdlcFlag ≤ 2 := by
      rw [← hdlc.count_flag_frame (s.packet ++ fcs s.packet), ← sent_eq_frame]
      exact hl.1.count_le hdlcFlag
    have hrest := ih hl.2
    rw [List.flatMap_cons, List.count_append, List.length_cons]
    omega

/-- No more packets are delivered than were sent. -/
theorem length_delivered_le (hl : Carried l) (hparts : AllParts l) :
    (delivered l.rets).length ≤ l.sendings.length := by
  have hframes := length_feed_le 2 (.hunting : Receiver) (consumed l.rets)
  have hpayload := List.length_filterMap_le payload
    (feed 2 (.hunting : Receiver) (consumed l.rets)).2
  have hflags := count_flag_le hparts
  rw [hl.stream, List.append_assoc, List.count_append] at hflags
  rw [hl.delivered]
  rw [State.flags, hdlc_flag] at hframes
  omega

/-- **What a full transmit ring costs.** Whatever is lost in the transmit ring, no more packets are
delivered than were sent; and once no byte is in flight or unread, every packet of 1 to 254 bytes has
been delivered, in order, whose frame was queued as a whole right after another that was, or first. -/
theorem kept_delivered {ring : TxRing} {es : List LineEvent}
    (hbuffer : ∀ e ∈ es, e.HasBuffer) :
    Along Line.step
      (fun _ _ l' => (delivered l'.rets).length ≤ l'.sendings.length ∧
        (l'.inFlight = [] → l'.port.rxQueue = [] →
          (kept true l'.sendings).Sublist (delivered l'.rets)))
      (.start ring) es := by
  have hstep : ∀ l e l', (Carried l ∧ AllParts l) → e.HasBuffer → Line.step l e = some l' →
      ((delivered l'.rets).length ≤ l'.sendings.length ∧
        (l'.inFlight = [] → l'.port.rxQueue = [] →
          (kept true l'.sendings).Sublist (delivered l'.rets))) ∧ Carried l' ∧ AllParts l' := by
    intro l e l' hl hbuffer h
    have hcarried := carried_step hl.1 hbuffer h
    have hparts := allParts_step hl.2 h
    refine ⟨⟨length_delivered_le hcarried hparts, ?_⟩, hcarried, hparts⟩
    intro hflight hqueue
    have hstream := hcarried.stream
    rw [hflight, hqueue, List.append_nil, List.append_nil] at hstream
    rw [hcarried.delivered, ← hstream]
    exact kept_sublist (fun _ => .inl rfl) l'.sendings
  exact Along.of_invariant hstep ⟨carried_start ring, nofun⟩
    (along_of_forall_mem es _ fun e he _ _ => hbuffer e he)

/-- Four bytes are free: the first packet is broken, the second is lost as a whole, the third brings
the receiver into step, and the fourth is delivered. -/
def ringFull : List LineEvent :=
  [.send [1, 2] (fun _ => 0), .send [3] (fun _ => 0), .drain 1024, .send [4] (fun _ => 0),
    .send [5] (fun _ => 0), .receive (fullCall [transmitted busyRing (fun _ => 0) [1, 2]]),
    .receive (fullCall [sent [4], sent [5]]), .receive (fullCall [])]

theorem kept_delivered_ringFull :
    Along Line.step
      (fun _ _ l' => (delivered l'.rets).length ≤ l'.sendings.length ∧
        (l'.inFlight = [] → l'.port.rxQueue = [] →
          (kept true l'.sendings).Sublist (delivered l'.rets)))
      (.start busyRing) ringFull :=
  kept_delivered (by decide +kernel)

end Line

end EmbenetNode.Brt
