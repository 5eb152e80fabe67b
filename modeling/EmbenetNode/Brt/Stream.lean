import EmbenetNode.Brt.Progress

/-!
# What the border router interface delivers

* `delivered_eq`: the packets a run delivers are those of the frames that the abstract receiver
  completes in the bytes read, when the caller's buffers are large enough;
* `Delivers`: the packets delivered for given bytes, however these arrive and are read;
* `round_trip`: what is sent is delivered, packets of unsuitable length apart;
* `resync`: after arbitrary noise at most one packet is lost.
-/

namespace EmbenetNode.Brt

open ByteStuffing Deframer

/-- The packets that the interface carries: 1 to 254 bytes. -/
def deliverable (packets : List (List UInt8)) : List (List UInt8) :=
  packets.filter fun packet => 1 ≤ packet.length ∧ packet.length ≤ 254

/-! ### From frames to packets -/

/-- A completed frame is delivered when its CRC is right and the packet fits; otherwise the call
returns 0. -/
theorem verdict_cases {call : Call} {ret : Return} {content : List UInt8}
    (h : (ret.size, ret.packetBuffer) =
      verdict content call.packetBufferSize call.packetBuffer.toList) :
    (∃ packet, payload content = some packet ∧ packet.length ≤ call.packetBufferSize ∧
        ret.size = packet.length ∧ ret.data = packet) ∨
      (ret.size = 0 ∧
        ∀ packet, payload content = some packet → call.packetBufferSize < packet.length) := by
  unfold verdict at h
  cases hpayload : payload content with
  | none =>
    rw [hpayload] at h
    exact Or.inr ⟨congrArg Prod.fst h, fun packet hpacket => by cases hpacket⟩
  | some packet =>
    rw [hpayload] at h
    by_cases hfits : packet.length ≤ call.packetBufferSize
    · left
      simp only [hfits, if_true, Prod.mk.injEq] at h
      exact ⟨packet, rfl, hfits, h.1, by simp [Return.data, h]⟩
    · right
      simp only [hfits, if_false, Prod.mk.injEq] at h
      refine ⟨h.1, fun packet' hpacket => ?_⟩
      obtain rfl := Option.some.inj hpacket
      omega

/-- The value returned is the number of bytes handed over. -/
theorem length_data {r : Receiver} {call : Call} {ret : Return} (h : Outcome r call ret) :
    ret.data.length = ret.size := by
  rcases h with ⟨-, hret⟩ | ⟨content, -, hret⟩
  · simp [Return.data, (Prod.mk.inj hret).1]
  · rcases verdict_cases hret with ⟨packet, -, -, hsize, hdata⟩ | ⟨hsize, -⟩
    · rw [hsize, hdata]
    · simp [Return.data, hsize]

/-- The lengths that a frame can carry, in terms of the packet. -/
theorem admissible_iff (packet : List UInt8) :
    Admissible 2 maxFrameSize (packet ++ fcs packet) ↔
      1 ≤ packet.length ∧ packet.length ≤ 254 := by
  simp only [Admissible, maxFrameSize, List.length_append, length_fcs]
  omega

/-- What one call with a large enough buffer delivers. -/
theorem delivered_one {r : Receiver} {call : Call} {ret : Return} (h : Outcome r call ret)
    (hsize : 254 ≤ call.packetBufferSize) :
    delivered [ret] = (feed 2 r ret.consumed).2.filterMap payload := by
  rcases h with ⟨hquiet, hret⟩ | ⟨content, hcontent, hret⟩
  · simp [delivered, hquiet, (Prod.mk.inj hret).1]
  · have hadm := admissible_of_completes 2 hcontent
    rw [feed_of_completes 2 hcontent]
    rcases verdict_cases hret with ⟨packet, hpayload, -, hlen, hdata⟩ | ⟨hzero, hshort⟩
    · have hne : ret.size ≠ 0 := by
        rw [append_fcs_of_payload hpayload, admissible_iff] at hadm
        omega
      simp [delivered, hne, hpayload, hdata]
    · cases hpayload : payload content with
      | none => simp [delivered, hzero, hpayload]
      | some packet =>
        have hlong := hshort packet hpayload
        rw [append_fcs_of_payload hpayload, admissible_iff] at hadm
        omega

theorem delivered_cons (ret : Return) (rets : List Return) :
    delivered (ret :: rets) = delivered [ret] ++ delivered rets := by
  unfold delivered
  by_cases h : ret.size = 0 <;> simp [h]

/-- **Deliveries**: with large enough buffers a run delivers the packets of the frames completed in
the bytes it read, however these are spread over arrivals and calls. -/
theorem delivered_eq {r : Receiver} {calls : List Call} {rets : List Return}
    (h : Outcomes r calls rets) (hsize : ∀ call ∈ calls, 254 ≤ call.packetBufferSize) :
    delivered rets = (feed 2 r (consumed rets)).2.filterMap payload := by
  induction h with
  | nil r => rfl
  | cons hcall _ ih =>
    rw [List.forall_mem_cons] at hsize
    rw [delivered_cons, delivered_one hcall hsize.1, ih hsize.2, consumed_cons, feed_append,
      List.filterMap_append]

theorem length_data_all {r : Receiver} {calls : List Call} {rets : List Return}
    (h : Outcomes r calls rets) : ∀ ret ∈ rets, ret.data.length = ret.size := by
  induction h with
  | nil r => simp
  | cons hcall _ ih => exact List.forall_mem_cons.2 ⟨length_data hcall, ih⟩

/-! ### The packets delivered for given bytes -/

/-- **The packets delivered for these bytes** by a decoder with these static variables, to callers
with buffers of 254 bytes or more. However the bytes are spread over the queue, the arrivals and the
calls: all calls return, each result is as long as its size says, they have delivered a beginning of
the packets, and all of them when the queue is empty; and enough calls empty it. -/
def Delivers (s : Statics) (bytes : List UInt8) (packets : List (List UInt8)) : Prop :=
  ∀ rxQueue calls, (∀ call ∈ calls, 254 ≤ call.packetBufferSize) →
    rxQueue ++ arrived calls = bytes →
    ∃ port rets, receiveAll ⟨s, rxQueue⟩ calls = some (port, rets) ∧
      (∀ ret ∈ rets, ret.data.length = ret.size) ∧
      delivered rets <+: packets ∧
      (port.rxQueue = [] → delivered rets = packets) ∧
      (ReadOut bytes calls → port.rxQueue = [])

/-- They are the packets of the frames that the abstract receiver completes. -/
theorem delivers_feed {s : Statics} {r : Receiver} (hs : Sim s r) (bytes : List UInt8) :
    Delivers s bytes ((feed 2 r bytes).2.filterMap payload) := by
  intro rxQueue calls hsize hbytes
  obtain ⟨port, rets, hall, hsplit, -, houtcomes⟩ := receiveAll_sim ⟨s, rxQueue⟩ hs calls
  have hread : bytes = consumed rets ++ port.rxQueue := hbytes.symm.trans hsplit
  have hdelivered := delivered_eq houtcomes hsize
  refine ⟨port, rets, hall, length_data_all houtcomes, ?_, ?_, ?_⟩
  · rw [hdelivered, hread]
    exact (feed_of_isPrefix 2 r (List.prefix_append _ _)).filterMap payload
  · intro hempty
    rw [hdelivered, hread, hempty, List.append_nil]
  · intro henough
    rw [← hbytes] at henough
    exact rxQueue_of_readOut hs henough hall

/-- A call with a buffer of 254 bytes. -/
def fullCall (arrivals : List (List UInt8)) : Call where
  room := 254
  packetBuffer := Vector.replicate 254 0
  packetBufferSize := 254
  fits := Nat.le_refl 254
  arrivals := arrivals

/-- Calls with such a buffer, made when everything has arrived. -/
theorem readOut_replicate {bytes : List UInt8} (early : List Call) {n : ℕ}
    (h : bytes.count hdlcFlag + 1 < 2 * n) :
    ReadOut bytes (early ++ List.replicate n (fullCall [])) := by
  refine ⟨early, _, rfl, ?_, ?_⟩
  · simp [Quiet, fullCall]
  · rw [List.length_replicate]
    exact h

/-- Only one list of packets is delivered for given bytes. -/
theorem delivers_unique {s : Statics} {bytes : List UInt8} {packets packets' : List (List UInt8)}
    (h : Delivers s bytes packets) (h' : Delivers s bytes packets') : packets = packets' := by
  let polls := List.replicate (bytes.count hdlcFlag + 1) (fullCall [])
  have hsize : ∀ call ∈ polls, 254 ≤ call.packetBufferSize := by simp [polls, fullCall]
  have hbytes : bytes ++ arrived polls = bytes := by simp [polls, arrived, fullCall]
  have hcount : bytes.count hdlcFlag + 1 < 2 * (bytes.count hdlcFlag + 1) := by omega
  have henough : ReadOut bytes polls := readOut_replicate [] hcount
  obtain ⟨port, rets, hall, -, -, hwhole, hread⟩ := h bytes polls hsize hbytes
  obtain ⟨port', rets', hall', -, -, hwhole', -⟩ := h' bytes polls hsize hbytes
  cases hall.symm.trans hall'
  rw [← hwhole (hread henough), ← hwhole' (hread henough)]

/-! ### What is sent is delivered -/

theorem flatMap_sent (packets : List (List UInt8)) :
    packets.flatMap sent = (packets.map fun packet => packet ++ fcs packet).flatMap hdlc.frame := by
  rw [List.flatMap_map]
  exact List.flatMap_congr fun packet _ => sent_eq_frame packet

theorem deliverable_cons (packet : List UInt8) (packets : List (List UInt8)) :
    deliverable (packet :: packets) = deliverable [packet] ++ deliverable packets := by
  rw [deliverable, deliverable, deliverable, ← List.filter_append, List.singleton_append]

/-- The packets read back from the frames that carry them. -/
theorem filterMap_payload (packets : List (List UInt8)) :
    ((packets.map fun packet => packet ++ fcs packet).filter
      (Admissible 2 maxFrameSize ·)).filterMap payload = deliverable packets := by
  induction packets with
  | nil => rfl
  | cons packet packets ih =>
    have hadm := admissible_iff packet
    by_cases h : 1 ≤ packet.length ∧ packet.length ≤ 254
    · simp [deliverable, h, hadm.2 h, payload_append_fcs] at ih ⊢
      exact ih
    · simp [deliverable, h, mt hadm.1 h] at ih ⊢
      exact ih

/-- Packets sent to a receiver in step are delivered. -/
theorem feed_sent {r : Receiver} (hr : Ready r) (packets : List (List UInt8)) :
    Ready (feed 2 r (packets.flatMap sent)).1 ∧
      (feed 2 r (packets.flatMap sent)).2.filterMap payload = deliverable packets := by
  rw [flatMap_sent]
  obtain ⟨hready, hframes⟩ := feed_frames 2 hr (packets.map fun packet => packet ++ fcs packet)
  exact ⟨hready, by rw [hframes, filterMap_payload]⟩

/-- **Round trip.** However the bytes sent are split into arrivals, and the arrivals interleaved
with calls, the non-zero results are the packets of 1 to 254 bytes, in order: a beginning of that
list, and all of it when everything has arrived and been read, as it is after enough calls. -/
theorem round_trip (packets : List (List UInt8)) (calls : List Call)
    (hsize : ∀ call ∈ calls, 254 ≤ call.packetBufferSize)
    (harrived : arrived calls <+: packets.flatMap sent) :
    ∃ port rets, receiveAll .initial calls = some (port, rets) ∧
      (∀ ret ∈ rets, ret.data.length = ret.size) ∧
      delivered rets <+: deliverable packets ∧
      (arrived calls = packets.flatMap sent → port.rxQueue = [] →
        delivered rets = deliverable packets) ∧
      (ReadOut (arrived calls) calls → port.rxQueue = []) := by
  have hsent := (feed_sent (r := .hunting) (Or.inl rfl) packets).2
  obtain ⟨port, rets, hall, hlength, hbegin, hwhole, hread⟩ :=
    delivers_feed initial_sim (arrived calls) [] calls hsize rfl
  refine ⟨port, rets, hall, hlength, ?_, ?_, hread⟩
  · rw [← hsent]
    exact hbegin.trans ((feed_of_isPrefix 2 _ harrived).filterMap payload)
  · intro hcomplete hempty
    rw [hwhole hempty, hcomplete, hsent]

theorem round_trip_flag :
    ∃ port rets, receiveAll .initial [fullCall [sent [hdlcFlag]], fullCall [], fullCall []] =
        some (port, rets) ∧
      port.rxQueue = [] ∧ delivered rets = deliverable [[hdlcFlag]] ∧
      ∀ ret ∈ rets, ret.data.length = ret.size := by
  obtain ⟨port, rets, hall, hlength, -, hwhole, hread⟩ :=
    round_trip [[hdlcFlag]] [fullCall [sent [hdlcFlag]], fullCall [], fullCall []]
      (by simp [fullCall]) (by simp [arrived, fullCall])
  have hempty := hread (readOut_replicate [fullCall [sent [hdlcFlag]]]
    (show _ < 2 * 2 by decide +kernel))
  exact ⟨port, rets, hall, hempty, hwhole (by simp [arrived, fullCall]) hempty, hlength⟩

/-! ### Noise before the packets -/

/-- What noise can add: at most one packet, made of the bytes after the last flag of the noise. -/
def Spurious (noise : List UInt8) (packets : List (List UInt8)) : Prop :=
  ∃ before raw, noise = before ++ hdlcFlag :: raw ∧ hdlcFlag ∉ raw ∧ raw ≠ [] ∧
    (packets = [] ∨ ∃ packet, packets = [packet] ∧ hdlc.unstuff raw = packet ++ fcs packet)

theorem spurious_close {noise : List UInt8} {w : Stretch hdlc maxFrameSize}
    (hopened : Opened noise 0 (.collecting w)) (hraw : w.raw ≠ []) :
    Spurious noise ((w.close 2).toList.filterMap payload) := by
  obtain ⟨before, hnoise, -⟩ := hopened
  refine ⟨before, w.raw, hnoise, w.flagFree, hraw, ?_⟩
  cases hclose : w.close 2 with
  | none => exact Or.inl rfl
  | some content =>
    cases hpayload : payload content with
    | none => exact Or.inl (by simp [hpayload])
    | some packet =>
      have hcontent : w.content = content := by
        unfold Stretch.close at hclose
        split_ifs at hclose
        exact Option.some.inj hclose
      refine Or.inr ⟨packet, by simp [hpayload], ?_⟩
      rw [← append_fcs_of_payload hpayload, ← hcontent, Stretch.content]

/-- The packets of the frames completed in noise followed by packets sent. -/
theorem feed_after_noise (noise packet : List UInt8) (packets : List (List UInt8)) :
    ∃ middle, (feed 2 (.hunting : Receiver)
        (noise ++ (packet :: packets).flatMap sent)).2.filterMap payload =
        (feed 2 (.hunting : Receiver) noise).2.filterMap payload ++ middle ++
          deliverable packets ∧
      (middle = deliverable [packet] ∨ Spurious noise middle) := by
  have hopened : Opened noise 0 (feed 2 (.hunting : Receiver) noise).1 := by
    simpa using opened_feed 2 (show Opened [] 0 (.hunting : Receiver) from Nat.le_refl 0) noise
  rw [feed_append, List.filterMap_append]
  generalize (feed 2 (.hunting : Receiver) noise).1 = r at hopened
  obtain ⟨hready, hr | ⟨w, rfl, hraw, hfirst⟩⟩ := feed_frame_any 2 r (packet ++ fcs packet)
  · -- in step: the opening flag of the first packet opens a frame
    refine ⟨deliverable [packet], ?_, Or.inl rfl⟩
    rw [(feed_sent hr (packet :: packets)).2, deliverable_cons, List.append_assoc]
  · -- out of step: it closes the stretch that the noise left open
    refine ⟨(w.close 2).toList.filterMap payload, ?_, Or.inr (spurious_close hopened hraw)⟩
    rw [List.flatMap_cons, sent_eq_frame, feed_append, hfirst, List.filterMap_append,
      (feed_sent hready packets).2, List.append_assoc]

/-- **Resynchronisation.** After any noise, the packets sent are delivered, except perhaps the
first: in its place there may be nothing, or one packet made of the end of the noise. -/
theorem resync (noise packet : List UInt8) (packets : List (List UInt8)) :
    ∃ before middle, Delivers .initial noise before ∧
      Delivers .initial (noise ++ (packet :: packets).flatMap sent)
        (before ++ middle ++ deliverable packets) ∧
      (middle = deliverable [packet] ∨ Spurious noise middle) := by
  obtain ⟨middle, hfeed, hmiddle⟩ := feed_after_noise noise packet packets
  refine ⟨_, middle, delivers_feed initial_sim noise, ?_, hmiddle⟩
  rw [← hfeed]
  exact delivers_feed initial_sim _

theorem resync_escape :
    ∃ noisePort noiseRets port rets middle,
      receiveAll .initial [fullCall [[hdlcFlag, 1]], fullCall [], fullCall []] =
        some (noisePort, noiseRets) ∧
      receiveAll .initial (fullCall [[hdlcFlag, 1] ++ [[2], [3]].flatMap sent] ::
        List.replicate 4 (fullCall [])) = some (port, rets) ∧
      noisePort.rxQueue = [] ∧ port.rxQueue = [] ∧
      delivered rets = delivered noiseRets ++ middle ++ deliverable [[3]] ∧
      (middle = deliverable [[2]] ∨ Spurious [hdlcFlag, 1] middle) := by
  obtain ⟨before, middle, hnoise, hpackets, hmiddle⟩ := resync [hdlcFlag, 1] [2] [[3]]
  obtain ⟨noisePort, noiseRets, hnoiseRun, -, -, hnoiseWhole, hnoiseRead⟩ :=
    hnoise [] [fullCall [[hdlcFlag, 1]], fullCall [], fullCall []] (by simp [fullCall]) rfl
  obtain ⟨port, rets, hrun, -, -, hwhole, hread⟩ :=
    hpackets [] (fullCall [[hdlcFlag, 1] ++ [[2], [3]].flatMap sent] ::
      List.replicate 4 (fullCall [])) (by simp [fullCall]) (by simp [arrived, fullCall])
  have hnoiseEmpty := hnoiseRead (readOut_replicate [fullCall [[hdlcFlag, 1]]]
    (show _ < 2 * 2 by decide))
  have hempty := hread (readOut_replicate [fullCall [[hdlcFlag, 1] ++ [[2], [3]].flatMap sent]]
    (show _ < 2 * 4 by decide +kernel))
  refine ⟨noisePort, noiseRets, port, rets, middle, hnoiseRun, hrun, hnoiseEmpty, hempty, ?_,
    hmiddle⟩
  rw [hwhole hempty, hnoiseWhole hnoiseEmpty]

end EmbenetNode.Brt
