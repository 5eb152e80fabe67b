import EmbenetNode.Brt.Stream

/-!
# What the encoder writes can be read by any decoder of HDLC

* `run`: what stands between the two flags of a packet;
* `sentAll_eq`: a sequence of calls writes the enclosed runs, one after another;
* `transparency`: the stream splits in one way only, standard unescaping gives back each packet
  with its CRC bytes, and different lists of packets give different streams.
-/

namespace EmbenetNode.Brt

open ByteStuffing

/-- The bytes that a sequence of calls of `EMBENET_BRT_Send` writes. -/
def sentAll (packets : List (List UInt8)) : List UInt8 :=
  packets.foldl (send fun wire byte => wire ++ [byte]) []

/-- What stands between the two flags of a packet. -/
def run (packet : List UInt8) : List UInt8 := hdlc.stuff (packet ++ fcs packet)

theorem sent_eq_enclose (packet : List UInt8) : sent packet = hdlc.enclose (run packet) :=
  sent_eq_frame packet

theorem send_append (wire packet : List UInt8) :
    send (fun wire byte => wire ++ [byte]) wire packet = wire ++ sent packet := by
  rw [sent_eq_frame, send_eq_foldl, foldl_concat]

/-- **The stream**: each call appends the bytes of its own packet. -/
theorem sentAll_eq (packets : List (List UInt8)) :
    sentAll packets = (packets.map run).flatMap hdlc.enclose := by
  have happend : ∀ wire, packets.foldl (send fun wire byte => wire ++ [byte]) wire =
      wire ++ packets.flatMap sent := by
    induction packets with
    | nil => simp
    | cons packet packets ih =>
      intro wire
      rw [List.foldl_cons, ih, send_append, List.flatMap_cons, List.append_assoc]
  rw [sentAll, happend, List.nil_append, List.flatMap_map]
  exact List.flatMap_congr fun packet _ => sent_eq_enclose packet

theorem flag_notMem_run (packet : List UInt8) : hdlcFlag ∉ run packet :=
  hdlc.flag_notMem_stuff _

theorem run_ne_nil (packet : List UInt8) : run packet ≠ [] := by
  intro h
  have hlen := congrArg List.length (hdlc.stuff_eq_nil.1 h)
  simp at hlen

/-- An escape announces a masked flag or a masked escape. -/
theorem escapesTo_run (packet : List UInt8) :
    hdlc.EscapesTo (fun b => b = 0x5e ∨ b = 0x5d) (run packet) :=
  hdlc.escapesTo_stuff _

theorem unescape_run (packet : List UInt8) :
    hdlc.unescape (run packet) = some (packet ++ fcs packet) := hdlc.unescape_stuff _

/-- The CRC bytes are the last two, so a packet can be told from what it is sent as. -/
theorem run_injective : Function.Injective run := by
  intro packet packet' h
  have hcontent : packet ++ fcs packet = packet' ++ fcs packet' := hdlc.stuff_injective h
  exact List.append_inj_left' hcontent rfl

/-- **Transparency.** For packets of any number and length, the stream consists of one enclosed run
for each packet, and of no other enclosed flag-free strings; each run is well-formed and stands for
the packet and its CRC bytes; and the stream determines the packets. -/
theorem transparency (packets : List (List UInt8)) :
    ∃ runs : List (List UInt8), sentAll packets = runs.flatMap hdlc.enclose ∧
      packets.map sent = runs.map hdlc.enclose ∧
      (∀ w ∈ runs, w ≠ [] ∧ hdlcFlag ∉ w ∧ hdlc.EscapesTo (fun b => b = 0x5e ∨ b = 0x5d) w) ∧
      runs.map hdlc.unescape = packets.map (fun packet => some (packet ++ fcs packet)) ∧
      (∀ runs' : List (List UInt8), (∀ w ∈ runs', hdlcFlag ∉ w) →
        sentAll packets = runs'.flatMap hdlc.enclose → runs' = runs) ∧
      (∀ packets', sentAll packets' = sentAll packets → packets' = packets) := by
  have hflag : ∀ packets : List (List UInt8), ∀ w ∈ packets.map run, hdlcFlag ∉ w := by
    intro packets w hw
    obtain ⟨packet, -, rfl⟩ := List.mem_map.1 hw
    exact flag_notMem_run packet
  refine ⟨packets.map run, sentAll_eq packets, ?_, ?_, ?_, ?_, ?_⟩
  · simp [sent_eq_enclose]
  · intro w hw
    obtain ⟨packet, -, rfl⟩ := List.mem_map.1 hw
    exact ⟨run_ne_nil packet, flag_notMem_run packet, escapesTo_run packet⟩
  · simp [unescape_run]
  · intro runs' hruns' h
    exact hdlc.flatMap_enclose_injective hruns' (hflag packets) (h.symm.trans (sentAll_eq packets))
  · intro packets' h
    rw [sentAll_eq, sentAll_eq] at h
    exact List.map_injective_iff.2 run_injective
      (hdlc.flatMap_enclose_injective (hflag packets') (hflag packets) h)

end EmbenetNode.Brt
