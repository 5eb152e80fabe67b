import EmbenetNode.Brt.Stream

/-!
# Which strings between two flags the decoder accepts

The decoder recognises an escape from the byte before it and has no notion of an ill-formed string
or of an aborted frame: it drops every escape byte, and unmasks each other byte that comes right
after one.

* `accepts_iff`: the flag-free strings that give a packet, and the packet they give;
* `accepted_iff_wellFormed`: on well-formed strings these are the frames of HDLC;
* `illFormed_accepted`: an ill-formed string that is accepted.
-/

namespace EmbenetNode.Brt

open ByteStuffing Deframer

/-- `w` is a frame of HDLC that carries `packet`: a well-formed string that stands for 3 to 256
bytes, the last two of them the CRC bytes of the others. -/
def WellFormedFrame (w packet : List UInt8) : Prop :=
  ∃ content, hdlc.unescape w = some content ∧ 3 ≤ content.length ∧ content.length ≤ 256 ∧
    content = packet ++ fcs packet

/-- `w` is accepted as `packet`: with the escapes dropped and the bytes after them unmasked it has
3 to 256 bytes, the last two of them the CRC bytes of the others, and it does not end with an escape
when these bytes are 256. -/
def Accepted (w packet : List UInt8) : Prop :=
  3 ≤ (hdlc.unstuff w).length ∧ (hdlc.unstuff w).length ≤ 256 ∧
    ((hdlc.unstuff w).length = 256 → w.getLast? ≠ some hdlcEscape) ∧
    hdlc.unstuff w = packet ++ fcs packet

theorem accepted_iff_received {w packet : List UInt8} :
    Accepted w packet ↔
      Received 2 maxFrameSize hdlc w ∧ payload (hdlc.unstuff w) = some packet := by
  have hpayload : payload (hdlc.unstuff w) = some packet ↔
      hdlc.unstuff w = packet ++ fcs packet :=
    ⟨append_fcs_of_payload, fun h => by rw [h, payload_append_fcs]⟩
  rw [hpayload]
  unfold Accepted Received Admissible
  exact ⟨fun ⟨hmin, hmax, hlast, hfcs⟩ => ⟨⟨⟨hmin, hmax⟩, hlast⟩, hfcs⟩,
    fun ⟨⟨⟨hmin, hmax⟩, hlast⟩, hfcs⟩ => ⟨hmin, hmax, hlast, hfcs⟩⟩

/-- On a well-formed string the decoder accepts what HDLC accepts. -/
theorem accepted_iff_wellFormed {w : List UInt8} (hw : hdlc.WellEscaped w) (packet : List UInt8) :
    Accepted w packet ↔ WellFormedFrame w packet := by
  obtain ⟨content, hcontent⟩ := Option.isSome_iff_exists.1 ((Code.isSome_unescape_iff w).2 hw)
  rw [accepted_iff_received, received_of_unescape 2 hcontent, hdlc.unstuff_of_unescape hcontent]
  unfold WellFormedFrame
  rw [hcontent]
  constructor
  · rintro ⟨⟨hmin, hmax⟩, hpayload⟩
    exact ⟨content, rfl, hmin, hmax, append_fcs_of_payload hpayload⟩
  · rintro ⟨content', hsome, hmin, hmax, rfl⟩
    obtain rfl := Option.some.inj hsome
    exact ⟨⟨hmin, hmax⟩, payload_append_fcs packet⟩

/-- The packets delivered from a string between two flags. -/
theorem payload_of_enclose {w : List UInt8} (hw : hdlcFlag ∉ w) :
    (feed 2 (.hunting : Receiver) (hdlc.enclose w)).2.filterMap payload =
      if Received 2 maxFrameSize hdlc w then (payload (hdlc.unstuff w)).toList else [] := by
  rw [feed_enclose 2 (Or.inl rfl) hw]
  split_ifs
  · cases h : payload (hdlc.unstuff w) <;> simp [h]
  · rfl

/-- **Acceptance.** For a flag-free string of any length, fed between two flags to an idle decoder,
a packet is delivered exactly when the string is accepted as this packet, and nothing else is;
well-formed strings are accepted exactly when they are frames of HDLC. -/
theorem accepts_iff {s : Statics} (hidle : s.inputFrameReceiving = false) {w : List UInt8}
    (hw : hdlcFlag ∉ w) :
    ∃ packets, Delivers s (hdlc.enclose w) packets ∧
      (∀ packet, packets = [packet] ↔ Accepted w packet) ∧
      ((∀ packet, ¬ Accepted w packet) → packets = []) ∧
      (hdlc.WellEscaped w → ∀ packet, Accepted w packet ↔ WellFormedFrame w packet) := by
  have hsim : Sim s .hunting := hidle
  have hdelivers := delivers_feed hsim (hdlc.enclose w)
  rw [payload_of_enclose hw] at hdelivers
  by_cases hreceived : Received 2 maxFrameSize hdlc w
  · rw [if_pos hreceived] at hdelivers
    refine ⟨_, hdelivers, ?_, ?_, accepted_iff_wellFormed⟩ <;>
      simp only [accepted_iff_received, hreceived, true_and] <;>
      cases payload (hdlc.unstuff w) <;> simp
  · rw [if_neg hreceived] at hdelivers
    refine ⟨_, hdelivers, ?_, fun _ => rfl, accepted_iff_wellFormed⟩
    simp [accepted_iff_received, hreceived]

/-- The flag in a frame of its own, read in three calls. -/
theorem accepts_escaped_flag :
    ∃ port rets,
      receiveAll .initial [fullCall [sent [hdlcFlag]], fullCall [], fullCall []] =
        some (port, rets) ∧ port.rxQueue = [] ∧ delivered rets = [[hdlcFlag]] := by
  have hw : hdlcFlag ∉ hdlc.stuff ([hdlcFlag] ++ fcs [hdlcFlag]) := hdlc.flag_notMem_stuff _
  obtain ⟨packets, hdelivers, hone, -⟩ := accepts_iff (s := .initial) rfl hw
  have hpackets : packets = [[hdlcFlag]] :=
    (hone [hdlcFlag]).2 ⟨by decide, by decide, by decide, hdlc.unstuff_stuff _⟩
  obtain ⟨port, rets, hall, -, -, hwhole, hread⟩ :=
    hdelivers [] [fullCall [sent [hdlcFlag]], fullCall [], fullCall []] (by simp [fullCall])
      (by simp [arrived, fullCall, sent_eq_frame, Code.enclose, Code.frame])
  have hempty := hread (readOut_replicate [fullCall [sent [hdlcFlag]]]
    (show _ < 2 * 2 by decide +kernel))
  exact ⟨port, rets, hall, hempty, by rw [hwhole hempty, hpackets]⟩

/-- A packet with its CRC bytes, its byte after two escapes in a row, and a dangling escape at the
end. -/
def illFormed : List UInt8 := [hdlcEscape, hdlcEscape, 0x21] ++ fcs [0x01] ++ [hdlcEscape]

/-- The frame is ill-formed and aborted, and delivered all the same. -/
theorem illFormed_accepted :
    hdlcFlag ∉ illFormed ∧ ¬ hdlc.WellEscaped illFormed ∧
      (∀ packet, ¬ WellFormedFrame illFormed packet) ∧
      (receiveAll .initial [fullCall [hdlc.enclose illFormed]]).map
        (fun run => (run.1.rxQueue, delivered run.2)) = some ([], [[0x01]]) := by
  have hnone : hdlc.unescape illFormed = none := by decide
  refine ⟨by decide, by decide, ?_, by decide +kernel⟩
  rintro packet ⟨content, hsome, -⟩
  rw [hnone] at hsome
  cases hsome

end EmbenetNode.Brt
