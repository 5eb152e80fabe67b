import EmbenetNode.Brt.ErrorDetection

/-!
# The two forms of the CRC check

The decoder compares the last two bytes of a frame with the CRC bytes of the others. The standard
form runs the CRC over the whole frame and compares the register with `HDLC_CRCGOOD`, which the file
defines and does not use. A frame that passes the standard form differs from one with the right
CRC bytes in its last 16 bits at most, and the register tells such frames apart.

* `drop_eq_fcs_iff`: the two forms agree on every string of at least two bytes;
* `good_residue_iff`: and so does the comparison that the decoder makes in its frame buffer.
-/

namespace EmbenetNode.Brt

open Deframer Checked

theorem foldl_calculateCRC_eq (bytes : List UInt8) :
    bytes.foldl calculateCRC hdlcCrcInit = x25Register bytes :=
  foldl_calculateCRC hdlcCrcInit bytes

/-- Strings that agree up to their last two bytes differ in a burst. -/
theorem fitsIn_difference (packet : List UInt8) {fcs fcs' : List UInt8} (h : fcs.length = 2)
    (h' : fcs'.length = 2) : Crc.FitsIn 16 (difference (packet ++ fcs) (packet ++ fcs')) := by
  have hsplit : difference (packet ++ fcs) (packet ++ fcs') =
      difference packet packet ++ difference fcs fcs' := by
    rw [difference, bits_append, bits_append, List.zipWith_append rfl]
    rfl
  have hbefore : (difference packet packet).length = 8 * packet.length := by simp [difference]
  have hlast : (difference fcs fcs').length = 16 := by simp [difference, h, h']
  refine ⟨8 * packet.length, fun j hj => ?_⟩
  constructor
  · by_contra hlt
    rw [hsplit, List.getElem?_append_left (by omega), difference, List.getElem?_zipWith] at hj
    cases hbit : (bits packet)[j]? <;> simp [hbit] at hj
  · have hlength := (List.getElem?_eq_some_iff.1 hj).1
    rw [hsplit, List.length_append, hbefore, hlast] at hlength
    exact hlength

/-- **The two forms agree** on every string of at least two bytes. -/
theorem drop_eq_fcs_iff {w : List UInt8} (hw : 2 ≤ w.length) :
    w.drop (w.length - 2) = fcs (w.take (w.length - 2)) ↔
      w.foldl calculateCRC hdlcCrcInit = hdlcCrcGood := by
  have hsplit : w.take (w.length - 2) ++ w.drop (w.length - 2) = w := List.take_append_drop _ w
  have hlast : (w.drop (w.length - 2)).length = 2 := by
    rw [List.length_drop]
    omega
  rw [foldl_calculateCRC_eq]
  constructor
  · intro h
    rw [← hsplit, h, x25Register_append_fcs]
  · intro h
    by_contra hne
    have hfcs := length_fcs (w.take (w.length - 2))
    have hdiff := fitsIn_difference (w.take (w.length - 2)) hfcs hlast
    rw [hsplit] at hdiff
    have hregister := h.trans (x25Register_append_fcs (w.take (w.length - 2))).symm
    refine x25Register_ne ?_ ?_ (Or.inl hdiff) hregister
    · rw [List.length_append, List.length_take, length_fcs]
      omega
    · intro heq
      exact hne (List.append_cancel_left (hsplit.trans heq))

/-- **The good residue.** The comparison accepts a content of at least two bytes exactly if the CRC
over all of it ends in `HDLC_CRCGOOD`: for contents of any length, and for those in the frame
buffer, where the decoder hands out a packet or not by this comparison. -/
theorem good_residue_iff {w : List UInt8} (hw : 2 ≤ w.length) :
    (w.drop (w.length - 2) = fcs (w.take (w.length - 2)) ↔
        w.foldl calculateCRC hdlcCrcInit = hdlcCrcGood) ∧
      ∀ s : Statics, Holds s w →
        crcMatches s = some (decide (w.foldl calculateCRC hdlcCrcInit = hdlcCrcGood)) ∧
        ∀ (room : ℕ) (packetBuffer : Vector UInt8 room) (packetBufferSize : ℕ),
          finishFrame s true packetBuffer packetBufferSize =
            if w.foldl calculateCRC hdlcCrcInit = hdlcCrcGood then
              if w.length - 2 ≤ packetBufferSize then
                (memcpy packetBuffer s.inputFrame.toList (w.length - 2)).map (w.length - 2, ·)
              else (memcpy packetBuffer s.inputFrame.toList packetBufferSize).map (0, ·)
            else some (0, packetBuffer) := by
  have hforms := drop_eq_fcs_iff hw
  refine ⟨hforms, fun s hs => ⟨?_, fun room packetBuffer packetBufferSize => ?_⟩⟩
  · rw [crcMatches_eq hs hw]
    simp only [hforms]
  · rw [finishFrame_eq hs hw]
    simp only [hforms]

/-- The frame of the digits passes both forms. -/
theorem good_residue_digits :
    (digits ++ [0x6e, 0x90]).foldl calculateCRC hdlcCrcInit = hdlcCrcGood ∧
      crcMatches digitsReceived = some true := by
  have hlength : 2 ≤ (digits ++ [0x6e, 0x90]).length := by decide
  have hholds : Holds digitsReceived (digits ++ [0x6e, 0x90]) := ⟨rfl, by decide +kernel⟩
  obtain ⟨hforms, hreceived⟩ := good_residue_iff hlength
  have hgood := hforms.1 (by decide +kernel)
  obtain ⟨hmatches, -⟩ := hreceived digitsReceived hholds
  rw [decide_eq_true hgood] at hmatches
  exact ⟨hgood, hmatches⟩

end EmbenetNode.Brt
