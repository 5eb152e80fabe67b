import EmbenetNode.Brt.FrameCheck

/-!
# Which corruptions the border router interface detects

The register ends in one and the same value over every packet followed by its two CRC bytes. It is
linear, so the corruptions that the decoder accepts are those whose difference from what was sent
takes the register from zero to zero: no burst of up to 16 bits, and no odd number of bits.

* `x25Register_append_fcs`: the value it ends in;
* `run_difference`: the difference of two accepted strings;
* `corruption_rejected`: bursts and odd weights are rejected.
-/

namespace EmbenetNode.Brt

open Deframer Checked

/-- `HDLC_CRCGOOD` -/
def hdlcCrcGood : UInt16 := 0xf0b8

/-- The bits in which two strings differ. -/
def difference (w w' : List UInt8) : List Bool := List.zipWith xor (bits w) (bits w')

theorem toBitVec_x25Register (bytes : List UInt8) :
    (x25Register bytes).toBitVec =
      Crc.run x25Poly.toBitVec (0xffff : UInt16).toBitVec (bits bytes) :=
  toBitVec_foldl_x25Bit _ _

/-- The bits of a 16-bit value sent low byte first. -/
theorem getElem_bits_bytes (crc : UInt16) (i : ℕ)
    (hi : i < (bits [crc.toUInt8, (crc >>> 8).toUInt8]).length) :
    (bits [crc.toUInt8, (crc >>> 8).toUInt8])[i] = crc.toBitVec.getLsbD i := by
  have hsplit : bits [crc.toUInt8, (crc >>> 8).toUInt8] =
      byteBits crc.toUInt8 ++ byteBits (crc >>> 8).toUInt8 := by
    rw [bits_cons, bits_cons, bits, List.flatMap_nil, List.append_nil]
  have hlen : i < 16 := by simpa using hi
  simp only [hsplit, List.getElem_append, getElem_byteBits, length_byteBits,
    UInt16.toBitVec_toUInt8, BitVec.getLsbD_setWidth, UInt16.toBitVec_shiftRight]
  split_ifs with hlow
  · simp [hlow]
  · have hhigh : i - 8 < 8 := by omega
    have hindex : 8 + (i - 8) = i := by omega
    simp [hhigh, hindex]

/-- **The residue**: over a packet and its CRC bytes the register ends in `HDLC_CRCGOOD`. -/
theorem x25Register_append_fcs (packet : List UInt8) :
    x25Register (packet ++ fcs packet) = hdlcCrcGood := by
  have hbits := getElem_bits_bytes (~~~x25Register packet)
  have hlen : (bits [(~~~x25Register packet).toUInt8, (~~~x25Register packet >>> 8).toUInt8]).length
      = 16 := length_bits _
  have hones : (x25Register packet).toBitVec ^^^ ~~~(x25Register packet).toBitVec = 0xffff#16 := by
    rw [← BitVec.xor_allOnes, ← BitVec.xor_assoc, BitVec.xor_self, BitVec.zero_xor]
    rfl
  have hout : ~~~(x25Register packet).toBitVec >>> 16 = 0#16 :=
    BitVec.ushiftRight_eq_zero (Nat.le_refl 16)
  apply UInt16.toBitVec_inj.1
  rw [toBitVec_x25Register, bits_append, Crc.run_append, ← toBitVec_x25Register, fcs_eq_x25, x25,
    Crc.run_absorb _ _ hbits, hlen, UInt16.toBitVec_not, hones, hout, BitVec.xor_zero]
  decide

/-- The register takes the difference of two strings over which it ends in one value to zero. -/
theorem run_difference {w w' : List UInt8} (hlen : w'.length = w.length)
    (h : x25Register w' = x25Register w) :
    Crc.run x25Poly.toBitVec 0#16 (difference w w') = 0#16 := by
  have hbits : (bits w).length = (bits w').length := by rw [length_bits, length_bits, hlen]
  have hlin := Crc.run_xor x25Poly.toBitVec (0xffff : UInt16).toBitVec (0xffff : UInt16).toBitVec
    hbits
  rw [← toBitVec_x25Register, ← toBitVec_x25Register, h, BitVec.xor_self, BitVec.xor_self] at hlin
  exact hlin

theorem byteBits_injective {byte byte' : UInt8} (h : byteBits byte = byteBits byte') :
    byte = byte' := by
  apply UInt8.toBitVec_inj.1
  apply BitVec.eq_of_getLsbD_eq
  intro i hi
  rw [← getElem_byteBits byte i (by simpa using hi), ← getElem_byteBits byte' i (by simpa using hi)]
  simp only [h]

theorem bits_injective {w w' : List UInt8} (hlen : w'.length = w.length) (h : bits w' = bits w) :
    w' = w := by
  induction w generalizing w' with
  | nil => exact List.eq_nil_of_length_eq_zero hlen
  | cons byte w ih =>
    cases w' with
    | nil => cases hlen
    | cons byte' w' =>
      rw [bits_cons, bits_cons] at h
      obtain ⟨hbyte, hrest⟩ := List.append_inj h (by rw [length_byteBits, length_byteBits])
      rw [byteBits_injective hbyte, ih (Nat.succ.inj hlen) hrest]

/-- Strings that do not differ in any bit are equal. -/
theorem eq_of_difference {w w' : List UInt8} (hlen : w'.length = w.length)
    (h : ∀ bit ∈ difference w w', bit = false) : w' = w := by
  have hbits : (bits w).length = (bits w').length := by rw [length_bits, length_bits, hlen]
  exact bits_injective hlen (Crc.eq_of_zipWith_xor hbits h).symm

/-- A burst of up to 16 bits, or an odd number of bits. -/
def Detectable (bits : List Bool) : Prop := Crc.FitsIn 16 bits ∨ bits.count true % 2 = 1

/-- The register does not end in the same value over two strings of a detectable difference. -/
theorem x25Register_ne {w w' : List UInt8} (hlen : w'.length = w.length) (hne : w' ≠ w)
    (hdiff : Detectable (difference w w')) : x25Register w' ≠ x25Register w := by
  intro h
  have hzero := run_difference hlen h
  rcases hdiff with hburst | hodd
  · exact hne (eq_of_difference hlen (Crc.burst_detected x25Poly.toBitVec (by decide) hburst hzero))
  · exact Crc.odd_detected x25Poly.toBitVec (by decide) hodd hzero

/-- The CRC bytes of what was sent do not fit a detectable corruption of it. -/
theorem payload_of_corrupted {packet w' : List UInt8}
    (hlen : w'.length = (packet ++ fcs packet).length) (hne : w' ≠ packet ++ fcs packet)
    (hdiff : Detectable (difference (packet ++ fcs packet) w')) : payload w' = none := by
  have hregister := x25Register_ne hlen hne hdiff
  cases hpayload : payload w' with
  | none => rfl
  | some packet' =>
    rw [append_fcs_of_payload hpayload, x25Register_append_fcs, x25Register_append_fcs] at hregister
    exact absurd rfl hregister

/-- **Error detection.** Let `w'` be as long as a packet and its CRC bytes, and differ from them in
a burst of up to 16 bits or in an odd number of bits. Its last two bytes are not the CRC bytes of
the others, the decoder rejects a frame buffer that holds it, and a call that has read a frame with
this content delivers nothing. -/
theorem corruption_rejected {packet w' : List UInt8} (hpacket : 1 ≤ packet.length)
    (hlen : w'.length = (packet ++ fcs packet).length) (hne : w' ≠ packet ++ fcs packet)
    (hdiff : Detectable (difference (packet ++ fcs packet) w')) :
    w'.drop (w'.length - 2) ≠ fcs (w'.take (w'.length - 2)) ∧
      (∀ (s : Statics) (room : ℕ) (packetBuffer : Vector UInt8 room) (packetBufferSize : ℕ),
        Holds s w' →
        finishFrame s true packetBuffer packetBufferSize = some (0, packetBuffer)) ∧
      ∀ before call port rets port' ret, receiveAll .initial before = some (port, rets) →
        receive port call = some (port', ret) →
        Completes 2 (feed 2 (.hunting : Receiver) (consumed rets)).1 ret.consumed w' →
        ret.size = 0 ∧ ret.packetBuffer = call.packetBuffer.toList := by
  have hpayload := payload_of_corrupted hlen hne hdiff
  have hfcs : w'.drop (w'.length - 2) ≠ fcs (w'.take (w'.length - 2)) := by
    intro h
    rw [payload, if_pos h] at hpayload
    cases hpayload
  refine ⟨hfcs, ?_, ?_⟩
  · intro s room packetBuffer packetBufferSize hholds
    have hlen' : w'.length = packet.length + 2 := by rw [hlen, List.length_append, length_fcs]
    rw [finishFrame_eq hholds (by omega), if_neg hfcs]
  · intro before call port rets port' ret hbefore hcall hcontent
    have hret := (outcome_of_receive hbefore hcall).2.of_completes hcontent
    rw [verdict, hpayload] at hret
    exact ⟨congrArg Prod.fst hret, congrArg Prod.snd hret⟩

/-- The digits from 1 to 9 and their CRC bytes, with one bit of the first digit lost. -/
def corruptedDigits : List UInt8 := 0x30 :: (digits.tail ++ [0x6e, 0x90])

theorem corruption_rejected_bit :
    finishFrame { digitsReceived with inputFrame := Vector.ofFn fun i => corruptedDigits.getD i 0 }
      true (Vector.replicate 9 0) 9 = some (0, Vector.replicate 9 0) := by
  have hfcs : digits ++ fcs digits = digits ++ [0x6e, 0x90] := by decide +kernel
  have hlen : corruptedDigits.length = (digits ++ fcs digits).length := by
    rw [hfcs]
    rfl
  have hne : corruptedDigits ≠ digits ++ fcs digits := by
    rw [hfcs]
    decide
  have hdiff : Detectable (difference (digits ++ fcs digits) corruptedDigits) := by
    rw [hfcs]
    right
    decide +kernel
  have hrejected := corruption_rejected (by decide) hlen hne hdiff
  exact hrejected.2.1 _ 9 _ 9 ⟨rfl, by decide +kernel⟩

end EmbenetNode.Brt
