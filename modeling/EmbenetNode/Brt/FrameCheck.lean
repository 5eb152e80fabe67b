import EmbenetNode.Lib.Crc
import EmbenetNode.Brt.Refinement

/-!
# The table CRC is the HDLC frame check sequence

`x25` is CRC-16/X.25, computed bit by bit.

* `x25Bit`, `x25Register`, `x25`: one bit, the register, the two bytes;
* `lut_eq`: every entry of the table of `EMBENET_BRT_CalculateCRC` is right;
* `calculateCRC_eq`: one table step is eight bit steps, whatever the register holds;
* `frame_check_sequence`: the encoder appends the two bytes, and the decoder recomputes them.
-/

namespace EmbenetNode.Brt

open Deframer Checked

/-- `x^16 + x^12 + x^5 + 1`, the lowest coefficient in the highest bit. -/
def x25Poly : UInt16 := 0x8408

/-- One data bit: the register is shifted right, and the polynomial added when the bit shifted out
differs from the data bit. -/
def x25Bit (crc : UInt16) (bit : Bool) : UInt16 :=
  if crc.toNat.testBit 0 = bit then crc >>> 1 else (crc >>> 1) ^^^ x25Poly

/-- The bits of a byte, the least significant first. -/
def byteBits (byte : UInt8) : List Bool := (List.range 8).map fun i => byte.toNat.testBit i

/-- The bits of a string of bytes, in the order in which they are sent. -/
def bits (bytes : List UInt8) : List Bool := bytes.flatMap byteBits

/-- The register after a string of bytes. -/
def x25Register (bytes : List UInt8) : UInt16 := (bits bytes).foldl x25Bit 0xffff

/-- **CRC-16/X.25**: the complement of the register, low byte first. -/
def x25 (bytes : List UInt8) : List UInt8 :=
  [(~~~x25Register bytes).toUInt8, (~~~x25Register bytes >>> 8).toUInt8]

@[simp] theorem length_byteBits (byte : UInt8) : (byteBits byte).length = 8 := by simp [byteBits]

@[simp] theorem bits_append (u v : List UInt8) : bits (u ++ v) = bits u ++ bits v :=
  List.flatMap_append

theorem bits_cons (byte : UInt8) (bytes : List UInt8) :
    bits (byte :: bytes) = byteBits byte ++ bits bytes := List.flatMap_cons

@[simp] theorem length_bits (bytes : List UInt8) : (bits bytes).length = 8 * bytes.length := by
  induction bytes with
  | nil => rfl
  | cons byte bytes ih =>
    rw [bits_cons, List.length_append, ih, length_byteBits, List.length_cons]
    omega

/-! ### The register as a linear one -/

theorem toBitVec_x25Bit (crc : UInt16) (bit : Bool) :
    (x25Bit crc bit).toBitVec = Crc.step x25Poly.toBitVec crc.toBitVec bit := by
  have hbit : crc.toBitVec.getLsbD 0 = crc.toNat.testBit 0 := rfl
  rw [x25Bit, Crc.step, hbit]
  cases crc.toNat.testBit 0 <;> cases bit <;> simp [Crc.feedback]

theorem toBitVec_foldl_x25Bit (crc : UInt16) (bits : List Bool) :
    (bits.foldl x25Bit crc).toBitVec = Crc.run x25Poly.toBitVec crc.toBitVec bits := by
  induction bits generalizing crc with
  | nil => rfl
  | cons bit bits ih => rw [List.foldl_cons, ih, toBitVec_x25Bit, Crc.run_cons]

/-! ### The table -/

/-- Eight zero bits. -/
def zeroBits : List Bool := List.replicate 8 false

/-- **Every entry of the table** is what eight zero bits make of its index. -/
theorem lut_eq : ∀ i : Fin 256,
    lut[i].toBitVec = Crc.run x25Poly.toBitVec (BitVec.ofNat 16 i) zeroBits := by
  decide +kernel

theorem getElem_byteBits (byte : UInt8) (i : ℕ) (hi : i < (byteBits byte).length) :
    (byteBits byte)[i] = byte.toBitVec.getLsbD i := by
  simp [byteBits, BitVec.getLsbD]

theorem ushiftRight_byte (byte : UInt8) : byte.toUInt16.toBitVec >>> 8 = 0#16 := by
  have hlt := byte.toNat_lt
  apply BitVec.eq_of_toNat_eq
  rw [BitVec.toNat_ushiftRight, Nat.shiftRight_eq_div_pow]
  exact Nat.div_eq_of_lt hlt

/-- A byte is absorbed by adding it to the register. -/
theorem run_byteBits (r : BitVec 16) (byte : UInt8) :
    Crc.run x25Poly.toBitVec r (byteBits byte) =
      Crc.run x25Poly.toBitVec (r ^^^ byte.toUInt16.toBitVec) zeroBits := by
  have hbits : ∀ i (hi : i < (byteBits byte).length),
      (byteBits byte)[i] = byte.toUInt16.toBitVec.getLsbD i := by
    intro i hi
    have hlt : i < 16 := by
      rw [length_byteBits] at hi
      omega
    rw [getElem_byteBits, UInt8.toBitVec_toUInt16, BitVec.getLsbD_setWidth]
    simp [hlt]
  rw [Crc.run_absorb _ r hbits, length_byteBits, ushiftRight_byte, BitVec.xor_zero]
  rfl

/-- A register is its high byte and its low byte. -/
theorem high_xor_low (r : BitVec 16) : (r &&& 0xff00#16) ^^^ (r &&& 0xff#16) = r := by
  have hmask : ∀ i < 16, ((0xff00#16).getLsbD i ^^ (0xff#16).getLsbD i) = true := by decide
  apply BitVec.eq_of_getLsbD_eq
  intro i hi
  rw [BitVec.getLsbD_xor, BitVec.getLsbD_and, BitVec.getLsbD_and, ← Bool.and_xor_distrib_left,
    hmask i hi, Bool.and_true]

theorem high_ushiftRight (r : BitVec 16) : (r &&& 0xff00#16) >>> 8 = r >>> 8 := by
  have hmask : ∀ i < 8, (0xff00#16).getLsbD (8 + i) = true := by decide
  apply BitVec.eq_of_getLsbD_eq
  intro i hi
  rw [BitVec.getLsbD_ushiftRight, BitVec.getLsbD_ushiftRight, BitVec.getLsbD_and]
  by_cases hlow : i < 8
  · rw [hmask i hlow, Bool.and_true]
  · rw [BitVec.getLsbD_of_ge r (8 + i) (by omega), Bool.false_and]

/-- Zero bits shift the high byte down; the low byte comes back through the polynomial. -/
theorem run_zeroBits (r : BitVec 16) :
    Crc.run x25Poly.toBitVec r zeroBits =
      (r >>> 8) ^^^ Crc.run x25Poly.toBitVec (r &&& 0xff#16) zeroBits := by
  have hbits : ∀ i (hi : i < zeroBits.length), zeroBits[i] = (r &&& 0xff00#16).getLsbD i := by
    have hmask : ∀ i < 8, (0xff00#16).getLsbD i = false := by decide
    intro i hi
    rw [BitVec.getLsbD_and, hmask i hi, Bool.and_false]
    exact List.getElem_replicate hi
  have hlin := Crc.run_xor x25Poly.toBitVec (r &&& 0xff00#16) (r &&& 0xff#16)
    (show zeroBits.length = zeroBits.length from rfl)
  have hzip : List.zipWith xor zeroBits zeroBits = zeroBits := rfl
  rw [hzip, high_xor_low, Crc.run_of_bits _ hbits] at hlin
  rw [hlin, ← high_ushiftRight r]
  rfl

/-- **One table step is eight bit steps.** -/
theorem calculateCRC_eq (crc : UInt16) (byte : UInt8) :
    calculateCRC crc byte = (byteBits byte).foldl x25Bit crc := by
  have hlut := lut_eq ⟨lutIndex crc byte, lutIndex_lt crc byte⟩
  have hindex : BitVec.ofNat 16 (lutIndex crc byte) =
      (crc.toBitVec ^^^ byte.toUInt16.toBitVec) &&& 0xff#16 := BitVec.ofNat_toNat 16 _
  apply UInt16.toBitVec_inj.1
  rw [toBitVec_foldl_x25Bit, run_byteBits, run_zeroBits, ← hindex, ← hlut,
    BitVec.ushiftRight_xor_distrib, ushiftRight_byte, BitVec.xor_zero]
  rfl

theorem foldl_calculateCRC (crc : UInt16) (bytes : List UInt8) :
    bytes.foldl calculateCRC crc = (bits bytes).foldl x25Bit crc := by
  induction bytes generalizing crc with
  | nil => rfl
  | cons byte bytes ih =>
    rw [List.foldl_cons, ih, calculateCRC_eq, bits_cons, List.foldl_append]

theorem toUInt8_and_mask (crc : UInt16) : (crc &&& 0xff).toUInt8 = crc.toUInt8 := by
  rw [UInt16.toUInt8_and]
  exact UInt8.and_neg_one

/-- The two CRC bytes are those of CRC-16/X.25. -/
theorem fcs_eq_x25 (packet : List UInt8) : fcs packet = x25 packet := by
  have hregister : packet.foldl calculateCRC hdlcCrcInit = x25Register packet :=
    foldl_calculateCRC hdlcCrcInit packet
  rw [fcs, hregister, x25, toUInt8_and_mask, toUInt8_and_mask, UInt16.shiftRight_zero]

/-- **The frame check sequence.** The two bytes that the encoder puts after a packet are those of
CRC-16/X.25, low byte first. The decoder compares the last two bytes of a frame with those of the
bytes before them. -/
theorem frame_check_sequence (packet : List UInt8) :
    sent packet = hdlc.frame (packet ++ x25 packet) ∧
      ∀ (s : Statics) (content : List UInt8) (room : ℕ) (packetBuffer : Vector UInt8 room)
        (packetBufferSize : ℕ), Holds s content → Admissible 2 maxFrameSize content →
        finishFrame s true packetBuffer packetBufferSize =
          if content.drop (content.length - 2) = x25 (content.take (content.length - 2)) then
            if content.length - 2 ≤ packetBufferSize then
              (memcpy packetBuffer s.inputFrame.toList (content.length - 2)).map
                (content.length - 2, ·)
            else (memcpy packetBuffer s.inputFrame.toList packetBufferSize).map (0, ·)
          else some (0, packetBuffer) := by
  constructor
  · rw [sent_eq_frame, fcs_eq_x25]
  · intro s content room packetBuffer packetBufferSize hholds hlen
    rw [finishFrame_eq hholds (Nat.le_of_lt hlen.1), fcs_eq_x25]

/-- The digits from 1 to 9, whose CRC is the check value of the algorithm. -/
def digits : List UInt8 := [0x31, 0x32, 0x33, 0x34, 0x35, 0x36, 0x37, 0x38, 0x39]

/-- The static variables after the frame of the digits. -/
def digitsReceived : Statics where
  inputFrame := Vector.ofFn fun i => (digits ++ [0x6e, 0x90]).getD i 0
  inputFrameDataIndex := 11
  inputFrameReceiving := false
  lastDataByte := hdlcFlag

theorem frame_check_sequence_digits :
    sent digits = hdlc.frame (digits ++ [0x6e, 0x90]) ∧
      (finishFrame digitsReceived true (Vector.replicate 9 0) 9).map Prod.fst = some 9 := by
  obtain ⟨hsent, hreceived⟩ := frame_check_sequence digits
  have hx25 : x25 digits = [0x6e, 0x90] := by decide +kernel
  have hholds : Holds digitsReceived (digits ++ [0x6e, 0x90]) := ⟨rfl, by decide +kernel⟩
  constructor
  · rw [hsent, hx25]
  · rw [hreceived digitsReceived _ 9 _ 9 hholds (by decide)]
    decide +kernel

end EmbenetNode.Brt
