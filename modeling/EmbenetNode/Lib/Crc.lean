import Mathlib.Data.List.Basic

/-!
# Cyclic redundancy checks, one bit at a time

A reflected register of `w` bits divides the stream of bits shifted into it by a polynomial over
the field of two elements. The bits of `poly` are its coefficients, the highest first, without the
leading one.

* `step`, `run`: the register, one bit and a stream at a time;
* `run_xor`: the register is linear in what it holds and in the stream;
* `run_absorb`: a stream can be added to the register beforehand;
* `run_of_bits`, `getLsbD_of_run_eq_zero`: a stream no longer than the register takes it to zero
  only if it consists of the bits that the register holds;
* `burst_detected`, `odd_detected`: the differences that the register tells from none.
-/

namespace Crc

variable {w : ℕ} (poly : BitVec w)

/-- What is added to the register when the bit shifted out and the bit of the stream differ. -/
def feedback (differ : Bool) : BitVec w := if differ then poly else 0#w

/-- One bit. -/
def step (r : BitVec w) (bit : Bool) : BitVec w := (r >>> 1) ^^^ feedback poly (r.getLsbD 0 ^^ bit)

/-- A stream of bits. -/
def run (r : BitVec w) (bits : List Bool) : BitVec w := bits.foldl (step poly) r

@[simp] theorem run_nil (r : BitVec w) : run poly r [] = r := rfl

theorem run_cons (r : BitVec w) (bit : Bool) (bits : List Bool) :
    run poly r (bit :: bits) = run poly (step poly r bit) bits := rfl

theorem run_append (r : BitVec w) (bits bits' : List Bool) :
    run poly r (bits ++ bits') = run poly (run poly r bits) bits' := List.foldl_append

/-! ### Linearity -/

theorem feedback_xor (differ differ' : Bool) :
    feedback poly (differ ^^ differ') = feedback poly differ ^^^ feedback poly differ' := by
  cases differ <;> cases differ' <;> simp [feedback]

theorem step_xor (r r' : BitVec w) (bit bit' : Bool) :
    step poly (r ^^^ r') (bit ^^ bit') = step poly r bit ^^^ step poly r' bit' := by
  have hdiffer : ((r ^^^ r').getLsbD 0 ^^ (bit ^^ bit')) =
      ((r.getLsbD 0 ^^ bit) ^^ (r'.getLsbD 0 ^^ bit')) := by
    rw [BitVec.getLsbD_xor]
    cases r.getLsbD 0 <;> cases r'.getLsbD 0 <;> cases bit <;> cases bit' <;> rfl
  rw [step, step, step, hdiffer, feedback_xor, BitVec.ushiftRight_xor_distrib]
  ac_rfl

/-- **Linearity**: the register of a difference is the difference of the registers. -/
theorem run_xor (r r' : BitVec w) {bits bits' : List Bool} (hlen : bits.length = bits'.length) :
    run poly (r ^^^ r') (List.zipWith xor bits bits') = run poly r bits ^^^ run poly r' bits' := by
  induction bits generalizing r r' bits' with
  | nil =>
    cases bits' with
    | nil => rfl
    | cons => cases hlen
  | cons bit bits ih =>
    cases bits' with
    | nil => cases hlen
    | cons bit' bits' =>
      rw [List.zipWith_cons_cons, run_cons, run_cons, run_cons, step_xor]
      exact ih _ _ (Nat.succ.inj hlen)

/-- Streams of one length without a difference are equal. -/
theorem eq_of_zipWith_xor {bits bits' : List Bool} (hlen : bits.length = bits'.length)
    (h : ∀ bit ∈ List.zipWith xor bits bits', bit = false) : bits = bits' := by
  induction bits generalizing bits' with
  | nil =>
    cases bits' with
    | nil => rfl
    | cons => cases hlen
  | cons bit bits ih =>
    cases bits' with
    | nil => cases hlen
    | cons bit' bits' =>
      rw [List.zipWith_cons_cons, List.forall_mem_cons] at h
      obtain ⟨hbit, hbits⟩ := h
      have heq : bit = bit' := by simpa using hbit
      rw [heq, ih (Nat.succ.inj hlen) hbits]

/-! ### The register and its own bits -/

/-- Without a difference the register is only shifted. -/
theorem step_of_eq {r : BitVec w} {bit : Bool} (h : r.getLsbD 0 = bit) :
    step poly r bit = r >>> 1 := by
  simp [step, h, feedback]

/-- A stream of the bits that the register holds shifts it. -/
theorem run_of_bits {r : BitVec w} {bits : List Bool}
    (h : ∀ i (hi : i < bits.length), bits[i] = r.getLsbD i) :
    run poly r bits = r >>> bits.length := by
  induction bits generalizing r with
  | nil => rfl
  | cons bit bits ih =>
    have hbit : r.getLsbD 0 = bit := (h 0 (Nat.succ_pos _)).symm
    rw [run_cons, step_of_eq poly hbit, ih, List.length_cons, Nat.add_comm, BitVec.shiftRight_add]
    intro i hi
    have hnext := h (i + 1) (Nat.succ_lt_succ hi)
    rw [List.getElem_cons_succ] at hnext
    rw [hnext, BitVec.getLsbD_ushiftRight, Nat.add_comm]

theorem zipWith_xor_replicate_false (bits : List Bool) :
    List.zipWith xor (List.replicate bits.length false) bits = bits := by
  induction bits with
  | nil => rfl
  | cons bit bits ih =>
    rw [List.length_cons, List.replicate_succ, List.zipWith_cons_cons, ih, Bool.false_xor]

/-- **Absorption**: a stream can be added to the register beforehand. -/
theorem run_absorb (r : BitVec w) {own : BitVec w} {bits : List Bool}
    (h : ∀ i (hi : i < bits.length), bits[i] = own.getLsbD i) :
    run poly r bits =
      run poly (r ^^^ own) (List.replicate bits.length false) ^^^ (own >>> bits.length) := by
  have hlin := run_xor poly (r ^^^ own) own
    (show (List.replicate bits.length false).length = bits.length from List.length_replicate)
  rw [zipWith_xor_replicate_false, BitVec.xor_assoc, BitVec.xor_self, BitVec.xor_zero] at hlin
  rw [hlin, run_of_bits poly h]

/-- A register of which the highest bit is 0 was shifted, if the polynomial has a constant term. -/
theorem of_step_msb (hmsb : poly.msb = true) {r : BitVec w} {bit : Bool}
    (h : (step poly r bit).getLsbD (w - 1) = false) :
    r.getLsbD 0 = bit ∧ step poly r bit = r >>> 1 := by
  have hbit : r.getLsbD 0 = bit := by
    have hpoly : poly.getLsbD (w - 1) = true := by rw [← BitVec.msb_eq_getLsbD_last, hmsb]
    have hw : w ≤ 1 + (w - 1) := by omega
    by_contra hne
    have hdiffer : (r.getLsbD 0 ^^ bit) = true := by
      revert hne
      cases r.getLsbD 0 <;> cases bit <;> simp
    simp [step, hdiffer, feedback, hpoly, BitVec.getLsbD_of_ge r _ hw] at h
  exact ⟨hbit, step_of_eq poly hbit⟩

/-- A stream no longer than the register that takes it to zero is the bits it holds. -/
theorem getLsbD_of_run_eq_zero (hmsb : poly.msb = true) {r : BitVec w} {bits : List Bool}
    (hlen : bits.length ≤ w) (h : run poly r bits = 0#w) (i : ℕ) :
    r.getLsbD i = bits.getD i false := by
  induction bits generalizing r i with
  | nil =>
    rw [run_nil] at h
    simp [h]
  | cons bit bits ih =>
    rw [List.length_cons] at hlen
    have hstep := ih (Nat.le_of_succ_le hlen) h
    have htop : (step poly r bit).getLsbD (w - 1) = false := by
      rw [hstep, List.getD_eq_getElem?_getD, List.getElem?_eq_none (by omega), Option.getD_none]
    obtain ⟨hbit, hshift⟩ := of_step_msb poly hmsb htop
    cases i with
    | zero => simpa using hbit
    | succ i =>
      have hnext := hstep i
      rw [hshift, BitVec.getLsbD_ushiftRight, Nat.add_comm] at hnext
      simpa using hnext

/-! ### Streams of zeros -/

theorem run_of_forall_false (hmsb : poly.msb = true) {r : BitVec w} {bits : List Bool}
    (hbits : ∀ bit ∈ bits, bit = false) : run poly r bits = 0#w ↔ r = 0#w := by
  induction bits generalizing r with
  | nil => rfl
  | cons bit bits ih =>
    rw [List.forall_mem_cons] at hbits
    obtain ⟨rfl, hbits⟩ := hbits
    rw [run_cons, ih hbits]
    constructor
    · intro hzero
      apply BitVec.eq_of_getLsbD_eq
      intro i hi
      have hlen : [false].length ≤ w := Nat.lt_of_le_of_lt (Nat.zero_le i) hi
      have hbit := getLsbD_of_run_eq_zero poly hmsb hlen hzero i
      rw [hbit]
      cases i <;> simp
    · rintro rfl
      simp [step, feedback]

/-! ### Bursts -/

/-- The bits that are set lie in `n` consecutive positions. -/
def FitsIn (n : ℕ) (bits : List Bool) : Prop :=
  ∃ i, ∀ j, bits[j]? = some true → i ≤ j ∧ j < i + n

theorem forall_false_of_getElem? {bits : List Bool} (h : ∀ j : ℕ, bits[j]? ≠ some true) :
    ∀ bit ∈ bits, bit = false := by
  intro bit hbit
  obtain ⟨j, hj⟩ := List.mem_iff_getElem?.1 hbit
  cases bit with
  | false => rfl
  | true => exact absurd hj (h j)

/-- **Bursts**: a stream of which the set bits lie in a window of the register's length takes it
from zero to zero only if no bit is set. -/
theorem burst_detected (hmsb : poly.msb = true) {bits : List Bool} (hfits : FitsIn w bits)
    (h : run poly 0#w bits = 0#w) : ∀ bit ∈ bits, bit = false := by
  obtain ⟨i, hwindow⟩ := hfits
  have hbefore : ∀ bit ∈ bits.take i, bit = false := by
    apply forall_false_of_getElem?
    intro j hj
    rw [List.getElem?_take] at hj
    split_ifs at hj with hji
    have hle := (hwindow j hj).1
    omega
  have hafter : ∀ bit ∈ (bits.drop i).drop w, bit = false := by
    apply forall_false_of_getElem?
    intro j hj
    rw [List.getElem?_drop, List.getElem?_drop] at hj
    have hlt := (hwindow _ hj).2
    omega
  have hsplit : bits = bits.take i ++ ((bits.drop i).take w ++ (bits.drop i).drop w) := by
    rw [List.take_append_drop, List.take_append_drop]
  -- the zeros before the window leave the register at zero, those after it keep it from zero
  rw [hsplit, run_append, (run_of_forall_false poly hmsb hbefore).2 rfl, run_append,
    run_of_forall_false poly hmsb hafter] at h
  have hburst := getLsbD_of_run_eq_zero poly hmsb (List.length_take_le w _) h
  have hmiddle : ∀ bit ∈ (bits.drop i).take w, bit = false := by
    apply forall_false_of_getElem?
    intro j hj
    have hzero := hburst j
    rw [List.getD_eq_getElem?_getD, hj] at hzero
    simp at hzero
  intro bit hbit
  rw [hsplit, List.mem_append, List.mem_append] at hbit
  rcases hbit with hbit | hbit | hbit
  · exact hbefore bit hbit
  · exact hmiddle bit hbit
  · exact hafter bit hbit

/-! ### Parity -/

/-- The parity of the first `n` bits. -/
def parityOf (f : ℕ → Bool) : ℕ → Bool
  | 0 => false
  | n + 1 => parityOf f n ^^ f n

theorem parityOf_succ' (f : ℕ → Bool) (n : ℕ) :
    parityOf f (n + 1) = (f 0 ^^ parityOf (fun i => f (i + 1)) n) := by
  induction n with
  | zero => simp [parityOf]
  | succ n ih =>
    rw [parityOf, ih, parityOf, Bool.xor_assoc]

theorem parityOf_xor (f g : ℕ → Bool) (n : ℕ) :
    parityOf (fun i => f i ^^ g i) n = (parityOf f n ^^ parityOf g n) := by
  induction n with
  | zero => rfl
  | succ n ih =>
    rw [parityOf, parityOf, parityOf, ih]
    cases parityOf f n <;> cases parityOf g n <;> cases f n <;> cases g n <;> rfl

/-- Whether an odd number of bits of a register is set. -/
def parity (r : BitVec w) : Bool := parityOf r.getLsbD w

theorem parity_xor (r r' : BitVec w) : parity (r ^^^ r') = (parity r ^^ parity r') := by
  rw [parity, parity, parity, ← parityOf_xor]
  congr 1
  funext i
  exact BitVec.getLsbD_xor

theorem parity_zero : parity 0#w = false := by
  have hzero := parity_xor (0#w) 0#w
  rw [BitVec.xor_zero] at hzero
  rw [hzero]
  cases parity 0#w <;> rfl

/-- A shift takes the lowest bit out of the parity. -/
theorem parity_ushiftRight (r : BitVec w) : parity (r >>> 1) = (parity r ^^ r.getLsbD 0) := by
  have hshift : (r >>> 1).getLsbD = fun i => r.getLsbD (i + 1) := by
    funext i
    rw [BitVec.getLsbD_ushiftRight, Nat.add_comm]
  have hsucc := parityOf_succ' r.getLsbD w
  rw [parityOf, BitVec.getLsbD_of_ge r w (Nat.le_refl w), Bool.xor_false] at hsucc
  rw [parity, parity, hshift, hsucc]
  cases r.getLsbD 0 <;> cases parityOf (fun i => r.getLsbD (i + 1)) w <;> rfl

/-- When an odd number of coefficients follow the leading one, the register keeps the parity. -/
theorem parity_step (hpoly : parity poly = true) (r : BitVec w) (bit : Bool) :
    parity (step poly r bit) = (parity r ^^ bit) := by
  have hfeedback : parity (feedback poly (r.getLsbD 0 ^^ bit)) = (r.getLsbD 0 ^^ bit) := by
    cases hdiffer : (r.getLsbD 0 ^^ bit) with
    | false => exact parity_zero
    | true => exact hpoly
  rw [step, parity_xor, parity_ushiftRight, hfeedback]
  cases parity r <;> cases r.getLsbD 0 <;> cases bit <;> rfl

theorem parity_run (hpoly : parity poly = true) (r : BitVec w) (bits : List Bool) :
    parity (run poly r bits) = (parity r ^^ decide (bits.count true % 2 = 1)) := by
  induction bits generalizing r with
  | nil => simp
  | cons bit bits ih =>
    rw [run_cons, ih, parity_step poly hpoly]
    cases bit with
    | false => simp
    | true =>
      rw [List.count_cons_self]
      rcases Nat.mod_two_eq_zero_or_one (bits.count true) with hcount | hcount
      · simp [hcount, Nat.add_mod]
      · simp [hcount, Nat.add_mod]

/-- **Odd weights**: a stream with an odd number of set bits does not take the register from zero
to zero. -/
theorem odd_detected (hpoly : parity poly = true) {bits : List Bool}
    (hodd : bits.count true % 2 = 1) : run poly 0#w bits ≠ 0#w := by
  intro h
  have hparity := parity_run poly hpoly 0#w bits
  rw [h, parity_zero, hodd] at hparity
  cases hparity

end Crc
