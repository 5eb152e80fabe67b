import EmbenetNode.Brt.Refinement

/-!
# The border router interface over a transmit ring

The UART is opened in non-blocking mode, so that a write of one byte is queued if the transmit ring
has room for it, and otherwise fails. `EMBENET_BRT_WriteByte` does not look at the status: a byte
that fails is left out of the frame, and the bytes after it may be queued again.

* `TxRing`, `Uart`, `uart2Write`: the ring, how fast it drains, a write;
* `accepted_eq_append_iff`, `accepted_eq_iff`: when all bytes are queued, and when none is;
* `whole_or_nothing_iff`: when a frame is not broken.
-/

namespace EmbenetNode.Brt

open ByteStuffing

/-- The transmit ring of the UART. -/
structure TxRing where
  capacity : ℕ
  free : ℕ
  fits : free ≤ capacity
  pos : 0 < capacity

/-- As many as `n` bytes of the ring are transmitted. -/
def TxRing.drain (ring : TxRing) (n : ℕ) : TxRing where
  capacity := ring.capacity
  free := min ring.capacity (ring.free + n)
  fits := Nat.min_le_left _ _
  pos := ring.pos

/-- A byte is put into the ring. -/
def TxRing.put (ring : TxRing) : TxRing where
  capacity := ring.capacity
  free := ring.free - 1
  fits := Nat.le_trans (Nat.sub_le _ _) ring.fits
  pos := ring.pos

/-- The UART during a call. `pace i` is the number of bytes that leave the ring before write `i` of
those to come, `accepted` the bytes that the call has put into the ring. -/
structure Uart where
  ring : TxRing
  pace : ℕ → ℕ
  accepted : List UInt8

/-- The status of `UART2_write`. -/
inductive Status
  | success
  | efail
  deriving DecidableEq

/-- `UART2_write` of one byte in non-blocking mode. -/
def uart2Write (uart : Uart) (data : UInt8) : Uart × Status :=
  let ring := uart.ring.drain (uart.pace 0)
  let pace := fun i => uart.pace (i + 1)
  if 0 < ring.free then (⟨ring.put, pace, uart.accepted ++ [data]⟩, .success)
  else (⟨ring, pace, uart.accepted⟩, .efail)

/-- The bytes that a call of `EMBENET_BRT_Send` causes to be transmitted. -/
def transmitted (ring : TxRing) (pace : ℕ → ℕ) (packet : List UInt8) : List UInt8 :=
  (send (fun uart data => (uart2Write uart data).1) ⟨ring, pace, []⟩ packet).accepted

/-- The free space that write `i` finds when the ring has taken all bytes before it. -/
def freeAt (ring : TxRing) (pace : ℕ → ℕ) : ℕ → ℕ
  | 0 => min ring.capacity (ring.free + pace 0)
  | i + 1 => min ring.capacity (freeAt ring pace i - 1 + pace (i + 1))

/-! ### One write -/

variable (uart : Uart) (data : UInt8)

/-- The writes of a call. -/
def writeAll (bytes : List UInt8) : Uart :=
  bytes.foldl (fun uart data => (uart2Write uart data).1) uart

theorem writeAll_cons (bytes : List UInt8) :
    writeAll uart (data :: bytes) = writeAll (uart2Write uart data).1 bytes := rfl

variable {uart} {data}

/-- A write that finds room. -/
theorem uart2Write_of_room (h : 0 < freeAt uart.ring uart.pace 0) :
    (uart2Write uart data).1 =
      ⟨(uart.ring.drain (uart.pace 0)).put, fun i => uart.pace (i + 1),
        uart.accepted ++ [data]⟩ := by
  have hfree : 0 < (uart.ring.drain (uart.pace 0)).free := h
  rw [uart2Write, if_pos hfree]

/-- A write that finds the ring full, with no byte transmitted since the last one. -/
theorem uart2Write_of_full (h : ¬ 0 < freeAt uart.ring uart.pace 0) :
    (uart2Write uart data).1 =
      ⟨uart.ring.drain (uart.pace 0), fun i => uart.pace (i + 1), uart.accepted⟩ := by
  have hfree : ¬ 0 < (uart.ring.drain (uart.pace 0)).free := h
  rw [uart2Write, if_neg hfree]

theorem freeAt_put (ring : TxRing) (pace : ℕ → ℕ) (i : ℕ) :
    freeAt (ring.drain (pace 0)).put (fun i => pace (i + 1)) i = freeAt ring pace (i + 1) := by
  induction i with
  | zero => rfl
  | succ i ih => rw [freeAt, ih, freeAt]; rfl

theorem freeAt_zero_eq_zero (ring : TxRing) (pace : ℕ → ℕ) :
    freeAt ring pace 0 = 0 ↔ ring.free = 0 ∧ pace 0 = 0 := by
  have hpos := ring.pos
  rw [freeAt]
  omega

/-! ### All writes of a call -/

/-- What the ring has taken of the bytes. -/
theorem exists_accepted (uart : Uart) (bytes : List UInt8) :
    ∃ taken, (writeAll uart bytes).accepted = uart.accepted ++ taken ∧ taken.Sublist bytes := by
  induction bytes generalizing uart with
  | nil => exact ⟨[], (List.append_nil _).symm, List.Sublist.refl []⟩
  | cons data bytes ih =>
    rw [writeAll_cons]
    obtain ⟨taken, haccepted, htaken⟩ := ih (uart2Write uart data).1
    rw [haccepted]
    by_cases hroom : 0 < freeAt uart.ring uart.pace 0
    · rw [uart2Write_of_room hroom]
      exact ⟨data :: taken, List.append_assoc _ _ _, htaken.cons_cons data⟩
    · rw [uart2Write_of_full hroom]
      exact ⟨taken, rfl, htaken.cons data⟩

/-- **All bytes are queued** exactly if each write finds room. -/
theorem accepted_eq_append_iff (uart : Uart) (bytes : List UInt8) :
    (writeAll uart bytes).accepted = uart.accepted ++ bytes ↔
      ∀ i < bytes.length, 0 < freeAt uart.ring uart.pace i := by
  induction bytes generalizing uart with
  | nil => simp [writeAll]
  | cons data bytes ih =>
    rw [writeAll_cons]
    by_cases hroom : 0 < freeAt uart.ring uart.pace 0
    · have hrest := ih (uart2Write uart data).1
      rw [uart2Write_of_room hroom] at hrest ⊢
      simp only [List.append_assoc, List.singleton_append, freeAt_put] at hrest
      rw [hrest]
      constructor
      · intro h i hi
        cases i with
        | zero => exact hroom
        | succ i => exact h i (Nat.lt_of_succ_lt_succ hi)
      · intro h i hi
        exact h (i + 1) (Nat.succ_lt_succ hi)
    · -- the byte is lost, and the others do not make up for it
      refine iff_of_false ?_ fun h => hroom (h 0 (Nat.succ_pos _))
      obtain ⟨taken, haccepted, htaken⟩ := exists_accepted (uart2Write uart data).1 bytes
      rw [haccepted, uart2Write_of_full hroom, List.append_right_inj]
      rintro rfl
      have hlen := htaken.length_le
      rw [List.length_cons] at hlen
      exact Nat.not_succ_le_self _ hlen

/-- **No byte is queued** exactly if the ring is full and nothing of it is transmitted meanwhile. -/
theorem accepted_eq_iff (uart : Uart) (bytes : List UInt8) :
    (writeAll uart bytes).accepted = uart.accepted ↔
      ∀ i < bytes.length, uart.ring.free = 0 ∧ uart.pace i = 0 := by
  induction bytes generalizing uart with
  | nil => simp [writeAll]
  | cons data bytes ih =>
    rw [writeAll_cons]
    by_cases hroom : 0 < freeAt uart.ring uart.pace 0
    · refine iff_of_false ?_ fun h => ?_
      · obtain ⟨taken, haccepted, -⟩ := exists_accepted (uart2Write uart data).1 bytes
        rw [haccepted, uart2Write_of_room hroom]
        simp
      · rw [(freeAt_zero_eq_zero _ _).2 (h 0 (Nat.succ_pos _))] at hroom
        cases hroom
    · obtain ⟨hfree, hpace⟩ := (freeAt_zero_eq_zero _ _).1 (Nat.eq_zero_of_not_pos hroom)
      have hrest := ih (uart2Write uart data).1
      rw [uart2Write_of_full hroom] at hrest ⊢
      have hfull : (uart.ring.drain (uart.pace 0)).free = 0 := Nat.eq_zero_of_not_pos hroom
      simp only [hfull, true_and] at hrest
      simp only [hrest, hfree, true_and]
      constructor
      · intro h i hi
        cases i with
        | zero => exact hpace
        | succ i => exact h i (Nat.lt_of_succ_lt_succ hi)
      · intro h i hi
        exact h (i + 1) (Nat.succ_lt_succ hi)

theorem transmitted_eq (ring : TxRing) (pace : ℕ → ℕ) (packet : List UInt8) :
    transmitted ring pace packet = (writeAll ⟨ring, pace, []⟩ (sent packet)).accepted := by
  rw [transmitted, send_eq_foldl, sent_eq_frame]
  rfl

theorem sub_le_freeAt (ring : TxRing) (pace : ℕ → ℕ) (i : ℕ) :
    ring.free - i ≤ freeAt ring pace i := by
  have hfits := ring.fits
  induction i with
  | zero =>
    rw [freeAt]
    omega
  | succ i ih =>
    rw [freeAt]
    omega

/-- A frame for which the ring has room at the call is sent whole, at whatever pace it drains. -/
theorem transmitted_of_le {ring : TxRing} {packet : List UInt8}
    (hroom : (sent packet).length ≤ ring.free) (pace : ℕ → ℕ) :
    transmitted ring pace packet = sent packet := by
  have hall := accepted_eq_append_iff ⟨ring, pace, []⟩ (sent packet)
  rw [List.nil_append] at hall
  rw [transmitted_eq, hall]
  intro i hi
  have hfree := sub_le_freeAt ring pace i
  simp only
  omega

/-- **A frame is not broken** exactly if every one of its writes finds room, or the ring is full and
nothing of it is transmitted during the call. -/
theorem whole_or_nothing_iff (ring : TxRing) (pace : ℕ → ℕ) (packet : List UInt8) :
    (transmitted ring pace packet = sent packet ∨ transmitted ring pace packet = []) ↔
      (∀ i < (sent packet).length, 0 < freeAt ring pace i) ∨
        (∀ i < (sent packet).length, ring.free = 0 ∧ pace i = 0) := by
  have hall := accepted_eq_append_iff ⟨ring, pace, []⟩ (sent packet)
  have hnone := accepted_eq_iff ⟨ring, pace, []⟩ (sent packet)
  rw [List.nil_append] at hall
  rw [transmitted_eq, hall, hnone]

/-- The ring of the configuration, with four bytes free. -/
def busyRing : TxRing := ⟨1024, 4, by decide, by decide⟩

/-- The packet is cut after the first byte of the CRC. -/
theorem broken_frame :
    transmitted busyRing (fun _ => 0) [1, 2] = (sent [1, 2]).take 4 ∧
      ¬ (transmitted busyRing (fun _ => 0) [1, 2] = sent [1, 2] ∨
        transmitted busyRing (fun _ => 0) [1, 2] = []) := by
  decide +kernel

end EmbenetNode.Brt
