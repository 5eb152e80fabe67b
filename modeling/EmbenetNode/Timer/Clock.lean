import EmbenetNode.Timer.Compare

/-!
# The microsecond clock

The counter starts over after `3 * 2 ^ 30` ticks, which are exactly `2 ^ 32` microseconds, so the
conversion to microseconds carries the counter's wrap over into the wrap of a 32-bit time.

* `counterAt`: the counter after any number of ticks since the start;
* `readCounter_exact`: what a reading is, and how far apart two readings are;
* `setCompare_match`: the tick at which a programmed compare event matches.
-/

namespace EmbenetNode.Timer

theorem mod_period_le (n : ℕ) : UInt32.ofNat (n % period) ≤ loadValue := by
  have hlt : n % period < period := Nat.mod_lt n (by decide)
  rw [period] at hlt
  rw [UInt32.le_iff_toNat_le, UInt32.toNat_ofNat', Nat.mod_eq_of_lt (by rw [period]; omega)]
  exact Nat.le_of_lt_succ hlt

/-- The counter, `n` ticks after it was started: it starts over once it has reached its load
value. -/
def counterAt (n : ℕ) : Counter := ⟨UInt32.ofNat (n % period), mod_period_le n⟩

/-- The period is that of the load value set by `EMBENET_TIMER_Init`. -/
theorem period_eq : period = loadValue.toNat + 1 := rfl

theorem counterAt_toNat (n : ℕ) : (counterAt n).value.toNat = n % period := by
  have hlt : n % period < period := Nat.mod_lt n (by decide)
  rw [period] at hlt
  show (UInt32.ofNat (n % period)).toNat = n % period
  rw [UInt32.toNat_ofNat', Nat.mod_eq_of_lt (by rw [period]; omega)]

/-! ### Readings -/

/-- A reading is the time since the start, rounded down, modulo `2 ^ 32`. -/
theorem readCounter_counterAt (n : ℕ) :
    (readCounter (counterAt n).value).toNat = 4 * n / 3 % 2 ^ 32 := by
  have hr : n % period < period := Nat.mod_lt n (by decide)
  have hn := Nat.div_add_mod n period
  rw [period] at hr hn
  -- a period of the counter is a period of the time
  have htime : 4 * n / 3 = 2 ^ 32 * (n / 3221225472) + n % 3221225472 * 4 / 3 := by omega
  show (ticksToUs (counterAt n).value).toNat = _
  rw [ticksToUs_toNat, counterAt_toNat, period, htime, Nat.mul_add_mod]
  exact (Nat.mod_eq_of_lt (by omega)).symm

/-- The difference of two readings, modulo `2 ^ 32`. -/
def elapsed (n m : ℕ) : ℕ :=
  (readCounter (counterAt m).value - readCounter (counterAt n).value).toNat

/-- Two readings less than `2 ^ 32` microseconds apart differ by the difference of the times, both
rounded down: the later reading is never behind the earlier one. -/
theorem add_elapsed {n m : ℕ} (hle : n ≤ m) (hlt : 4 * (m - n) < 3 * 2 ^ 32) :
    4 * n / 3 + elapsed n m = 4 * m / 3 := by
  have hn := readCounter_counterAt n
  have hm := readCounter_counterAt m
  have hsub := sub_toNat_cases (readCounter (counterAt m).value) (readCounter (counterAt n).value)
  rw [elapsed]
  omega

/-- **The clock is exact**: after `n` ticks of 4/3 µs it reads their time, rounded down, modulo
`2 ^ 32`. Two readings less than `2 ^ 32` µs apart differ by less than 1 µs from the time between
them (in thirds of a microsecond, by less than 3), and never backwards. -/
theorem readCounter_exact (n : ℕ) :
    (readCounter (counterAt n).value).toNat = 4 * n / 3 % 2 ^ 32 ∧
      ∀ m, n ≤ m → 4 * (m - n) < 3 * 2 ^ 32 →
        3 * elapsed n m < 4 * (m - n) + 3 ∧ 4 * (m - n) < 3 * elapsed n m + 3 ∧
          4 * n / 3 + elapsed n m = 4 * m / 3 := by
  refine ⟨readCounter_counterAt n, ?_⟩
  intro m hle hlt
  have hadd := add_elapsed hle hlt
  exact ⟨by omega, by omega, hadd⟩

/-- Two readings across the wrap of the counter. -/
theorem readCounter_exact_wrap :
    (readCounter (counterAt 3221225471).value).toNat = 4 * 3221225471 / 3 % 2 ^ 32 ∧
      3 * elapsed 3221225471 3221225473 < 4 * (3221225473 - 3221225471) + 3 ∧
        4 * (3221225473 - 3221225471) < 3 * elapsed 3221225471 3221225473 + 3 ∧
          4 * 3221225471 / 3 + elapsed 3221225471 3221225473 = 4 * 3221225473 / 3 :=
  ⟨(readCounter_exact 3221225471).1,
    (readCounter_exact 3221225471).2 3221225473 (by decide) (by decide)⟩

/-! ### Matches -/

/-- A compare time in ticks, whichever wrap of the time it belongs to. -/
theorem usToTicks_ofNat (target : ℕ) :
    (usToTicks (UInt32.ofNat target)).toNat = target * 3 / 4 % period := by
  have hr : target % 2 ^ 32 < 2 ^ 32 := Nat.mod_lt target (by decide)
  have htarget := Nat.div_add_mod target (2 ^ 32)
  have hticks : target * 3 / 4 =
      3221225472 * (target / 2 ^ 32) + target % 2 ^ 32 * 3 / 4 := by omega
  rw [usToTicks_toNat, UInt32.toNat_ofNat', period, hticks, Nat.mul_add_mod]
  exact (Nat.mod_eq_of_lt (by omega)).symm

/-- What `EMBENET_TIMER_SetCompare` programs is the compare time in ticks. -/
theorem eq_of_mem_setCompare {currentValue compareValue ticks : UInt32}
    (h : .setMatchValue ticks ∈ setCompare currentValue compareValue) :
    ticks = usToTicks compareValue := by
  simp only [setCompare, List.mem_cons, reduceCtorEq, false_or] at h
  by_cases hwindow :
      usToTicks compareValue - eventGuardTimeTicks - currentValue < maxCompareDuration
  · simpa [hwindow] using h
  · simp [hwindow] at h

/-- The first tick from `n` on at which the counter reads `ticks`. -/
def FirstMatch (n ticks m : ℕ) : Prop :=
  n ≤ m ∧ m % period = ticks ∧ ∀ m', n ≤ m' → m' % period = ticks → m ≤ m'

theorem firstMatch_of_lt {n m : ℕ} (hle : n ≤ m) (hlt : m < n + period) :
    FirstMatch n (m % period) m := by
  refine ⟨hle, rfl, ?_⟩
  intro m' hle' hmod
  rw [period] at *
  omega

/-- **An armed event matches in time**: for an event `d` µs ahead, the value programmed is one the
counter takes, and when it first takes it, the clock reads the event's time or 1 µs less. -/
theorem setCompare_match (n d : ℕ) (hguard : 60 ≤ d) (hmax : d ≤ 0x7FFFFFFF) :
    (usToTicks (UInt32.ofNat (4 * n / 3 + d))).toNat ≤ 3221225471 ∧
      (∀ ticks, .setMatchValue ticks ∈
          setCompare (counterAt n).value (UInt32.ofNat (4 * n / 3 + d)) →
        ticks = usToTicks (UInt32.ofNat (4 * n / 3 + d))) ∧
      ∃ m, FirstMatch n (usToTicks (UInt32.ofNat (4 * n / 3 + d))).toNat m ∧
        (4 * m / 3 = 4 * n / 3 + d ∨ 4 * m / 3 + 1 = 4 * n / 3 + d) := by
  refine ⟨Nat.le_of_lt_succ (usToTicks_lt _), fun _ => eq_of_mem_setCompare, ?_⟩
  -- the match comes at the event's time in ticks, which is less than a period ahead
  refine ⟨(4 * n / 3 + d) * 3 / 4, ?_, by omega⟩
  rw [usToTicks_ofNat]
  exact firstMatch_of_lt (by omega) (by rw [period]; omega)

/-- An event 60 µs ahead, armed ten ticks before the counter starts over. -/
theorem setCompare_match_wrap :
    (usToTicks (UInt32.ofNat (4 * 3221225462 / 3 + 60))).toNat ≤ 3221225471 ∧
      (∀ ticks, .setMatchValue ticks ∈
          setCompare (counterAt 3221225462).value (UInt32.ofNat (4 * 3221225462 / 3 + 60)) →
        ticks = usToTicks (UInt32.ofNat (4 * 3221225462 / 3 + 60))) ∧
      ∃ m, FirstMatch 3221225462 (usToTicks (UInt32.ofNat (4 * 3221225462 / 3 + 60))).toNat m ∧
        (4 * m / 3 = 4 * 3221225462 / 3 + 60 ∨ 4 * m / 3 + 1 = 4 * 3221225462 / 3 + 60) :=
  setCompare_match 3221225462 60 (by decide) (by decide)

end EmbenetNode.Timer
