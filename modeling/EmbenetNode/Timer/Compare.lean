import EmbenetNode.Timer.Model

/-!
# Arming a compare event

`EMBENET_TIMER_SetCompare` works on ticks modulo 2 ^ 32, while the counter starts over at 3 * 2 ^ 30
and the callers think in microseconds modulo 2 ^ 32.

* `setCompare_caught_iff`: when an armed event is still far enough ahead to be caught;
* `setCompare_classified_iff`: when past and future are told apart as the interface says.
-/

namespace EmbenetNode.Timer

/-- The driver calls that arm the match register for a time. -/
def armed (compareValue : UInt32) : List DriverCall :=
  [.enableMatchInterrupt, .setMatchValue (usToTicks compareValue)]

/-- The driver calls that trigger the event at once. -/
def triggered : List DriverCall := [.enableMatchInterrupt, .intPendSet]

/-- `EMBENET_TIMER_SetCompare` does one of two things. -/
theorem setCompare_cases (c : Counter) (compareValue : UInt32) :
    (setCompare c.value compareValue = armed compareValue ∧
        ((c.value.toNat + 40 ≤ (usToTicks compareValue).toNat ∧
            (usToTicks compareValue).toNat < c.value.toNat + 40 + 0x7FFFFFFF) ∨
          (usToTicks compareValue).toNat + 2 ^ 32 < c.value.toNat + 40 + 0x7FFFFFFF)) ∨
      (setCompare c.value compareValue = triggered ∧
        ¬ ((c.value.toNat + 40 ≤ (usToTicks compareValue).toNat ∧
            (usToTicks compareValue).toNat < c.value.toNat + 40 + 0x7FFFFFFF) ∨
          (usToTicks compareValue).toNat + 2 ^ 32 < c.value.toNat + 40 + 0x7FFFFFFF)) := by
  rw [← window_iff]
  by_cases h : usToTicks compareValue - eventGuardTimeTicks - c.value < maxCompareDuration
  · exact Or.inl ⟨by simp [setCompare, armed, h], h⟩
  · exact Or.inr ⟨by simp [setCompare, triggered, h], h⟩

theorem armed_ne_triggered (compareValue : UInt32) : armed compareValue ≠ triggered := by
  simp [armed, triggered]

/-! ### The guard time -/

/-- The ticks that the counter still has to count until it reads `ticks`. -/
def ticksAhead (c : Counter) (ticks : UInt32) : ℕ :=
  (ticks.toNat + period - c.value.toNat) % period

theorem ticksAhead_cases (c : Counter) {ticks : UInt32} (hticks : ticks.toNat < period) :
    (c.value.toNat ≤ ticks.toNat ∧ ticksAhead c ticks = ticks.toNat - c.value.toNat) ∨
      (ticks.toNat < c.value.toNat ∧
        ticksAhead c ticks = ticks.toNat + period - c.value.toNat) := by
  have hc := c.toNat_lt
  by_cases h : c.value.toNat ≤ ticks.toNat
  · left
    rw [ticksAhead, show ticks.toNat + period - c.value.toNat =
      ticks.toNat - c.value.toNat + period by omega, Nat.add_mod_right, Nat.mod_eq_of_lt (by omega)]
    exact ⟨h, rfl⟩
  · right
    rw [ticksAhead, Nat.mod_eq_of_lt (by omega)]
    omega

/-- An armed event is at least the guard time ahead, and an event closer than that is triggered at
once. -/
def CaughtInTime (c : Counter) (compareValue : UInt32) : Prop :=
  (∀ ticks, .setMatchValue ticks ∈ setCompare c.value compareValue →
      ticks = usToTicks compareValue ∧ eventGuardTimeTicks.toNat ≤ ticksAhead c ticks) ∧
    (ticksAhead c (usToTicks compareValue) < eventGuardTimeTicks.toNat →
      setCompare c.value compareValue = triggered)

/-- **The guard time** is kept, except for an event that the counter reaches within it by starting
over. -/
theorem setCompare_caught_iff (c : Counter) (compareValue : UInt32) :
    CaughtInTime c compareValue ↔
      c.value.toNat + eventGuardTimeTicks.toNat ≤ (usToTicks compareValue).toNat + period := by
  have hc := c.toNat_lt
  have hticks := usToTicks_lt compareValue
  have hahead := ticksAhead_cases c hticks
  have hforty : eventGuardTimeTicks.toNat = 40 := rfl
  rcases setCompare_cases c compareValue with ⟨hcalls, hwindow⟩ | ⟨hcalls, hwindow⟩
  · -- armed: what is left is the distance of the match value
    have hcaught : CaughtInTime c compareValue ↔
        eventGuardTimeTicks.toNat ≤ ticksAhead c (usToTicks compareValue) := by
      simp only [CaughtInTime, hcalls, armed, List.mem_cons, List.not_mem_nil, or_false, reduceCtorEq,
        DriverCall.setMatchValue.injEq, false_or, forall_eq, true_and, and_iff_left_iff_imp]
      exact fun hle hlt => absurd hlt (Nat.not_lt_of_le hle)
    rw [hcaught]
    rw [period] at *
    omega
  · have hcaught : CaughtInTime c compareValue := by
      simp [CaughtInTime, hcalls, triggered]
    rw [iff_true_left hcaught]
    rw [period] at *
    omega

/-- One tick before the counter starts over, an event one tick ahead is armed all the same. -/
theorem not_caught_at_wrap : ¬ CaughtInTime ⟨3221225471, by decide⟩ 0 := by
  intro h
  have hahead := (h.1 0 (by decide)).2
  exact absurd hahead (by decide)

/-! ### Past and future -/

/-- The time in microseconds from now to the compare time, modulo 2 ^ 32. -/
def duration (c : Counter) (compareValue : UInt32) : ℕ :=
  (compareValue - readCounter c.value).toNat

/-- What the interface says of a compare time: too far ahead, it counts as past and is triggered at
once; beyond the guard time and within the advertised maximum, it is armed. -/
def ClassifiedByDuration (c : Counter) (compareValue : UInt32) : Prop :=
  (getMaxCompareDuration.toNat < duration c compareValue →
      setCompare c.value compareValue = triggered) ∧
    (60 ≤ duration c compareValue → duration c compareValue ≤ getMaxCompareDuration.toNat →
      setCompare c.value compareValue = armed compareValue)

/-- **Past and future** are told apart by the duration in microseconds exactly when the comparison
in ticks agrees with it. Ahead of a wrap of the microsecond time, durations beyond the maximum must
be beyond it in ticks as well; across the wrap, durations within it must leave the event more than
2 ^ 31 - 39 ticks behind the counter. -/
theorem setCompare_classified_iff (c : Counter) (compareValue : UInt32) :
    ClassifiedByDuration c compareValue ↔
      (readCounter c.value ≤ compareValue →
        duration c compareValue ≤ getMaxCompareDuration.toNat ∨
          c.value.toNat + 40 + 0x7FFFFFFF ≤ (usToTicks compareValue).toNat) ∧
      (compareValue < readCounter c.value →
        duration c compareValue < 60 ∨ getMaxCompareDuration.toNat < duration c compareValue ∨
          (usToTicks compareValue).toNat + 2 ^ 32 < c.value.toNat + 40 + 0x7FFFFFFF) := by
  have hc := c.toNat_lt
  have hcompare := compareValue.toNat_lt
  have hnow : (readCounter c.value).toNat = c.value.toNat * 4 / 3 := ticksToUs_toNat c
  have hticks := usToTicks_toNat compareValue
  have hduration := sub_toNat_cases compareValue (readCounter c.value)
  have hmax : getMaxCompareDuration.toNat = 0x7FFFFFFF := rfl
  have hne := armed_ne_triggered compareValue
  rw [UInt32.le_iff_toNat_le, UInt32.lt_iff_toNat_lt]
  unfold ClassifiedByDuration
  rw [period] at hc
  rw [show (compareValue - readCounter c.value).toNat = duration c compareValue from rfl]
    at hduration
  rcases setCompare_cases c compareValue with ⟨hcalls, hwindow⟩ | ⟨hcalls, hwindow⟩
  · simp only [hcalls, hne, imp_false, implies_true, and_true]
    omega
  · simp only [hcalls, hne.symm, imp_false, implies_true, true_and]
    omega

/-- Right after the start, a time 100 µs beyond the advertised maximum is armed all the same. -/
theorem not_classified_beyond_maximum : ¬ ClassifiedByDuration ⟨0, by decide⟩ 0x80000063 := by
  intro h
  exact absurd (h.1 (by decide)) (by decide)

end EmbenetNode.Timer
