import Mathlib.Algebra.Group.Nat.Defs

/-!
# The timer: `embenet_timer.c`

A general purpose timer counts ticks of 4/3 µs from 0 to its load value and starts over; the port
converts ticks to microseconds and back. What a function of the port does to the hardware is the
list of its driver calls.
-/

namespace EmbenetNode.Timer

/-- `EMBENET_TIMER_MAX_COMPARE_DURATION` -/
def maxCompareDuration : UInt32 := 0x7FFFFFFF

/-- `EMBENET_TIMER_EVENT_GUARD_TIME_TICKS`: the minimal duration between the current time and a
scheduled event. The source says 30 µs, but 40 ticks of 4/3 µs are about 53 µs. -/
def eventGuardTimeTicks : UInt32 := 40

/-- The load value that `EMBENET_TIMER_Init` sets. -/
def loadValue : UInt32 := 3221225471

/-- Calls into the timer driver and the interrupt controller. -/
inductive DriverCall
  | stop
  | unregisterInterrupt
  | close
  | clockDivisionSet (division : ℕ)
  | prcmLoadSet
  | openTimer
  | setLoadValue (value : UInt32)
  | registerInterrupt
  | start
  | enableMatchInterrupt
  | disableMatchInterrupt
  | setMatchValue (value : UInt32)
  | intPendSet
  | compareCallback (context : ℕ)
  deriving DecidableEq

/-- `EMBENET_TIMER_Descriptor`: whether a callback is set, its context, whether the timer is open. -/
structure Descriptor where
  callback : Bool
  context : ℕ
  hTimer : Bool

/-- `EMBENET_TIMER_TicksToUs` -/
def ticksToUs (ticks : UInt32) : UInt32 := (ticks.toUInt64 * 4 / 3).toUInt32

/-- `EMBENET_TIMER_UsToTicks` -/
def usToTicks (time : UInt32) : UInt32 := (time.toUInt64 * 3 / 4).toUInt32

/-- `EMBENET_TIMER_Deinit` -/
def deinit (d : Descriptor) : Descriptor × List DriverCall :=
  if d.hTimer then ({ d with hTimer := false }, [.stop, .unregisterInterrupt, .close]) else (d, [])

/-- `EMBENET_TIMER_Init`, when the driver opens the timer; otherwise it does not return. -/
def init (compareCallback : Bool) (context : ℕ) (d : Descriptor) : Descriptor × List DriverCall :=
  (⟨compareCallback, context, true⟩,
    (deinit d).2 ++ [.clockDivisionSet 64, .prcmLoadSet, .openTimer, .setLoadValue loadValue,
      .registerInterrupt, .start])

/-- `EMBENET_TIMER_SetCompare`, when the free running counter reads `currentValue`. -/
def setCompare (currentValue compareValue : UInt32) : List DriverCall :=
  let compareValue := usToTicks compareValue
  .enableMatchInterrupt ::
    if compareValue - eventGuardTimeTicks - currentValue < maxCompareDuration then
      [.setMatchValue compareValue]
    else [.intPendSet]

/-- `EMBENET_TIMER_ReadCounter`, when the free running counter reads `currentValue`. -/
def readCounter (currentValue : UInt32) : UInt32 := ticksToUs currentValue

/-- `EMBENET_TIMER_GetMaxCompareDuration` -/
def getMaxCompareDuration : UInt32 := maxCompareDuration

/-- `EMBENET_TIMER_ISR_Handler` -/
def isrHandler (d : Descriptor) : List DriverCall :=
  .disableMatchInterrupt :: if d.callback then [.compareCallback d.context] else []

/-- The number of ticks in one period of the counter. -/
def period : ℕ := 3221225472

/-- A value of the free running counter: it never exceeds the load value. -/
structure Counter where
  value : UInt32
  le_loadValue : value ≤ loadValue

theorem Counter.toNat_lt (c : Counter) : c.value.toNat < period :=
  Nat.lt_succ_of_le (UInt32.le_iff_toNat_le.1 c.le_loadValue)

/-! ### The conversions in natural numbers -/

/-- No truncation: the product fits 64 bits, and in range of the counter the result 32. -/
theorem ticksToUs_toNat (c : Counter) : (ticksToUs c.value).toNat = c.value.toNat * 4 / 3 := by
  have hc := c.toNat_lt
  rw [period] at hc
  simp only [ticksToUs, UInt64.toNat_toUInt32, UInt64.toNat_div, UInt64.toNat_mul,
    UInt32.toNat_toUInt64, UInt64.reduceToNat]
  rw [Nat.mod_eq_of_lt (by omega : c.value.toNat * 4 < 2 ^ 64), Nat.mod_eq_of_lt (by omega)]

theorem usToTicks_toNat (time : UInt32) : (usToTicks time).toNat = time.toNat * 3 / 4 := by
  have htime := time.toNat_lt
  simp only [usToTicks, UInt64.toNat_toUInt32, UInt64.toNat_div, UInt64.toNat_mul,
    UInt32.toNat_toUInt64, UInt64.reduceToNat]
  rw [Nat.mod_eq_of_lt (by omega : time.toNat * 3 < 2 ^ 64), Nat.mod_eq_of_lt (by omega)]

/-- Every converted time is a value of the counter. -/
theorem usToTicks_lt (time : UInt32) : (usToTicks time).toNat < period := by
  have htime := time.toNat_lt
  rw [usToTicks_toNat, period]
  omega

/-- Subtraction modulo 2 ^ 32, without a borrow and with one. -/
theorem sub_toNat_cases (a b : UInt32) :
    (b.toNat ≤ a.toNat ∧ (a - b).toNat = a.toNat - b.toNat) ∨
      (a.toNat < b.toNat ∧ (a - b).toNat = a.toNat + 2 ^ 32 - b.toNat) := by
  have ha := a.toNat_lt
  have hb := b.toNat_lt
  rw [UInt32.toNat_sub]
  by_cases h : b.toNat ≤ a.toNat
  · left
    rw [show 2 ^ 32 - b.toNat + a.toNat = a.toNat - b.toNat + 2 ^ 32 by omega, Nat.add_mod_right,
      Nat.mod_eq_of_lt (by omega)]
    exact ⟨h, rfl⟩
  · right
    rw [Nat.mod_eq_of_lt (by omega)]
    omega

/-- The test of `EMBENET_TIMER_SetCompare`: the event lies in a window of `maxCompareDuration` ticks
that starts a guard time after the current value, modulo 2 ^ 32. -/
theorem window_iff (c : Counter) (ticks : UInt32) :
    ticks - eventGuardTimeTicks - c.value < maxCompareDuration ↔
      (c.value.toNat + 40 ≤ ticks.toNat ∧ ticks.toNat < c.value.toNat + 40 + 0x7FFFFFFF) ∨
        ticks.toNat + 2 ^ 32 < c.value.toNat + 40 + 0x7FFFFFFF := by
  have hc := c.toNat_lt
  have hguard := sub_toNat_cases ticks eventGuardTimeTicks
  have hdiff := sub_toNat_cases (ticks - eventGuardTimeTicks) c.value
  have hforty : eventGuardTimeTicks.toNat = 40 := rfl
  have hmax : maxCompareDuration.toNat = 0x7FFFFFFF := rfl
  rw [UInt32.lt_iff_toNat_lt]
  rw [period] at hc
  omega

end EmbenetNode.Timer
