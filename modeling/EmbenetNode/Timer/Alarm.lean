import EmbenetNode.Lib.OneShot
import EmbenetNode.Lib.Simulation
import EmbenetNode.Timer.Clock

/-!
# The compare event as an alarm

`EMBENET_TIMER_SetCompare` is a list of driver calls that takes some ticks to carry out. While the
match interrupt is enabled the counter requests an interrupt when it reads the match value, and
`EMBENET_TIMER_ISR_Handler` switches the match interrupt off and calls back. Together they are a
one-shot alarm.

* `System`, `step`: the timer hardware, the calls that a SetCompare has still to make, the callbacks;
* `abs`, `simulates`: the port is a one-shot alarm whose deadline is the next match;
* `Performs`: a SetCompare that is carried out between two states, undisturbed by the interrupt;
* `called_back_once`, `called_back_on_time`: what becomes of it.
-/

namespace EmbenetNode.Timer

open GuardedRun

deriving instance DecidableEq for Descriptor

/-- The timer: the ticks since the start, the match interrupt and its value, a pending interrupt; the
driver calls that are left of a SetCompare, and the number of times the callback was called. -/
structure System where
  descriptor : Descriptor
  ticks : ℕ
  matchEnabled : Bool
  matchValue : UInt32
  pending : Bool
  todo : List DriverCall
  callbacks : ℕ
  deriving DecidableEq

/-- A tick; a SetCompare that begins, and its next driver call; the interrupt. The timer may have
kept a match from before its interrupt was enabled. -/
inductive Event
  | tick
  | setCompare (compareValue : UInt32)
  | driver (kept : Bool)
  | interrupt

/-- What the driver calls of SetCompare and of the interrupt handler do. -/
def System.apply (kept : Bool) (s : System) : DriverCall → System
  | .enableMatchInterrupt => { s with matchEnabled := true, pending := s.pending || kept }
  | .disableMatchInterrupt => { s with matchEnabled := false }
  | .setMatchValue value => { s with matchValue := value }
  | .intPendSet => { s with pending := true }
  | .compareCallback _ => { s with callbacks := s.callbacks + 1 }
  | .stop | .unregisterInterrupt | .close | .clockDivisionSet _ | .prcmLoadSet | .openTimer
  | .setLoadValue _ | .registerInterrupt | .start => s

/-- One event. -/
def step (s : System) : Event → Option System
  | .tick =>
      some { s with
        ticks := s.ticks + 1
        pending := s.pending ||
          s.matchEnabled && (counterAt (s.ticks + 1)).value == s.matchValue }
  | .setCompare compareValue =>
      if s.todo = [] then
        some { s with todo := setCompare (counterAt s.ticks).value compareValue }
      else none
  | .driver kept =>
      match s.todo with
      | [] => none
      | call :: calls => some (System.apply kept { s with todo := calls } call)
  | .interrupt =>
      if s.pending then
        some ((isrHandler s.descriptor).foldl (System.apply false) { s with pending := false })
      else none

/-- The first tick after `n` at which the counter reads `ticks`. -/
def nextMatch (n ticks : ℕ) : ℕ := n + 1 + (ticks + period - (n + 1) % period) % period

/-- The state of the alarm. -/
def System.alarm (s : System) : OneShot.Alarm :=
  if s.pending then .due
  else if s.matchEnabled ∧ s.matchValue ≤ loadValue then
    .waiting (nextMatch s.ticks s.matchValue.toNat)
  else .quiet

/-- The port as a one-shot alarm, answered by the callback. -/
def abs (s : System) : OneShot.State := ⟨s.ticks, s.alarm, s.callbacks⟩

/-- The event as the alarm sees it. -/
def inputs (s : System) : Event → List OneShot.Input
  | .tick => [.tick]
  | .setCompare _ => []
  | .driver kept =>
      match s.todo with
      | .enableMatchInterrupt :: _ =>
          if kept then [.trigger]
          else if s.matchValue ≤ loadValue then [.set (nextMatch s.ticks s.matchValue.toNat)]
          else []
      | .setMatchValue value :: _ =>
          if s.matchEnabled then [.set (nextMatch s.ticks value.toNat)] else []
      | .intPendSet :: _ => [.trigger]
      | _ => []
  | .interrupt => [.answer]

/-- A driver call that SetCompare makes: a match value is one that the counter takes. -/
def DriverCall.IsOfSetCompare : DriverCall → Prop
  | .enableMatchInterrupt | .intPendSet => True
  | .setMatchValue value => value ≤ loadValue
  | _ => False

/-- A callback is set, and the calls left are those of SetCompare. -/
structure Ready (s : System) : Prop where
  callback : s.descriptor.callback = true
  todo : ∀ call ∈ s.todo, call.IsOfSetCompare

/-! ### The next match -/

theorem nextMatch_spec (n : ℕ) {ticks : ℕ} (h : ticks < period) :
    n < nextMatch n ticks ∧ nextMatch n ticks ≤ n + period ∧ nextMatch n ticks % period = ticks := by
  unfold nextMatch
  rw [period] at *
  omega

/-- There is one match in a period. -/
theorem eq_nextMatch {n m ticks : ℕ} (hlt : n < m) (hle : m ≤ n + period)
    (hmod : m % period = ticks) : nextMatch n ticks = m := by
  subst hmod
  unfold nextMatch
  rw [period] at *
  omega

/-- The next match stays the same until it is reached. -/
theorem nextMatch_succ {n ticks : ℕ} (h : ticks < period) (hne : (n + 1) % period ≠ ticks) :
    nextMatch (n + 1) ticks = nextMatch n ticks ∧ n + 1 < nextMatch n ticks := by
  obtain ⟨hlt, hle, hmod⟩ := nextMatch_spec n h
  have hlater : n + 1 < nextMatch n ticks := by
    refine Nat.lt_of_le_of_ne hlt ?_
    rintro heq
    exact hne (heq ▸ hmod)
  exact ⟨eq_nextMatch hlater (by omega) hmod, hlater⟩

theorem nextMatch_of_mod {n ticks : ℕ} (hmod : (n + 1) % period = ticks) :
    nextMatch n ticks = n + 1 :=
  eq_nextMatch (Nat.lt_succ_self n) (by rw [period]; omega) hmod

/-- The counter reads the match value exactly at the next match. -/
theorem counterAt_eq_iff (n : ℕ) (value : UInt32) :
    (counterAt n).value = value ↔ n % period = value.toNat := by
  rw [← UInt32.toNat_inj, counterAt_toNat]

theorem toNat_lt_period {value : UInt32} (h : value ≤ loadValue) : value.toNat < period :=
  (⟨value, h⟩ : Counter).toNat_lt

theorem setCompare_calls (c : Counter) (compareValue : UInt32) :
    ∀ call ∈ setCompare c.value compareValue, call.IsOfSetCompare := by
  have hvalue : usToTicks compareValue ≤ loadValue :=
    UInt32.le_iff_toNat_le.2 (Nat.le_of_lt_succ (usToTicks_lt compareValue))
  rcases setCompare_cases c compareValue with ⟨hcalls, -⟩ | ⟨hcalls, -⟩
  · rw [hcalls, armed, List.forall_mem_cons, List.forall_mem_singleton]
    exact ⟨trivial, hvalue⟩
  · rw [hcalls, triggered, List.forall_mem_cons, List.forall_mem_singleton]
    exact ⟨trivial, trivial⟩

/-! ### The simulation -/

variable {s s' : System}

theorem alarm_of_pending (h : s.pending = true) : s.alarm = .due := by
  simp only [System.alarm, h, if_true]

theorem alarm_of_enabled (hpending : s.pending = false) (henabled : s.matchEnabled = true)
    (hvalue : s.matchValue ≤ loadValue) :
    s.alarm = .waiting (nextMatch s.ticks s.matchValue.toNat) := by
  simp [System.alarm, hpending, henabled, hvalue]

theorem alarm_of_quiet (hpending : s.pending = false)
    (hquiet : s.matchEnabled = false ∨ ¬ s.matchValue ≤ loadValue) : s.alarm = .quiet := by
  rcases hquiet with henabled | hvalue
  · simp [System.alarm, hpending, henabled]
  · simp [System.alarm, hpending, hvalue]

/-- The alarm depends on the interrupt, the match register and the counter. -/
theorem alarm_congr (hpending : s'.pending = s.pending) (henabled : s'.matchEnabled = s.matchEnabled)
    (hvalue : s'.matchValue = s.matchValue) (hticks : s'.ticks = s.ticks) :
    s'.alarm = s.alarm := by
  simp only [System.alarm, hpending, henabled, hvalue, hticks]

/-- An alarm that is not due takes a new deadline, one that is due stays due. -/
theorem alarm_reset (henabled : s'.matchEnabled = true) (hvalue : s'.matchValue ≤ loadValue)
    (hpending : s'.pending = s.pending) :
    s.alarm.reset (nextMatch s'.ticks s'.matchValue.toNat) = s'.alarm := by
  by_cases hdue : s.pending = true
  · rw [alarm_of_pending hdue, alarm_of_pending (hpending.trans hdue)]
    rfl
  · have hnot : s.pending = false := eq_false_of_ne_true hdue
    have hne : s.alarm ≠ .due := by
      simp only [System.alarm, hnot, Bool.false_eq_true, if_false]
      split_ifs <;> simp
    rw [alarm_of_enabled (hpending.trans hnot) henabled hvalue]
    cases halarm : s.alarm with
    | due => exact absurd halarm hne
    | quiet => rfl
    | waiting deadline => rfl

/-- A tick counts, and requests an interrupt at a match. -/
theorem step_tick (h : step s .tick = some s') :
    s'.ticks = s.ticks + 1 ∧ s'.matchEnabled = s.matchEnabled ∧ s'.matchValue = s.matchValue ∧
      s'.callbacks = s.callbacks ∧ s'.descriptor = s.descriptor ∧ s'.todo = s.todo ∧
        s'.pending = (s.pending ||
          s.matchEnabled && (counterAt (s.ticks + 1)).value == s.matchValue) := by
  cases h
  exact ⟨rfl, rfl, rfl, rfl, rfl, rfl, rfl⟩

/-- The tick that reaches the next match makes the alarm due. -/
theorem alarm_tick (h : step s .tick = some s') : s.alarm.ring (s.ticks + 1) = s'.alarm := by
  obtain ⟨hticks, henabled', hvalue', -, -, -, hpending⟩ := step_tick h
  by_cases hdue : s.pending = true
  · rw [hdue, Bool.true_or] at hpending
    rw [alarm_of_pending hdue, alarm_of_pending hpending]
    rfl
  have hnot : s.pending = false := eq_false_of_ne_true hdue
  rw [hnot, Bool.false_or] at hpending
  by_cases hquiet : s.matchEnabled = false ∨ ¬ s.matchValue ≤ loadValue
  · -- no match: the interrupt is off, or the counter never takes the value
    have hno : s'.pending = false := by
      rw [hpending]
      rcases hquiet with henabled | hvalue
      · rw [henabled, Bool.false_and]
      · rw [Bool.and_eq_false_iff, beq_eq_false_iff_ne]
        refine .inr fun heq => hvalue ?_
        rw [← heq]
        exact (counterAt (s.ticks + 1)).le_loadValue
    rw [alarm_of_quiet hnot hquiet, alarm_of_quiet hno (by rwa [henabled', hvalue'])]
    rfl
  rw [not_or, Bool.not_eq_false, not_not] at hquiet
  obtain ⟨henabled, hvalue⟩ := hquiet
  rw [henabled, Bool.true_and] at hpending
  rw [alarm_of_enabled hnot henabled hvalue]
  by_cases hmatch : (s.ticks + 1) % period = s.matchValue.toNat
  · rw [(counterAt_eq_iff _ _).2 hmatch, BEq.rfl] at hpending
    rw [alarm_of_pending hpending, nextMatch_of_mod hmatch]
    exact if_pos (Nat.le_refl _)
  · rw [beq_eq_false_iff_ne.2 fun heq => hmatch ((counterAt_eq_iff _ _).1 heq)] at hpending
    obtain ⟨hsame, hlater⟩ := nextMatch_succ (toNat_lt_period hvalue) hmatch
    rw [alarm_of_enabled hpending (henabled'.trans henabled) (hvalue'.symm ▸ hvalue), hticks,
      hvalue', hsame]
    exact if_neg (Nat.not_le.2 hlater)

/-- The interrupt switches the match interrupt off and calls back. -/
theorem step_interrupt (hs : Ready s) (h : step s .interrupt = some s') :
    s.pending = true ∧
      s' = { s with matchEnabled := false, pending := false, callbacks := s.callbacks + 1 } := by
  simp only [step] at h
  split_ifs at h with hpending
  cases h
  simp only [isrHandler, hs.callback, if_true]
  exact ⟨hpending, rfl⟩

/-- A driver call. -/
theorem step_driver {kept : Bool} (h : step s (.driver kept) = some s') :
    ∃ call calls, s.todo = call :: calls ∧
      s' = System.apply kept { s with todo := calls } call := by
  cases htodo : s.todo with
  | nil =>
    simp only [step, htodo] at h
    cases h
  | cons call calls =>
    simp only [step, htodo] at h
    cases h
    exact ⟨call, calls, rfl, rfl⟩

/-- A SetCompare begins when none is under way. -/
theorem step_setCompare {compareValue : UInt32} (h : step s (.setCompare compareValue) = some s') :
    s.todo = [] ∧ s' = { s with todo := setCompare (counterAt s.ticks).value compareValue } := by
  simp only [step] at h
  split_ifs at h with htodo
  cases h
  exact ⟨htodo, rfl⟩

theorem abs_congr (halarm : s'.alarm = s.alarm) (hticks : s'.ticks = s.ticks)
    (hcallbacks : s'.callbacks = s.callbacks) : abs s' = abs s := by
  rw [abs, halarm, hticks, hcallbacks, abs]

/-- A pending interrupt is an alarm triggered. -/
theorem abs_trigger (hpending : s'.pending = true) (hticks : s'.ticks = s.ticks)
    (hcallbacks : s'.callbacks = s.callbacks) :
    [OneShot.Input.trigger].foldlM OneShot.step (abs s) = some (abs s') := by
  rw [abs, abs, alarm_of_pending hpending, hticks, hcallbacks]
  rfl

/-- A match value is a deadline. -/
theorem abs_set (henabled : s'.matchEnabled = true) (hvalue : s'.matchValue ≤ loadValue)
    (hpending : s'.pending = s.pending) (hticks : s'.ticks = s.ticks)
    (hcallbacks : s'.callbacks = s.callbacks) :
    [OneShot.Input.set (nextMatch s.ticks s'.matchValue.toNat)].foldlM OneShot.step (abs s) =
      some (abs s') := by
  have hfuture : s.ticks < nextMatch s.ticks s'.matchValue.toNat :=
    (nextMatch_spec s.ticks (toNat_lt_period hvalue)).1
  have halarm : s'.alarm = s.alarm.reset (nextMatch s.ticks s'.matchValue.toNat) := by
    rw [← hticks, alarm_reset henabled hvalue hpending]
  rw [abs, abs, halarm, hticks, hcallbacks, List.foldlM_cons]
  show (if s.ticks < _ then _ else none) >>= _ = _
  rw [if_pos hfuture]
  rfl

/-- While the match interrupt is off, or its value out of range, the match register does not
matter. -/
theorem alarm_eq_of_quiet (hquiet : s.matchEnabled = false ∨ ¬ s.matchValue ≤ loadValue)
    (hquiet' : s'.matchEnabled = false ∨ ¬ s'.matchValue ≤ loadValue)
    (hpending : s'.pending = s.pending) : s'.alarm = s.alarm := by
  by_cases hdue : s.pending = true
  · rw [alarm_of_pending hdue, alarm_of_pending (hpending.trans hdue)]
  · have hnot : s.pending = false := eq_false_of_ne_true hdue
    rw [alarm_of_quiet hnot hquiet, alarm_of_quiet (hpending.trans hnot) hquiet']

/-- What a driver call of SetCompare is to the alarm. -/
theorem abs_driver {kept : Bool} (hs : Ready s) (h : step s (.driver kept) = some s') :
    (inputs s (.driver kept)).foldlM OneShot.step (abs s) = some (abs s') := by
  obtain ⟨call, calls, htodo, heq⟩ := step_driver h
  have hcall : call.IsOfSetCompare := hs.todo call (by rw [htodo]; exact List.mem_cons_self)
  simp only [inputs, htodo]
  cases call with
  | enableMatchInterrupt =>
    have hpending : s'.pending = (s.pending || kept) := by rw [heq]; rfl
    have hvalue : s'.matchValue = s.matchValue := by rw [heq]; rfl
    have hticks : s'.ticks = s.ticks := by rw [heq]; rfl
    have hcallbacks : s'.callbacks = s.callbacks := by rw [heq]; rfl
    cases kept with
    | true =>
      rw [Bool.or_true] at hpending
      exact abs_trigger hpending hticks hcallbacks
    | false =>
      rw [Bool.or_false] at hpending
      simp only [Bool.false_eq_true, if_false]
      split_ifs with hle
      · rw [← hvalue] at hle ⊢
        exact abs_set (by rw [heq]; rfl) hle hpending hticks hcallbacks
      · have halarm : s'.alarm = s.alarm :=
          alarm_eq_of_quiet (.inr hle) (.inr (hvalue ▸ hle)) hpending
        exact congrArg some (abs_congr halarm hticks hcallbacks).symm
  | setMatchValue value =>
    have hpending : s'.pending = s.pending := by rw [heq]; rfl
    have henabled : s'.matchEnabled = s.matchEnabled := by rw [heq]; rfl
    have hvalue : s'.matchValue = value := by rw [heq]; rfl
    have hticks : s'.ticks = s.ticks := by rw [heq]; rfl
    have hcallbacks : s'.callbacks = s.callbacks := by rw [heq]; rfl
    simp only
    split_ifs with hon
    · rw [← hvalue]
      exact abs_set (henabled.trans hon) (hvalue ▸ hcall) hpending hticks hcallbacks
    · -- the interrupt was served before, and has switched the match interrupt off
      have hoff : s.matchEnabled = false := eq_false_of_ne_true hon
      have halarm : s'.alarm = s.alarm :=
        alarm_eq_of_quiet (.inl hoff) (.inl (henabled.trans hoff)) hpending
      exact congrArg some (abs_congr halarm hticks hcallbacks).symm
  | intPendSet =>
    have hpending : s'.pending = true := by rw [heq]; rfl
    have hticks : s'.ticks = s.ticks := by rw [heq]; rfl
    have hcallbacks : s'.callbacks = s.callbacks := by rw [heq]; rfl
    exact abs_trigger hpending hticks hcallbacks
  | _ => cases hcall

/-- The calls left stay those of SetCompare. -/
theorem ready_step {e : Event} (hs : Ready s) (h : step s e = some s') : Ready s' := by
  cases e with
  | tick =>
    obtain ⟨-, -, -, -, hdescriptor, htodo, -⟩ := step_tick h
    exact ⟨hdescriptor ▸ hs.callback, htodo ▸ hs.todo⟩
  | setCompare compareValue =>
    obtain ⟨-, rfl⟩ := step_setCompare h
    exact ⟨hs.callback, setCompare_calls _ _⟩
  | driver kept =>
    obtain ⟨call, calls, htodo, rfl⟩ := step_driver h
    have hcalls : ∀ call ∈ calls, call.IsOfSetCompare :=
      fun call' hmem => hs.todo call' (htodo ▸ List.mem_cons_of_mem _ hmem)
    cases call <;> exact ⟨hs.callback, hcalls⟩
  | interrupt =>
    obtain ⟨-, rfl⟩ := step_interrupt hs h
    exact ⟨hs.callback, hs.todo⟩

/-- **The port is a one-shot alarm**: every event is a run of the alarm. -/
theorem simulates : Simulation.Simulates step OneShot.step abs inputs Ready := by
  intro s e s' hs h
  refine ⟨?_, ready_step hs h⟩
  cases e with
  | tick =>
    obtain ⟨hticks, -, -, hcallbacks, -⟩ := step_tick h
    rw [abs, abs, hticks, hcallbacks, ← alarm_tick h]
    rfl
  | setCompare compareValue =>
    obtain ⟨-, rfl⟩ := step_setCompare h
    exact congrArg some (abs_congr (alarm_congr rfl rfl rfl rfl) rfl rfl).symm
  | driver kept => exact abs_driver hs h
  | interrupt =>
    obtain ⟨hpending, heq⟩ := step_interrupt hs h
    have hdue : (abs s).alarm = .due := alarm_of_pending hpending
    have hquiet : s'.alarm = .quiet := alarm_of_quiet (by rw [heq]) (.inl (by rw [heq]))
    have hticks : s'.ticks = s.ticks := by rw [heq]
    have hcallbacks : s'.callbacks = s.callbacks + 1 := by rw [heq]
    show (if (abs s).alarm = .due then _ else none) >>= _ = _
    rw [if_pos hdue, abs, abs, hquiet, hticks, hcallbacks]
    rfl

/-! ### A SetCompare carried out -/

/-- What happens in the course of a SetCompare, with the interrupt masked. -/
def Event.isInside : Event → Bool
  | .tick | .driver _ => true
  | .setCompare _ | .interrupt => false

/-- What happens until the next SetCompare. -/
def Event.isOutside : Event → Bool
  | .tick | .interrupt => true
  | .setCompare _ | .driver _ => false

/-- Between two states a SetCompare is carried out, and the interrupt is not served meanwhile. -/
structure Performs (s : System) (compareValue : UInt32) (s' : System) : Prop where
  ready : Ready s
  run : ∃ during : List Event, (∀ e ∈ during, e.isInside = true) ∧
    (Event.setCompare compareValue :: during).foldlM step s = some s'
  returned : s'.todo = []

/-- What the last driver call of a SetCompare leaves behind. -/
def DriverCall.Done : DriverCall → System → Prop
  | .setMatchValue value, s => s.matchValue = value
  | .intPendSet, s => s.pending = true
  | _, _ => True

/-- How far a SetCompare has got whose last driver call is the given one. -/
def Within (last : DriverCall) (callbacks : ℕ) (s : System) : Prop :=
  s.callbacks = callbacks ∧
    (s.todo = [.enableMatchInterrupt, last] ∨
      s.matchEnabled = true ∧ (s.todo = [last] ∨ s.todo = [] ∧ last.Done s))

theorem done_tick {last : DriverCall} (hlast : last.Done s) (h : step s .tick = some s') :
    last.Done s' := by
  obtain ⟨-, -, hvalue, -, -, -, hpending⟩ := step_tick h
  cases last with
  | setMatchValue value => exact hvalue.trans hlast
  | intPendSet =>
    have hdue : s.pending = true := hlast
    show s'.pending = true
    rw [hpending, hdue, Bool.true_or]
  | _ => trivial

/-- **The step lemma** for a SetCompare under way. -/
theorem within_step {last : DriverCall} {callbacks : ℕ} {e : Event} (hlast : last.IsOfSetCompare)
    (hs : Within last callbacks s) (he : e.isInside = true) (h : step s e = some s') :
    Within last callbacks s' ∧ s.ticks ≤ s'.ticks := by
  obtain ⟨hcallbacks, hs⟩ := hs
  cases e with
  | setCompare | interrupt => cases he
  | tick =>
    obtain ⟨hticks, henabled, hvalue, hcallbacks', -, htodo, -⟩ := step_tick h
    refine ⟨⟨hcallbacks'.trans hcallbacks, ?_⟩, hticks ▸ Nat.le_succ _⟩
    rw [htodo, henabled]
    exact hs.imp_right (And.imp_right (Or.imp_right (And.imp_right fun hd => done_tick hd h)))
  | driver kept =>
    obtain ⟨call, calls, htodo, rfl⟩ := step_driver h
    rcases hs with hfirst | ⟨henabled, hsecond | ⟨hdone, -⟩⟩
    · cases hfirst.symm.trans htodo
      exact ⟨⟨hcallbacks, .inr ⟨rfl, .inl rfl⟩⟩, Nat.le_refl _⟩
    · cases hsecond.symm.trans htodo
      cases last with
      | enableMatchInterrupt => exact ⟨⟨hcallbacks, .inr ⟨rfl, .inr ⟨rfl, trivial⟩⟩⟩, Nat.le_refl _⟩
      | setMatchValue value =>
        exact ⟨⟨hcallbacks, .inr ⟨henabled, .inr ⟨rfl, rfl⟩⟩⟩, Nat.le_refl _⟩
      | intPendSet => exact ⟨⟨hcallbacks, .inr ⟨henabled, .inr ⟨rfl, rfl⟩⟩⟩, Nat.le_refl _⟩
      | _ => cases hlast
    · cases hdone.symm.trans htodo

theorem within_run {last : DriverCall} {callbacks : ℕ} {es : List Event}
    (hlast : last.IsOfSetCompare) (hes : ∀ e ∈ es, e.isInside = true)
    (hs : Within last callbacks s) (h : es.foldlM step s = some s') :
    Within last callbacks s' ∧ s.ticks ≤ s'.ticks := by
  induction es generalizing s with
  | nil =>
    cases h
    exact ⟨hs, Nat.le_refl _⟩
  | cons e es ih =>
    rw [List.forall_mem_cons] at hes
    obtain ⟨s₁, hs₁, h⟩ := foldlM_cons_eq_some.1 h
    obtain ⟨hwithin, hle⟩ := within_step hlast hs hes.1 hs₁
    obtain ⟨hwithin', hle'⟩ := ih hes.2 hwithin h
    exact ⟨hwithin', Nat.le_trans hle hle'⟩

/-- Once a SetCompare has returned, its last driver call has been made. -/
theorem performs_within {compareValue : UInt32} {last : DriverCall}
    (h : Performs s compareValue s')
    (hlast : setCompare (counterAt s.ticks).value compareValue = [.enableMatchInterrupt, last]) :
    s'.callbacks = s.callbacks ∧ s'.matchEnabled = true ∧ last.Done s' ∧ s.ticks ≤ s'.ticks := by
  obtain ⟨during, hinside, hrun⟩ := h.run
  obtain ⟨s₁, hs₁, hrun⟩ := foldlM_cons_eq_some.1 hrun
  obtain ⟨-, rfl⟩ := step_setCompare hs₁
  have hcall : last.IsOfSetCompare :=
    setCompare_calls (counterAt s.ticks) compareValue last (by rw [hlast]; simp)
  obtain ⟨⟨hcallbacks, hwithin⟩, hle⟩ := within_run hcall hinside ⟨rfl, .inl hlast⟩ hrun
  rcases hwithin with hfirst | ⟨henabled, hsecond | ⟨-, hdone⟩⟩
  · cases hfirst.symm.trans h.returned
  · cases hsecond.symm.trans h.returned
  · exact ⟨hcallbacks, henabled, hdone, hle⟩

theorem performs_ready {compareValue : UInt32} (h : Performs s compareValue s') : Ready s' := by
  obtain ⟨during, -, hrun⟩ := h.run
  exact simulates.inv_of_foldlM h.ready hrun

/-! ### The callback -/

/-- By a deadline the callback has not been called, from then on it is requested or has been called
once. -/
def CalledOnce (deadline callbacks : ℕ) (s : System) : Prop :=
  (s.ticks < deadline ∧ s.pending = false ∧ s.callbacks = callbacks) ∨
    (deadline ≤ s.ticks ∧ s.pending = true ∧ s.callbacks = callbacks) ∨
      (deadline ≤ s.ticks ∧ s.pending = false ∧ s.callbacks = callbacks + 1)

theorem pending_iff (s : System) : s.pending = true ↔ s.alarm = .due := by
  refine ⟨alarm_of_pending, ?_⟩
  intro h
  by_contra hpending
  simp only [System.alarm, hpending, if_false] at h
  split_ifs at h

theorem calledOnce_of_served {deadline callbacks : ℕ}
    (h : OneShot.Served deadline callbacks (abs s)) : CalledOnce deadline callbacks s := by
  have hpending : s.pending = false ↔ s.alarm ≠ .due := by
    rw [← Bool.not_eq_true, pending_iff]
  rcases h with ⟨halarm, hnow, hanswers⟩ | ⟨halarm, hnow, hanswers⟩ | ⟨halarm, hnow, hanswers⟩
  · exact .inl ⟨hnow, hpending.2 (by rw [show s.alarm = _ from halarm]; nofun), hanswers⟩
  · exact .inr (.inl ⟨hnow, (pending_iff s).2 halarm, hanswers⟩)
  · exact .inr (.inr ⟨hnow, hpending.2 (by rw [show s.alarm = _ from halarm]; nofun), hanswers⟩)

/-- An event of the timer that is no driver call leaves the deadline alone. -/
theorem leaves_of_isOutside {e : Event} (he : e.isOutside = true) (s : System) :
    ∀ i ∈ inputs s e, i.leaves := by
  cases e with
  | tick | interrupt =>
    intro i hi
    cases List.mem_singleton.1 hi
    trivial
  | setCompare | driver => cases he

/-- What becomes of an alarm, until the next SetCompare. -/
theorem calledOnce_run {deadline callbacks : ℕ} {after : List Event} (hs : Ready s)
    (hserved : OneShot.Served deadline callbacks (abs s))
    (houtside : ∀ e ∈ after, e.isOutside = true) (h : after.foldlM step s = some s') :
    CalledOnce deadline callbacks s' := by
  have hleaves : ∀ i ∈ Simulation.translate step inputs s after, i.leaves :=
    Simulation.forall_mem_translate fun e he s => leaves_of_isOutside (houtside e he) s
  exact calledOnce_of_served
    (OneShot.served_run hserved hleaves (simulates.foldlM_translate hs h))

/-- The state in which a SetCompare returns. -/
theorem performs_cases {compareValue : UInt32} (h : Performs s compareValue s') :
    s'.callbacks = s.callbacks ∧ s.ticks ≤ s'.ticks ∧
      (s'.pending = true ∨
        s'.pending = false ∧
          setCompare (counterAt s.ticks).value compareValue = armed compareValue ∧
            s'.alarm = .waiting (nextMatch s'.ticks (usToTicks compareValue).toNat)) := by
  rcases setCompare_cases (counterAt s.ticks) compareValue with ⟨hcalls, -⟩ | ⟨hcalls, -⟩
  · obtain ⟨hcallbacks, henabled, hvalue, hle⟩ := performs_within h hcalls
    refine ⟨hcallbacks, hle, ?_⟩
    have hmatch : s'.matchValue = usToTicks compareValue := hvalue
    by_cases hpending : s'.pending = true
    · exact .inl hpending
    · have hnot : s'.pending = false := eq_false_of_ne_true hpending
      have hrange : s'.matchValue ≤ loadValue := by
        rw [hmatch, UInt32.le_iff_toNat_le]
        exact Nat.le_of_lt_succ (usToTicks_lt compareValue)
      exact .inr ⟨hnot, hcalls, hmatch ▸ alarm_of_enabled hnot henabled hrange⟩
  · obtain ⟨hcallbacks, -, hpending, hle⟩ := performs_within h hcalls
    exact ⟨hcallbacks, hle, .inl hpending⟩

/-- **One callback for each SetCompare.** However the ticks, the driver calls and the interrupt are
interleaved after a SetCompare was called, as long as the interrupt is not served before it returns:
if an interrupt is pending when it returns, the callback is called once from then on; otherwise the
event was armed, and the callback is called once, from the tick on at which the counter next reads
the compare time. It is called no more until the next SetCompare. -/
theorem called_back_once {s s' s'' : System} {compareValue : UInt32} {after : List Event}
    (hperforms : Performs s compareValue s') (houtside : ∀ e ∈ after, e.isOutside = true)
    (hafter : after.foldlM step s' = some s'') :
    (s'.pending = true ∧ CalledOnce s'.ticks s.callbacks s'') ∨
      (s'.pending = false ∧
        setCompare (counterAt s.ticks).value compareValue = armed compareValue ∧
          CalledOnce (nextMatch s'.ticks (usToTicks compareValue).toNat) s.callbacks s'') := by
  have hready : Ready s' := performs_ready hperforms
  obtain ⟨hcallbacks, -, hpending | ⟨hpending, harmed, halarm⟩⟩ := performs_cases hperforms
  · refine .inl ⟨hpending, ?_⟩
    have hserved : OneShot.Served s'.ticks s'.callbacks (abs s') :=
      OneShot.served_of_due (alarm_of_pending hpending)
    rw [hcallbacks] at hserved
    exact calledOnce_run hready hserved houtside hafter
  · refine .inr ⟨hpending, harmed, ?_⟩
    have hfuture := (nextMatch_spec s'.ticks (usToTicks_lt compareValue)).1
    exact calledOnce_run hready (.inl ⟨halarm, hfuture, hcallbacks⟩) houtside hafter

/-- After a reset and `EMBENET_TIMER_Init`: the match value is the reset value of its register. -/
def started : System where
  descriptor := ⟨true, 0, true⟩
  ticks := 0
  matchEnabled := false
  matchValue := 0xffffffff
  pending := false
  todo := []
  callbacks := 0

/-- An event 100 µs ahead is armed while one tick passes. -/
theorem performs_started : Performs started 100
    { started with ticks := 1, matchEnabled := true, matchValue := 75 } where
  ready := ⟨rfl, nofun⟩
  run := ⟨[.driver false, .tick, .driver false], by decide, rfl⟩
  returned := rfl

theorem called_back_once_started :
    (false = true ∧ CalledOnce 1 0
      { started with ticks := 75, matchValue := 75, callbacks := 1 }) ∨
      (false = false ∧ setCompare (counterAt 0).value 100 = armed 100 ∧
        CalledOnce (nextMatch 1 (usToTicks 100).toNat) 0
          { started with ticks := 75, matchValue := 75, callbacks := 1 }) :=
  called_back_once performs_started
    (show ∀ e ∈ List.replicate 74 Event.tick ++ [.interrupt], e.isOutside = true by decide)
    (by decide +kernel)

/-- **The callback is on time.** Where no interrupt is pending when a SetCompare returns that was
called `d` µs ahead of the compare time, and that took less than the guard time, the callback is
called once, from the tick on at which the clock reads the compare time or 1 µs less. -/
theorem called_back_on_time {s s' s'' : System} {d : ℕ} {after : List Event} (hguard : 60 ≤ d)
    (hd : d < 2 ^ 32) (hperforms : Performs s (UInt32.ofNat (4 * s.ticks / 3 + d)) s')
    (hquick : s'.ticks < s.ticks + 40) (hpending : s'.pending = false)
    (houtside : ∀ e ∈ after, e.isOutside = true) (hafter : after.foldlM step s' = some s'') :
    ∃ deadline, (4 * deadline / 3 = 4 * s.ticks / 3 + d ∨
        4 * deadline / 3 + 1 = 4 * s.ticks / 3 + d) ∧
      CalledOnce deadline s.callbacks s'' := by
  obtain ⟨hcallbacks, hle, hdue | ⟨-, -, halarm⟩⟩ := performs_cases hperforms
  · exact absurd hdue (by rw [hpending]; nofun)
  · -- the compare time in ticks lies behind the return, and less than a period ahead
    have hticks : (4 * s.ticks / 3 + d) * 3 / 4 % period =
        (usToTicks (UInt32.ofNat (4 * s.ticks / 3 + d))).toNat := (usToTicks_ofNat _).symm
    have hnext : nextMatch s'.ticks (usToTicks (UInt32.ofNat (4 * s.ticks / 3 + d))).toNat =
        (4 * s.ticks / 3 + d) * 3 / 4 :=
      eq_nextMatch (by omega) (by rw [period]; omega) hticks
    refine ⟨(4 * s.ticks / 3 + d) * 3 / 4, by omega, ?_⟩
    have hfuture : s'.ticks < (4 * s.ticks / 3 + d) * 3 / 4 := by omega
    rw [hnext] at halarm
    exact calledOnce_run (performs_ready hperforms) (.inl ⟨halarm, hfuture, hcallbacks⟩) houtside
      hafter

theorem called_back_on_time_started :
    ∃ deadline, (4 * deadline / 3 = 4 * 0 / 3 + 100 ∨ 4 * deadline / 3 + 1 = 4 * 0 / 3 + 100) ∧
      CalledOnce deadline 0 { started with ticks := 75, matchValue := 75, callbacks := 1 } :=
  called_back_on_time (show 60 ≤ 100 by decide) (by decide)
    (show Performs started (UInt32.ofNat (4 * started.ticks / 3 + 100)) _ from performs_started)
    (by decide) rfl
    (show ∀ e ∈ List.replicate 74 Event.tick ++ [.interrupt], e.isOutside = true by decide)
    (by decide +kernel)

/-- An interrupt that is served before SetCompare returns calls back too early, and the alarm is
lost. -/
example :
    ([.setCompare 100, .driver true, .interrupt, .driver false].foldlM step started).map abs =
      some ⟨0, .quiet, 1⟩ := by
  decide

end EmbenetNode.Timer
