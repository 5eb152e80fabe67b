import EmbenetNode.Lib.GuardedRun

/-!
# A one-shot alarm

An alarm waits for a deadline and becomes due when the time reaches it, or at once when it is
triggered. It stays due until it is answered, and is quiet from then on.

* `State`, `step`: the alarm and the time;
* `Served`: what has become of an alarm with a given deadline;
* `served_step`, `served_run`: the alarm is due from its deadline on, and answered once.
-/

namespace OneShot

open GuardedRun

/-- The states of an alarm. -/
inductive Alarm
  | quiet
  | waiting (deadline : ℕ)
  | due
  deriving DecidableEq

/-- The time, the alarm and the number of times it has been answered. -/
structure State where
  now : ℕ
  alarm : Alarm
  answers : ℕ
  deriving DecidableEq

inductive Input
  | tick
  | set (deadline : ℕ)
  | trigger
  | answer

/-- The alarm when it is a given time. -/
def Alarm.ring (now : ℕ) : Alarm → Alarm
  | .waiting deadline => if deadline ≤ now then .due else .waiting deadline
  | .quiet => .quiet
  | .due => .due

/-- A new deadline: an alarm that is due stays so. -/
def Alarm.reset (deadline : ℕ) : Alarm → Alarm
  | .due => .due
  | .quiet | .waiting _ => .waiting deadline

/-- One input. A deadline lies in the future, and only an alarm that is due is answered. -/
def step (s : State) : Input → Option State
  | .tick => some { s with now := s.now + 1, alarm := s.alarm.ring (s.now + 1) }
  | .set deadline =>
      if s.now < deadline then some { s with alarm := s.alarm.reset deadline } else none
  | .trigger => some { s with alarm := .due }
  | .answer =>
      if s.alarm = .due then some { s with alarm := .quiet, answers := s.answers + 1 } else none

/-- An alarm with the deadline, set after so many answers, is waiting, due or answered. -/
def Served (deadline answers : ℕ) (s : State) : Prop :=
  (s.alarm = .waiting deadline ∧ s.now < deadline ∧ s.answers = answers) ∨
    (s.alarm = .due ∧ deadline ≤ s.now ∧ s.answers = answers) ∨
      (s.alarm = .quiet ∧ deadline ≤ s.now ∧ s.answers = answers + 1)

/-- The inputs that leave the deadline alone. -/
def Input.leaves : Input → Prop
  | .tick | .answer => True
  | .set _ | .trigger => False

variable {deadline answers : ℕ} {s s' : State}

/-- An alarm that is due, at its deadline. -/
theorem served_of_due (h : s.alarm = .due) : Served s.now s.answers s :=
  .inr (.inl ⟨h, Nat.le_refl _, rfl⟩)

/-- **The step lemma**: time passes, and the alarm is answered when it is due. -/
theorem served_step {i : Input} (hs : Served deadline answers s) (hi : i.leaves)
    (h : step s i = some s') : Served deadline answers s' := by
  cases i with
  | tick =>
    cases h
    rcases hs with ⟨halarm, hnow, hanswers⟩ | ⟨halarm, hnow, hanswers⟩ | ⟨halarm, hnow, hanswers⟩
    · by_cases hdue : deadline ≤ s.now + 1
      · refine .inr (.inl ⟨?_, hdue, hanswers⟩)
        simp only [halarm, Alarm.ring, if_pos hdue]
      · refine .inl ⟨?_, Nat.lt_of_not_le hdue, hanswers⟩
        simp only [halarm, Alarm.ring, if_neg hdue]
    · refine .inr (.inl ⟨?_, Nat.le_succ_of_le hnow, hanswers⟩)
      simp only [halarm, Alarm.ring]
    · refine .inr (.inr ⟨?_, Nat.le_succ_of_le hnow, hanswers⟩)
      simp only [halarm, Alarm.ring]
  | set | trigger => cases hi
  | answer =>
    simp only [step] at h
    split_ifs at h with hdue
    cases h
    rcases hs with ⟨halarm, -, -⟩ | ⟨-, hnow, hanswers⟩ | ⟨halarm, -, -⟩
    · rw [hdue] at halarm
      cases halarm
    · exact .inr (.inr ⟨rfl, hnow, congrArg (· + 1) hanswers⟩)
    · rw [hdue] at halarm
      cases halarm

/-- **The run lemma**: until the alarm is set again, it is due from its deadline on, and answered
once. -/
theorem served_run {is : List Input} (hs : Served deadline answers s) (his : ∀ i ∈ is, i.leaves)
    (h : is.foldlM step s = some s') : Served deadline answers s' := by
  induction is generalizing s with
  | nil =>
    cases h
    exact hs
  | cons i is ih =>
    rw [List.forall_mem_cons] at his
    obtain ⟨s₁, hs₁, h⟩ := foldlM_cons_eq_some.1 h
    exact ih (served_step hs his.1 hs₁) his.2 h

end OneShot
