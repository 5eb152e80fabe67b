import EmbenetNode.CriticalSection.Model
import EmbenetNode.Lib.GuardedRun

/-!
# Nested and preempted critical sections

The main-line code and the interrupt handlers enter and leave sections, nested to any depth. A
handler may start between any two elementary steps while the interrupts are enabled, and runs to
its end, unless another one preempts it in turn. Nobody is preempted inside a section, and outside
of it whoever is preempted finds the counter and the mask as they were (`Preempted`), although a
handler may have used the counter and the key in between.

* `System`, `Event`, `step`: the code that runs and the code it has preempted;
* `At`: what holds at each elementary step, the invariant;
* `sections_nest`: the sections disable the interrupts and restore the mask.
-/

namespace EmbenetNode.CriticalSection

open GuardedRun Checked

variable {Mask : Type}

def Pc.isOutside : Pc Mask → Bool
  | .outside => true
  | _ => false

def Pc.inExit : Pc Mask → Bool
  | .exitLoad | .exitStore _ | .exitTestNegative | .exitClamp | .exitTestZero | .exitKey
  | .exitRestore _ => true
  | _ => false

def Pc.inEnter : Pc Mask → Bool
  | .enterTest | .enterDisable | .enterSave _ | .enterLoad | .enterStore _ => true
  | _ => false

/-- The sections entered with a step from `pc` to `pc'`: one when Enter returns. -/
def Pc.entered (pc pc' : Pc Mask) : ℕ := (pc.inEnter && pc'.isOutside).toNat

/-- The main-line code or a handler: where it is, the number of sections it has entered and not
begun to leave, and the interrupt mask when it called the outermost Enter. -/
structure Activation (Mask : Type) where
  pc : Pc Mask
  depth : ℕ
  called : Mask

/-- The code that runs, and the code preempted, the latest first; the last of all is the main-line
code. -/
structure System (Mask : Type) where
  state : State Mask
  running : Activation Mask
  preempted : List (Activation Mask)

/-- What can happen next: a call of Enter, a call of Exit that matches an Enter, an elementary step
of either; a handler starts, a handler ends; the main-line code sets the interrupt mask. -/
inductive Event (Mask : Type)
  | enter
  | exit
  | advance
  | preempt
  | finish
  | setMask (mask : Mask)

/-- The sections entered and not left, by the code that runs and by the code preempted. -/
def System.nestingDepth (s : System Mask) : ℕ :=
  s.preempted.foldl (fun depth a => depth + a.depth) s.running.depth

/-- One event. -/
def step (hwi : Hwi Mask) (s : System Mask) : Event Mask → Option (System Mask)
  | .enter =>
      if s.running.pc.isOutside then
        some { s with running := { s.running with
          pc := .enterTest
          called := if s.running.depth = 0 then s.state.mask else s.running.called } }
      else none
  | .exit =>
      if s.running.pc.isOutside ∧ 0 < s.running.depth then
        some { s with running := { s.running with pc := .exitLoad, depth := s.running.depth - 1 } }
      else none
  | .advance => do
      let (pc, state) ← CriticalSection.advance hwi (s.running.pc, s.state)
      return { s with
        state := state
        running := { s.running with pc := pc, depth := s.running.depth + s.running.pc.entered pc } }
  | .preempt =>
      if hwi.enabled s.state.mask then
        some { s with
          running := ⟨.outside, 0, s.state.mask⟩
          preempted := s.running :: s.preempted }
      else none
  | .finish =>
      match s.preempted with
      | [] => none
      | a :: preempted =>
          if s.running.pc.isOutside ∧ s.running.depth = 0 then
            some { s with running := a, preempted := preempted }
          else none
  | .setMask mask =>
      if s.running.pc.isOutside ∧ s.running.depth = 0 ∧ s.preempted = [] then
        some { s with state := { s.state with mask := mask } }
      else none

/-- After a reset; `key` has not been set yet. -/
def start (key mask : Mask) : System Mask := ⟨⟨0, 0, key, mask⟩, ⟨.outside, 0, mask⟩, []⟩

/-- In a section the interrupts are disabled. Outside of Enter and Exit the counter is the nesting
depth. An outermost Exit leaves the mask as it was when the matching Enter was called. No elementary
step of Enter or Exit is undefined, short of an overflow of the counter. -/
structure Nests (hwi : Hwi Mask) (s : System Mask) (e : Event Mask) (s' : System Mask) : Prop where
  disabled : 0 < s'.nestingDepth → hwi.enabled s'.state.mask = false
  counter : s'.running.pc = .outside → s'.state.irqNestCounter = s'.nestingDepth
  restored : e = .advance → s.running.pc.inExit = true → s'.running.pc = .outside →
    s'.nestingDepth = 0 → s'.state.mask = s.running.called
  progress : s'.running.pc ≠ .outside → s'.nestingDepth < 2147483647 →
    ∃ s'', step hwi s' .advance = some s''

/-! ### The invariant -/

variable (hwi : Hwi Mask) (base : Mask)

/-- No section is entered, and the mask is `base`. -/
structure Open (s : State Mask) : Prop where
  mask : s.mask = base
  counter : s.irqNestCounter = 0

/-- The running code, called in the mask `base`, has disabled the interrupts; the counter reads
`count`. -/
structure Holding (s : State Mask) (called : Mask) (count : ℤ) : Prop where
  key : s.key = base
  called : called = base
  disabled : hwi.enabled s.mask = false
  counter : s.irqNestCounter = count

/-- What holds at each elementary step of the code that runs; `base` is the interrupt mask outside
of all sections. The counter never gets negative, so it is never clamped. -/
def At (s : State Mask) (a : Activation Mask) : Prop :=
  match a.pc with
  | .outside => (a.depth = 0 ∧ Open base s) ∨ (0 < a.depth ∧ Holding hwi base s a.called a.depth)
  | .enterTest =>
      (a.depth = 0 ∧ a.called = base ∧ Open base s) ∨
        (0 < a.depth ∧ Holding hwi base s a.called a.depth)
  | .enterDisable => a.depth = 0 ∧ a.called = base ∧ Open base s
  | .enterSave previous =>
      a.depth = 0 ∧ a.called = base ∧ previous = base ∧ hwi.enabled s.mask = false ∧
        s.irqNestCounter = 0
  | .enterLoad => Holding hwi base s a.called a.depth
  | .enterStore n => n = a.depth ∧ Holding hwi base s a.called a.depth
  | .exitLoad => Holding hwi base s a.called (a.depth + 1)
  | .exitStore n => n = a.depth + 1 ∧ Holding hwi base s a.called (a.depth + 1)
  | .exitTestNegative => Holding hwi base s a.called a.depth
  | .exitClamp => False
  | .exitTestZero => Holding hwi base s a.called a.depth
  | .exitKey => a.depth = 0 ∧ Holding hwi base s a.called 0
  | .exitRestore key => a.depth = 0 ∧ key = base ∧ Holding hwi base s a.called 0

/-- Preempted outside of all sections: it can go on as soon as it finds them all left. -/
structure Preempted (a : Activation Mask) : Prop where
  depth : a.depth = 0
  resumes : ∀ s, Open base s → At hwi base s a

/-- The invariant. -/
structure Consistent (s : System Mask) : Prop where
  previousIrqState : s.state.previousIrqState = 0
  running : At hwi base s.state s.running
  preempted : ∀ a ∈ s.preempted, Preempted hwi base a

variable {hwi base} {s s' : State Mask} {a : Activation Mask}

/-- In a section the interrupts are disabled. -/
theorem At.disabled (h : At hwi base s a) (hdepth : 0 < a.depth) : hwi.enabled s.mask = false := by
  obtain ⟨pc, depth, called⟩ := a
  have hne : depth ≠ 0 := Nat.ne_of_gt hdepth
  cases pc with
  | outside | enterTest =>
    rcases h with ⟨hzero, -⟩ | ⟨-, hholding⟩
    · exact absurd hzero hne
    · exact hholding.disabled
  | enterDisable | enterSave | exitKey | exitRestore => exact absurd h.1 hne
  | enterLoad | exitLoad | exitTestNegative | exitTestZero => exact Holding.disabled h
  | enterStore | exitStore => exact h.2.disabled
  | exitClamp => exact h.elim

/-- In Exit the interrupts are disabled in the mask of the outermost Enter. -/
theorem At.called_of_inExit (h : At hwi base s a) (hexit : a.pc.inExit = true) :
    a.called = base := by
  obtain ⟨pc, depth, called⟩ := a
  cases pc with
  | outside | enterTest | enterDisable | enterSave | enterLoad | enterStore => cases hexit
  | exitLoad | exitTestNegative | exitTestZero => exact Holding.called h
  | exitStore | exitKey => exact h.2.called
  | exitRestore => exact h.2.2.called
  | exitClamp => exact h.elim

theorem At.open_of_outside (h : At hwi base s a) (hpc : a.pc = .outside) (hdepth : a.depth = 0) :
    Open base s := by
  rw [At, hpc] at h
  rcases h with ⟨-, hopen⟩ | ⟨hpos, -⟩
  · exact hopen
  · exact absurd hdepth (Nat.ne_of_gt hpos)

theorem At.counter_of_outside (h : At hwi base s a) (hpc : a.pc = .outside) :
    s.irqNestCounter = a.depth := by
  rw [At, hpc] at h
  rcases h with ⟨hdepth, hopen⟩ | ⟨-, hholding⟩
  · rw [hopen.counter, hdepth]
    rfl
  · exact hholding.counter

/-- Code can be preempted only outside of all sections. -/
theorem At.preempted (h : At hwi base s a) (henabled : hwi.enabled s.mask = true) :
    Open base s ∧ Preempted hwi base a := by
  have hlive : ¬ hwi.enabled s.mask = false := by
    rw [henabled]
    decide
  obtain ⟨pc, depth, called⟩ := a
  cases pc with
  | outside =>
    rcases h with ⟨hdepth, hopen⟩ | ⟨-, hholding⟩
    · exact ⟨hopen, hdepth, fun _ hopen' => .inl ⟨hdepth, hopen'⟩⟩
    · exact absurd hholding.disabled hlive
  | enterTest =>
    rcases h with ⟨hdepth, hcalled, hopen⟩ | ⟨-, hholding⟩
    · exact ⟨hopen, hdepth, fun _ hopen' => .inl ⟨hdepth, hcalled, hopen'⟩⟩
    · exact absurd hholding.disabled hlive
  | enterDisable => exact ⟨h.2.2, h.1, fun _ hopen' => ⟨h.1, h.2.1, hopen'⟩⟩
  | enterSave previous => exact absurd h.2.2.2.1 hlive
  | enterLoad | exitLoad | exitTestNegative | exitTestZero =>
    exact absurd (Holding.disabled h) hlive
  | enterStore | exitStore | exitKey => exact absurd h.2.disabled hlive
  | exitRestore => exact absurd h.2.2.disabled hlive
  | exitClamp => exact h.elim

/-! ### The steps -/

theorem Holding.store {called : Mask} {count : ℤ} (h : Holding hwi base s called count) (n : ℤ) :
    Holding hwi base { s with irqNestCounter := n } called n :=
  ⟨h.key, h.called, h.disabled, rfl⟩

/-- The last step of Enter and its counterpart in Exit store the counter. -/
theorem store_of_advance {n d : ℤ} {pc pc' : Pc Mask}
    (h : (do return (pc', { s with irqNestCounter := ← addInt n d })) = some (pc, s')) :
    pc = pc' ∧ s' = { s with irqNestCounter := n + d } := by
  obtain ⟨counter, hadd, heq⟩ := Option.bind_eq_some_iff.1 h
  cases heq
  exact ⟨rfl, by rw [eq_of_addInt hadd]⟩

/-- **One elementary step** keeps the invariant. -/
theorem at_advance {pc : Pc Mask} (h : At hwi base s a) (hprevious : s.previousIrqState = 0)
    (hstep : advance hwi (a.pc, s) = some (pc, s')) :
    At hwi base s' { a with pc := pc, depth := a.depth + a.pc.entered pc } ∧
      s'.previousIrqState = 0 := by
  obtain ⟨pc₀, depth, called⟩ := a
  cases pc₀ with
  | outside => cases hstep
  | enterTest =>
    rcases h with ⟨hdepth, hcalled, hopen⟩ | ⟨hdepth, hholding⟩
    · simp only [advance, hopen.counter, if_true] at hstep
      cases hstep
      exact ⟨⟨hdepth, hcalled, hopen⟩, hprevious⟩
    · -- in a nested Enter the counter is not 0
      have hne : ¬ 0 = s.irqNestCounter := by
        rw [hholding.counter]
        simp only at hdepth ⊢
        omega
      simp only [advance, if_neg hne] at hstep
      cases hstep
      exact ⟨hholding, hprevious⟩
  | enterDisable =>
    cases hstep
    obtain ⟨hdepth, hcalled, hopen⟩ := h
    exact ⟨⟨hdepth, hcalled, hopen.mask, hwi.enabled_disable s.mask, hopen.counter⟩, hprevious⟩
  | enterSave previous =>
    cases hstep
    obtain ⟨hdepth, hcalled, hmask, hdisabled, hcounter⟩ := h
    have hcount : (depth : ℤ) = 0 := congrArg Nat.cast hdepth
    exact ⟨⟨hmask, hcalled, hdisabled, hcounter.trans hcount.symm⟩, hprevious⟩
  | enterLoad =>
    cases hstep
    exact ⟨⟨Holding.counter h, h⟩, hprevious⟩
  | enterStore n =>
    obtain ⟨hn, hholding⟩ := h
    change n = (depth : ℤ) at hn
    subst hn
    obtain ⟨rfl, rfl⟩ := store_of_advance hstep
    exact ⟨.inr ⟨Nat.succ_pos depth, hholding.store _⟩, hprevious⟩
  | exitLoad =>
    cases hstep
    exact ⟨⟨Holding.counter h, h⟩, hprevious⟩
  | exitStore n =>
    obtain ⟨hn, hholding⟩ := h
    change n = (depth + 1 : ℤ) at hn
    subst hn
    obtain ⟨rfl, rfl⟩ := store_of_advance hstep
    rw [Int.add_neg_cancel_right]
    exact ⟨hholding.store _, hprevious⟩
  | exitTestNegative =>
    have hpos : ¬ s.irqNestCounter < 0 := by
      rw [Holding.counter h]
      simp
    simp only [advance, if_neg hpos] at hstep
    cases hstep
    exact ⟨h, hprevious⟩
  | exitClamp => exact h.elim
  | exitTestZero =>
    by_cases hdepth : depth = 0
    · subst hdepth
      have hcounter : s.irqNestCounter = 0 := Holding.counter h
      simp only [advance, hcounter, hprevious, and_self, if_true] at hstep
      cases hstep
      exact ⟨⟨rfl, h⟩, hprevious⟩
    · have hne : ¬ (0 = s.irqNestCounter ∧ 0 = s.previousIrqState) := by
        have hcounter : s.irqNestCounter = depth := Holding.counter h
        omega
      simp only [advance, if_neg hne] at hstep
      cases hstep
      exact ⟨.inr ⟨Nat.pos_of_ne_zero hdepth, h⟩, hprevious⟩
  | exitKey =>
    cases hstep
    exact ⟨⟨h.1, h.2.key, h.2⟩, hprevious⟩
  | exitRestore key =>
    cases hstep
    exact ⟨.inl ⟨h.1, h.2.1, h.2.2.counter⟩, hprevious⟩

theorem Pc.eq_outside {pc : Pc Mask} (h : pc.isOutside = true) : pc = .outside := by
  cases pc <;> first | rfl | cases h

variable {t t' : System Mask}

/-- **The step lemma**: every event keeps the invariant; only the main-line code, outside of all
sections, changes the mask that it is about. -/
theorem consistent_step {e : Event Mask} (h : Consistent hwi base t)
    (hstep : step hwi t e = some t') : ∃ base', Consistent hwi base' t' := by
  obtain ⟨hprevious, hrunning, hpreempted⟩ := h
  cases e with
  | enter =>
    obtain ⟨hpc, heq⟩ := Option.ite_none_right_eq_some.1 hstep
    cases heq
    have hpc := Pc.eq_outside hpc
    rw [At, hpc] at hrunning
    refine ⟨base, hprevious, ?_, hpreempted⟩
    rcases hrunning with ⟨hdepth, hopen⟩ | ⟨hdepth, hholding⟩
    · exact .inl ⟨hdepth, by simp [hdepth, hopen.mask], hopen⟩
    · have hcalled : (if t.running.depth = 0 then t.state.mask else t.running.called) = base := by
        rw [if_neg (Nat.ne_of_gt hdepth), hholding.called]
      exact .inr ⟨hdepth, hholding.key, hcalled, hholding.disabled, hholding.counter⟩
  | exit =>
    obtain ⟨⟨hpc, hdepth⟩, heq⟩ := Option.ite_none_right_eq_some.1 hstep
    cases heq
    have hpc := Pc.eq_outside hpc
    rw [At, hpc] at hrunning
    rcases hrunning with ⟨hzero, -⟩ | ⟨-, hholding⟩
    · exact absurd hzero (Nat.ne_of_gt hdepth)
    · refine ⟨base, hprevious, ⟨hholding.key, hholding.called, hholding.disabled, ?_⟩, hpreempted⟩
      rw [hholding.counter]
      simp only
      omega
  | advance =>
    obtain ⟨⟨pc, state⟩, hadvance, heq⟩ := Option.bind_eq_some_iff.1 hstep
    cases heq
    obtain ⟨hrunning', hprevious'⟩ := at_advance hrunning hprevious hadvance
    exact ⟨base, hprevious', hrunning', hpreempted⟩
  | preempt =>
    obtain ⟨henabled, heq⟩ := Option.ite_none_right_eq_some.1 hstep
    cases heq
    obtain ⟨hopen, hrunning'⟩ := hrunning.preempted henabled
    exact ⟨base, hprevious, .inl ⟨rfl, hopen⟩, List.forall_mem_cons.2 ⟨hrunning', hpreempted⟩⟩
  | finish =>
    rw [step] at hstep
    cases hlist : t.preempted with
    | nil =>
      rw [hlist] at hstep
      cases hstep
    | cons a preempted =>
      rw [hlist] at hstep hpreempted
      obtain ⟨⟨hpc, hdepth⟩, heq⟩ := Option.ite_none_right_eq_some.1 hstep
      cases heq
      obtain ⟨ha, hpreempted⟩ := List.forall_mem_cons.1 hpreempted
      have hopen := hrunning.open_of_outside (Pc.eq_outside hpc) hdepth
      exact ⟨base, hprevious, ha.resumes t.state hopen, hpreempted⟩
  | setMask mask =>
    obtain ⟨⟨hpc, hdepth, hnil⟩, heq⟩ := Option.ite_none_right_eq_some.1 hstep
    cases heq
    have hpc := Pc.eq_outside hpc
    have hopen := hrunning.open_of_outside hpc hdepth
    refine ⟨mask, hprevious, ?_, ?_⟩
    · rw [At, hpc]
      exact .inl ⟨hdepth, rfl, hopen.counter⟩
    · rw [hnil]
      exact nofun

theorem foldl_depth {as : List (Activation Mask)} (h : ∀ a ∈ as, Preempted hwi base a)
    (depth : ℕ) : as.foldl (fun depth a => depth + a.depth) depth = depth := by
  induction as with
  | nil => rfl
  | cons a as ih =>
    obtain ⟨ha, has⟩ := List.forall_mem_cons.1 h
    rw [List.foldl_cons, ha.depth, Nat.add_zero, ih has]

/-- The sections entered and not left are those of the code that runs. -/
theorem Consistent.nestingDepth (h : Consistent hwi base t) : t.nestingDepth = t.running.depth :=
  foldl_depth h.preempted t.running.depth

/-- No elementary step is undefined, short of an overflow of the counter. -/
theorem exists_advance (h : Consistent hwi base t) (hpc : t.running.pc ≠ .outside)
    (hdepth : t.nestingDepth < 2147483647) : ∃ t', step hwi t .advance = some t' := by
  rw [h.nestingDepth] at hdepth
  have hrunning := h.running
  suffices hadvance : ∃ c, advance hwi (t.running.pc, t.state) = some c by
    obtain ⟨c, hc⟩ := hadvance
    exact ⟨_, by rw [step, hc]; rfl⟩
  cases hrunningPc : t.running.pc with
  | outside => exact absurd hrunningPc hpc
  | enterStore n =>
    rw [At, hrunningPc] at hrunning
    have hadd : addInt n 1 = some (n + 1) := addInt_of_le (by omega) (by omega)
    exact ⟨_, by rw [advance, hadd]; rfl⟩
  | exitStore n =>
    rw [At, hrunningPc] at hrunning
    have hadd : addInt n (-1) = some (n + -1) := addInt_of_le (by omega) (by omega)
    exact ⟨_, by rw [advance, hadd]; rfl⟩
  | enterTest | enterDisable | enterSave | enterLoad | exitLoad | exitTestNegative | exitClamp
  | exitTestZero | exitKey | exitRestore => exact ⟨_, rfl⟩

theorem nests_of_consistent {e : Event Mask} {base' : Mask} (h : Consistent hwi base t)
    (h' : Consistent hwi base' t') (hstep : step hwi t e = some t') : Nests hwi t e t' where
  disabled hdepth := h'.running.disabled (h'.nestingDepth ▸ hdepth)
  counter hpc := by rw [h'.nestingDepth, h'.running.counter_of_outside hpc]
  restored := by
    rintro rfl hexit hpc hdepth
    obtain ⟨⟨pc, state⟩, hadvance, heq⟩ := Option.bind_eq_some_iff.1 hstep
    cases heq
    obtain ⟨hrunning, -⟩ := at_advance h.running h.previousIrqState hadvance
    rw [h'.nestingDepth] at hdepth
    rw [h.running.called_of_inExit hexit]
    exact (hrunning.open_of_outside hpc hdepth).mask
  progress := exists_advance h'

theorem consistent_start (key mask : Mask) : Consistent hwi mask (start key mask) :=
  ⟨rfl, .inl ⟨rfl, rfl, rfl⟩, nofun⟩

/-- **Critical sections nest and survive preemption.** Along any run of the main-line code and the
handlers that preempt it and each other, the interrupts are disabled from the return of an outermost
Enter until the matching Exit is called, the counter is the nesting depth whenever the code is
outside of Enter and Exit, the outermost Exit leaves the interrupt mask as it was when the matching
Enter was called, and whoever has called Enter or Exit can go on, short of an overflow of the
counter. -/
theorem sections_nest (hwi : Hwi Mask) (key mask : Mask) (es : List (Event Mask)) :
    Along (step hwi) (Nests hwi) (start key mask) es := by
  have hstep : ∀ t e t', (∃ base, Consistent hwi base t) → True → step hwi t e = some t' →
      Nests hwi t e t' ∧ ∃ base, Consistent hwi base t' := by
    rintro t e t' ⟨base, h⟩ - hstep
    obtain ⟨base', h'⟩ := consistent_step h hstep
    exact ⟨nests_of_consistent h h' hstep, base', h'⟩
  exact Along.of_invariant hstep ⟨mask, consistent_start key mask⟩
    (along_of_forall_mem es _ fun _ _ _ _ => trivial)

/-- The mask of a single bit, which is set while the interrupts are enabled. -/
def oneBit : Hwi Bool := ⟨id, fun _ => false, fun _ => rfl⟩

/-- A handler enters and leaves a section after the main-line code has tested the counter. -/
def preemptedEnter : List (Event Bool) :=
  [[.enter, .advance, .preempt, .enter], List.replicate 5 .advance, [.exit],
    List.replicate 6 .advance, [.finish], List.replicate 4 .advance].flatten

example : (preemptedEnter.foldlM (step oneBit) (start false true)).map
    (fun t => (t.state.irqNestCounter, t.state.mask, t.state.key)) = some (1, false, true) := by
  decide

end EmbenetNode.CriticalSection
