import EmbenetNode.CriticalSection.Preemption

/-!
# An Exit without an Enter

The counter is kept from going below 0, and so an Exit that has no matching Enter finds it 0 after
the decrement, as an outermost Exit does: it restores the interrupt mask from the key of a section
left before, or from the initial value of the key. The counter itself is right again, and the
sections entered later are not disturbed.

* `Call`, `Caller`, `Caller.step`: calls of Enter and Exit, balanced or not, among those of other
  code that disables and restores the interrupts;
* `PairKept`: what a call of a matched pair does;
* `harmless_iff`: an unmatched Exit is harmless exactly if the key is the interrupt mask;
* `pair_restores`: a matched pair restores the mask, whatever was called before it.
-/

namespace EmbenetNode.CriticalSection

open GuardedRun Checked

variable {Mask : Type}

/-- A call of Enter or Exit, or of `HwiP_disable` or `HwiP_restore` by other code. -/
inductive Call (Mask : Type)
  | enter
  | exit
  | hwiDisable
  | hwiRestore (key : Mask)

/-- The variables, the number of sections entered and not left, and the interrupt mask when the most
recent outermost Enter was called. -/
structure Caller (Mask : Type) where
  state : State Mask
  depth : ℕ
  called : Mask

/-- One call. An Exit without an Enter leaves the depth at 0. -/
def Caller.step (hwi : Hwi Mask) (s : Caller Mask) : Call Mask → Option (Caller Mask)
  | .enter => do
      let state ← CriticalSection.enter hwi s.state
      return ⟨state, s.depth + 1, if s.depth = 0 then s.state.mask else s.called⟩
  | .exit => do
      let state ← CriticalSection.exit s.state
      return ⟨state, s.depth - 1, s.called⟩
  | .hwiDisable => some { s with state := { s.state with mask := hwi.disable s.state.mask } }
  | .hwiRestore key => some { s with state := { s.state with mask := key } }

/-- After a reset; `key` is the initial value of the key. -/
def Caller.initial (key mask : Mask) : Caller Mask := ⟨⟨0, 0, key, mask⟩, 0, key⟩

/-- What a call of a matched pair does, and that the counter is the depth: the outermost Enter
disables the interrupts, the outermost Exit leaves the mask as it was when Enter was called, and the
calls between them leave the mask alone. -/
structure PairKept (hwi : Hwi Mask) (s : Caller Mask) (c : Call Mask) (s' : Caller Mask) :
    Prop where
  counter : s'.state.irqNestCounter = s'.depth
  entered : c = .enter → s.depth = 0 → hwi.enabled s'.state.mask = false
  enteredNested : c = .enter → 0 < s.depth → s'.state.mask = s.state.mask
  left : c = .exit → s.depth = 1 → s'.state.mask = s.called
  leftNested : c = .exit → 1 < s.depth → s'.state.mask = s.state.mask

/-- An Exit without an Enter leaves the interrupt mask alone, and no pair is disturbed. -/
structure Harmless (hwi : Hwi Mask) (s : Caller Mask) (c : Call Mask) (s' : Caller Mask) :
    Prop where
  mask : c = .exit → s.depth = 0 → s'.state.mask = s.state.mask
  pair : PairKept hwi s c s'

/-- An Exit without an Enter finds the key to be the interrupt mask. -/
def KeyIsMask (s : Caller Mask) (c : Call Mask) : Prop :=
  c = .exit → s.depth = 0 → s.state.key = s.state.mask

/-- The invariant: the counter is the depth, and the key is the mask at the most recent outermost
Enter. -/
structure Counts (s : Caller Mask) : Prop where
  previousIrqState : s.state.previousIrqState = 0
  counter : s.state.irqNestCounter = s.depth
  key : s.state.key = s.called

variable {hwi : Hwi Mask}

/-! ### The two functions -/

section Functions

variable {s s' : State Mask}

theorem enter_outermost (hcounter : s.irqNestCounter = 0) (h : enter hwi s = some s') :
    s' = { s with key := s.mask, mask := hwi.disable s.mask, irqNestCounter := 1 } := by
  obtain ⟨counter, hadd, heq⟩ := Option.bind_eq_some_iff.1 h
  cases heq
  rw [if_pos hcounter.symm] at hadd ⊢
  rw [eq_of_addInt hadd, hcounter]
  rfl

theorem enter_nested (hcounter : 0 < s.irqNestCounter) (h : enter hwi s = some s') :
    s' = { s with irqNestCounter := s.irqNestCounter + 1 } := by
  obtain ⟨counter, hadd, heq⟩ := Option.bind_eq_some_iff.1 h
  cases heq
  rw [if_neg (Int.ne_of_lt hcounter)] at hadd ⊢
  rw [eq_of_addInt hadd]

theorem exit_eq (h : exit s = some s') :
    s' = restore (clamp { s with irqNestCounter := s.irqNestCounter + -1 }) := by
  obtain ⟨counter, hadd, heq⟩ := Option.bind_eq_some_iff.1 h
  cases heq
  rw [eq_of_addInt hadd]

/-- **The clamped path**: the counter is put back, and the mask is restored from the key. -/
theorem exit_unmatched (hcounter : s.irqNestCounter = 0) (hprevious : s.previousIrqState = 0)
    (h : exit s = some s') : s' = { s with mask := s.key } := by
  rw [exit_eq h]
  simp [clamp, restore, hcounter, hprevious]

theorem exit_outermost (hcounter : s.irqNestCounter = 1) (hprevious : s.previousIrqState = 0)
    (h : exit s = some s') : s' = { s with irqNestCounter := 0, mask := s.key } := by
  rw [exit_eq h]
  simp [clamp, restore, hcounter, hprevious]

theorem exit_nested (hcounter : 1 < s.irqNestCounter) (h : exit s = some s') :
    s' = { s with irqNestCounter := s.irqNestCounter + -1 } := by
  have hpos : ¬ s.irqNestCounter + -1 < 0 := by omega
  have hne : ¬ (0 = s.irqNestCounter + -1 ∧ 0 = s.previousIrqState) := by omega
  rw [exit_eq h, clamp, if_neg hpos, restore, if_neg hne]

end Functions

/-! ### The steps -/

variable {s s' : Caller Mask}

theorem step_enter (hs : Counts s) (h : s.step hwi .enter = some s') :
    Counts s' ∧ PairKept hwi s .enter s' := by
  obtain ⟨state, henter, heq⟩ := Option.bind_eq_some_iff.1 h
  cases heq
  by_cases hdepth : s.depth = 0
  · have hcounter : s.state.irqNestCounter = 0 := by rw [hs.counter, hdepth]; rfl
    obtain rfl := enter_outermost hcounter henter
    rw [if_pos hdepth, hdepth]
    refine ⟨⟨hs.previousIrqState, rfl, rfl⟩, rfl, fun _ _ => hwi.enabled_disable _, ?_, nofun,
      nofun⟩
    intro _ hpos
    exact absurd hdepth (Nat.ne_of_gt hpos)
  · have hcounter : 0 < s.state.irqNestCounter := by rw [hs.counter]; omega
    obtain rfl := enter_nested hcounter henter
    have hcount : s.state.irqNestCounter + 1 = ((s.depth + 1 : ℕ) : ℤ) := by rw [hs.counter]; rfl
    rw [if_neg hdepth]
    refine ⟨⟨hs.previousIrqState, hcount, hs.key⟩, hcount, ?_, fun _ _ => rfl, nofun, nofun⟩
    intro _ hzero
    exact absurd hzero hdepth

theorem step_exit (hs : Counts s) (h : s.step hwi .exit = some s') :
    Counts s' ∧ PairKept hwi s .exit s' ∧ (s.depth = 0 → s'.state.mask = s.state.key) := by
  obtain ⟨state, hexit, heq⟩ := Option.bind_eq_some_iff.1 h
  cases heq
  have hprevious := hs.previousIrqState
  rcases Nat.lt_trichotomy s.depth 1 with hlt | hone | hmore
  · -- no section is entered
    have hdepth : s.depth = 0 := Nat.lt_one_iff.1 hlt
    have hcounter : s.state.irqNestCounter = 0 := by rw [hs.counter, hdepth]; rfl
    obtain rfl := exit_unmatched hcounter hprevious hexit
    have hcount : s.state.irqNestCounter = ((s.depth - 1 : ℕ) : ℤ) := by rw [hcounter, hdepth]; rfl
    exact ⟨⟨hprevious, hcount, hs.key⟩, ⟨hcount, nofun, nofun, by omega, by omega⟩, fun _ => rfl⟩
  · have hcounter : s.state.irqNestCounter = 1 := by rw [hs.counter, hone]; rfl
    obtain rfl := exit_outermost hcounter hprevious hexit
    have hcount : (0 : ℤ) = ((s.depth - 1 : ℕ) : ℤ) := by rw [hone]; rfl
    exact ⟨⟨hprevious, hcount, hs.key⟩, ⟨hcount, nofun, nofun, fun _ _ => hs.key, by omega⟩,
      by omega⟩
  · have hcounter : 1 < s.state.irqNestCounter := by rw [hs.counter]; omega
    obtain rfl := exit_nested hcounter hexit
    have hcount : s.state.irqNestCounter + -1 = ((s.depth - 1 : ℕ) : ℤ) := by
      rw [hs.counter]
      omega
    exact ⟨⟨hprevious, hcount, hs.key⟩, ⟨hcount, nofun, nofun, by omega, fun _ _ => rfl⟩, by omega⟩

/-- **The step lemma**: every call keeps the invariant and disturbs no pair. -/
theorem counts_step {c : Call Mask} (hs : Counts s) (h : s.step hwi c = some s') :
    Counts s' ∧ PairKept hwi s c s' := by
  cases c with
  | enter => exact step_enter hs h
  | exit =>
    obtain ⟨hs', hpair, -⟩ := step_exit hs h
    exact ⟨hs', hpair⟩
  | hwiDisable | hwiRestore =>
    cases h
    exact ⟨⟨hs.previousIrqState, hs.counter, hs.key⟩, hs.counter, nofun, nofun, nofun, nofun⟩

/-- The mask after an unmatched Exit is the key. -/
theorem harmless_step_iff {c : Call Mask} (hs : Counts s) (h : s.step hwi c = some s') :
    Harmless hwi s c s' ↔ KeyIsMask s c := by
  have hpair := (counts_step hs h).2
  constructor
  · rintro hharmless rfl hdepth
    rw [← (step_exit hs h).2.2 hdepth, hharmless.mask rfl hdepth]
  · intro hkey
    refine ⟨?_, hpair⟩
    rintro rfl hdepth
    rw [(step_exit hs h).2.2 hdepth, hkey rfl hdepth]

/-! ### Whole runs -/

theorem counts_initial (key mask : Mask) : Counts (.initial key mask) := ⟨rfl, rfl, rfl⟩

/-- Whatever is called, the sections that are entered are left as they should be. -/
theorem pairKept_along (hwi : Hwi Mask) (key mask : Mask) (calls : List (Call Mask)) :
    Along (Caller.step hwi) (PairKept hwi) (.initial key mask) calls := by
  have hstep : ∀ s c s', Counts s → True → Caller.step hwi s c = some s' →
      PairKept hwi s c s' ∧ Counts s' := by
    intro s c s' hs _ h
    obtain ⟨hs', hpair⟩ := counts_step hs h
    exact ⟨hpair, hs'⟩
  exact Along.of_invariant hstep (counts_initial key mask)
    (along_of_forall_mem calls _ fun _ _ _ _ => trivial)

/-! ### Matched pairs -/

/-- Calls in which every Enter has its Exit. -/
inductive Balanced : List (Call Mask) → Prop
  | nil : Balanced []
  | other {c : Call Mask} {calls : List (Call Mask)} (henter : c ≠ .enter) (hexit : c ≠ .exit) :
      Balanced calls → Balanced (c :: calls)
  | pair {calls calls' : List (Call Mask)} : Balanced calls → Balanced calls' →
      Balanced (.enter :: (calls ++ .exit :: calls'))

theorem depth_of_enter (h : s.step hwi .enter = some s') :
    s'.depth = s.depth + 1 ∧
      s'.called = if s.depth = 0 then s.state.mask else s.called := by
  obtain ⟨state, -, heq⟩ := Option.bind_eq_some_iff.1 h
  cases heq
  exact ⟨rfl, rfl⟩

theorem depth_of_exit (h : s.step hwi .exit = some s') :
    s'.depth = s.depth - 1 ∧ s'.called = s.called := by
  obtain ⟨state, -, heq⟩ := Option.bind_eq_some_iff.1 h
  cases heq
  exact ⟨rfl, rfl⟩

theorem depth_of_other {c : Call Mask} (henter : c ≠ .enter) (hexit : c ≠ .exit)
    (h : s.step hwi c = some s') : s'.depth = s.depth ∧ s'.called = s.called := by
  cases c with
  | enter => exact absurd rfl henter
  | exit => exact absurd rfl hexit
  | hwiDisable | hwiRestore =>
    cases h
    exact ⟨rfl, rfl⟩

/-- The run of a matched pair and of what comes after it. -/
theorem steps_of_pair {calls calls' : List (Call Mask)}
    (h : (.enter :: (calls ++ .exit :: calls')).foldlM (Caller.step hwi) s = some s') :
    ∃ s₁ s₂ s₃, s.step hwi .enter = some s₁ ∧ calls.foldlM (Caller.step hwi) s₁ = some s₂ ∧
      s₂.step hwi .exit = some s₃ ∧ calls'.foldlM (Caller.step hwi) s₃ = some s' := by
  obtain ⟨s₁, henter, h⟩ := foldlM_cons_eq_some.1 h
  obtain ⟨s₂, hinside, h⟩ := foldlM_append_eq_some.1 h
  obtain ⟨s₃, hexit, hafter⟩ := foldlM_cons_eq_some.1 h
  exact ⟨s₁, s₂, s₃, henter, hinside, hexit, hafter⟩

/-- Inside a section, balanced calls leave the depth as it is. -/
theorem depth_of_balanced {calls : List (Call Mask)} (hcalls : Balanced calls) :
    ∀ {s s' : Caller Mask}, 0 < s.depth → calls.foldlM (Caller.step hwi) s = some s' →
      s'.depth = s.depth ∧ s'.called = s.called := by
  induction hcalls with
  | nil =>
    intro s s' _ h
    cases h
    exact ⟨rfl, rfl⟩
  | @other c calls henter hexit _ ih =>
    intro s s' hpos h
    obtain ⟨s₁, hs₁, h⟩ := foldlM_cons_eq_some.1 h
    obtain ⟨hdepth₁, hcalled₁⟩ := depth_of_other henter hexit hs₁
    obtain ⟨hdepth, hcalled⟩ := ih (by omega) h
    exact ⟨by omega, hcalled.trans hcalled₁⟩
  | @pair calls calls' _ _ ih ih' =>
    intro s s' hpos h
    obtain ⟨s₁, s₂, s₃, hs₁, hs₂, hs₃, h⟩ := steps_of_pair h
    obtain ⟨hdepth₁, hcalled₁⟩ := depth_of_enter hs₁
    obtain ⟨hdepth₂, hcalled₂⟩ := ih (by omega) hs₂
    obtain ⟨hdepth₃, hcalled₃⟩ := depth_of_exit hs₃
    obtain ⟨hdepth, hcalled⟩ := ih' (by omega) h
    rw [if_neg (Nat.ne_of_gt hpos)] at hcalled₁
    exact ⟨by omega, by rw [hcalled, hcalled₃, hcalled₂, hcalled₁]⟩

theorem counts_of_foldlM {calls : List (Call Mask)} (hs : Counts s)
    (h : calls.foldlM (Caller.step hwi) s = some s') : Counts s' :=
  inv_of_foldlM (fun _ _ _ hs h => (counts_step hs h).1) hs h

/-- **A matched pair restores the mask** that its Enter was called in, whatever was called before
it, balanced or not. -/
theorem pair_restores {key mask : Mask} {before calls : List (Call Mask)}
    (hbefore : before.foldlM (Caller.step hwi) (.initial key mask) = some s) (hdepth : s.depth = 0)
    (hcalls : Balanced calls)
    (h : (.enter :: (calls ++ [.exit])).foldlM (Caller.step hwi) s = some s') :
    s'.state.mask = s.state.mask ∧ s'.depth = 0 := by
  have hs := counts_of_foldlM (counts_initial key mask) hbefore
  obtain ⟨s₁, s₂, s₃, hs₁, hs₂, hs₃, h⟩ := steps_of_pair h
  cases h
  obtain ⟨hdepth₁, hcalled₁⟩ := depth_of_enter hs₁
  obtain ⟨hdepth₂, hcalled₂⟩ := depth_of_balanced hcalls (by omega) hs₂
  obtain ⟨hdepth₃, -⟩ := depth_of_exit hs₃
  have hcounts₂ := counts_of_foldlM (counts_step hs hs₁).1 hs₂
  have hleft := (counts_step hcounts₂ hs₃).2.left rfl (by omega)
  rw [if_pos hdepth] at hcalled₁
  exact ⟨by rw [hleft, hcalled₂, hcalled₁], by omega⟩

/-! ### Unmatched Exits -/

/-- **An unmatched Exit is harmless** exactly if it finds the key to be the interrupt mask. Along any
sequence of calls of Enter and Exit, balanced or not, among disables and restores by other code,
every Exit without an Enter leaves the interrupt mask alone and no pair is disturbed, exactly if each
of these Exits finds the mask that the most recent outermost Enter found, or that is the initial
value of the key. -/
theorem harmless_iff (hwi : Hwi Mask) (key mask : Mask) (calls : List (Call Mask)) :
    Along (Caller.step hwi) (Harmless hwi) (.initial key mask) calls ↔
      Along (Caller.step hwi) (fun s c _ => KeyIsMask s c) (.initial key mask) calls :=
  along_iff_of_foldlM (fun _ _ _ hs h => (counts_step hs h).1)
    (fun _ _ _ hs h => harmless_step_iff hs h) (counts_initial key mask)
    (show [].foldlM (Caller.step hwi) (.initial key mask) = some _ from rfl)

/-- A section, and then an Exit too many where other code has disabled the interrupts. -/
def strayExit : List (Call Bool) := [.enter, .exit, .hwiDisable, .exit]

/-- The stray Exit enables the interrupts. -/
theorem strayExit_enables :
    (strayExit.foldlM (Caller.step oneBit) (.initial true true)).map (·.state.mask) = some true ∧
      ¬ Along (Caller.step oneBit) (Harmless oneBit) (.initial true true) strayExit := by
  refine ⟨by decide, fun h => ?_⟩
  have hleft := ((along_cons_of_step rfl).1 h).2
  have hdisabled := ((along_cons_of_step rfl).1 hleft).2
  have hstray := ((along_cons_of_step rfl).1 hdisabled).2
  have hmask := ((along_cons_of_step rfl).1 hstray).1.mask rfl rfl
  cases hmask

end EmbenetNode.CriticalSection
