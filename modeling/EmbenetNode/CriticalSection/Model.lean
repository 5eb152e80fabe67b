import Mathlib.Logic.Relation
import EmbenetNode.Lib.Checked

/-!
# The critical section: `embenet_critical_section.c`

A counter of the nested sections and the key of the outermost one, in variables that the main-line
code and all interrupt handlers share.

* `Hwi`: the interrupt mask, with `HwiP_disable` and `HwiP_restore`;
* `enter`, `exit`: the two functions, as they run when nothing comes between;
* `Pc`, `advance`: their elementary steps, between any two of which a handler may run.
-/

namespace EmbenetNode.CriticalSection

open Checked

/-- Interrupt masks: which of them let handlers run, and the one that `HwiP_disable` sets, which
lets none. `HwiP_disable` returns the previous mask, and `HwiP_restore` sets the one it is given. -/
structure Hwi (Mask : Type) where
  enabled : Mask → Bool
  disable : Mask → Mask
  enabled_disable : ∀ mask, enabled (disable mask) = false

/-- The variables of `embenet_critical_section.c`, and the interrupt mask. -/
structure State (Mask : Type) where
  irqNestCounter : ℤ
  previousIrqState : UInt32
  key : Mask
  mask : Mask

variable {Mask : Type} (hwi : Hwi Mask)

/-- `EMBENET_CRITICAL_SECTION_Enter` -/
def enter (s : State Mask) : Option (State Mask) := do
  let s := if 0 = s.irqNestCounter then { s with key := s.mask, mask := hwi.disable s.mask } else s
  return { s with irqNestCounter := ← addInt s.irqNestCounter 1 }

/-- The counter is kept from going below 0. -/
def clamp (s : State Mask) : State Mask :=
  if s.irqNestCounter < 0 then { s with irqNestCounter := 0 } else s

/-- The interrupt mask is restored at the end of the outermost section. -/
def restore (s : State Mask) : State Mask :=
  if 0 = s.irqNestCounter ∧ 0 = s.previousIrqState then { s with mask := s.key } else s

/-- `EMBENET_CRITICAL_SECTION_Exit` -/
def exit (s : State Mask) : Option (State Mask) := do
  let s := { s with irqNestCounter := ← addInt s.irqNestCounter (-1) }
  return restore (clamp s)

/-! ### Elementary steps -/

/-- The next elementary step of the code that runs: none of the two functions, or a step of one of
them, with the values it has read so far. -/
inductive Pc (Mask : Type)
  | outside
  | enterTest
  | enterDisable
  | enterSave (previous : Mask)
  | enterLoad
  | enterStore (irqNestCounter : ℤ)
  | exitLoad
  | exitStore (irqNestCounter : ℤ)
  | exitTestNegative
  | exitClamp
  | exitTestZero
  | exitKey
  | exitRestore (key : Mask)

/-- One elementary step of Enter or Exit. -/
def advance : Pc Mask × State Mask → Option (Pc Mask × State Mask)
  | (.outside, _) => none
  | (.enterTest, s) => some (if 0 = s.irqNestCounter then .enterDisable else .enterLoad, s)
  | (.enterDisable, s) => some (.enterSave s.mask, { s with mask := hwi.disable s.mask })
  | (.enterSave previous, s) => some (.enterLoad, { s with key := previous })
  | (.enterLoad, s) => some (.enterStore s.irqNestCounter, s)
  | (.enterStore irqNestCounter, s) => do
      return (.outside, { s with irqNestCounter := ← addInt irqNestCounter 1 })
  | (.exitLoad, s) => some (.exitStore s.irqNestCounter, s)
  | (.exitStore irqNestCounter, s) => do
      return (.exitTestNegative, { s with irqNestCounter := ← addInt irqNestCounter (-1) })
  | (.exitTestNegative, s) => some (if s.irqNestCounter < 0 then .exitClamp else .exitTestZero, s)
  | (.exitClamp, s) => some (.exitTestZero, { s with irqNestCounter := 0 })
  | (.exitTestZero, s) =>
      some (if 0 = s.irqNestCounter ∧ 0 = s.previousIrqState then .exitKey else .outside, s)
  | (.exitKey, s) => some (.exitRestore s.key, s)
  | (.exitRestore key, s) => some (.outside, { s with mask := key })

/-- Elementary steps with nothing between them. -/
abbrev Uninterrupted : Pc Mask × State Mask → Pc Mask × State Mask → Prop :=
  Relation.ReflTransGen fun c c' => advance hwi c = some c'

variable {hwi}

theorem Uninterrupted.step {c c' c'' : Pc Mask × State Mask} (h : advance hwi c = some c')
    (hrest : Uninterrupted hwi c' c'') : Uninterrupted hwi c c'' :=
  Relation.ReflTransGen.head h hrest

/-- The increment at the end of Enter. -/
theorem uninterrupted_increment {s : State Mask} {irqNestCounter : ℤ}
    (h : addInt s.irqNestCounter 1 = some irqNestCounter) :
    Uninterrupted hwi (.enterLoad, s) (.outside, { s with irqNestCounter := irqNestCounter }) := by
  refine .step rfl (.step ?_ .refl)
  simp [advance, h]

/-- **Enter** is its elementary steps, one after the other. -/
theorem uninterrupted_enter {s s' : State Mask} (h : enter hwi s = some s') :
    Uninterrupted hwi (.enterTest, s) (.outside, s') := by
  simp only [enter, Option.bind_eq_bind, Option.bind_eq_some_iff, Option.pure_def,
    Option.some.injEq] at h
  obtain ⟨irqNestCounter, hadd, rfl⟩ := h
  by_cases hzero : 0 = s.irqNestCounter
  · rw [if_pos hzero] at hadd ⊢
    have htest : advance hwi (.enterTest, s) = some (.enterDisable, s) := by simp [advance, ← hzero]
    exact .step htest (.step rfl (.step rfl (uninterrupted_increment hadd)))
  · rw [if_neg hzero] at hadd ⊢
    have htest : advance hwi (.enterTest, s) = some (.enterLoad, s) := by simp [advance, hzero]
    exact .step htest (uninterrupted_increment hadd)

theorem uninterrupted_restore (s : State Mask) :
    Uninterrupted hwi (.exitTestZero, s) (.outside, restore s) := by
  unfold restore
  by_cases hzero : 0 = s.irqNestCounter ∧ 0 = s.previousIrqState
  · rw [if_pos hzero]
    have htest : advance hwi (.exitTestZero, s) = some (.exitKey, s) := by
      simp [advance, ← hzero.1, ← hzero.2]
    exact .step htest (.step rfl (.step rfl .refl))
  · rw [if_neg hzero]
    have htest : advance hwi (.exitTestZero, s) = some (.outside, s) := by
      simp only [advance, if_neg hzero]
    exact .step htest .refl

theorem uninterrupted_clamp (s : State Mask) :
    Uninterrupted hwi (.exitTestNegative, s) (.exitTestZero, clamp s) := by
  unfold clamp
  by_cases hneg : s.irqNestCounter < 0
  · rw [if_pos hneg]
    have htest : advance hwi (.exitTestNegative, s) = some (.exitClamp, s) := by
      simp [advance, hneg]
    exact .step htest (.step rfl .refl)
  · rw [if_neg hneg]
    have htest : advance hwi (.exitTestNegative, s) = some (.exitTestZero, s) := by
      simp [advance, hneg]
    exact .step htest .refl

/-- **Exit** is its elementary steps, one after the other. -/
theorem uninterrupted_exit {s s' : State Mask} (h : exit s = some s') :
    Uninterrupted hwi (.exitLoad, s) (.outside, s') := by
  obtain ⟨irqNestCounter, hadd, heq⟩ := Option.bind_eq_some_iff.1 h
  cases heq
  have hstore : advance hwi (.exitStore s.irqNestCounter, s) =
      some (.exitTestNegative, { s with irqNestCounter := irqNestCounter }) := by
    simp [advance, hadd]
  exact .step rfl (.step hstore ((uninterrupted_clamp _).trans (uninterrupted_restore _)))

end EmbenetNode.CriticalSection
