import Mathlib.Data.Int.Notation
import Mathlib.Data.List.Basic

/-!
# Checked C operations

Array accesses, copies, unsigned subtractions and signed additions as partial functions: `none`
stands for an access outside its array, a subtraction that would wrap, or an addition that would
overflow. A program written with them is free of these as soon as it is shown to return.
-/

namespace Checked

variable {β : Type*} {m : ℕ}

/-- `a - b` on an unsigned type, `none` when it would wrap. -/
def sub (a b : ℕ) : Option ℕ := if b ≤ a then some (a - b) else none

/-- The greatest value of a 32-bit signed type. -/
abbrev intMax : ℕ := 2147483647

/-- `a + b` on a 32-bit signed type, `none` when it would overflow. -/
def addInt (a b : ℤ) : Option ℤ :=
  if -2147483648 ≤ a + b ∧ a + b ≤ 2147483647 then some (a + b) else none

/-- `dst[i] = b`. -/
def store (dst : Vector β m) (i : ℕ) (b : β) : Option (Vector β m) :=
  if h : i < m then some (dst.set i b h) else none

/-- `memcpy(dst, src, n)`. -/
def memcpy (dst : Vector β m) (src : List β) (n : ℕ) : Option (Vector β m) :=
  if h : n ≤ m ∧ n ≤ src.length then
    some ⟨(src.take n ++ dst.toList.drop n).toArray, by simp; omega⟩
  else none

theorem sub_of_le {a b : ℕ} (h : b ≤ a) : sub a b = some (a - b) := if_pos h

theorem addInt_of_le {a b : ℤ} (hmin : -2147483648 ≤ a + b) (hmax : a + b ≤ 2147483647) :
    addInt a b = some (a + b) := if_pos ⟨hmin, hmax⟩

theorem eq_of_addInt {a b c : ℤ} (h : addInt a b = some c) : c = a + b := by
  unfold addInt at h
  split_ifs at h
  exact (Option.some.inj h).symm

/-- A store at `i` extends the part of the array below `i` by the value stored. -/
theorem take_store (dst : Vector β m) {i : ℕ} (h : i < m) (b : β) :
    (dst.set i b h).toList.take (i + 1) = dst.toList.take i ++ [b] := by
  rw [Vector.toList_set, List.take_succ_eq_append_getElem (by simpa using h),
    List.getElem_set_self, List.take_set, List.set_eq_of_length_le (List.length_take_le _ _)]

/-- A copy inside both regions succeeds: the first `n` cells are the source's, the others keep
their contents. -/
theorem memcpy_of_le (dst : Vector β m) (src : List β) {n : ℕ} (hdst : n ≤ m)
    (hsrc : n ≤ src.length) :
    ∃ dst', memcpy dst src n = some dst' ∧ dst'.toList = src.take n ++ dst.toList.drop n :=
  ⟨_, dif_pos ⟨hdst, hsrc⟩, rfl⟩

end Checked
