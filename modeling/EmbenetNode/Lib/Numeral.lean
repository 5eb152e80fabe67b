import Mathlib.Algebra.Group.Nat.Defs

/-!
# Numerals

Numerals in a base of at most sixteen, with lower-case letters as the digits from ten on, and padded
on the left with zeros.

* `value`: what a numeral stands for, leading zeros or not;
* `toDigits_injective`, `padded_injective`: different numbers have different numerals;
* `length_padded`: the length of a padded numeral of a number that fits.
-/

namespace Numeral

variable {b n width : ℕ}

/-- What a digit stands for. -/
def digitValue (c : Char) : ℕ := if c.toNat ≤ 57 then c.toNat - 48 else c.toNat - 87

/-- What a numeral stands for. -/
def value (b : ℕ) (digits : List Char) : ℕ :=
  digits.foldl (fun v c => b * v + digitValue c) 0

/-- The numeral of a number, with zeros before it up to a width. -/
def padded (b width n : ℕ) : List Char := (Nat.toDigits b n).leftpad width '0'

theorem digitValue_digitChar {d : ℕ} (hd : d < 16) : digitValue d.digitChar = d := by
  have hall : ∀ d < 16, digitValue (Nat.digitChar d) = d := by decide
  exact hall d hd

@[simp] theorem value_nil : value b [] = 0 := rfl

@[simp] theorem value_concat (digits : List Char) (c : Char) :
    value b (digits ++ [c]) = b * value b digits + digitValue c := by
  simp [value]

/-- The numeral of a number stands for it. -/
theorem value_toDigits (hb : 1 < b) (hb' : b ≤ 16) (n : ℕ) : value b (Nat.toDigits b n) = n := by
  induction n using Nat.base_induction b hb with
  | single m hm =>
    rw [Nat.toDigits_of_lt_base hm, ← List.nil_append [m.digitChar], value_concat, value_nil,
      digitValue_digitChar (by omega)]
    omega
  | digit m k hk hm ih =>
    rw [← Nat.toDigits_append_toDigits hb hm hk, Nat.toDigits_of_lt_base hk, value_concat, ih,
      digitValue_digitChar (by omega)]

/-- Zeros before a numeral do not count. -/
theorem value_zeros_append (count : ℕ) (digits : List Char) :
    value b (List.replicate count '0' ++ digits) = value b digits := by
  have hzero : digitValue '0' = 0 := rfl
  have hzeros : value b (List.replicate count '0') = 0 := by
    induction count with
    | zero => rfl
    | succ count ih => rw [List.replicate_succ', value_concat, ih, hzero, Nat.mul_zero]
  rw [value, List.foldl_append, show List.foldl _ 0 (List.replicate count '0') = 0 from hzeros]
  rfl

theorem value_padded (hb : 1 < b) (hb' : b ≤ 16) (width n : ℕ) :
    value b (padded b width n) = n := by
  rw [padded, List.leftpad, value_zeros_append, value_toDigits hb hb']

/-- Different numbers have different numerals. -/
theorem toDigits_injective (hb : 1 < b) (hb' : b ≤ 16) : Function.Injective (Nat.toDigits b) := by
  intro m n h
  have hvalue := congrArg (value b) h
  rwa [value_toDigits hb hb', value_toDigits hb hb'] at hvalue

theorem padded_injective (hb : 1 < b) (hb' : b ≤ 16) (width : ℕ) :
    Function.Injective (padded b width) := by
  intro m n h
  have hvalue := congrArg (value b) h
  rwa [value_padded hb hb', value_padded hb hb'] at hvalue

/-- The padded numeral of a number that fits is as long as its width. -/
theorem length_padded (hb : 1 < b) (hwidth : 0 < width) (hn : n < b ^ width) :
    (padded b width n).length = width := by
  rw [padded, List.length_leftpad, Nat.max_eq_left ((Nat.length_toDigits_le_iff hb hwidth).2 hn)]

end Numeral
