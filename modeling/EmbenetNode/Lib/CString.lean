import Mathlib.Data.Int.Notation
import Mathlib.Data.List.Basic

/-!
# C strings in memory

What lies at a pointer is the list of the bytes from there to the end of the memory that can be
read; `none` stands for a read behind it.

* `stringAt`, `strncmp`: the bytes before a terminator, and the bounded comparison;
* `strncmp_literal`: comparing a literal with the bytes of a message, bounded by their number;
* `isSome_strncmp_iff`, `strncmp_eq_zero_iff`: comparing a message with all bytes of a literal;
* `SameOutput`: a function that gives the same result in all memories that begin with a message.
-/

namespace CString

/-- The bytes before the terminator. -/
def stringAt : List UInt8 → Option (List UInt8)
  | [] => none
  | b :: rest => if b = 0 then some [] else (stringAt rest).map (b :: ·)

/-- `strncmp`: the difference of the first bytes that differ, or 0 when there are none among the
first `n` bytes and before a terminator. -/
def strncmp : List UInt8 → List UInt8 → ℕ → Option ℤ
  | _, _, 0 => some 0
  | a :: s, b :: t, n + 1 =>
      if a ≠ b then some (a.toNat - b.toNat)
      else if a = 0 then some 0
      else strncmp s t n
  | [], _, _ + 1 => none
  | _ :: _, [], _ + 1 => none

/-- In all memories that begin with `message`, `f` has the same result, where it has one. -/
def SameOutput {β : Type*} (f : List UInt8 → Option β) (message : List UInt8) : Prop :=
  ∀ rest rest' out out', f (message ++ rest) = some out → f (message ++ rest') = some out' →
    out = out'

/-! ### More memory -/

/-- A string that ends in a part of the memory is the same in all of it. -/
theorem stringAt_append {u text : List UInt8} (h : stringAt u = some text) (rest : List UInt8) :
    stringAt (u ++ rest) = some text := by
  induction u generalizing text with
  | nil => cases h
  | cons b u ih =>
    rw [List.cons_append, stringAt]
    rw [stringAt] at h
    split_ifs at h ⊢ with hb
    · exact h
    · obtain ⟨text', htext, rfl⟩ := Option.map_eq_some_iff.1 h
      rw [ih htext, Option.map_some]

/-- A comparison that ends in a part of the memory is the same in all of it. -/
theorem strncmp_append {s t : List UInt8} {n : ℕ} {r : ℤ} (h : strncmp s t n = some r)
    (u v : List UInt8) : strncmp (s ++ u) (t ++ v) n = some r := by
  induction s generalizing t n with
  | nil =>
    cases n with
    | zero => simpa [strncmp] using h
    | succ n => cases h
  | cons a s ih =>
    cases n with
    | zero => simpa [strncmp] using h
    | succ n =>
      cases t with
      | nil => cases h
      | cons b t =>
        rw [strncmp] at h
        rw [List.cons_append, List.cons_append, strncmp]
        split_ifs at h ⊢ with hne hzero
        · exact h
        · exact h
        · exact ih h

/-- A function that does not need the memory behind the message does not depend on it. -/
theorem sameOutput_of_isSome {β : Type*} {f : List UInt8 → Option β} {message : List UInt8}
    (hmore : ∀ out rest, f message = some out → f (message ++ rest) = some out)
    (h : (f message).isSome) : SameOutput f message := by
  obtain ⟨out₀, hout₀⟩ := Option.isSome_iff_exists.1 h
  intro rest rest' out out' hout hout'
  have hrest := hmore out₀ rest hout₀
  have hrest' := hmore out₀ rest' hout₀
  rw [Option.some.inj (hout.symm.trans hrest), Option.some.inj (hout'.symm.trans hrest')]

/-! ### Where a string ends -/

/-- A string ends in a message exactly when the message has a terminator. -/
theorem isSome_stringAt_iff (message : List UInt8) : (stringAt message).isSome ↔ 0 ∈ message := by
  induction message with
  | nil => simp [stringAt]
  | cons b message ih =>
    rw [stringAt]
    split_ifs with hb
    · simp [hb]
    · simp [ih, Ne.symm hb]

/-- A message without terminator is read on behind its end. -/
theorem stringAt_append_of_notMem {message : List UInt8} (h : 0 ∉ message) (rest : List UInt8) :
    stringAt (message ++ rest) = (stringAt rest).map (message ++ ·) := by
  induction message with
  | nil => simp
  | cons b message ih =>
    rw [List.mem_cons, not_or] at h
    rw [List.cons_append, stringAt, if_neg (Ne.symm h.1), ih h.2, Option.map_map]
    rfl

/-! ### Comparing with a literal -/

variable {literal : List UInt8}

theorem toNat_sub_eq_zero {a b : UInt8} : ((a.toNat : ℤ) - b.toNat = 0) ↔ a = b := by
  rw [← UInt8.toNat_inj]
  omega

/-- Bounded by the length of the message, the comparison stays inside it, and finds no difference
when the message is a beginning of the literal, or begins with the literal and its terminator. -/
theorem strncmp_literal (hliteral : 0 ∉ literal) (message rest : List UInt8) :
    ∃ r, strncmp (literal ++ [0]) (message ++ rest) message.length = some r ∧
      (r = 0 ↔ message <+: literal ∨ literal ++ [0] <+: message) := by
  induction literal generalizing message with
  | nil =>
    cases message with
    | nil => exact ⟨0, by simp [strncmp], by simp⟩
    | cons b message =>
      by_cases hb : 0 = b
      · subst hb
        exact ⟨0, by simp [strncmp], by simp⟩
      · refine ⟨(0 : UInt8).toNat - b.toNat, by simp [strncmp, hb], ?_⟩
        rw [toNat_sub_eq_zero]
        simp [hb]
  | cons a literal ih =>
    rw [List.mem_cons, not_or] at hliteral
    cases message with
    | nil => exact ⟨0, by simp [strncmp], by simp⟩
    | cons b message =>
      by_cases hab : a = b
      · subst hab
        obtain ⟨r, hr, hzero⟩ := ih hliteral.2 message
        exact ⟨r, by simpa [strncmp, Ne.symm hliteral.1] using hr, by simpa using hzero⟩
      · refine ⟨a.toNat - b.toNat, by simp [strncmp, hab], ?_⟩
        rw [toNat_sub_eq_zero]
        simp [hab, Ne.symm hab]

/-- Bounded by the length of the literal, the comparison stays inside the message unless the message
is a proper beginning of the literal. -/
theorem isSome_strncmp_iff (hliteral : 0 ∉ literal) (message : List UInt8) :
    (strncmp message (literal ++ [0]) literal.length).isSome ↔
      ¬ (message <+: literal ∧ message ≠ literal) := by
  induction literal generalizing message with
  | nil => simp [strncmp]
  | cons a literal ih =>
    rw [List.mem_cons, not_or] at hliteral
    cases message with
    | nil => simp [strncmp]
    | cons b message =>
      by_cases hab : b = a
      · subst hab
        simpa [strncmp, Ne.symm hliteral.1] using ih hliteral.2 message
      · simp [strncmp, hab]

/-- It finds no difference exactly if the message begins with the literal. -/
theorem strncmp_eq_zero_iff (hliteral : 0 ∉ literal) {message : List UInt8} {r : ℤ}
    (h : strncmp message (literal ++ [0]) literal.length = some r) :
    r = 0 ↔ literal <+: message := by
  induction literal generalizing message with
  | nil =>
    cases message <;> simp_all [strncmp]
  | cons a literal ih =>
    rw [List.mem_cons, not_or] at hliteral
    cases message with
    | nil => cases h
    | cons b message =>
      rw [List.length_cons, List.cons_append, strncmp] at h
      split_ifs at h with hab hb
      · cases h
        rw [toNat_sub_eq_zero, List.cons_prefix_cons]
        exact iff_of_false hab fun hprefix => hab hprefix.1.symm
      · rw [not_not] at hab
        exact absurd (hb.symm.trans hab) hliteral.1
      · rw [not_not] at hab
        rw [ih hliteral.2 h, List.cons_prefix_cons, hab]
        simp

end CString
