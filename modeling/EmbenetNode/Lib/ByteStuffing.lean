import Mathlib.Data.List.Basic

/-!
# Byte stuffing over an arbitrary alphabet

A flag symbol delimits frames and an escape symbol announces a masked one, so that neither of the
two occurs inside a frame with its own meaning.

* `Code α`: the two symbols, the mask, and the laws that make the code work;
* `stuff`: the sender's side, one or two symbols for each symbol of the content;
* `unstuff`: the receiver's side, which recognises an escape from the previous raw symbol;
* `unstuff_stuff`, `flag_notMem_stuff`: the round trip, and that a stuffed content is flag-free;
* `unescape`: unescaping that fails on ill-formed strings, with which `unstuff` agrees on the
  others;
* `flatMap_enclose_injective`: a stream of flag-free strings, each between two flags, can be split
  in one way only.
-/

namespace ByteStuffing

theorem getLastD_append {α : Type*} (u v : List α) (a : α) :
    (u ++ v).getLastD a = v.getLastD (u.getLastD a) := by
  induction u generalizing a with
  | nil => rfl
  | cons b u ih => rw [List.cons_append, List.getLastD_cons, List.getLastD_cons, ih]

/-- A stuffing code: masking is an involution that takes the flag and the escape to symbols that
need no escape. -/
structure Code (α : Type*) where
  flag : α
  esc : α
  mask : α → α
  flag_ne_esc : flag ≠ esc
  mask_mask : ∀ a, mask (mask a) = a
  mask_flag_ne_flag : mask flag ≠ flag
  mask_flag_ne_esc : mask flag ≠ esc
  mask_esc_ne_flag : mask esc ≠ flag
  mask_esc_ne_esc : mask esc ≠ esc

namespace Code

variable {α : Type*} [DecidableEq α] (c : Code α)

/-- The symbols sent for one symbol of the content. -/
def stuffOne (a : α) : List α :=
  if a = c.flag ∨ a = c.esc then [c.esc, c.mask a] else [a]

/-- The symbols sent for a content. -/
def stuff (content : List α) : List α := content.flatMap c.stuffOne

/-- A whole frame: the stuffed content between two flags. -/
def frame (content : List α) : List α := c.flag :: (c.stuff content ++ [c.flag])

/-- A raw string between two flags. -/
def enclose (w : List α) : List α := c.flag :: (w ++ [c.flag])

/-- What a raw string stands for when `prev` is the raw symbol before it: escapes are dropped, and
a symbol right after an escape is unmasked. -/
def unstuffFrom : α → List α → List α
  | _, [] => []
  | prev, a :: w =>
      if a = c.esc then unstuffFrom a w
      else (if prev = c.esc then c.mask a else a) :: unstuffFrom a w

/-- What a raw string stands for right after a flag. -/
def unstuff (w : List α) : List α := c.unstuffFrom c.flag w

@[simp] theorem stuff_nil : c.stuff [] = [] := rfl

@[simp] theorem stuff_cons (a : α) (content : List α) :
    c.stuff (a :: content) = c.stuffOne a ++ c.stuff content := by
  simp [stuff]

@[simp] theorem unstuffFrom_nil (prev : α) : c.unstuffFrom prev [] = [] := rfl

@[simp] theorem unstuff_nil : c.unstuff [] = [] := rfl

theorem unstuffFrom_append (prev : α) (u v : List α) :
    c.unstuffFrom prev (u ++ v) =
      c.unstuffFrom prev u ++ c.unstuffFrom (u.getLastD prev) v := by
  induction u generalizing prev with
  | nil => rfl
  | cons a u ih =>
    rw [List.cons_append, unstuffFrom, unstuffFrom, List.getLastD_cons]
    split_ifs <;> simp [ih a]

/-- Every raw symbol adds at most one symbol of content. -/
theorem length_unstuffFrom_concat (prev : α) (w : List α) (a : α) :
    (c.unstuffFrom prev (w ++ [a])).length ≤ (c.unstuffFrom prev w).length + 1 := by
  rw [unstuffFrom_append, List.length_append]
  refine Nat.add_le_add_left ?_ _
  unfold unstuffFrom
  split_ifs <;> simp

theorem length_unstuffFrom_concat_of_ne {prev a : α} (w : List α) (ha : a ≠ c.esc) :
    (c.unstuffFrom prev (w ++ [a])).length = (c.unstuffFrom prev w).length + 1 := by
  simp [unstuffFrom_append, unstuffFrom, ha]

theorem length_unstuffFrom_le_append (prev : α) (u v : List α) :
    (c.unstuffFrom prev u).length ≤ (c.unstuffFrom prev (u ++ v)).length := by
  simp [unstuffFrom_append]

theorem stuffOne_cases (a : α) :
    (c.stuffOne a = [c.esc, c.mask a] ∧ c.mask a ≠ c.flag ∧ c.mask a ≠ c.esc) ∨
      (c.stuffOne a = [a] ∧ a ≠ c.flag ∧ a ≠ c.esc) := by
  unfold stuffOne
  by_cases h : a = c.flag ∨ a = c.esc
  · left
    rw [if_pos h]
    rcases h with rfl | rfl
    · exact ⟨rfl, c.mask_flag_ne_flag, c.mask_flag_ne_esc⟩
    · exact ⟨rfl, c.mask_esc_ne_flag, c.mask_esc_ne_esc⟩
  · right
    rw [if_neg h]
    exact ⟨rfl, fun ha => h (Or.inl ha), fun ha => h (Or.inr ha)⟩

theorem flag_notMem_stuff (content : List α) : c.flag ∉ c.stuff content := by
  induction content with
  | nil => simp
  | cons a content ih =>
    rw [stuff_cons, List.mem_append, not_or]
    refine ⟨?_, ih⟩
    rcases c.stuffOne_cases a with ⟨h, hflag, -⟩ | ⟨h, hflag, -⟩ <;> rw [h]
    · simp [c.flag_ne_esc, hflag.symm]
    · simp [hflag.symm]

/-- A frame has two flags. -/
theorem count_flag_frame (content : List α) : (c.frame content).count c.flag = 2 := by
  have hnone : (c.stuff content).count c.flag = 0 :=
    List.count_eq_zero.2 (c.flag_notMem_stuff content)
  rw [frame, List.count_cons_self, List.count_append, hnone, List.count_singleton_self]

theorem stuffOne_ne_nil (a : α) : c.stuffOne a ≠ [] := by
  rcases c.stuffOne_cases a with ⟨h, -⟩ | ⟨h, -⟩ <;> simp [h]

theorem stuff_eq_nil {content : List α} : c.stuff content = [] ↔ content = [] := by
  cases content with
  | nil => simp
  | cons a content => simp [stuffOne_ne_nil]

/-- One stuffed symbol stands for itself, whatever precedes it but a pending escape, and leaves no
escape pending. -/
theorem unstuffFrom_stuffOne {prev : α} (hprev : prev ≠ c.esc) (a : α) :
    c.unstuffFrom prev (c.stuffOne a) = [a] ∧ (c.stuffOne a).getLastD prev ≠ c.esc := by
  rcases c.stuffOne_cases a with ⟨h, -, hesc⟩ | ⟨h, -, hesc⟩ <;> rw [h]
  · simp [unstuffFrom, hesc, c.mask_mask]
  · simp [unstuffFrom, hesc, hprev]

theorem unstuffFrom_stuff {prev : α} (hprev : prev ≠ c.esc) (content : List α) :
    c.unstuffFrom prev (c.stuff content) = content := by
  induction content generalizing prev with
  | nil => rfl
  | cons a content ih =>
    obtain ⟨hone, hlast⟩ := c.unstuffFrom_stuffOne hprev a
    rw [stuff_cons, unstuffFrom_append, hone, ih hlast, List.singleton_append]

/-- **Round trip**: what the sender stuffs, the receiver reads back. -/
@[simp] theorem unstuff_stuff (content : List α) : c.unstuff (c.stuff content) = content :=
  c.unstuffFrom_stuff c.flag_ne_esc content

/-- A stuffed content leaves no escape pending. -/
theorem getLastD_stuff_ne_esc {prev : α} (hprev : prev ≠ c.esc) (content : List α) :
    (c.stuff content).getLastD prev ≠ c.esc := by
  induction content generalizing prev with
  | nil => exact hprev
  | cons a content ih =>
    rw [stuff_cons, getLastD_append]
    exact ih (c.unstuffFrom_stuffOne hprev a).2

/-- A proper beginning of a stuffed content stands for less than the content. -/
theorem length_unstuff_lt_of_prefix {content v : List α} {a : α}
    (h : v ++ [a] <+: c.stuff content) : (c.unstuff v).length < content.length := by
  obtain ⟨rest, hrest⟩ := h
  obtain ⟨u, b, hub⟩ : ∃ u b, c.stuff content = v ++ u ++ [b] := by
    rcases List.eq_nil_or_concat' (a :: rest) with h | ⟨u, b, h⟩
    · simp at h
    · exact ⟨u, b, by rw [← hrest, List.append_assoc, List.append_assoc, ← h]; rfl⟩
  have hb : b ≠ c.esc := by
    simpa [hub] using c.getLastD_stuff_ne_esc c.flag_ne_esc content
  calc (c.unstuff v).length ≤ (c.unstuff (v ++ u)).length :=
        c.length_unstuffFrom_le_append _ _ _
    _ < (c.unstuff (v ++ u ++ [b])).length := by
        rw [unstuff, unstuff, c.length_unstuffFrom_concat_of_ne _ hb]
        exact Nat.lt_succ_self _
    _ = content.length := by rw [← hub, unstuff_stuff]

/-! ### Well-formed strings -/

/-- Every escape in `w` is followed in `w` by a symbol that satisfies `P`. -/
def EscapesTo (P : α → Prop) (w : List α) : Prop :=
  ∀ u v, w = u ++ c.esc :: v → ∃ b v', v = b :: v' ∧ P b

/-- Every escape is followed by a symbol other than an escape. -/
def WellEscaped (w : List α) : Prop := c.EscapesTo (· ≠ c.esc) w

/-- Unescaping of well-formed strings: an escape and the symbol after it stand for that symbol
unmasked, every other symbol stands for itself. -/
def unescape : List α → Option (List α)
  | [] => some []
  | [a] => if a = c.esc then none else some [a]
  | a :: b :: w =>
      if a = c.esc then
        if b = c.esc then none else (unescape w).map (c.mask b :: ·)
      else (unescape (b :: w)).map (a :: ·)

variable {c} {P Q : α → Prop}

omit [DecidableEq α] in
@[simp] theorem escapesTo_nil : c.EscapesTo P [] := by
  intro u v h
  simp at h

omit [DecidableEq α] in
theorem escapesTo_cons {a : α} {w : List α} :
    c.EscapesTo P (a :: w) ↔ (a = c.esc → ∃ b v, w = b :: v ∧ P b) ∧ c.EscapesTo P w := by
  constructor
  · intro h
    refine ⟨fun ha => h [] w (by rw [ha, List.nil_append]), fun u v hw => ?_⟩
    exact h (a :: u) v (by rw [hw, List.cons_append])
  · rintro ⟨hhead, htail⟩ u v hw
    cases u with
    | nil =>
      obtain ⟨ha, hv⟩ := List.cons.inj hw
      rw [← hv]
      exact hhead ha
    | cons b u => exact htail u v (List.cons.inj hw).2

omit [DecidableEq α] in
theorem EscapesTo.imp (h : ∀ b, P b → Q b) {w : List α} (hw : c.EscapesTo P w) :
    c.EscapesTo Q w := by
  intro u v huv
  obtain ⟨b, v', hv, hb⟩ := hw u v huv
  exact ⟨b, v', hv, h b hb⟩

/-- The well-formed strings are those that can be unescaped. -/
theorem isSome_unescape_iff (w : List α) : (c.unescape w).isSome ↔ c.WellEscaped w := by
  unfold WellEscaped
  fun_induction unescape c w with
  | case1 => simp
  | case2 => simp [escapesTo_cons]
  | case3 a ha => simp [escapesTo_cons, ha]
  | case4 w => simp [escapesTo_cons]
  | case5 b w hb ih => simp [escapesTo_cons, hb, ih]
  | case6 a b w ha ih =>
    simp only [Option.isSome_map, ih, escapesTo_cons, ha, false_implies, true_and]

variable (c)

instance (w : List α) : Decidable (c.WellEscaped w) :=
  decidable_of_iff _ (isSome_unescape_iff w)

/-- On a well-formed string the receiver reads what unescaping gives. -/
theorem unstuffFrom_of_unescape {prev : α} (hprev : prev ≠ c.esc) {w content : List α}
    (h : c.unescape w = some content) : c.unstuffFrom prev w = content := by
  fun_induction unescape c w generalizing prev content with
  | case1 => exact Option.some.inj h
  | case2 => cases h
  | case3 a ha =>
    rw [← Option.some.inj h]
    simp [unstuffFrom, ha, hprev]
  | case4 w => cases h
  | case5 b w hb ih =>
    obtain ⟨rest, hrest, rfl⟩ := Option.map_eq_some_iff.1 h
    simp [unstuffFrom, hb, ih hb hrest]
  | case6 a b w ha ih =>
    obtain ⟨rest, hrest, rfl⟩ := Option.map_eq_some_iff.1 h
    rw [unstuffFrom, if_neg ha, if_neg hprev, ih ha hrest]

theorem unstuff_of_unescape {w content : List α} (h : c.unescape w = some content) :
    c.unstuff w = content := c.unstuffFrom_of_unescape c.flag_ne_esc h

theorem unescape_stuffOne_append (a : α) (w : List α) :
    c.unescape (c.stuffOne a ++ w) = (c.unescape w).map (a :: ·) := by
  rcases c.stuffOne_cases a with ⟨h, -, hesc⟩ | ⟨h, -, hesc⟩ <;> rw [h]
  · simp [unescape, hesc, c.mask_mask]
  · cases w with
    | nil => simp [unescape, hesc]
    | cons b w => simp [unescape, hesc]

/-- What the sender stuffs is well-formed, and stands for the content. -/
theorem unescape_stuff (content : List α) : c.unescape (c.stuff content) = some content := by
  induction content with
  | nil => rfl
  | cons a content ih => rw [stuff_cons, unescape_stuffOne_append, ih, Option.map_some]

theorem stuff_injective : Function.Injective c.stuff := by
  intro u v h
  have hu := c.unescape_stuff u
  rw [h, c.unescape_stuff] at hu
  exact (Option.some.inj hu).symm

/-- The sender escapes nothing but flags and escapes. -/
theorem escapesTo_stuff (content : List α) :
    c.EscapesTo (fun b => b = c.mask c.flag ∨ b = c.mask c.esc) (c.stuff content) := by
  induction content with
  | nil => exact escapesTo_nil
  | cons a content ih =>
    rw [stuff_cons, stuffOne]
    split_ifs with ha
    · have hmask : c.mask a = c.mask c.flag ∨ c.mask a = c.mask c.esc :=
        ha.imp (congrArg c.mask) (congrArg c.mask)
      have hne : c.mask a ≠ c.esc := by
        rcases ha with rfl | rfl
        · exact c.mask_flag_ne_esc
        · exact c.mask_esc_ne_esc
      simp [escapesTo_cons, hmask, hne, ih]
    · rw [not_or] at ha
      simp [escapesTo_cons, ha.2, ih]

/-! ### Streams of enclosed strings -/

omit [DecidableEq α] in
/-- The first flag ends the string before it. -/
theorem append_flag_inj {u v w x : List α} (hu : c.flag ∉ u) (hv : c.flag ∉ v)
    (h : u ++ c.flag :: w = v ++ c.flag :: x) : u = v ∧ w = x := by
  induction u generalizing v with
  | nil =>
    cases v with
    | nil => exact ⟨rfl, (List.cons.inj h).2⟩
    | cons b v => exact absurd (List.cons.inj h).1 (fun hb => hv (by simp [hb]))
  | cons a u ih =>
    cases v with
    | nil => exact absurd (List.cons.inj h).1 (fun ha => hu (by simp [ha]))
    | cons b v =>
      rw [List.mem_cons, not_or] at hu hv
      obtain ⟨hhead, htail⟩ := List.cons.inj h
      obtain ⟨huv, hwx⟩ := ih hu.2 hv.2 htail
      exact ⟨by rw [hhead, huv], hwx⟩

omit [DecidableEq α] in
/-- **Unique splitting**: the enclosed strings can be told from the stream. -/
theorem flatMap_enclose_injective {ws xs : List (List α)} (hws : ∀ w ∈ ws, c.flag ∉ w)
    (hxs : ∀ x ∈ xs, c.flag ∉ x) (h : ws.flatMap c.enclose = xs.flatMap c.enclose) : ws = xs := by
  induction ws generalizing xs with
  | nil =>
    cases xs with
    | nil => rfl
    | cons x xs => simp [enclose] at h
  | cons w ws ih =>
    cases xs with
    | nil => simp [enclose] at h
    | cons x xs =>
      rw [List.forall_mem_cons] at hws hxs
      simp only [List.flatMap_cons, enclose, List.cons_append, List.append_assoc,
        List.nil_append, List.cons.injEq, true_and] at h
      obtain ⟨hwx, hrest⟩ := c.append_flag_inj hws.1 hxs.1 h
      rw [hwx, ih hws.2 hxs.2 hrest]

end Code

end ByteStuffing
