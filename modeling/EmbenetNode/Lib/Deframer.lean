import EmbenetNode.Lib.ByteStuffing

/-!
# A receiver of stuffed frames

The abstract receiver of a stuffing code. It hunts for a flag, then collects the raw symbols after
it; the next flag closes the stretch and yields what it stands for, when that is longer than
`minimum`. A stretch that grows beyond `capacity` is given up, and a flag right after a flag starts
over.

* `State`, `next`, `feed`: the receiver, one symbol and a stream at a time;
* `feed_frames`: on whole frames it yields exactly the contents of admissible length;
* `feed_enclose`: what it yields on any flag-free string between two flags, well-formed or not;
* `feed_frame_any`: from any state at all, one frame brings it back into step;
* `Opened`, `opened_next`: where in the stream each yielded content comes from;
* `length_feed_le`: how many contents a stream yields at most.
-/

namespace Deframer

open ByteStuffing

variable {α : Type*} [DecidableEq α] {c : Code α} {capacity : ℕ}

/-- The raw symbols since the last flag: no flag among them, and within the capacity. -/
@[ext] structure Stretch (c : Code α) (capacity : ℕ) where
  raw : List α
  flagFree : c.flag ∉ raw
  fits : (c.unstuff raw).length ≤ capacity

/-- The stretch right after a flag. -/
def Stretch.fresh : Stretch c capacity := ⟨[], by simp, by simp⟩

/-- The content a stretch stands for. -/
def Stretch.content (w : Stretch c capacity) : List α := c.unstuff w.raw

/-- One more raw symbol, when there is room for it. -/
def Stretch.push (w : Stretch c capacity) (a : α) (ha : a ≠ c.flag)
    (hroom : w.content.length < capacity) : Stretch c capacity where
  raw := w.raw ++ [a]
  flagFree := by simp [w.flagFree, ha.symm]
  fits := Nat.le_trans (c.length_unstuffFrom_concat c.flag w.raw a) hroom

/-- Hunting for a flag, or collecting after one. -/
inductive State (c : Code α) (capacity : ℕ)
  | hunting
  | collecting (w : Stretch c capacity)

/-- What closing a stretch yields. -/
def Stretch.close (minimum : ℕ) (w : Stretch c capacity) : Option (List α) :=
  if minimum < w.content.length then some w.content else none

/-- One symbol: the next state, and the content it completes. -/
def next (minimum : ℕ) (s : State c capacity) (a : α) : State c capacity × Option (List α) :=
  match s with
  | .hunting => if a = c.flag then (.collecting .fresh, none) else (.hunting, none)
  | .collecting w =>
      if ha : a = c.flag then
        if w.raw = [] then (.collecting .fresh, none) else (.hunting, w.close minimum)
      else if hroom : w.content.length < capacity then (.collecting (w.push a ha hroom), none)
      else (.hunting, none)

/-- A stream: the state after it, and the contents completed in it. -/
def feed (minimum : ℕ) : State c capacity → List α → State c capacity × List (List α)
  | s, [] => (s, [])
  | s, a :: stream =>
      ((feed minimum (next minimum s a).1 stream).1,
        (next minimum s a).2.toList ++ (feed minimum (next minimum s a).1 stream).2)

variable (minimum : ℕ)

@[simp] theorem feed_nil (s : State c capacity) : feed minimum s [] = (s, []) := rfl

theorem feed_cons (s : State c capacity) (a : α) (stream : List α) :
    feed minimum s (a :: stream) =
      ((feed minimum (next minimum s a).1 stream).1,
        (next minimum s a).2.toList ++ (feed minimum (next minimum s a).1 stream).2) := rfl

theorem feed_append (s : State c capacity) (u v : List α) :
    feed minimum s (u ++ v) =
      ((feed minimum (feed minimum s u).1 v).1,
        (feed minimum s u).2 ++ (feed minimum (feed minimum s u).1 v).2) := by
  induction u generalizing s with
  | nil => rfl
  | cons a u ih => simp [feed_cons, ih]

/-- A longer stream only completes more. -/
theorem feed_of_isPrefix (s : State c capacity) {u v : List α} (h : u <+: v) :
    (feed minimum s u).2 <+: (feed minimum s v).2 := by
  obtain ⟨w, rfl⟩ := h
  rw [feed_append]
  exact List.prefix_append _ _

/-! ### One symbol -/

theorem next_hunting_flag :
    next minimum (.hunting : State c capacity) c.flag = (.collecting .fresh, none) := if_pos rfl

theorem next_hunting_of_ne {a : α} (ha : a ≠ c.flag) :
    next minimum (.hunting : State c capacity) a = (.hunting, none) := if_neg ha

theorem next_fresh_flag :
    next minimum (.collecting .fresh : State c capacity) c.flag = (.collecting .fresh, none) := by
  simp [next, Stretch.fresh]

theorem next_flag_of_ne_nil {w : Stretch c capacity} (hw : w.raw ≠ []) :
    next minimum (.collecting w) c.flag = (.hunting, w.close minimum) := by
  simp [next, hw]

theorem next_push {w : Stretch c capacity} {a : α} (ha : a ≠ c.flag)
    (hroom : w.content.length < capacity) :
    next minimum (.collecting w) a = (.collecting (w.push a ha hroom), none) := by
  simp [next, ha, hroom]

theorem next_overflow {w : Stretch c capacity} {a : α} (ha : a ≠ c.flag)
    (hroom : ¬ w.content.length < capacity) :
    next minimum (.collecting w) a = (.hunting, none) := by
  simp [next, ha, hroom]

/-! ### Flag-free strings -/

/-- While hunting, symbols other than the flag are ignored. -/
theorem feed_hunting {w : List α} (hw : c.flag ∉ w) :
    feed minimum (.hunting : State c capacity) w = (.hunting, []) := by
  induction w with
  | nil => rfl
  | cons a w ih =>
    rw [List.mem_cons, not_or] at hw
    simp [feed_cons, next_hunting_of_ne minimum (Ne.symm hw.1), ih hw.2]

/-- A flag-free string either extends the stretch as a whole, or overruns it and is lost. -/
theorem feed_flagFree (w : Stretch c capacity) {u : List α} (hu : c.flag ∉ u) :
    (∃ w' : Stretch c capacity, w'.raw = w.raw ++ u ∧
        feed minimum (.collecting w) u = (.collecting w', [])) ∨
      (feed minimum (.collecting w) u = (.hunting, []) ∧
        ∃ v a, v ++ [a] <+: u ∧ capacity ≤ (c.unstuff (w.raw ++ v)).length) := by
  induction u generalizing w with
  | nil => exact Or.inl ⟨w, by simp, rfl⟩
  | cons a u ih =>
    rw [List.mem_cons, not_or] at hu
    have ha : a ≠ c.flag := Ne.symm hu.1
    by_cases hroom : w.content.length < capacity
    · have hnext := next_push minimum ha hroom
      rcases ih (w.push a ha hroom) hu.2 with ⟨w', hraw, hfeed⟩ | ⟨hfeed, v, b, hv, hfull⟩
      · exact Or.inl ⟨w', by simp [hraw, Stretch.push], by simp [feed_cons, hnext, hfeed]⟩
      · refine Or.inr ⟨by simp [feed_cons, hnext, hfeed], a :: v, b, ?_, ?_⟩
        · simpa using hv
        · simpa [Stretch.push] using hfull
    · have hnext := next_overflow minimum ha hroom
      refine Or.inr ⟨by simp [feed_cons, hnext, feed_hunting minimum hu.2], [], a, ?_, ?_⟩
      · simp
      · simpa [Stretch.content] using hroom

/-! ### Whole frames -/

/-- The contents that a frame can carry through. -/
def Admissible (minimum capacity : ℕ) (content : List α) : Prop :=
  minimum < content.length ∧ content.length ≤ capacity

instance (minimum capacity : ℕ) (content : List α) :
    Decidable (Admissible minimum capacity content) := inferInstanceAs (Decidable (_ ∧ _))

theorem admissible_of_close {w : Stretch c capacity} {content : List α}
    (h : w.close minimum = some content) : Admissible minimum capacity content := by
  unfold Stretch.close at h
  split_ifs at h with hmin
  obtain rfl := Option.some.inj h
  exact ⟨hmin, w.fits⟩

theorem admissible_of_next {s : State c capacity} {a : α} {content : List α}
    (h : (next minimum s a).2 = some content) : Admissible minimum capacity content := by
  rcases s with _ | w
  · unfold next at h
    split_ifs at h
  · unfold next at h
    dsimp only at h
    split_ifs at h
    exact admissible_of_close minimum h

/-- In step with the sender: the next flag opens a frame. -/
def Ready (s : State c capacity) : Prop := s = .hunting ∨ s = .collecting .fresh

theorem next_flag_of_ready {s : State c capacity} (hs : Ready s) :
    next minimum s c.flag = (.collecting .fresh, none) := by
  rcases hs with rfl | rfl
  · exact next_hunting_flag minimum
  · exact next_fresh_flag minimum

/-- A frame received in step: its content comes out when admissible, and the receiver stays in
step. -/
theorem feed_frame {s : State c capacity} (hs : Ready s) (content : List α) :
    Ready (feed minimum s (c.frame content)).1 ∧
      (feed minimum s (c.frame content)).2 =
        if Admissible minimum capacity content then [content] else [] := by
  have hflag := next_flag_of_ready minimum hs
  rcases feed_flagFree minimum (.fresh : Stretch c capacity) (c.flag_notMem_stuff content) with
    ⟨w, hraw, hfeed⟩ | ⟨hfeed, v, a, hv, hfull⟩
  · have hraw' : w.raw = c.stuff content := hraw
    have hcontent : w.content = content := by rw [Stretch.content, hraw', Code.unstuff_stuff]
    have hfits : content.length ≤ capacity := by rw [← hcontent]; exact w.fits
    by_cases hnil : content = []
    · subst hnil
      simp [Code.frame, feed_cons, hflag, next_fresh_flag, Ready, Admissible]
    · have hne : w.raw ≠ [] := by rw [hraw']; exact fun h => hnil (c.stuff_eq_nil.1 h)
      have hclose := next_flag_of_ne_nil minimum hne
      by_cases hmin : minimum < content.length <;>
        simp [Code.frame, feed_cons, hflag, feed_append, hfeed, hclose, Stretch.close, hcontent,
          Ready, Admissible, hmin, hfits]
  · -- the frame is given up, and its closing flag opens a stretch: still in step
    have hlong : ¬ content.length ≤ capacity := by
      have hlt := c.length_unstuff_lt_of_prefix hv
      have hfull' : capacity ≤ (c.unstuff v).length := hfull
      omega
    simp [Code.frame, feed_cons, hflag, feed_append, hfeed, next_hunting_flag, Ready, Admissible,
      hlong]

/-- **Frames received in step**: exactly the admissible contents come out, in order. -/
theorem feed_frames {s : State c capacity} (hs : Ready s) (contents : List (List α)) :
    Ready (feed minimum s (contents.flatMap c.frame)).1 ∧
      (feed minimum s (contents.flatMap c.frame)).2 =
        contents.filter (Admissible minimum capacity ·) := by
  induction contents generalizing s with
  | nil => exact ⟨hs, rfl⟩
  | cons content contents ih =>
    obtain ⟨hready, hout⟩ := feed_frame minimum hs content
    obtain ⟨hready', hout'⟩ := ih hready
    rw [List.flatMap_cons, feed_append]
    refine ⟨hready', ?_⟩
    by_cases h : Admissible minimum capacity content <;> simp [hout, hout', h]

/-- **Resynchronisation**: from any state, one frame brings the receiver into step. Either the
frame was received in step, or its opening flag closed a stretch begun before it. -/
theorem feed_frame_any (s : State c capacity) (content : List α) :
    Ready (feed minimum s (c.frame content)).1 ∧
      (Ready s ∨ ∃ w : Stretch c capacity, s = .collecting w ∧ w.raw ≠ [] ∧
        (feed minimum s (c.frame content)).2 = (w.close minimum).toList) := by
  by_cases hs : Ready s
  · exact ⟨(feed_frame minimum hs content).1, Or.inl hs⟩
  · rcases s with _ | w
    · exact absurd (Or.inl rfl) hs
    · have hne : w.raw ≠ [] := fun h => hs (Or.inr (by
        rw [show w = .fresh from Stretch.ext h]))
      have hclose := next_flag_of_ne_nil minimum hne
      have hfeed : feed minimum (.hunting : State c capacity) (c.stuff content) = (.hunting, []) :=
        feed_hunting minimum (c.flag_notMem_stuff content)
      refine ⟨?_, Or.inr ⟨w, rfl, hne, ?_⟩⟩ <;>
        simp [Code.frame, feed_cons, feed_append, hclose, hfeed, next_hunting_flag, Ready]

/-! ### Any string between two flags -/

/-- A stretch that stands for as much as it may is given up at the next symbol. -/
theorem feed_overrun (w : Stretch c capacity) {v : List α} {a : α} (hv : c.flag ∉ v)
    (ha : a ≠ c.flag) (hfull : capacity ≤ (c.unstuff (w.raw ++ v)).length) :
    feed minimum (.collecting w) (v ++ [a]) = (.hunting, []) := by
  rcases feed_flagFree minimum w hv with ⟨w', hraw, hfeed⟩ | ⟨hfeed, -⟩
  · have hroom : ¬ w'.content.length < capacity := by
      rw [Stretch.content, hraw]
      exact Nat.not_lt.2 hfull
    simp [feed_append, hfeed, feed_cons, next_overflow minimum ha hroom]
  · simp [feed_append, hfeed, feed_cons, next_hunting_of_ne minimum ha]

/-- The flag-free strings that come out when they stand between two flags: what they stand for is
admissible, and an escape at the end does not meet a full stretch. -/
def Received (minimum capacity : ℕ) (c : Code α) (w : List α) : Prop :=
  Admissible minimum capacity (c.unstuff w) ∧
    ((c.unstuff w).length = capacity → w.getLast? ≠ some c.esc)

instance (minimum capacity : ℕ) (c : Code α) (w : List α) :
    Decidable (Received minimum capacity c w) := inferInstanceAs (Decidable (_ ∧ (_ → _)))

/-- A string that overruns the stretch does not come out. -/
theorem not_received_of_overrun {w v : List α} {a : α} (hv : v ++ [a] <+: w)
    (hfull : capacity ≤ (c.unstuff v).length) : ¬ Received minimum capacity c w := by
  rintro ⟨⟨-, hmax⟩, hlast⟩
  obtain ⟨rest, rfl⟩ := hv
  obtain ⟨u, b, hub⟩ : ∃ u b, a :: rest = u ++ [b] :=
    (List.eq_nil_or_concat' (a :: rest)).resolve_left (by simp)
  have hw : v ++ [a] ++ rest = v ++ u ++ [b] := by simp [← hub]
  have hle : (c.unstuff v).length ≤ (c.unstuff (v ++ u)).length :=
    c.length_unstuffFrom_le_append _ _ _
  have hle' : (c.unstuff (v ++ u)).length ≤ (c.unstuff (v ++ u ++ [b])).length :=
    c.length_unstuffFrom_le_append _ _ _
  rw [hw] at hmax hlast
  by_cases hb : b = c.esc
  · exact hlast (by omega) (by simp [hb])
  · have hmore : (c.unstuff (v ++ u ++ [b])).length = (c.unstuff (v ++ u)).length + 1 :=
      c.length_unstuffFrom_concat_of_ne _ hb
    omega

/-- **Any flag-free string between two flags**, fed to a receiver in step. -/
theorem feed_enclose {s : State c capacity} (hs : Ready s) {w : List α} (hw : c.flag ∉ w) :
    (feed minimum s (c.enclose w)).2 =
      if Received minimum capacity c w then [c.unstuff w] else [] := by
  have hopen := next_flag_of_ready minimum hs
  rcases feed_flagFree minimum (.fresh : Stretch c capacity) hw with
    ⟨w', hraw, hfeed⟩ | ⟨hfeed, v, a, hv, hfull⟩
  · have hraw' : w'.raw = w := hraw
    have hcontent : w'.content = c.unstuff w := by rw [Stretch.content, hraw']
    have hlast : (c.unstuff w).length = capacity → w.getLast? ≠ some c.esc := by
      intro hfull hesc
      obtain ⟨u, rfl⟩ := List.getLast?_eq_some_iff.1 hesc
      have hu : c.unstuff u = c.unstuff (u ++ [c.esc]) := by
        simp [Code.unstuff, Code.unstuffFrom_append, Code.unstuffFrom]
      have hover : feed minimum (.collecting (.fresh : Stretch c capacity)) (u ++ [c.esc]) =
          (.hunting, []) :=
        feed_overrun minimum _ (fun h => hw (List.mem_append_left _ h)) (Ne.symm c.flag_ne_esc)
          (by rw [← hfull, ← hu]; exact Nat.le_refl _)
      rw [hover] at hfeed
      cases hfeed
    have hfits : (c.unstuff w).length ≤ capacity := by rw [← hcontent]; exact w'.fits
    by_cases hnil : w = []
    · subst hnil
      simp [Code.enclose, feed_cons, hopen, next_fresh_flag, Received, Admissible]
    · have hclose := next_flag_of_ne_nil minimum (w := w') (by rw [hraw']; exact hnil)
      have hreceived : Received minimum capacity c w ↔ minimum < (c.unstuff w).length :=
        ⟨fun h => h.1.1, fun h => ⟨⟨h, hfits⟩, hlast⟩⟩
      by_cases hmin : minimum < (c.unstuff w).length <;>
        simp [Code.enclose, feed_cons, hopen, feed_append, hfeed, hclose, Stretch.close, hcontent,
          hreceived, hmin]
  · have hlost := not_received_of_overrun minimum hv hfull
    simp [Code.enclose, feed_cons, hopen, feed_append, hfeed, next_hunting_flag, hlost]

/-- A well-formed string comes out exactly when what it stands for is admissible. -/
theorem received_of_unescape {w content : List α} (h : c.unescape w = some content) :
    Received minimum capacity c w ↔ Admissible minimum capacity content := by
  have hunstuff := c.unstuff_of_unescape h
  refine ⟨fun hw => hunstuff ▸ hw.1, fun hadm => ⟨hunstuff ▸ hadm, fun _ hesc => ?_⟩⟩
  obtain ⟨u, rfl⟩ := List.getLast?_eq_some_iff.1 hesc
  have hwell : c.WellEscaped (u ++ [c.esc]) := (Code.isSome_unescape_iff _).1 (by simp [h])
  obtain ⟨b, v, hv, -⟩ := hwell u [] rfl
  cases hv

/-! ### The first completed content -/

/-- The last symbol of `stream` completes `content`, the first content completed in it. -/
def Completes (s : State c capacity) (stream content : List α) : Prop :=
  ∃ before last, stream = before ++ [last] ∧ (feed minimum s before).2 = [] ∧
    (next minimum (feed minimum s before).1 last).2 = some content

theorem completes_singleton {s : State c capacity} {a : α} {content : List α}
    (h : (next minimum s a).2 = some content) : Completes minimum s [a] content :=
  ⟨[], a, rfl, rfl, h⟩

theorem completes_cons {s : State c capacity} {a : α} {stream content : List α}
    (ha : (next minimum s a).2 = none) (h : Completes minimum (next minimum s a).1 stream content) :
    Completes minimum s (a :: stream) content := by
  obtain ⟨before, last, hstream, hquiet, hlast⟩ := h
  exact ⟨a :: before, last, by simp [hstream], by simp [feed_cons, ha, hquiet], hlast⟩

theorem feed_of_completes {s : State c capacity} {stream content : List α}
    (h : Completes minimum s stream content) : (feed minimum s stream).2 = [content] := by
  obtain ⟨before, last, hstream, hquiet, hlast⟩ := h
  simp [hstream, feed_append, feed_cons, hquiet, hlast]

/-- Only one content is the first that a stream completes. -/
theorem completes_unique {s : State c capacity} {stream u v content content' : List α}
    (hu : u <+: stream) (hv : v <+: stream) (h : Completes minimum s u content)
    (h' : Completes minimum s v content') : content = content' := by
  have hfeed := feed_of_completes minimum h
  have hfeed' := feed_of_completes minimum h'
  rcases List.prefix_or_prefix_of_prefix hu hv with huv | hvu
  · have hout := feed_of_isPrefix minimum s huv
    rw [hfeed, hfeed', List.cons_prefix_cons] at hout
    exact hout.1
  · have hout := feed_of_isPrefix minimum s hvu
    rw [hfeed, hfeed', List.cons_prefix_cons] at hout
    exact hout.1.symm

theorem admissible_of_completes {s : State c capacity} {stream content : List α}
    (h : Completes minimum s stream content) : Admissible minimum capacity content := by
  obtain ⟨_, _, _, _, hlast⟩ := h
  exact admissible_of_next minimum hlast

/-! ### Where the contents come from -/

/-- `s` is the state after `stream`, and the stretch it collects starts at position `done` or
later. -/
def Opened (stream : List α) (done : ℕ) : State c capacity → Prop
  | .hunting => done ≤ stream.length
  | .collecting w => ∃ before, stream = before ++ c.flag :: w.raw ∧ done ≤ before.length

/-- `content` is what the flag-free string between two flags stands for, the second of them the
last symbol of `stream`, the first at position `done` or later. -/
def Closes (minimum capacity : ℕ) (c : Code α) (stream : List α) (done : ℕ) (content : List α) :
    Prop :=
  ∃ before raw, stream = before ++ c.flag :: (raw ++ [c.flag]) ∧ done ≤ before.length ∧
    c.flag ∉ raw ∧ c.unstuff raw = content ∧ Admissible minimum capacity content

theorem opened_next {stream : List α} {done : ℕ} {s : State c capacity}
    (hs : Opened stream done s) (a : α) :
    ((next minimum s a).2 = none ∧ Opened (stream ++ [a]) done (next minimum s a).1) ∨
      ∃ content, (next minimum s a).2 = some content ∧
        Closes minimum capacity c (stream ++ [a]) done content ∧
        Opened (stream ++ [a]) (stream.length + 1) (next minimum s a).1 := by
  rcases s with _ | w
  · have hdone : done ≤ stream.length := hs
    left
    by_cases ha : a = c.flag
    · subst ha
      rw [next_hunting_flag]
      exact ⟨rfl, stream, rfl, hdone⟩
    · rw [next_hunting_of_ne minimum ha]
      exact ⟨rfl, by simp only [Opened, List.length_append]; omega⟩
  · obtain ⟨before, hstream, hdone⟩ := hs
    by_cases ha : a = c.flag
    · subst ha
      by_cases hraw : w.raw = []
      · left
        rw [show w = .fresh from Stretch.ext hraw, next_fresh_flag]
        refine ⟨rfl, stream, rfl, ?_⟩
        rw [hstream]
        simp only [List.length_append]
        omega
      · rw [next_flag_of_ne_nil minimum hraw, Stretch.close]
        by_cases hmin : minimum < w.content.length
        · right
          refine ⟨w.content, if_pos hmin, ⟨before, w.raw, by simp [hstream], hdone, w.flagFree, rfl,
            hmin, w.fits⟩, ?_⟩
          simp [Opened]
        · left
          refine ⟨if_neg hmin, ?_⟩
          simp only [Opened, hstream, List.length_append]
          omega
    · left
      by_cases hroom : w.content.length < capacity
      · rw [next_push minimum ha hroom]
        exact ⟨rfl, before, by simp [hstream, Stretch.push], hdone⟩
      · rw [next_overflow minimum ha hroom]
        refine ⟨rfl, ?_⟩
        simp only [Opened, hstream, List.length_append]
        omega

theorem opened_quiet {stream : List α} {done : ℕ} {s : State c capacity}
    (hs : Opened stream done s) {u : List α} (hu : (feed minimum s u).2 = []) :
    Opened (stream ++ u) done (feed minimum s u).1 := by
  induction u generalizing stream s with
  | nil => simpa using hs
  | cons a u ih =>
    rw [feed_cons, List.append_eq_nil_iff] at hu
    rcases opened_next minimum hs a with ⟨-, hopened⟩ | ⟨content, hcontent, -⟩
    · simpa [feed_cons] using ih hopened hu.2
    · simp [hcontent] at hu

/-- **Where a completed content comes from**: a stretch between two flags, the second of them the
last symbol, that begins after the contents completed before. -/
theorem opened_completes {stream : List α} {done : ℕ} {s : State c capacity}
    (hs : Opened stream done s) {u content : List α} (hu : Completes minimum s u content) :
    Closes minimum capacity c (stream ++ u) done content ∧
      Opened (stream ++ u) (stream ++ u).length (feed minimum s u).1 := by
  obtain ⟨before, last, rfl, hquiet, hlast⟩ := hu
  rcases opened_next minimum (opened_quiet minimum hs hquiet) last with
    ⟨hnone, -⟩ | ⟨content', hsome, hcloses, hopened⟩
  · rw [hnone] at hlast
    cases hlast
  · obtain rfl : content' = content := Option.some.inj (hsome.symm.trans hlast)
    rw [feed_append, ← List.append_assoc]
    refine ⟨hcloses, ?_⟩
    simpa [feed_cons, Nat.add_assoc] using hopened

theorem opened_mono {stream : List α} {done done' : ℕ} (hle : done' ≤ done)
    {s : State c capacity} (hs : Opened stream done s) : Opened stream done' s := by
  rcases s with _ | w
  · exact Nat.le_trans hle hs
  · obtain ⟨before, hstream, hdone⟩ := hs
    exact ⟨before, hstream, Nat.le_trans hle hdone⟩

/-- The stretch being collected is the end of the stream, right after a flag. -/
theorem opened_feed {stream : List α} {s : State c capacity} (hs : Opened stream 0 s)
    (u : List α) : Opened (stream ++ u) 0 (feed minimum s u).1 := by
  induction u generalizing stream s with
  | nil => simpa using hs
  | cons a u ih =>
    rcases opened_next minimum hs a with ⟨-, hopened⟩ | ⟨_, -, -, hopened⟩ <;>
      simpa [feed_cons] using ih (opened_mono (Nat.zero_le _) hopened)

/-! ### How many contents come out -/

/-- The flags that the stretch under way has used up. -/
def State.flags : State c capacity → ℕ
  | .hunting => 0
  | .collecting _ => 1

/-- A completed content has used up two flags. -/
theorem flags_next_le (s : State c capacity) (a : α) :
    2 * (next minimum s a).2.toList.length + (next minimum s a).1.flags ≤
      s.flags + if a = c.flag then 1 else 0 := by
  rcases s with _ | w
  · by_cases ha : a = c.flag
    · subst ha
      simp [next_hunting_flag, State.flags]
    · simp [next_hunting_of_ne minimum ha, State.flags]
  · by_cases ha : a = c.flag
    · subst ha
      by_cases hraw : w.raw = []
      · rw [show w = .fresh from Stretch.ext hraw, next_fresh_flag]
        simp [State.flags]
      · rw [next_flag_of_ne_nil minimum hraw, Stretch.close, if_pos rfl]
        split_ifs <;> simp [State.flags]
    · by_cases hroom : w.content.length < capacity
      · rw [next_push minimum ha hroom]
        simp [State.flags]
      · rw [next_overflow minimum ha hroom]
        simp [State.flags]

/-- **A stream completes at most one content for every two flags**, counting the one that opened
the stretch under way. -/
theorem length_feed_le (s : State c capacity) (stream : List α) :
    2 * (feed minimum s stream).2.length + (feed minimum s stream).1.flags ≤
      s.flags + stream.count c.flag := by
  induction stream generalizing s with
  | nil => simp
  | cons a stream ih =>
    have hnext := flags_next_le minimum s a
    have hrest := ih (next minimum s a).1
    rw [feed_cons, List.length_append, List.count_cons]
    simp only [beq_iff_eq]
    omega

end Deframer
