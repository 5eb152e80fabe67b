import Mathlib.Data.List.Basic

/-!
# Guarded runs

A transition system is a partial step function on states and events; `none` stands for an event
that cannot happen, or whose effect is undefined. A run from a state is a list of events, followed
as long as the steps are defined.

* `Along`: a property of steps that holds at every step of a run;
* `Along.of_invariant`: a property of steps that an invariant gives, along a run whose steps are
  allowed and meet a guard;
* `along_iff`: when the guard decides the property as long as the invariant holds, and the
  invariant is kept by the steps that meet it, a run has the property exactly if it meets the guard;
* `foldlM_cons_eq_some`, `foldlM_append_eq_some`: the first step of a run, and its two parts;
* `inv_of_foldlM`, `along_iff_of_foldlM`: what every step keeps holds in the state that a run ends
  in, and the guard decides the property from there on;
* `exists_cause`: what did not hold at first and holds in the end has a cause since when nothing
  ended it.
-/

namespace GuardedRun

variable {σ ε : Type*} (step : σ → ε → Option σ)

/-- Every step of the run of `es` from `s` satisfies `Q`. -/
def Along (Q : σ → ε → σ → Prop) : σ → List ε → Prop
  | _, [] => True
  | s, e :: es =>
      match step s e with
      | none => True
      | some s' => Q s e s' ∧ Along Q s' es

variable {step} {Q R : σ → ε → σ → Prop} {s : σ} {e : ε} {es : List ε}

@[simp] theorem along_nil : Along step Q s [] := trivial

theorem along_cons :
    Along step Q s (e :: es) ↔ ∀ s', step s e = some s' → Q s e s' ∧ Along step Q s' es := by
  simp only [Along]
  cases step s e <;> simp

/-- A run whose first step is taken. -/
theorem along_cons_of_step {s' : σ} (h : step s e = some s') :
    Along step Q s (e :: es) ↔ Q s e s' ∧ Along step Q s' es := by
  simp only [Along, h]

/-- A run on given events can be checked by taking its steps. -/
instance instDecidableAlong [∀ s e s', Decidable (Q s e s')] :
    ∀ (s : σ) (es : List ε), Decidable (Along step Q s es)
  | _, [] => isTrue trivial
  | s, e :: es =>
      match h : step s e with
      | none => isTrue (along_cons.2 fun s' hs' => nomatch h.symm.trans hs')
      | some s' =>
          have := instDecidableAlong s' es
          decidable_of_iff (Q s e s' ∧ Along step Q s' es) (by simp [along_cons, h])

theorem Along.imp (h : ∀ s e s', Q s e s' → R s e s') :
    ∀ {es : List ε} {s : σ}, Along step Q s es → Along step R s es
  | [], _, _ => trivial
  | _ :: _, _, hQ => along_cons.2 fun s' hs' =>
      ⟨h _ _ _ (along_cons.1 hQ s' hs').1, (along_cons.1 hQ s' hs').2.imp h⟩

/-- A property of the events alone. -/
theorem along_of_forall_mem (es : List ε) (s : σ) (h : ∀ e ∈ es, ∀ s s', Q s e s') :
    Along step Q s es := by
  induction es generalizing s with
  | nil => trivial
  | cons e es ih =>
    rw [along_cons]
    rw [List.forall_mem_cons] at h
    intro s' _
    exact ⟨h.1 s s', ih s' h.2⟩

variable {Inv : σ → Prop} {H G P : σ → ε → σ → Prop}

/-- When the guard `G` decides the property `P` under the invariant and the assumption `H`, and the
steps that meet it keep the invariant, a run has the property exactly if it meets the guard. -/
theorem along_iff
    (hstep : ∀ s e s', Inv s → H s e s' → step s e = some s' →
      (P s e s' ↔ G s e s') ∧ (G s e s' → Inv s')) :
    ∀ {es : List ε} {s : σ}, Inv s → Along step H s es →
      (Along step P s es ↔ Along step G s es) := by
  intro es
  induction es with
  | nil => exact fun _ _ => Iff.rfl
  | cons e es ih =>
    intro s hs hH
    rw [along_cons, along_cons]
    rw [along_cons] at hH
    constructor
    · intro hP s' hs'
      obtain ⟨hiff, hinv⟩ := hstep s e s' hs (hH s' hs').1 hs'
      have hG : G s e s' := hiff.1 (hP s' hs').1
      exact ⟨hG, (ih (hinv hG) (hH s' hs').2).1 (hP s' hs').2⟩
    · intro hG s' hs'
      obtain ⟨hiff, hinv⟩ := hstep s e s' hs (hH s' hs').1 hs'
      exact ⟨hiff.2 (hG s' hs').1, (ih (hinv (hG s' hs').1) (hH s' hs').2).2 (hG s' hs').2⟩

/-- A property of steps that the invariant gives holds along every run that meets the guard. -/
theorem Along.of_invariant
    (hstep : ∀ s e s', Inv s → G s e s' → step s e = some s' → P s e s' ∧ Inv s') :
    ∀ {es : List ε} {s : σ}, Inv s → Along step G s es → Along step P s es := by
  intro es
  induction es with
  | nil => exact fun _ _ => trivial
  | cons e es ih =>
    intro s hs hG
    rw [along_cons] at hG ⊢
    intro s' hs'
    obtain ⟨hP, hinv⟩ := hstep s e s' hs (hG s' hs').1 hs'
    exact ⟨hP, ih hinv (hG s' hs').2⟩

/-- A run takes its first step, and goes on from there. -/
theorem foldlM_cons_eq_some {s' : σ} :
    (e :: es).foldlM step s = some s' ↔
      ∃ s₁, step s e = some s₁ ∧ es.foldlM step s₁ = some s' := by
  rw [List.foldlM_cons]
  exact Option.bind_eq_some_iff

/-- A run goes on from the state that its first part ends in. -/
theorem foldlM_append_eq_some {es' : List ε} {s' : σ} :
    (es ++ es').foldlM step s = some s' ↔
      ∃ s₁, es.foldlM step s = some s₁ ∧ es'.foldlM step s₁ = some s' := by
  rw [List.foldlM_append]
  exact Option.bind_eq_some_iff

/-- What every step keeps holds in the state that a run ends in. -/
theorem inv_of_foldlM (hstep : ∀ s e s', Inv s → step s e = some s' → Inv s') :
    ∀ {es : List ε} {s s' : σ}, Inv s → es.foldlM step s = some s' → Inv s' := by
  intro es
  induction es with
  | nil =>
    intro s s' hs h
    cases h
    exact hs
  | cons e es ih =>
    intro s s' hs h
    obtain ⟨s₁, hs₁, h⟩ := foldlM_cons_eq_some.1 h
    exact ih (hstep s e s₁ hs hs₁) h

/-- When every step keeps the invariant, and the guard decides the property under it, a run from a
state that another run ends in has the property exactly if it meets the guard. -/
theorem along_iff_of_foldlM (hinv : ∀ s e s', Inv s → step s e = some s' → Inv s')
    (hiff : ∀ s e s', Inv s → step s e = some s' → (P s e s' ↔ G s e s')) {s₀ : σ}
    {before : List ε} (hs₀ : Inv s₀) (hbefore : before.foldlM step s₀ = some s) :
    Along step P s es ↔ Along step G s es := by
  have hs : Inv s := inv_of_foldlM hinv hs₀ hbefore
  have hH : Along step (fun _ _ _ => True) s es := along_of_forall_mem es s fun _ _ _ _ => trivial
  refine along_iff ?_ hs hH
  intro s e s' hs _ h
  exact ⟨hiff s e s' hs h, fun _ => hinv s e s' hs h⟩

/-- When a step establishes `Inv` only by a cause, and keeps it only if the event does not end it,
the last cause in a run that ends with `Inv` is followed by no event that ends it. -/
theorem exists_cause {cause ends : ε → Prop}
    (hstep : ∀ s e s', step s e = some s' → Inv s' → cause e ∨ Inv s ∧ ¬ ends e) :
    ∀ {es : List ε} {s s' : σ}, ¬ Inv s → es.foldlM step s = some s' → Inv s' →
      ∃ es₁ e es₂, es = es₁ ++ e :: es₂ ∧ cause e ∧ ∀ e' ∈ es₂, ¬ ends e' := by
  -- from any state: either there is such a cause, or it was so all along
  have hrun : ∀ {es : List ε} {s s' : σ}, es.foldlM step s = some s' → Inv s' →
      (∃ es₁ e es₂, es = es₁ ++ e :: es₂ ∧ cause e ∧ ∀ e' ∈ es₂, ¬ ends e') ∨
        Inv s ∧ ∀ e' ∈ es, ¬ ends e' := by
    intro es
    induction es with
    | nil =>
      intro s s' h hs'
      cases h
      exact .inr ⟨hs', nofun⟩
    | cons e es ih =>
      intro s s' h hs'
      obtain ⟨s₁, hs₁, h⟩ := foldlM_cons_eq_some.1 h
      rcases ih h hs' with ⟨es₁, e', es₂, rfl, hcause, hends⟩ | ⟨hinv, hends⟩
      · exact .inl ⟨e :: es₁, e', es₂, rfl, hcause, hends⟩
      · rcases hstep s e s₁ hs₁ hinv with hcause | ⟨hinv, hnot⟩
        · exact .inl ⟨[], e, es, rfl, hcause, hends⟩
        · exact .inr ⟨hinv, List.forall_mem_cons.2 ⟨hnot, hends⟩⟩
  intro es s s' hs h hs'
  exact (hrun h hs').resolve_right fun hall => hs hall.1

end GuardedRun
