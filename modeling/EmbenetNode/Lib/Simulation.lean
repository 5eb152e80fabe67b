import EmbenetNode.Lib.GuardedRun

/-!
# Simulation

A transition system simulates its steps in another one when an abstraction of its states and a
translation of its events turn every step into a run of the other system. One concrete step may be
no abstract step, one, or several.

* `Simulates`: every step is a run of the abstract system;
* `translate`: the abstract events of a concrete run;
* `foldlM_translate`: a run is a run of the abstract system;
* `map_foldlM`: when each step is exactly one abstract step, the runs are the same;
* `foldlM_filterMap`: a component takes part in some of the events of a system;
* `foldlM_filter`: events that change nothing can be left out of a run.
-/

namespace Simulation

open GuardedRun

variable {σ τ ε φ : Type*}

/-- Every step from a state with the invariant is a run of the abstract system, and keeps it. -/
def Simulates (step : σ → ε → Option σ) (step' : τ → φ → Option τ) (abs : σ → τ)
    (events : σ → ε → List φ) (Inv : σ → Prop) : Prop :=
  ∀ s e s', Inv s → step s e = some s' →
    (events s e).foldlM step' (abs s) = some (abs s') ∧ Inv s'

/-- The abstract events of a concrete run. -/
def translate (step : σ → ε → Option σ) (events : σ → ε → List φ) : σ → List ε → List φ
  | _, [] => []
  | s, e :: es =>
      match step s e with
      | none => []
      | some s' => events s e ++ translate step events s' es

variable {step : σ → ε → Option σ} {step' : τ → φ → Option τ} {abs : σ → τ}
  {events : σ → ε → List φ} {Inv : σ → Prop}

theorem translate_cons {s s' : σ} {e : ε} (h : step s e = some s') (es : List ε) :
    translate step events s (e :: es) = events s e ++ translate step events s' es := by
  simp only [translate, h]

/-- What every abstract event of a concrete one satisfies, every event of the run does. -/
theorem forall_mem_translate {Q : φ → Prop} {es : List ε} {s : σ}
    (h : ∀ e ∈ es, ∀ s, ∀ f ∈ events s e, Q f) : ∀ f ∈ translate step events s es, Q f := by
  induction es generalizing s with
  | nil => exact fun _ hf => nomatch hf
  | cons e es ih =>
    rw [List.forall_mem_cons] at h
    intro f hf
    cases hs : step s e with
    | none =>
      simp only [translate, hs] at hf
      exact nomatch hf
    | some s' =>
      rw [translate_cons hs] at hf
      rcases List.mem_append.1 hf with hf | hf
      · exact h.1 s f hf
      · exact ih h.2 f hf

/-- **The run lemma**: a run is a run of the abstract system. -/
theorem Simulates.foldlM_translate (h : Simulates step step' abs events Inv) {es : List ε} :
    ∀ {s s' : σ}, Inv s → es.foldlM step s = some s' →
      (translate step events s es).foldlM step' (abs s) = some (abs s') := by
  induction es with
  | nil =>
    intro s s' _ hrun
    cases hrun
    rfl
  | cons e es ih =>
    intro s s' hs hrun
    obtain ⟨s₁, hs₁, hrun⟩ := foldlM_cons_eq_some.1 hrun
    obtain ⟨habs, hinv⟩ := h s e s₁ hs hs₁
    rw [translate_cons hs₁, foldlM_append_eq_some]
    exact ⟨abs s₁, habs, ih hinv hrun⟩

/-- The invariant holds in the state that a run ends in. -/
theorem Simulates.inv_of_foldlM (h : Simulates step step' abs events Inv) {es : List ε} {s s' : σ}
    (hs : Inv s) (hrun : es.foldlM step s = some s') : Inv s' :=
  GuardedRun.inv_of_foldlM (fun s e s' hs hstep => (h s e s' hs hstep).2) hs hrun

/-- When a step and its abstraction are the same, so are the runs: also, one of them is stuck where
the other is. It is enough that they are the same while the state has room for the events to
come. -/
theorem map_foldlM {step' : τ → ε → Option τ} {Room : σ → List ε → Prop}
    (hstep : ∀ s e es, Room s (e :: es) → (step s e).map abs = step' (abs s) e)
    (hroom : ∀ s e es s', Room s (e :: es) → step s e = some s' → Room s' es)
    {es : List ε} {s : σ} (hs : Room s es) :
    (es.foldlM step s).map abs = es.foldlM step' (abs s) := by
  induction es generalizing s with
  | nil => rfl
  | cons e es ih =>
    rw [List.foldlM_cons, List.foldlM_cons, ← hstep s e es hs]
    cases hnext : step s e with
    | none => rfl
    | some s' => exact ih (hroom s e es s' hs hnext)

theorem foldlM_toList_none {t t' : τ} :
    (none : Option φ).toList.foldlM step' t = some t' ↔ t' = t :=
  ⟨fun h => (Option.some.inj h).symm, fun h => congrArg some h.symm⟩

theorem foldlM_toList_some {f : φ} {t t' : τ} :
    (some f).toList.foldlM step' t = some t' ↔ step' t f = some t' := by
  rw [Option.toList_some, foldlM_cons_eq_some]
  constructor
  · rintro ⟨t₁, h, ht₁⟩
    cases ht₁
    exact h
  · exact fun h => ⟨t', h, rfl⟩

/-- A component that takes part in an event exactly if `part` says so runs along with the system. -/
theorem foldlM_filterMap {part : ε → Option φ}
    (h : ∀ s e s', step s e = some s' → (part e).toList.foldlM step' (abs s) = some (abs s'))
    (es : List ε) {s s' : σ} (hrun : es.foldlM step s = some s') :
    (es.filterMap part).foldlM step' (abs s) = some (abs s') := by
  induction es generalizing s with
  | nil =>
    cases hrun
    rfl
  | cons e es ih =>
    obtain ⟨s₁, hs₁, hrun⟩ := foldlM_cons_eq_some.1 hrun
    have hpart := h s e s₁ hs₁
    cases he : part e with
    | none =>
      rw [he, foldlM_toList_none] at hpart
      rw [List.filterMap_cons_none he, ← hpart]
      exact ih hrun
    | some f =>
      rw [he, foldlM_toList_some] at hpart
      rw [List.filterMap_cons_some he, foldlM_cons_eq_some]
      exact ⟨abs s₁, hpart, ih hrun⟩

/-- Events that change nothing can be left out. -/
theorem foldlM_filter {p : ε → Bool} (h : ∀ s e, p e = false → step s e = some s) (es : List ε)
    (s : σ) : (es.filter p).foldlM step s = es.foldlM step s := by
  induction es generalizing s with
  | nil => rfl
  | cons e es ih =>
    rw [List.foldlM_cons]
    cases hp : p e with
    | true =>
      rw [List.filter_cons_of_pos hp, List.foldlM_cons]
      exact bind_congr fun s' => ih s'
    | false =>
      rw [List.filter_cons_of_neg (by rw [hp]; nofun), ih, h s e hp]
      rfl

end Simulation
