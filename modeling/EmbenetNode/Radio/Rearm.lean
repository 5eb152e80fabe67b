import EmbenetNode.Radio.System

/-!
# Arming the receiver again

RxEnable succeeds only while no reception is recorded, and a reception needs the receive entry to be
pending. `rxProcessCb` alone restores the two, in some of its branches, and not while the radio is
idle: along a run that follows the state diagram, the receiver can be armed in IDLE and in ACTIVE
exactly if no Idle aborts a reception and every reception ends in a callback of its own, with a
status the callback expects (`rearmable_iff`).
-/

namespace EmbenetNode.Radio

open GuardedRun

/-- No reception is recorded and the receive entry is free: RxEnable succeeds, and RxNow after it
finds the entry free. -/
def Rearmed (s : Statics) : Prop :=
  s.rxTransaction = none ∧ s.rxItemStatus = .pending ∧
    ∀ channel, (rxEnable channel s).status = .success ∧
      ∀ result, (rxNow result (rxEnable channel s).statics).statics.rxItemStatus = .pending

/-- In IDLE and in ACTIVE the receiver can be armed. -/
def Rearmable (s : System) : Prop :=
  s.diagram = .idle ∨ s.diagram = .active → Rearmed s.statics

/-- The event follows the state diagram: a call is made in a state that has it, the RF core works
on the command of the state, and a callback belongs to it or comes while the radio is idle. -/
def Follows (s : System) : Event → Prop
  | .init => s.diagram = .uninitialized
  | .setCallbacks .. => True
  | .deinit => False
  | .idle => s.diagram ≠ .uninitialized
  | .txEnable .. => s.diagram = .idle ∨ s.diagram = .active
  | .txNow _ => s.diagram = .txReady
  | .rxEnable _ => s.diagram = .idle ∨ s.diagram = .active
  | .rxNow _ => s.diagram = .rxReady
  | .getReceivedFrame .. => True
  | .startContinuousTx .. => False
  | .core e => if e.ofReception then s.diagram.receiving = true else s.diagram = .tx
  | .rxCallback .. => s.diagram.receiving = true ∨ s.statics.idle = true
  | .txCallback .. => s.diagram = .tx ∨ s.statics.idle = true

/-- Idle does not abort a reception, and the callback that ends one is not merged with the one that
starts it and finds one of the two statuses it expects. -/
def Restores (s : System) : Event → Prop
  | .idle => ¬ s.diagram.receiving = true
  | .rxCallback _ e _ => s.diagram.receiving = true → e.rxDone = true →
      e.mdmSoft = false ∧ (s.statics.rxChainDoRxStatus = .propDoneOk ∨
        s.statics.rxChainDoRxStatus = .propDoneRxErr)
  | _ => True

instance (s : System) : ∀ e, Decidable (Follows s e)
  | .init | .idle | .txEnable .. | .txNow _ | .rxEnable _ | .rxNow _ | .rxCallback ..
  | .txCallback .. => by unfold Follows; infer_instance
  | .setCallbacks .. | .getReceivedFrame .. => isTrue trivial
  | .deinit | .startContinuousTx .. => isFalse id
  | .core e => by unfold Follows; infer_instance

instance (s : System) : ∀ e, Decidable (Restores s e)
  | .idle | .rxCallback .. => by unfold Restores; infer_instance
  | .init | .setCallbacks .. | .deinit | .txEnable .. | .txNow _ | .rxEnable _ | .rxNow _
  | .getReceivedFrame .. | .startContinuousTx .. | .core _ | .txCallback .. => isTrue trivial

theorem rearmed_iff {s : Statics} :
    Rearmed s ↔ s.rxTransaction = none ∧ s.rxItemStatus = .pending := by
  constructor
  · rintro ⟨hnone, hpending, -⟩
    exact ⟨hnone, hpending⟩
  · rintro ⟨hnone, hpending⟩
    refine ⟨hnone, hpending, fun channel => ?_⟩
    simp [rxEnable, rxNow, hnone, hpending]

/-- The invariant: outside a reception the receiver is armed again, up to the handle that
EMBENET_RADIO_Init clears; during one, its handle is recorded. The radio is not idle from RX_READY
to the end of the reception. -/
def Armed (s : System) : Prop :=
  if s.diagram.receiving then s.statics.rxTransaction ≠ none ∧ s.statics.idle = false
  else s.statics.rxItemStatus = .pending ∧
    (s.diagram ≠ .uninitialized → s.statics.rxTransaction = none) ∧
    (s.diagram = .rxReady → s.statics.idle = false)

theorem armed_start : Armed start := by
  refine ⟨rfl, ?_, ?_⟩
  · intro h
    exact absurd rfl h
  · intro h
    cases h

theorem Armed.rearmable {s : System} (h : Armed s) : Rearmable s := by
  intro hdiagram
  have hreceiving : s.diagram.receiving = false := by
    rcases hdiagram with hd | hd <;> rw [hd] <;> rfl
  have huninitialized : s.diagram ≠ .uninitialized := by
    rcases hdiagram with hd | hd <;> rw [hd] <;> decide
  rw [Armed, hreceiving] at h
  exact rearmed_iff.2 ⟨h.2.1 huninitialized, h.1⟩

/-- Setting the entry and the handle aside, nothing decides whether the receiver is armed. -/
theorem Armed.congr {s s' : System} (h : Armed s) (hdiagram : s'.diagram = s.diagram)
    (hhandle : s'.statics.rxTransaction = s.statics.rxTransaction)
    (hitem : s'.statics.rxItemStatus = s.statics.rxItemStatus)
    (hidle : s'.statics.idle = s.statics.idle) : Armed s' := by
  rw [Armed, hdiagram, hhandle, hitem, hidle]
  exact h

theorem armed_of_clear {s : System} (hreceiving : s.diagram.receiving = false)
    (hitem : s.statics.rxItemStatus = .pending) (hhandle : s.statics.rxTransaction = none)
    (hidle : s.diagram = .rxReady → s.statics.idle = false) : Armed s := by
  rw [Armed, hreceiving]
  exact ⟨hitem, fun _ => hhandle, hidle⟩

theorem Armed.item_of_not_receiving {s : System} (h : Armed s)
    (hreceiving : s.diagram.receiving = false) : s.statics.rxItemStatus = .pending := by
  rw [Armed, hreceiving] at h
  exact h.1

theorem Armed.handle_of_not_receiving {s : System} (h : Armed s)
    (hreceiving : s.diagram.receiving = false) (hdiagram : s.diagram ≠ .uninitialized) :
    s.statics.rxTransaction = none := by
  rw [Armed, hreceiving] at h
  exact h.2.1 hdiagram

theorem Armed.idle_of_rxReady {s : System} (h : Armed s) (hdiagram : s.diagram = .rxReady) :
    s.statics.idle = false := by
  rw [Armed, hdiagram] at h
  exact h.2.2 rfl

theorem Armed.of_receiving {s : System} (h : Armed s) (hreceiving : s.diagram.receiving = true) :
    s.statics.rxTransaction ≠ none ∧ s.statics.idle = false := by
  rwa [Armed, hreceiving] at h

/-- The callback of a reception under way. -/
theorem armed_rxCallback {s s' : System} {ch : ℕ} {e : EventMask} {t : UInt32} (hs : Armed s)
    (hfollows : Follows s (.rxCallback ch e t)) (hrestores : Restores s (.rxCallback ch e t))
    (h : step s (.rxCallback ch e t) = some s') : Armed s' := by
  obtain ⟨statics, calls, hcb, rfl⟩ := step_rxCallback h
  cases hreceiving : s.diagram.receiving with
  | false =>
    have hidle : s.statics.idle = true := by
      simpa [Follows, hreceiving] using hfollows
    rw [rxProcessCb_of_idle hidle] at hcb
    cases hcb
    exact hs.congr (Diagram.afterRx_of_not_receiving hreceiving e) rfl rfl rfl
  | true =>
    obtain ⟨hhandle, hlive⟩ := hs.of_receiving hreceiving
    have hafter := Diagram.afterRx_of_receiving hreceiving e
    rcases rxProcessCb_cases hcb with ⟨hidle, -, -⟩ | ⟨-, hsoft, rfl, -⟩ |
      ⟨-, hsoft, hdone, -, ⟨packet, length, rssi, rfl⟩, -⟩ | ⟨-, -, hdone, hstatus, -, -⟩ |
      ⟨-, hsoft, hdone, rfl, -⟩
    · exact absurd (hidle.symm.trans hlive) (by decide)
    · -- the start of the frame: its end has not been merged into this callback
      have hdone : e.rxDone = false := by
        by_contra hdone
        exact absurd ((hrestores hreceiving (eq_true_of_ne_false hdone)).1.symm.trans hsoft)
          (by decide)
      simp [Armed, hafter, hdone, hsoft, hhandle, hlive]
    · exact armed_of_clear (by simp [hafter, hdone]) rfl rfl (fun _ => hlive)
    · exact absurd (hrestores hreceiving hdone).2 hstatus
    · exact armed_of_clear (by simp [hafter, hdone, hsoft]) rfl rfl (fun _ => hlive)

/-- In the states of the diagram from which the radio is enabled. -/
theorem Armed.clear {s : System} (h : Armed s) (hd : s.diagram = .idle ∨ s.diagram = .active) :
    s.statics.rxItemStatus = .pending ∧ s.statics.rxTransaction = none := by
  have hrearmed := rearmed_iff.1 (h.rearmable hd)
  exact ⟨hrearmed.2, hrearmed.1⟩

/-- **The step lemma**: events that follow the diagram and restore the receiver keep the
invariant. -/
theorem armed_step {s s' : System} {e : Event} (hs : Armed s) (hfollows : Follows s e)
    (hrestores : Restores s e) (h : step s e = some s') : Armed s' := by
  cases e with
  | init =>
    cases h
    have hdiagram : s.diagram = .uninitialized := hfollows
    exact armed_of_clear rfl (hs.item_of_not_receiving (by rw [hdiagram]; rfl)) rfl nofun
  | setCallbacks onStartFrame onEndFrame cbtContext =>
    cases h
    exact hs.congr rfl rfl rfl rfl
  | deinit => exact hfollows.elim
  | idle =>
    cases h
    have hreceiving : s.diagram.receiving = false := eq_false_of_ne_true hrestores
    exact armed_of_clear rfl (hs.item_of_not_receiving hreceiving)
      (hs.handle_of_not_receiving hreceiving hfollows) nofun
  | txEnable channel psdu psduLen =>
    obtain ⟨buffer, rfl⟩ := step_txEnable h
    exact armed_of_clear rfl (hs.clear hfollows).1 (hs.clear hfollows).2 nofun
  | txNow accepted =>
    cases h
    have hdiagram : s.diagram = .txReady := hfollows
    have hreceiving : s.diagram.receiving = false := by rw [hdiagram]; rfl
    have hhandle := hs.handle_of_not_receiving hreceiving (by rw [hdiagram]; decide)
    have hitem := hs.item_of_not_receiving hreceiving
    cases accepted
    · exact hs.congr rfl rfl rfl rfl
    · exact armed_of_clear rfl hitem hhandle nofun
  | rxEnable channel =>
    cases h
    obtain ⟨hitem, hhandle⟩ := hs.clear hfollows
    refine armed_of_clear rfl ?_ ?_ ?_ <;> simp [rxEnable, hitem, hhandle]
  | rxNow accepted =>
    cases h
    have hdiagram : s.diagram = .rxReady := hfollows
    have hreceiving : s.diagram.receiving = false := by rw [hdiagram]; rfl
    have hitem := hs.item_of_not_receiving hreceiving
    have hidle := hs.idle_of_rxReady hdiagram
    cases accepted
    · exact armed_of_clear hreceiving hitem rfl (fun _ => hidle)
    · exact ⟨Option.some_ne_none s.nextHandle, hidle⟩
  | getReceivedFrame bufferLength buffer =>
    obtain ⟨length, rfl⟩ := step_getReceivedFrame h
    exact hs.congr rfl rfl rfl rfl
  | startContinuousTx mode channel => exact hfollows.elim
  | core e =>
    cases h
    cases e with
    | syncWord | receptionDone ok item status buffer =>
      have hreceiving : s.diagram.receiving = true := hfollows
      have hlive := hs.of_receiving hreceiving
      rw [Armed, if_pos hreceiving]
      exact hlive
    | synthesizerDone | transmissionDone status => exact hs.congr rfl rfl rfl rfl
  | rxCallback ch e t => exact armed_rxCallback hs hfollows hrestores h
  | txCallback ch e t t' =>
    obtain ⟨handle, rfl⟩ := step_txCallback h
    rcases s.diagram.afterTx_cases e with hsame | ⟨hdiagram, hafter⟩
    · exact hs.congr hsame rfl rfl rfl
    · have hreceiving : s.diagram.receiving = false := by rw [hdiagram]; rfl
      have hitem := hs.item_of_not_receiving hreceiving
      have hhandle := hs.handle_of_not_receiving hreceiving (by rw [hdiagram]; decide)
      exact armed_of_clear (by simp [hafter]) hitem hhandle (by simp [hafter])

/-- An event that follows the diagram and does not restore the receiver leaves it in IDLE or in
ACTIVE with the handle of the reception still recorded. -/
theorem not_rearmable_of_step {s s' : System} {e : Event} (hs : Armed s)
    (hrestores : ¬ Restores s e) (h : step s e = some s') : ¬ Rearmable s' := by
  cases e with
  | idle =>
    cases h
    have hreceiving : s.diagram.receiving = true := not_not.1 hrestores
    intro hrearmable
    exact (hs.of_receiving hreceiving).1 (hrearmable (.inl rfl)).1
  | rxCallback ch e t =>
    obtain ⟨statics, calls, hcb, rfl⟩ := step_rxCallback h
    simp only [Restores, Classical.not_imp] at hrestores
    obtain ⟨hreceiving, hdone, hbad⟩ := hrestores
    obtain ⟨hhandle, hlive⟩ := hs.of_receiving hreceiving
    have hafter := Diagram.afterRx_of_receiving hreceiving e
    rw [if_pos hdone] at hafter
    -- neither of the two branches that remain writes the handle
    have hstatics : statics = s.statics := by
      rcases rxProcessCb_cases hcb with ⟨-, hsame, -⟩ | ⟨-, -, hsame, -⟩ |
        ⟨-, hsoft, -, hstatus, -⟩ | ⟨-, -, -, -, hsame, -⟩ | ⟨-, -, hnot, -⟩
      · exact hsame
      · exact hsame
      · exact absurd ⟨hsoft, hstatus⟩ hbad
      · exact hsame
      · exact absurd (hdone.symm.trans hnot) (by decide)
    intro hrearmable
    exact hhandle (hstatics ▸ (hrearmable (.inr hafter)).1)
  | init | setCallbacks | deinit | txEnable | txNow | rxEnable | rxNow | getReceivedFrame
  | startContinuousTx | core | txCallback => exact absurd trivial hrestores

/-- **Arming the receiver again.** Along any run from a reset that follows the state diagram, the
receiver can be armed in IDLE and in ACTIVE exactly if no Idle aborts a reception and every
reception ends in a callback of its own with one of the two statuses it expects, or in an error of
the driver. -/
theorem rearmable_iff (es : List Event)
    (hfollows : Along step (fun s e _ => Follows s e) start es) :
    Along step (fun _ _ s' => Rearmable s') start es ↔
      Along step (fun s e _ => Restores s e) start es := by
  refine along_iff ?_ armed_start hfollows
  intro s e s' hs he hstep
  refine ⟨⟨fun hrearmable => ?_, fun hrestores => ?_⟩, fun hrestores => ?_⟩
  · by_contra hrestores
    exact not_rearmable_of_step hs hrestores hstep hrearmable
  · exact (armed_step hs he hrestores hstep).rearmable
  · exact armed_step hs he hrestores hstep

/-- A frame received, and the receiver armed again. -/
def frameReceived : List Event :=
  [.init, .rxEnable 11, .rxNow true, .core .syncWord, .rxCallback 0 { mdmSoft := true } 5000,
    .core (.receptionDone true .finished .propDoneOk (Vector.replicate rxBufferLength 0)),
    .rxCallback 0 { rxOk := true } 9000, .rxEnable 12, .rxNow true]

/-- It can be armed after the frame. -/
theorem rearmable_frameReceived : Along step (fun _ _ s' => Rearmable s') start frameReceived :=
  (rearmable_iff frameReceived (by decide +kernel)).2 (by decide +kernel)

/-- Idle in LISTEN: the handle of the aborted reception stays, and RxEnable fails from then on. -/
theorem not_rearmable_after_abort :
    Along step (fun s e _ => Follows s e) start [.init, .rxEnable 11, .rxNow true, .idle] ∧
      ¬ Along step (fun _ _ s' => Rearmable s') start [.init, .rxEnable 11, .rxNow true, .idle] := by
  refine ⟨by decide, ?_⟩
  simp only [Along, step, Rearmable, rearmed_iff]
  decide

end EmbenetNode.Radio
