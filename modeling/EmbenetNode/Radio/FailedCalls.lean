import EmbenetNode.Radio.System

/-!
# Calls that fail

TxEnable clips the length of the packet and has no way to fail; RxEnable ends the idle state before
it looks at the handle of the reception; TxNow and RxNow overwrite their handle by the error that
`RF_postCmd` returns. A call that cannot be carried out therefore reports it and leaves the driver
as it was exactly when there is nothing that it could destroy (`clean_iff`).

* `CannotBeCarriedOut`, `FailsCleanly`: the calls concerned, and what they should do;
* `NothingToLose`: when they do;
* `failedCalls_iff`: along the runs from a reset.
-/

namespace EmbenetNode.Radio

open GuardedRun

/-- What a call of one of the four operations returns, and the variables it leaves. -/
def System.call (s : System) : Event → Option Result
  | .txEnable channel psdu psduLen => txEnable channel psdu psduLen s.statics
  | .txNow accepted => some (txNow (s.postCmd accepted) s.statics)
  | .rxEnable channel => some (rxEnable channel s.statics)
  | .rxNow accepted => some (rxNow (s.postCmd accepted) s.statics)
  | _ => none

/-- The length is out of range, the receiver is still in a transaction, or `RF_postCmd` returns
`RF_ALLOC_ERROR`. -/
def CannotBeCarriedOut (s : System) : Event → Prop
  | .txEnable _ _ psduLen => ¬ (1 ≤ psduLen ∧ psduLen ≤ maxPsduLength)
  | .rxEnable _ => s.statics.rxTransaction ≠ none
  | .txNow accepted | .rxNow accepted => accepted = false
  | _ => False

/-- The status of a call that fails. -/
def FailureStatus (status : Status) : Event → Prop
  | .txEnable .. => status = .parameterArgsOutOfBounds
  | _ => status ≠ .success

/-- The variables that tell which commands are under way and what is to be sent. -/
structure Untouched (s s' : Statics) : Prop where
  idle : s'.idle = s.idle
  txTransaction : s'.txTransaction = s.txTransaction
  rxTransaction : s'.rxTransaction = s.rxTransaction
  txChainSetFs : s'.txChainSetFs = s.txChainSetFs
  rxChainSetFs : s'.rxChainSetFs = s.rxChainSetFs
  pktLen : s'.txChainDoTxPktLen = s.txChainDoTxPktLen
  radioTxBuffer : s'.radioTxBuffer = s.radioTxBuffer

/-- The failure is reported and the variables are left alone, so that Idle still aborts what it
aborted before, and the callbacks of what it has aborted are still ignored. -/
def FailsCleanly (s : System) (e : Event) : Prop :=
  ∃ r, s.call e = some r ∧ FailureStatus r.status e ∧ Untouched s.statics r.statics ∧
    (idle r.statics).calls = (idle s.statics).calls ∧
    (s.statics.idle = true → (∀ e t, rxProcessCb e t r.statics = some (r.statics, [])) ∧
      ∀ e t t', txProcessCb e t t' r.statics = (r.statics, []))

/-- Nothing can be destroyed: the length is in range, the radio is not idle, no handle is
recorded. -/
def NothingToLose (s : System) : Event → Prop
  | .txEnable _ _ psduLen => 1 ≤ psduLen ∧ psduLen ≤ maxPsduLength
  | .rxEnable _ => s.statics.rxTransaction ≠ none → s.statics.idle = false
  | .txNow accepted => accepted = false → s.statics.txTransaction = none
  | .rxNow accepted => accepted = false → s.statics.rxTransaction = none
  | _ => True

instance (s : System) : ∀ e, Decidable (NothingToLose s e)
  | .txEnable .. | .rxEnable _ | .txNow _ | .rxNow _ => by unfold NothingToLose; infer_instance
  | .init | .setCallbacks .. | .deinit | .idle | .getReceivedFrame .. | .startContinuousTx ..
  | .core _ | .rxCallback .. | .txCallback .. => isTrue trivial

variable {s : System}

theorem failsCleanly_of_unchanged {e : Event} {r : Result} (hcall : s.call e = some r)
    (hstatus : FailureStatus r.status e) (hstatics : r.statics = s.statics) : FailsCleanly s e := by
  refine ⟨r, hcall, hstatus, ?_, ?_, ?_⟩ <;> rw [hstatics]
  · exact ⟨rfl, rfl, rfl, rfl, rfl, rfl, rfl⟩
  · intro hidle
    exact ⟨rxProcessCb_of_idle hidle, txProcessCb_of_idle hidle⟩

/-! ### The four operations -/

/-- TxEnable never fails. -/
theorem not_failsCleanly_txEnable (channel : UInt8) (psdu : List UInt8) (psduLen : ℕ) :
    ¬ FailsCleanly s (.txEnable channel psdu psduLen) := by
  rintro ⟨r, hcall, hstatus, -⟩
  obtain ⟨buffer, rfl⟩ := txEnable_eq hcall
  cases hstatus

theorem failsCleanly_rxEnable_iff (channel : UInt8) (hhandle : s.statics.rxTransaction ≠ none) :
    FailsCleanly s (.rxEnable channel) ↔ s.statics.idle = false := by
  have hcall : s.call (.rxEnable channel) =
      some { status := .wrongState, statics := { s.statics with idle := false } } := by
    rcases rxEnable_cases channel s.statics with ⟨hnone, -⟩ | ⟨-, hr⟩
    · exact absurd hnone hhandle
    · exact congrArg some hr
  constructor
  · rintro ⟨r, hr, -, huntouched, -⟩
    cases hcall.symm.trans hr
    exact huntouched.idle.symm
  · intro hidle
    refine failsCleanly_of_unchanged hcall ?_ ?_
    · intro h
      cases h
    · show { s.statics with idle := false } = s.statics
      rw [← hidle]

theorem failsCleanly_txNow_iff :
    FailsCleanly s (.txNow false) ↔ s.statics.txTransaction = none := by
  constructor
  · rintro ⟨r, hr, -, huntouched, -⟩
    cases hr
    exact huntouched.txTransaction.symm
  · intro hnone
    refine failsCleanly_of_unchanged rfl ?_ ?_
    · intro h
      cases h
    · show { s.statics with txTransaction := none } = s.statics
      rw [← hnone]

theorem failsCleanly_rxNow_iff :
    FailsCleanly s (.rxNow false) ↔ s.statics.rxTransaction = none := by
  constructor
  · rintro ⟨r, hr, -, huntouched, -⟩
    cases hr
    exact huntouched.rxTransaction.symm
  · intro hnone
    refine failsCleanly_of_unchanged rfl ?_ ?_
    · intro h
      cases h
    · show { s.statics with rxTransaction := none } = s.statics
      rw [← hnone]

/-- **One call.** -/
theorem clean_iff (s : System) (e : Event) :
    (CannotBeCarriedOut s e → FailsCleanly s e) ↔ NothingToLose s e := by
  cases e with
  | txEnable channel psdu psduLen =>
    constructor
    · intro h
      by_contra hlength
      exact not_failsCleanly_txEnable channel psdu psduLen (h hlength)
    · intro hlength h
      exact absurd hlength h
  | rxEnable channel => exact forall_congr' fun h => failsCleanly_rxEnable_iff channel h
  | txNow accepted =>
    refine forall_congr' fun h => ?_
    cases (h : accepted = false)
    exact failsCleanly_txNow_iff
  | rxNow accepted =>
    refine forall_congr' fun h => ?_
    cases (h : accepted = false)
    exact failsCleanly_rxNow_iff
  | init | setCallbacks | deinit | idle | getReceivedFrame | startContinuousTx | core
  | rxCallback | txCallback => exact ⟨fun _ => trivial, fun _ h => h.elim⟩

/-- **Calls that fail.** Along any run from a reset, all calls that cannot be carried out fail
cleanly exactly if each of them finds nothing that it could destroy. -/
theorem failedCalls_iff (es : List Event) :
    Along step (fun s e _ => CannotBeCarriedOut s e → FailsCleanly s e) start es ↔
      Along step (fun s e _ => NothingToLose s e) start es :=
  ⟨Along.imp fun s e _ => (clean_iff s e).1, Along.imp fun s e _ => (clean_iff s e).2⟩

/-- A packet without a byte is accepted; after an Idle in LISTEN, RxEnable fails and ends the idle
state; a second TxNow or RxNow that fails loses the handle of the first. -/
theorem failedCalls_damage :
    ¬ Along step (fun s e _ => CannotBeCarriedOut s e → FailsCleanly s e) start
        [.init, .txEnable 0 [] 0] ∧
      ¬ Along step (fun s e _ => CannotBeCarriedOut s e → FailsCleanly s e) start
        [.init, .rxEnable 0, .rxNow true, .idle, .rxEnable 0] ∧
      ¬ Along step (fun s e _ => CannotBeCarriedOut s e → FailsCleanly s e) start
        [.init, .txEnable 0 [0x41] 1, .txNow true, .txNow false] ∧
      ¬ Along step (fun s e _ => CannotBeCarriedOut s e → FailsCleanly s e) start
        [.init, .rxEnable 0, .rxNow true, .rxNow false] := by
  simp only [clean_iff]
  decide +kernel

end EmbenetNode.Radio
