import EmbenetNode.Radio.Reception

/-!
# Coalesced events

The RF driver calls back with the OR of the events since the previous call. A reception and a
transmission raise two events each, and the port makes a call of a handler for each of them as long
as they arrive in two invocations (`Exchange.kept_of_separate`). When they arrive in one, the end of
a reception and the start of a transmission get lost (`Exchange.not_kept_of_merged`), so a run keeps
the events of its frames exactly if none of its invocations merges two events (`kept_iff`).
-/

namespace EmbenetNode.Radio

open GuardedRun

/-- The OR of two masks. -/
def EventMask.or (e e' : EventMask) : EventMask where
  cmdDone := e.cmdDone || e'.cmdDone
  lastCmdDone := e.lastCmdDone || e'.lastCmdDone
  mdmSoft := e.mdmSoft || e'.mdmSoft
  rxOk := e.rxOk || e'.rxOk
  rxNOk := e.rxNOk || e'.rxNOk

/-- One invocation of a callback: the events since the previous one, and what the timer reads. -/
structure Invocation where
  events : List CoreEvent
  nonempty : events ≠ []
  t : UInt32
  t' : UInt32

/-- The mask passed to the callback. -/
def Invocation.mask (i : Invocation) : EventMask :=
  i.events.foldl (fun e event => e.or event.mask) {}

/-- A good frame, a frame with a checksum error, and a transmission with its final status. -/
inductive Frame
  | received (frame : ReceivedFrame)
  | corrupted (item : EntryStatus) (buffer : Vector UInt8 rxBufferLength)
  | transmitted (psdu : List UInt8) (status : OpStatus)

namespace Frame

/-- The events that the command of the frame raises. -/
def events : Frame → List CoreEvent
  | received frame => [.syncWord, .receptionDone true .finished .propDoneOk frame.buffer]
  | corrupted item buffer => [.syncWord, .receptionDone false item .propDoneRxErr buffer]
  | transmitted _ status => [.synthesizerDone, .transmissionDone status]

/-- Enabling the radio and posting the command, to which the driver gives the handle. -/
def post (channel : UInt8) (handle : ℕ) (s : Statics) : Frame → Option Statics
  | received _ | corrupted .. => some (rxNow (some handle) (rxEnable channel s).statics).statics
  | transmitted psdu _ => do
      let r ← txEnable channel psdu psdu.length s
      return (txNow (some handle) r.statics).statics

/-- The variable that holds the handle of the command. -/
def transaction (s : Statics) : Frame → CmdHandle
  | received _ | corrupted .. => s.rxTransaction
  | transmitted .. => s.txTransaction

/-- The callback of the command, when the timer reads `t` and, a second time, `t'`. -/
def callback (e : EventMask) (t t' : UInt32) (s : Statics) :
    Frame → Option (Statics × List HandlerCall)
  | received _ | corrupted .. => rxProcessCb e t s
  | transmitted .. => some (txProcessCb e t t' s)

/-- One invocation: the RF core has made its writes, and the callback is called. -/
def invoke (f : Frame) (i : Invocation) (s : Statics) : Option (Statics × List HandlerCall) :=
  f.callback i.mask i.t i.t' (i.events.foldl (fun s event => event.effect s) s)

/-- The invocations one after the other, with the handler calls of all of them. -/
def invokeAll (f : Frame) : List Invocation → Statics → Option (Statics × List HandlerCall)
  | [], s => some (s, [])
  | i :: is, s => do
      let (s, calls) ← f.invoke i s
      let (s, calls') ← f.invokeAll is s
      return (s, calls ++ calls')

/-- A frame received without an error, or transmitted. -/
def Successful : Frame → Prop
  | received _ => True
  | corrupted .. => False
  | transmitted _ status => status = .propDoneOk ∨ status = .doneOk

end Frame

/-- Which of the two handlers is called. -/
inductive CallKind
  | startOfFrame
  | endOfFrame
  deriving DecidableEq

def HandlerCall.kind : HandlerCall → CallKind
  | startOfFrame .. => .startOfFrame
  | endOfFrame .. => .endOfFrame

/-- A frame with the invocations of its callback, in each of which some of its events arrive. -/
structure Exchange where
  frame : Frame
  channel : UInt8
  handle : ℕ
  invocations : List Invocation
  covers : invocations.flatMap Invocation.events = frame.events

namespace Exchange

/-- The variables after the frame, and the handler calls it made. -/
def run (x : Exchange) (s : Statics) : Option (Statics × List HandlerCall) := do
  let s ← x.frame.post x.channel x.handle s
  x.frame.invokeAll x.invocations s

/-- The same frame with an invocation for each of its events. -/
def separated (x : Exchange) : Exchange :=
  { x with
    invocations := x.frame.events.map fun event => ⟨[event], List.cons_ne_nil _ _, 0, 0⟩
    covers := by rw [List.flatMap_map, List.flatMap_singleton'] }

/-- No event of the frame is lost: the handlers are called as if each event had an invocation of its
own, for a successful frame at its start and at its end; afterwards the handle is cleared, the
receive entry is free, and a good frame is in `rxPacket`. -/
def Kept (x : Exchange) (s : Statics) : Prop :=
  ∃ s' calls, x.run s = some (s', calls) ∧
    (∃ s'' calls', x.separated.run s = some (s'', calls') ∧
      calls.map HandlerCall.kind = calls'.map HandlerCall.kind) ∧
    (x.frame.Successful → calls.map HandlerCall.kind = [.startOfFrame, .endOfFrame]) ∧
    x.frame.transaction s' = none ∧
    s'.rxItemStatus = .pending ∧
    ∀ f, x.frame = .received f → s'.rxPacketLength = f.psdu.length ∧
      s'.rxPacket.toList.take f.psdu.length = f.psdu

/-- Every event has an invocation of its own. -/
def Separate (x : Exchange) : Prop := ∀ i ∈ x.invocations, i.events.length = 1

end Exchange

/-- A run of frames. -/
def Exchange.step (s : Statics) (x : Exchange) : Option Statics := (x.run s).map Prod.fst

/-- Both handlers are registered and the receive entry is free. -/
structure Ready (s : Statics) : Prop where
  onStart : s.onStartOfFrameHandler = true
  onEnd : s.onEndOfFrameHandler = true
  pending : s.rxItemStatus = .pending

/-! ### The groupings of two events -/

theorem invocations_eq_nil {is : List Invocation} (h : is.flatMap Invocation.events = []) :
    is = [] := by
  cases is with
  | nil => rfl
  | cons i is =>
    rw [List.flatMap_cons, List.append_eq_nil_iff] at h
    exact absurd h.1 i.nonempty

/-- One event takes one invocation. -/
theorem invocations_of_one {is : List Invocation} {a : CoreEvent}
    (h : is.flatMap Invocation.events = [a]) : ∃ i, is = [i] ∧ i.events = [a] := by
  cases is with
  | nil => cases h
  | cons i is =>
    rw [List.flatMap_cons, List.append_eq_singleton_iff] at h
    rcases h with ⟨hi, -⟩ | ⟨hi, his⟩
    · exact absurd hi i.nonempty
    · exact ⟨i, by rw [invocations_eq_nil his], hi⟩

/-- Two events arrive in two invocations or in one. -/
theorem invocations_of_two {is : List Invocation} {a b : CoreEvent}
    (h : is.flatMap Invocation.events = [a, b]) :
    (∃ i j, is = [i, j] ∧ i.events = [a] ∧ j.events = [b]) ∨
      ∃ i, is = [i] ∧ i.events = [a, b] := by
  cases is with
  | nil => cases h
  | cons i is =>
    rw [List.flatMap_cons] at h
    cases hi : i.events with
    | nil => exact absurd hi i.nonempty
    | cons x xs =>
      rw [hi, List.cons_append, List.cons.injEq, List.append_eq_singleton_iff] at h
      obtain ⟨rfl, ⟨rfl, his⟩ | ⟨rfl, his⟩⟩ := h
      · obtain ⟨j, rfl, hj⟩ := invocations_of_one his
        exact .inl ⟨i, j, rfl, hi, hj⟩
      · exact .inr ⟨i, by rw [invocations_eq_nil his], hi⟩

/-! ### One frame -/

namespace Frame

/-- The two events of a frame. -/
theorem exists_events (f : Frame) : ∃ a b, f.events = [a, b] := by
  cases f <;> exact ⟨_, _, rfl⟩

/-- The handlers called when every event has an invocation of its own. -/
def kinds : Frame → List CallKind
  | received _ | corrupted .. => [.startOfFrame, .endOfFrame]
  | transmitted _ status =>
      if status = .propDoneOk ∨ status = .doneOk then [.startOfFrame, .endOfFrame]
      else [.startOfFrame]

theorem kinds_of_successful {f : Frame} (h : f.Successful) :
    f.kinds = [.startOfFrame, .endOfFrame] := by
  cases f with
  | received | corrupted => rfl
  | transmitted psdu status => exact if_pos h

/-- The command of the frame is posted. -/
structure Posted (f : Frame) (s : Statics) : Prop extends Ready s where
  live : s.idle = false
  handle : f.transaction s ≠ none

theorem exists_posted (f : Frame) (channel : UInt8) (handle : ℕ) {s : Statics} (hs : Ready s) :
    ∃ p, f.post channel handle s = some p ∧ f.Posted p := by
  cases f with
  | received | corrupted =>
    refine ⟨_, rfl, ?_⟩
    rcases rxEnable_cases channel s with ⟨-, hr⟩ | ⟨-, hr⟩ <;>
      rw [hr] <;>
      exact ⟨⟨hs.onStart, hs.onEnd, hs.pending⟩, rfl, Option.some_ne_none handle⟩
  | transmitted psdu status =>
    obtain ⟨r, hr⟩ := exists_txEnable channel (Nat.le_refl psdu.length) s
    refine ⟨(txNow (some handle) r.statics).statics, by rw [post, hr]; rfl, ?_⟩
    obtain ⟨buffer, rfl⟩ := txEnable_eq hr
    exact ⟨⟨hs.onStart, hs.onEnd, hs.pending⟩, rfl, Option.some_ne_none handle⟩

/-- What the events of a frame leave when none of them is lost. -/
structure Complete (f : Frame) (s : Statics) : Prop extends Ready s where
  handle : f.transaction s = none
  packet : ∀ frame, f = received frame → s.rxPacketLength = frame.psdu.length ∧
    s.rxPacket.toList.take frame.psdu.length = frame.psdu

theorem invokeAll_two {f : Frame} {i j : Invocation} {s s₁ s₂ : Statics}
    {calls₁ calls₂ : List HandlerCall} (h₁ : f.invoke i s = some (s₁, calls₁))
    (h₂ : f.invoke j s₁ = some (s₂, calls₂)) :
    f.invokeAll [i, j] s = some (s₂, calls₁ ++ calls₂) := by
  simp [invokeAll, h₁, h₂]

theorem invokeAll_one {f : Frame} {i : Invocation} {s s₁ : Statics} {calls : List HandlerCall}
    (h : f.invoke i s = some (s₁, calls)) : f.invokeAll [i] s = some (s₁, calls) := by
  simp [invokeAll, h]

variable {f : Frame} {p : Statics} {i j : Invocation} {a b : CoreEvent}

theorem invoke_of_one (hi : i.events = [a]) (s : Statics) :
    f.invoke i s = f.callback (EventMask.or {} a.mask) i.t i.t' (a.effect s) := by
  rw [invoke, Invocation.mask, hi]
  rfl

theorem invoke_of_two (hi : i.events = [a, b]) (s : Statics) :
    f.invoke i s =
      f.callback ((EventMask.or {} a.mask).or b.mask) i.t i.t' (b.effect (a.effect s)) := by
  rw [invoke, Invocation.mask, hi]
  rfl

/-- In two invocations no event is lost. -/
theorem invokeAll_separate (hp : f.Posted p) (hevents : f.events = [a, b])
    (hi : i.events = [a]) (hj : j.events = [b]) :
    ∃ s' calls, f.invokeAll [i, j] p = some (s', calls) ∧
      calls.map HandlerCall.kind = f.kinds ∧ f.Complete s' := by
  obtain ⟨⟨hstart, hend, hpending⟩, hlive, -⟩ := hp
  have h₁ := invoke_of_one (f := f) hi p
  have h₂ := invoke_of_one (f := f) hj (a.effect p)
  have hlive₁ : (a.effect p).idle = false := by rw [a.effect_idle, hlive]
  have hlive₂ : (b.effect (a.effect p)).idle = false := by rw [b.effect_idle, hlive₁]
  cases f with
  | received frame =>
    obtain ⟨rfl, rfl⟩ : _ ∧ _ := by simpa [events] using hevents
    have hsync := rxProcessCb_syncWord hlive₁ (e := EventMask.or {} CoreEvent.syncWord.mask) rfl i.t
    obtain ⟨packet, hdone, hpacket⟩ := rxProcessCb_received frame hlive₂
      (e := EventMask.or {} { rxOk := true }) rfl rfl rfl rfl j.t
    refine ⟨_, _, invokeAll_two (h₁.trans hsync) (h₂.trans hdone), ?_, ⟨hstart, hend, rfl⟩, rfl, ?_⟩
    · simp [CoreEvent.effect, callHandler, hstart, hend, HandlerCall.kind, kinds]
    · rintro _ ⟨⟩
      exact ⟨rfl, by simp [clearReception, hpacket]⟩
  | corrupted item buffer =>
    obtain ⟨rfl, rfl⟩ : _ ∧ _ := by simpa [events] using hevents
    have hsync := rxProcessCb_syncWord hlive₁ (e := EventMask.or {} CoreEvent.syncWord.mask) rfl i.t
    have hdone := rxProcessCb_corrupted hlive₂ (e := EventMask.or {} { rxNOk := true }) rfl rfl rfl
      j.t
    refine ⟨_, _, invokeAll_two (h₁.trans hsync) (h₂.trans hdone), ?_, ⟨hstart, hend, rfl⟩, rfl,
      nofun⟩
    simp [CoreEvent.effect, callHandler, hstart, hend, HandlerCall.kind, kinds]
  | transmitted psdu status =>
    obtain ⟨rfl, rfl⟩ : _ ∧ _ := by simpa [events] using hevents
    have hready := txProcessCb_start hlive₁ (e := EventMask.or {} { cmdDone := true }) rfl rfl i.t i.t'
    have hdone := txProcessCb_last hlive₂
      (e := EventMask.or {} { cmdDone := true, lastCmdDone := true }) rfl j.t j.t'
    refine ⟨_, _, invokeAll_two (h₁.trans (congrArg some hready)) (h₂.trans (congrArg some hdone)), ?_,
      ⟨hstart, hend, hpending⟩, rfl, nofun⟩
    simp only [CoreEvent.effect, callHandler, hstart, hend, kinds, if_true, List.map_append]
    split_ifs <;> rfl

/-- In one invocation the handle of a reception stays, and the start of a transmission is lost. -/
theorem invokeAll_merged (hp : f.Posted p) (hevents : f.events = [a, b])
    (hi : i.events = [a, b]) :
    ∃ s' calls, f.invokeAll [i] p = some (s', calls) ∧
      (f.transaction s' ≠ none ∨ calls.map HandlerCall.kind ≠ f.kinds) := by
  have h₁ := invoke_of_two (f := f) hi p
  have hlive : (b.effect (a.effect p)).idle = false := by
    rw [b.effect_idle, a.effect_idle, hp.live]
  cases f with
  | received frame =>
    obtain ⟨rfl, rfl⟩ : _ ∧ _ := by simpa [events] using hevents
    -- the branch of the sync word comes first, so the end of the reception is not handled
    have hsync := rxProcessCb_syncWord hlive
      (e := EventMask.or { mdmSoft := true } { rxOk := true }) rfl i.t
    exact ⟨_, _, invokeAll_one (h₁.trans hsync), .inl hp.handle⟩
  | corrupted item buffer =>
    obtain ⟨rfl, rfl⟩ : _ ∧ _ := by simpa [events] using hevents
    have hsync := rxProcessCb_syncWord hlive
      (e := EventMask.or { mdmSoft := true } { rxNOk := true }) rfl i.t
    exact ⟨_, _, invokeAll_one (h₁.trans hsync), .inl hp.handle⟩
  | transmitted psdu status =>
    obtain ⟨rfl, rfl⟩ : _ ∧ _ := by simpa [events] using hevents
    -- the branch of the last command comes first, so the start of the frame is not handled
    have hdone := txProcessCb_last hlive
      (e := EventMask.or { cmdDone := true } { cmdDone := true, lastCmdDone := true }) rfl i.t i.t'
    refine ⟨_, _, invokeAll_one (h₁.trans (congrArg some hdone)), .inr ?_⟩
    simp only [CoreEvent.effect, callHandler, hp.onEnd, kinds, if_true]
    split_ifs <;> nofun

end Frame

/-! ### Runs of frames -/

namespace Exchange

theorem run_eq {x : Exchange} {s p : Statics} (h : x.frame.post x.channel x.handle s = some p) :
    x.run s = x.frame.invokeAll x.invocations p := by
  rw [run, h]
  rfl

/-- The invocations of a frame, one for each event or one for both. -/
theorem separate_or_merged (x : Exchange) :
    ∃ a b, x.frame.events = [a, b] ∧
      ((x.Separate ∧ ∃ i j, x.invocations = [i, j] ∧ i.events = [a] ∧ j.events = [b]) ∨
        (¬ x.Separate ∧ ∃ i, x.invocations = [i] ∧ i.events = [a, b])) := by
  obtain ⟨a, b, hevents⟩ := x.frame.exists_events
  refine ⟨a, b, hevents, ?_⟩
  rcases invocations_of_two (x.covers.trans hevents) with ⟨i, j, hx, hi, hj⟩ | ⟨i, hx, hi⟩
  · exact .inl ⟨by simp [Separate, hx, hi, hj], i, j, hx, hi, hj⟩
  · exact .inr ⟨by simp [Separate, hx, hi], i, hx, hi⟩

/-- A frame whose events arrive separately. -/
theorem run_of_separate {x : Exchange} {s : Statics} (hs : Ready s) (hx : x.Separate) :
    ∃ s' calls, x.run s = some (s', calls) ∧ calls.map HandlerCall.kind = x.frame.kinds ∧
      x.frame.Complete s' := by
  obtain ⟨p, hpost, hp⟩ := x.frame.exists_posted x.channel x.handle hs
  obtain ⟨a, b, hevents, ⟨-, i, j, hinvocations, hi, hj⟩ | ⟨hnot, -⟩⟩ := x.separate_or_merged
  · rw [run_eq hpost, hinvocations]
    exact Frame.invokeAll_separate hp hevents hi hj
  · exact absurd hx hnot

theorem separate_separated (x : Exchange) : x.separated.Separate := by
  intro i hi
  obtain ⟨event, -, rfl⟩ := List.mem_map.1 hi
  rfl

/-- **No event of a frame is lost when each has an invocation of its own.** -/
theorem kept_of_separate {x : Exchange} {s : Statics} (hs : Ready s) (hx : x.Separate) :
    x.Kept s := by
  obtain ⟨s', calls, hrun, hkinds, hcomplete⟩ := run_of_separate hs hx
  obtain ⟨s'', calls', hrun', hkinds', -⟩ := run_of_separate hs x.separate_separated
  exact ⟨s', calls, hrun, ⟨s'', calls', hrun', hkinds.trans hkinds'.symm⟩,
    fun hsuccessful => hkinds.trans (Frame.kinds_of_successful hsuccessful), hcomplete.handle,
    hcomplete.pending, hcomplete.packet⟩

/-- **An event of a frame is lost when the two arrive in one invocation.** -/
theorem not_kept_of_merged {x : Exchange} {s : Statics} (hs : Ready s) (hx : ¬ x.Separate) :
    ¬ x.Kept s := by
  rintro ⟨s', calls, hrun, ⟨s'', calls', hrun', hkinds⟩, -, hhandle, -⟩
  obtain ⟨s₁, calls₁, hrun₁, hkinds₁, -⟩ := run_of_separate hs x.separate_separated
  obtain ⟨p, hpost, hp⟩ := x.frame.exists_posted x.channel x.handle hs
  obtain ⟨a, b, hevents, ⟨hsep, -⟩ | ⟨-, i, hinvocations, hi⟩⟩ := x.separate_or_merged
  · exact hx hsep
  · obtain ⟨s₂, calls₂, hrun₂, hlost⟩ := Frame.invokeAll_merged hp hevents hi
    rw [← hinvocations, ← run_eq hpost, hrun] at hrun₂
    rw [hrun'] at hrun₁
    cases hrun₁
    cases hrun₂
    rcases hlost with hlost | hlost
    · exact hlost hhandle
    · exact hlost (hkinds.trans hkinds₁)

/-- Every frame is carried out, whatever the grouping of its events. -/
theorem exists_step (x : Exchange) {s : Statics} (hs : Ready s) : ∃ s', Exchange.step s x = some s' := by
  obtain ⟨p, hpost, hp⟩ := x.frame.exists_posted x.channel x.handle hs
  obtain ⟨a, b, hevents, ⟨-, i, j, hx, hi, hj⟩ | ⟨-, i, hx, hi⟩⟩ := x.separate_or_merged
  · obtain ⟨s', calls, hrun, -⟩ := Frame.invokeAll_separate hp hevents hi hj
    exact ⟨s', by rw [step, run_eq hpost, hx, hrun]; rfl⟩
  · obtain ⟨s', calls, hrun, -⟩ := Frame.invokeAll_merged hp hevents hi
    exact ⟨s', by rw [step, run_eq hpost, hx, hrun]; rfl⟩

/-- A frame whose events arrive separately leaves the radio ready for the next. -/
theorem ready_of_step {x : Exchange} {s s' : Statics} (hs : Ready s) (hx : x.Separate)
    (h : Exchange.step s x = some s') : Ready s' := by
  obtain ⟨s₁, calls, hrun, -, hcomplete⟩ := run_of_separate hs hx
  rw [step, hrun] at h
  cases h
  exact hcomplete.toReady

end Exchange

/-- **Coalesced events.** In a run of any number of frames, from a radio with both handlers
registered and the receive entry free, no event of any frame is lost exactly if no invocation of a
callback carries two events. -/
theorem kept_iff {s : Statics} (hs : Ready s) (xs : List Exchange) :
    Along Exchange.step (fun s x _ => x.Kept s) s xs ↔ ∀ x ∈ xs, x.Separate := by
  induction xs generalizing s with
  | nil => simp
  | cons x xs ih =>
    obtain ⟨s', hstep⟩ := x.exists_step hs
    rw [along_cons_of_step hstep, List.forall_mem_cons]
    constructor
    · rintro ⟨hkept, hrest⟩
      have hx : x.Separate := by
        by_contra hx
        exact Exchange.not_kept_of_merged hs hx hkept
      exact ⟨hx, (ih (Exchange.ready_of_step hs hx hstep)).1 hrest⟩
    · rintro ⟨hx, hrest⟩
      exact ⟨Exchange.kept_of_separate hs hx,
        (ih (Exchange.ready_of_step hs hx hstep)).2 hrest⟩

/-- A radio initialized, with both handlers registered. -/
def registered : Statics := setCallbacks true true 7 (init {}).statics

theorem ready_registered : Ready registered := ⟨rfl, rfl, rfl⟩

/-- The receive buffer with a frame of three bytes. -/
def threeBytes : ReceivedFrame where
  psdu := [0, 0, 0]
  rssi := 0
  buffer := (Vector.replicate rxBufferLength 0).set 0 3 rxBufferLength_pos
  length_le := by decide
  holds := by decide +kernel

/-- The frame with an invocation for each of its events. -/
def inTwo : Exchange where
  frame := .received threeBytes
  channel := 40
  handle := 1
  invocations := [⟨[.syncWord], List.cons_ne_nil _ _, 5000, 0⟩,
    ⟨[.receptionDone true .finished .propDoneOk threeBytes.buffer], List.cons_ne_nil _ _, 6000, 0⟩]
  covers := rfl

/-- The frame with one invocation for both of its events. -/
def inOne : Exchange where
  frame := .received threeBytes
  channel := 40
  handle := 1
  invocations := [⟨[.syncWord, .receptionDone true .finished .propDoneOk threeBytes.buffer],
    List.cons_ne_nil _ _, 6000, 0⟩]
  covers := rfl

/-- Two frames, each with its own handler calls. -/
theorem kept_inTwo_inTwo : Ready registered ∧
    Along Exchange.step (fun s x _ => x.Kept s) registered [inTwo, inTwo] := by
  refine ⟨ready_registered, ?_⟩
  rw [kept_iff ready_registered]
  simp [Exchange.Separate, inTwo]

/-- The end of the frame is lost, and the receiver stays in the transaction. -/
theorem not_kept_inOne : ¬ Along Exchange.step (fun s x _ => x.Kept s) registered [inOne] := by
  obtain ⟨s', hstep⟩ := inOne.exists_step ready_registered
  intro hkept
  exact Exchange.not_kept_of_merged ready_registered (by simp [Exchange.Separate, inOne])
    ((along_cons_of_step hstep).1 hkept).1

end EmbenetNode.Radio
