import EmbenetNode.Brt.Mixed
import EmbenetNode.CriticalSection.Preemption

/-!
# The critical sections of the receivers

`EMBENET_BRT_Receive` and `EMBENET_BRT_ReceiveRaw` read every byte from the UART in a critical
section of its own. Here are the two loops with these sections, and with the interrupt masks that
the reads run in.

* `Sections`, `Sections.read`: one byte;
* `guardedReceive`, `guardedReceiveRaw`: the functions with their sections;
* `guardedReceive_eq`, `guardedReceiveRaw_eq`: without them they are `receive` and `receiveRaw`;
* `reads_guarded`: all reads of a run are undisturbed, and the sections are left as they were.
-/

namespace EmbenetNode.Brt

open CriticalSection (Hwi)
open Checked

/-- The variables of the critical section, and the interrupt masks of the reads. -/
structure Sections (Mask : Type) where
  state : CriticalSection.State Mask
  reads : List Mask := []

section Functions

variable {Mask : Type} (hwi : Hwi Mask)

/-- `UART2_read` of a byte, between Enter and Exit. -/
def Sections.read (c : Sections Mask) : Option (Sections Mask) := do
  let inside ← CriticalSection.enter hwi c.state
  let state ← CriticalSection.exit inside
  return ⟨state, c.reads ++ [inside.mask]⟩

/-- `receiveDrain` with its sections -/
def guardedDrain (c : Sections Mask) (s : Statics) : List UInt8 →
    Option (LoopExit × Sections Mask)
  | [] => some (⟨s, false, [], []⟩, c)
  | dataByte :: rxQueue => do
      let c ← c.read hwi
      let (s, frameComplete) ← loopBody s dataByte
      if frameComplete then return (⟨s, true, [dataByte], rxQueue⟩, c)
      let (exit, c) ← guardedDrain c s rxQueue
      return ({ exit with consumed := dataByte :: exit.consumed }, c)

/-- `receiveLoop` with its sections -/
def guardedLoop (c : Sections Mask) (s : Statics) (rxQueue : List UInt8) :
    List (List UInt8) → Option (LoopExit × Sections Mask)
  | [] => guardedDrain hwi c s rxQueue
  | chunk :: arrivals =>
      match rxQueue ++ chunk with
      | [] => some (⟨s, false, [], arrivals.flatten⟩, c)
      | dataByte :: rxQueue => do
          let c ← c.read hwi
          let (s, frameComplete) ← loopBody s dataByte
          if frameComplete then return (⟨s, true, [dataByte], rxQueue ++ arrivals.flatten⟩, c)
          let (exit, c) ← guardedLoop c s rxQueue arrivals
          return ({ exit with consumed := dataByte :: exit.consumed }, c)

/-- `EMBENET_BRT_Receive` with its sections -/
def guardedReceive (c : Sections Mask) (port : Port) (call : Call) :
    Option ((Port × Return) × Sections Mask) := do
  let (exit, c) ← guardedLoop hwi c port.statics port.rxQueue call.arrivals
  let (size, packetBuffer) ←
    finishFrame exit.statics exit.frameComplete call.packetBuffer call.packetBufferSize
  return ((⟨exit.statics, exit.rxQueue⟩, ⟨size, packetBuffer.toList, exit.consumed⟩), c)

section Raw

variable {room : ℕ} (dataBufferSize : ℕ)

/-- `receiveRawDrain` with its sections -/
def guardedRawDrain (c : Sections Mask) (data : Vector UInt8 room) (dataBytes : ℕ) :
    List UInt8 → Option (RawExit room × Sections Mask)
  | [] => some (⟨data, dataBytes, []⟩, c)
  | byte :: rxQueue => do
      let c ← c.read hwi
      let data ← store data dataBytes byte
      if dataBytes + 1 ≥ dataBufferSize then return (⟨data, dataBytes + 1, rxQueue⟩, c)
      guardedRawDrain c data (dataBytes + 1) rxQueue

/-- `receiveRawLoop` with its sections -/
def guardedRawLoop (c : Sections Mask) (data : Vector UInt8 room) (dataBytes : ℕ)
    (rxQueue : List UInt8) : List (List UInt8) → Option (RawExit room × Sections Mask)
  | [] => guardedRawDrain hwi dataBufferSize c data dataBytes rxQueue
  | chunk :: arrivals =>
      match rxQueue ++ chunk with
      | [] => some (⟨data, dataBytes, arrivals.flatten⟩, c)
      | byte :: rxQueue => do
          let c ← c.read hwi
          let data ← store data dataBytes byte
          if dataBytes + 1 ≥ dataBufferSize then
            return (⟨data, dataBytes + 1, rxQueue ++ arrivals.flatten⟩, c)
          guardedRawLoop c data (dataBytes + 1) rxQueue arrivals

end Raw

/-- `EMBENET_BRT_ReceiveRaw` with its sections -/
def guardedReceiveRaw (c : Sections Mask) (rxQueue : List UInt8) (call : RawCall) :
    Option ((List UInt8 × RawReturn) × Sections Mask) := do
  let (exit, c) ← guardedRawLoop hwi call.dataBufferSize c call.data 0 rxQueue call.arrivals
  return ((exit.rxQueue, ⟨exit.dataBytes, exit.data.toList⟩), c)

/-! ### One byte -/

/-- The sections of the caller: the counter has room for one more, and is positive only with the
interrupts disabled. -/
structure Sections.Ready (c : Sections Mask) : Prop where
  counter : 0 ≤ c.state.irqNestCounter
  bound : c.state.irqNestCounter < 2147483647
  previousIrqState : c.state.previousIrqState = 0
  disabled : 0 < c.state.irqNestCounter → hwi.enabled c.state.mask = false

/-- What a read leaves: the mask as it was. -/
def Sections.afterRead (c : Sections Mask) : Sections Mask :=
  if 0 = c.state.irqNestCounter then
    ⟨{ c.state with key := c.state.mask }, c.reads ++ [hwi.disable c.state.mask]⟩
  else ⟨c.state, c.reads ++ [c.state.mask]⟩

variable {hwi} {c : Sections Mask}

/-- Enter and Exit, when the counter has room for one more section. -/
theorem Sections.read_eq (hc : c.Ready hwi) : c.read hwi = some (c.afterRead hwi) := by
  obtain ⟨hcounter, hbound, hprevious, -⟩ := hc
  have hadd : addInt c.state.irqNestCounter 1 = some (c.state.irqNestCounter + 1) :=
    addInt_of_le (by omega) (by omega)
  have hsub : addInt (c.state.irqNestCounter + 1) (-1) =
      some (c.state.irqNestCounter + 1 + -1) := addInt_of_le (by omega) (by omega)
  have hback : c.state.irqNestCounter + 1 + -1 = c.state.irqNestCounter := by omega
  have hclamp : ¬ c.state.irqNestCounter < 0 := by omega
  unfold Sections.read Sections.afterRead CriticalSection.enter CriticalSection.exit
  -- Exit restores the mask in the outermost section only
  by_cases hzero : 0 = c.state.irqNestCounter
  · simp only [if_pos hzero, hadd, hsub, hback, Option.bind_eq_bind, Option.bind_some,
      Option.pure_def, CriticalSection.clamp, if_neg hclamp, CriticalSection.restore, hprevious,
      and_true]
  · simp only [hadd, hsub, hback, Option.bind_eq_bind, Option.bind_some,
      Option.pure_def, CriticalSection.clamp, if_neg hclamp, CriticalSection.restore, hzero,
      false_and, if_false]

/-- Some reads later: the caller's sections and mask as they were, each read with the interrupts
disabled. -/
structure Sections.Kept (hwi : Hwi Mask) (c c' : Sections Mask) (reads : ℕ) : Prop where
  counter : c'.state.irqNestCounter = c.state.irqNestCounter
  previousIrqState : c'.state.previousIrqState = c.state.previousIrqState
  mask : c'.state.mask = c.state.mask
  reads : ∃ masks, c'.reads = c.reads ++ masks ∧ masks.length = reads ∧
    ∀ mask ∈ masks, hwi.enabled mask = false

theorem Sections.kept_refl (c : Sections Mask) : c.Kept hwi c 0 :=
  ⟨rfl, rfl, rfl, [], (List.append_nil _).symm, rfl, nofun⟩

theorem Sections.Kept.trans {c' c'' : Sections Mask} {m n : ℕ} (h : c.Kept hwi c' m)
    (h' : c'.Kept hwi c'' n) : c.Kept hwi c'' (m + n) := by
  obtain ⟨masks, hmasks, hlength, hdisabled⟩ := h.reads
  obtain ⟨masks', hmasks', hlength', hdisabled'⟩ := h'.reads
  refine ⟨h'.counter.trans h.counter, h'.previousIrqState.trans h.previousIrqState,
    h'.mask.trans h.mask, masks ++ masks', ?_, ?_, ?_⟩
  · rw [hmasks', hmasks, List.append_assoc]
  · rw [List.length_append, hlength, hlength']
  · exact List.forall_mem_append.2 ⟨hdisabled, hdisabled'⟩

theorem Sections.Kept.ready {c' : Sections Mask} {n : ℕ} (h : c.Kept hwi c' n)
    (hc : c.Ready hwi) : c'.Ready hwi := by
  obtain ⟨hcounter, hbound, hprevious, hdisabled⟩ := hc
  constructor
  · rwa [h.counter]
  · rwa [h.counter]
  · rwa [h.previousIrqState]
  · rwa [h.counter, h.mask]

/-- One read. -/
theorem Sections.kept_afterRead (hc : c.Ready hwi) : c.Kept hwi (c.afterRead hwi) 1 := by
  unfold Sections.afterRead
  split_ifs with hzero
  · refine ⟨rfl, rfl, rfl, [hwi.disable c.state.mask], rfl, rfl, ?_⟩
    exact List.forall_mem_singleton.2 (hwi.enabled_disable _)
  · refine ⟨rfl, rfl, rfl, [c.state.mask], rfl, rfl, ?_⟩
    have hcounter := hc.counter
    exact List.forall_mem_singleton.2 (hc.disabled (by omega))

theorem Sections.ready_afterRead (hc : c.Ready hwi) : (c.afterRead hwi).Ready hwi :=
  (kept_afterRead hc).ready hc

theorem Sections.Kept.of_afterRead {c' : Sections Mask} {n : ℕ} (hc : c.Ready hwi)
    (h : (c.afterRead hwi).Kept hwi c' n) : c.Kept hwi c' (n + 1) := by
  rw [Nat.add_comm]
  exact (kept_afterRead hc).trans h

/-! ### The loops -/

/-- A function that returns what another one does, and makes as many reads as `reads` says. -/
def Guards {α : Type*} (hwi : Hwi Mask) (c : Sections Mask) (reads : α → ℕ → Prop)
    (guarded : Option (α × Sections Mask)) (plain : Option α) : Prop :=
  Option.Rel (fun g a => g.1 = a ∧ ∃ n, reads a n ∧ c.Kept hwi g.2 n) guarded plain

theorem rel_bind {α β γ δ : Type*} {R : α → β → Prop} {S : γ → δ → Prop} {x : Option α}
    {y : Option β} {f : α → Option γ} {g : β → Option δ} (h : Option.Rel R x y)
    (hfg : ∀ a b, R a b → Option.Rel S (f a) (g b)) :
    Option.Rel S (x.bind f) (y.bind g) := by
  cases h with
  | none => exact .none
  | some hab => exact hfg _ _ hab

/-- After one more read. -/
theorem Guards.of_afterRead {α : Type*} {reads reads' : α → ℕ → Prop}
    {guarded : Option (α × Sections Mask)} {plain : Option α} (hc : c.Ready hwi)
    (hreads : ∀ a n, reads' a n → reads a (n + 1))
    (h : Guards hwi (c.afterRead hwi) reads' guarded plain) : Guards hwi c reads guarded plain := by
  cases h with
  | none => exact .none
  | some hg =>
    obtain ⟨heq, n, hn, hkept⟩ := hg
    exact .some ⟨heq, n + 1, hreads _ n hn, hkept.of_afterRead hc⟩

theorem guards_drain (hc : c.Ready hwi) (s : Statics) (rxQueue : List UInt8) :
    Guards hwi c (fun exit n => exit.consumed.length = n) (guardedDrain hwi c s rxQueue)
      (receiveDrain s rxQueue) := by
  induction rxQueue generalizing c s with
  | nil => exact .some ⟨rfl, 0, rfl, c.kept_refl⟩
  | cons dataByte rxQueue ih =>
    rw [guardedDrain, receiveDrain, Sections.read_eq hc]
    cases loopBody s dataByte with
    | none => exact .none
    | some r =>
      obtain ⟨s', frameComplete⟩ := r
      cases frameComplete with
      | true => exact .some ⟨rfl, 1, rfl, Sections.kept_afterRead hc⟩
      | false =>
        simp only [Option.bind_eq_bind, Option.bind_some, Bool.false_eq_true, if_false]
        refine rel_bind (ih (Sections.ready_afterRead hc) s') ?_
        rintro ⟨exit, c'⟩ _ ⟨rfl, n, hn, hkept⟩
        exact .some ⟨rfl, n + 1, congrArg Nat.succ hn, hkept.of_afterRead hc⟩

theorem guards_loop (hc : c.Ready hwi) (s : Statics) (rxQueue : List UInt8)
    (arrivals : List (List UInt8)) :
    Guards hwi c (fun exit n => exit.consumed.length = n)
      (guardedLoop hwi c s rxQueue arrivals) (receiveLoop s rxQueue arrivals) := by
  induction arrivals generalizing c s rxQueue with
  | nil => exact guards_drain hc s rxQueue
  | cons chunk arrivals ih =>
    rw [guardedLoop, receiveLoop]
    cases rxQueue ++ chunk with
    | nil => exact .some ⟨rfl, 0, rfl, c.kept_refl⟩
    | cons dataByte rxQueue =>
      simp only [Sections.read_eq hc, Option.bind_eq_bind, Option.bind_some]
      cases loopBody s dataByte with
      | none => exact .none
      | some r =>
        obtain ⟨s', frameComplete⟩ := r
        cases frameComplete with
        | true => exact .some ⟨rfl, 1, rfl, Sections.kept_afterRead hc⟩
        | false =>
          -- more bytes may have arrived before the queue is looked at again
          simp only [Option.bind_some, Bool.false_eq_true, if_false]
          refine rel_bind (ih (Sections.ready_afterRead hc) s' rxQueue) ?_
          rintro ⟨exit, c'⟩ _ ⟨rfl, n, hn, hkept⟩
          exact .some ⟨rfl, n + 1, congrArg Nat.succ hn, hkept.of_afterRead hc⟩

/-- `EMBENET_BRT_Receive`: a section for every byte consumed. -/
theorem guards_receive (hc : c.Ready hwi) (port : Port) (call : Call) :
    Guards hwi c (fun r n => r.2.consumed.length = n) (guardedReceive hwi c port call)
      (receive port call) := by
  refine rel_bind (guards_loop hc port.statics port.rxQueue call.arrivals) ?_
  rintro ⟨exit, c'⟩ _ ⟨rfl, n, hn, hkept⟩
  simp only [Option.bind_eq_bind]
  cases finishFrame exit.statics exit.frameComplete call.packetBuffer call.packetBufferSize with
  | none => exact .none
  | some r => exact .some ⟨rfl, n, hn, hkept⟩

section Raw

variable {room dataBufferSize : ℕ}

theorem guards_rawDrain (hc : c.Ready hwi) (data : Vector UInt8 room) (dataBytes : ℕ)
    (rxQueue : List UInt8) :
    Guards hwi c (fun exit n => exit.dataBytes = dataBytes + n)
      (guardedRawDrain hwi dataBufferSize c data dataBytes rxQueue)
      (receiveRawDrain dataBufferSize data dataBytes rxQueue) := by
  induction rxQueue generalizing c data dataBytes with
  | nil => exact .some ⟨rfl, 0, rfl, c.kept_refl⟩
  | cons byte rxQueue ih =>
    rw [guardedRawDrain, receiveRawDrain, Sections.read_eq hc]
    cases store data dataBytes byte with
    | none => exact .none
    | some data' =>
      simp only [Option.bind_eq_bind, Option.bind_some]
      by_cases hfull : dataBytes + 1 ≥ dataBufferSize
      · rw [if_pos hfull, if_pos hfull]
        exact .some ⟨rfl, 1, rfl, Sections.kept_afterRead hc⟩
      · rw [if_neg hfull, if_neg hfull]
        refine (ih (Sections.ready_afterRead hc) data' (dataBytes + 1)).of_afterRead hc ?_
        intro exit n hn
        omega

theorem guards_rawLoop (hc : c.Ready hwi) (data : Vector UInt8 room) (dataBytes : ℕ)
    (rxQueue : List UInt8) (arrivals : List (List UInt8)) :
    Guards hwi c (fun exit n => exit.dataBytes = dataBytes + n)
      (guardedRawLoop hwi dataBufferSize c data dataBytes rxQueue arrivals)
      (receiveRawLoop dataBufferSize data dataBytes rxQueue arrivals) := by
  induction arrivals generalizing c data dataBytes rxQueue with
  | nil => exact guards_rawDrain hc data dataBytes rxQueue
  | cons chunk arrivals ih =>
    rw [guardedRawLoop, receiveRawLoop]
    cases rxQueue ++ chunk with
    | nil => exact .some ⟨rfl, 0, rfl, c.kept_refl⟩
    | cons byte rxQueue =>
      simp only [Sections.read_eq hc, Option.bind_eq_bind, Option.bind_some]
      cases store data dataBytes byte with
      | none => exact .none
      | some data' =>
        simp only [Option.bind_some]
        by_cases hfull : dataBytes + 1 ≥ dataBufferSize
        · rw [if_pos hfull, if_pos hfull]
          exact .some ⟨rfl, 1, rfl, Sections.kept_afterRead hc⟩
        · rw [if_neg hfull, if_neg hfull]
          refine (ih (Sections.ready_afterRead hc) data' (dataBytes + 1) rxQueue).of_afterRead hc ?_
          intro exit n hn
          omega

/-- `EMBENET_BRT_ReceiveRaw`: a section for every byte counted. -/
theorem guards_receiveRaw (hc : c.Ready hwi) (rxQueue : List UInt8) (call : RawCall) :
    Guards hwi c (fun r n => r.2.size = n) (guardedReceiveRaw hwi c rxQueue call)
      (receiveRaw rxQueue call) := by
  refine rel_bind (guards_rawLoop hc call.data 0 rxQueue call.arrivals) ?_
  rintro ⟨exit, c'⟩ _ ⟨rfl, n, hn, hkept⟩
  exact .some ⟨rfl, n, hn.trans (Nat.zero_add n), hkept⟩

end Raw

end Functions

/-! ### Runs -/

/-- Calls in any order, with the critical sections of their reads. -/
structure GuardedSession (Mask : Type) where
  session : Session
  sections : Sections Mask

/-- The bytes read in the calls so far. -/
def Session.bytesRead (s : Session) : ℕ :=
  (s.rets.flatMap Return.consumed).length + s.rawRets.foldl (fun n ret => n + ret.size) 0

variable {Mask : Type} {hwi : Hwi Mask} {c : Sections Mask}

/-- One event: `Session.step`, with the functions as they are. -/
def GuardedSession.step (hwi : Hwi Mask) (g : GuardedSession Mask) :
    SessionEvent → Option (GuardedSession Mask)
  | .receive call => do
      let ((port, ret), sections) ← guardedReceive hwi g.sections g.session.port call
      return ⟨{ g.session with
        port
        arrived := g.session.arrived ++ call.arrivals.flatten
        taken := g.session.taken ++ [(.receive, ret.consumed)]
        rets := g.session.rets ++ [ret] }, sections⟩
  | .receiveRaw call => do
      let ((rxQueue, ret), sections) ←
        guardedReceiveRaw hwi g.sections g.session.port.rxQueue call
      return ⟨{ g.session with
        port := { g.session.port with rxQueue }
        arrived := g.session.arrived ++ call.arrivals.flatten
        taken := g.session.taken ++ [(.receiveRaw, ret.bytes)]
        rawRets := g.session.rawRets ++ [ret] }, sections⟩
  | .arrive bytes => do
      let session ← g.session.step (.arrive bytes)
      return ⟨session, g.sections⟩
  | .reopen => do
      let session ← g.session.step .reopen
      return ⟨session, g.sections⟩

/-- The same as without the sections, with a section kept for every byte read. -/
def GuardedSession.Follows (hwi : Hwi Mask) (g g' : GuardedSession Mask) (s' : Session) : Prop :=
  g'.session = s' ∧ ∃ n, s'.bytesRead = g.session.bytesRead + n ∧ g.sections.Kept hwi g'.sections n

/-- **The step lemma**: an event does the same with the sections and without them. -/
theorem follows_step (hc : c.Ready hwi) (s : Session) (e : SessionEvent) :
    Option.Rel (GuardedSession.Follows hwi ⟨s, c⟩) (GuardedSession.step hwi ⟨s, c⟩ e) (s.step e) := by
  cases e with
  | arrive bytes => exact .some ⟨rfl, 0, rfl, c.kept_refl⟩
  | reopen => exact .some ⟨rfl, 0, rfl, c.kept_refl⟩
  | receive call =>
    refine rel_bind (guards_receive hc s.port call) ?_
    rintro ⟨⟨port, ret⟩, c'⟩ _ ⟨rfl, n, hn, hkept⟩
    refine .some ⟨rfl, n, ?_, hkept⟩
    have hn : ret.consumed.length = n := hn
    simp only [Session.bytesRead, List.flatMap_append, List.flatMap_singleton, List.length_append]
    omega
  | receiveRaw call =>
    refine rel_bind (guards_receiveRaw hc s.port.rxQueue call) ?_
    rintro ⟨⟨rxQueue, ret⟩, c'⟩ _ ⟨rfl, n, hn, hkept⟩
    refine .some ⟨rfl, n, ?_, hkept⟩
    have hn : ret.size = n := hn
    simp only [Session.bytesRead, List.foldl_append, List.foldl_cons, List.foldl_nil]
    omega

/-- **The run lemma.** -/
theorem follows_run (hc : c.Ready hwi) (s : Session) (es : List SessionEvent) :
    Option.Rel (GuardedSession.Follows hwi ⟨s, c⟩)
      (es.foldlM (GuardedSession.step hwi) ⟨s, c⟩) (es.foldlM Session.step s) := by
  induction es generalizing c s with
  | nil => exact .some ⟨rfl, 0, rfl, c.kept_refl⟩
  | cons e es ih =>
    rw [List.foldlM_cons, List.foldlM_cons]
    refine rel_bind (follows_step hc s e) ?_
    rintro ⟨s', c'⟩ _ ⟨rfl, n, hn, hkept⟩
    have hrest := ih (hkept.ready hc) s'
    revert hrest
    generalize es.foldlM (GuardedSession.step hwi) ⟨s', c'⟩ = guarded
    generalize es.foldlM Session.step s' = plain
    rintro (⟨rfl, m, hm, hkept'⟩ | _)
    · exact .some ⟨rfl, n + m, by rw [hm, hn, Nat.add_assoc], hkept.trans hkept'⟩
    · exact .none

/-- **The reads are guarded.** For any run of calls of both receivers, from within any number of
sections of the caller: they do with their critical sections what they do without them, every byte
is read with the interrupts disabled, one byte in each section, and in the end the caller's sections
and the interrupt mask are as they were. -/
theorem reads_guarded (hc : c.Ready hwi) (s : Session) (es : List SessionEvent) :
    (es.foldlM (GuardedSession.step hwi) ⟨s, c⟩).map GuardedSession.session =
        es.foldlM Session.step s ∧
      ∀ g, es.foldlM (GuardedSession.step hwi) ⟨s, c⟩ = some g →
        g.sections.state.irqNestCounter = c.state.irqNestCounter ∧
          g.sections.state.mask = c.state.mask ∧
          ∃ masks, g.sections.reads = c.reads ++ masks ∧
            g.session.bytesRead = s.bytesRead + masks.length ∧
            ∀ mask ∈ masks, hwi.enabled mask = false := by
  have hrun := follows_run hc s es
  revert hrun
  generalize es.foldlM (GuardedSession.step hwi) ⟨s, c⟩ = guarded
  generalize es.foldlM Session.step s = plain
  rintro (⟨rfl, n, hn, hkept⟩ | _)
  · refine ⟨rfl, fun g hg => ?_⟩
    cases hg
    obtain ⟨masks, hmasks, hlength, hdisabled⟩ := hkept.reads
    exact ⟨hkept.counter, hkept.mask, masks, hmasks, by rw [hlength, hn], hdisabled⟩
  · exact ⟨rfl, nofun⟩

/-- Called outside of all sections, with the interrupts enabled. -/
def atRest : Sections Bool := { state := ⟨0, 0, false, true⟩ }

theorem reads_guarded_interrupted :
    (interrupted.foldlM (GuardedSession.step CriticalSection.oneBit) ⟨{}, atRest⟩).map
        GuardedSession.session = interrupted.foldlM Session.step {} ∧
      ∀ g, interrupted.foldlM (GuardedSession.step CriticalSection.oneBit) ⟨{}, atRest⟩ = some g →
        g.sections.state.irqNestCounter = atRest.state.irqNestCounter ∧
          g.sections.state.mask = atRest.state.mask ∧
          ∃ masks, g.sections.reads = atRest.reads ++ masks ∧
            g.session.bytesRead = Session.bytesRead {} + masks.length ∧
            ∀ mask ∈ masks, CriticalSection.oneBit.enabled mask = false :=
  reads_guarded ⟨by decide, by decide, rfl, by decide⟩ {} interrupted

end EmbenetNode.Brt
