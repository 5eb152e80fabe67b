import EmbenetNode.Brt.Refinement

/-!
# What a call reads, and that enough calls read everything

A call reads the bytes at hand up to the end of the first frame that they complete. Called often
enough once everything has arrived, `EMBENET_BRT_Receive` leaves nothing in the queue: each call
either empties it or uses up a frame, and there is at most one frame for every two flags.

* `available`: the bytes that the loop finds if it is not stopped by a frame;
* `consumed_of_receive`: a call reads these, up to the end of the first frame they complete;
* `emptied_or_fewer`: a call empties the queue, or leaves fewer frames in it;
* `ReadOut`, `rxQueue_of_readOut`: how many calls are enough.
-/

namespace EmbenetNode.Brt

open Deframer

/-- The bytes that the loop of `EMBENET_BRT_Receive` finds, until it finds the queue empty. -/
def available (rxQueue : List UInt8) : List (List UInt8) → List UInt8
  | [] => rxQueue
  | chunk :: arrivals =>
      match rxQueue ++ chunk with
      | [] => []
      | dataByte :: rxQueue => dataByte :: available rxQueue arrivals

/-- When nothing arrives while the loop runs, these are the bytes in the queue. -/
theorem available_of_flatten {arrivals : List (List UInt8)} (h : arrivals.flatten = [])
    (rxQueue : List UInt8) : available rxQueue arrivals = rxQueue := by
  induction arrivals generalizing rxQueue with
  | nil => rfl
  | cons chunk arrivals ih =>
    rw [List.flatten_cons, List.append_eq_nil_iff] at h
    rw [available, h.1, List.append_nil]
    cases rxQueue with
    | nil => rfl
    | cons dataByte rxQueue => exact congrArg (dataByte :: ·) (ih h.2 rxQueue)

/-! ### The bytes that a call reads -/

/-- The loop has read a beginning of the bytes, and all of them if no frame has stopped it. -/
structure Consumes (bytes : List UInt8) (exit : LoopExit) : Prop where
  beginning : exit.consumed <+: bytes
  quiet : exit.frameComplete = false → exit.consumed = bytes

theorem consumes_idle (s : Statics) (rxQueue : List UInt8) :
    Consumes [] ⟨s, false, [], rxQueue⟩ := ⟨List.prefix_refl [], fun _ => rfl⟩

theorem consumes_frame (s : Statics) (dataByte : UInt8) (bytes rxQueue : List UInt8) :
    Consumes (dataByte :: bytes) ⟨s, true, [dataByte], rxQueue⟩ :=
  ⟨List.cons_prefix_cons.2 ⟨rfl, List.nil_prefix⟩, Bool.noConfusion⟩

theorem consumes_cons {bytes : List UInt8} {exit : LoopExit} (dataByte : UInt8)
    (h : Consumes bytes exit) :
    Consumes (dataByte :: bytes) { exit with consumed := dataByte :: exit.consumed } where
  beginning := List.cons_prefix_cons.2 ⟨rfl, h.beginning⟩
  quiet hquiet := congrArg (dataByte :: ·) (h.quiet hquiet)

/-- One turn of the loop, whatever the loop that goes on reads of the other bytes. -/
theorem consumes_of_turn {s : Statics} {dataByte : UInt8} {bytes rxQueue : List UInt8}
    {loop : Statics → Option LoopExit} {exit : LoopExit}
    (hloop : ∀ s' exit', loop s' = some exit' → Consumes bytes exit')
    (h : (do
      let (s, frameComplete) ← loopBody s dataByte
      if frameComplete then return ⟨s, true, [dataByte], rxQueue⟩
      let exit ← loop s
      return { exit with consumed := dataByte :: exit.consumed }) = some exit) :
    Consumes (dataByte :: bytes) exit := by
  obtain ⟨⟨s', frameComplete⟩, -, h⟩ := Option.bind_eq_some_iff.1 h
  cases frameComplete with
  | true =>
    cases h
    exact consumes_frame s' dataByte _ _
  | false =>
    obtain ⟨exit', hexit, heq⟩ := Option.bind_eq_some_iff.1 h
    cases heq
    exact consumes_cons dataByte (hloop s' exit' hexit)

theorem consumes_of_receiveDrain {s : Statics} {rxQueue : List UInt8} {exit : LoopExit}
    (h : receiveDrain s rxQueue = some exit) : Consumes rxQueue exit := by
  induction rxQueue generalizing s exit with
  | nil =>
    cases h
    exact consumes_idle s []
  | cons dataByte rxQueue ih =>
    let loop (s' : Statics) := receiveDrain s' rxQueue
    have hloop (s' : Statics) (exit' : LoopExit) (h : loop s' = some exit') :
        Consumes rxQueue exit' := ih h
    exact consumes_of_turn hloop h

/-- **The loop** reads what is available. -/
theorem consumes_of_receiveLoop {s : Statics} {rxQueue : List UInt8}
    {arrivals : List (List UInt8)} {exit : LoopExit}
    (h : receiveLoop s rxQueue arrivals = some exit) :
    Consumes (available rxQueue arrivals) exit := by
  induction arrivals generalizing s rxQueue exit with
  | nil => exact consumes_of_receiveDrain h
  | cons chunk arrivals ih =>
    rw [receiveLoop] at h
    rw [available]
    cases hqueue : rxQueue ++ chunk with
    | nil =>
      rw [hqueue] at h
      cases h
      exact consumes_idle s _
    | cons dataByte rest =>
      rw [hqueue] at h
      let loop (s' : Statics) := receiveLoop s' rest arrivals
      have hloop (s' : Statics) (exit' : LoopExit) (h : loop s' = some exit') :
          Consumes (available rest arrivals) exit' := ih h
      exact consumes_of_turn hloop h

/-- A call reads the bytes at hand up to the end of the first frame that they complete. -/
theorem consumed_of_receive {port port' : Port} {r : Receiver} {call : Call} {ret : Return}
    (hs : Sim port.statics r) (hcall : receive port call = some (port', ret)) :
    ret.consumed <+: available port.rxQueue call.arrivals ∧
      ((feed 2 r ret.consumed).2 = [] → ret.consumed = available port.rxQueue call.arrivals) := by
  obtain ⟨exit, hloop, hdrains⟩ := receiveLoop_sim hs port.rxQueue call.arrivals
  have hconsumes := consumes_of_receiveLoop hloop
  simp only [receive, hloop, Option.bind_eq_bind, Option.bind_some,
    Option.bind_eq_some_iff] at hcall
  obtain ⟨⟨size, buffer⟩, -, heq⟩ := hcall
  cases heq
  refine ⟨hconsumes.beginning, fun hquiet => ?_⟩
  cases hcomplete : exit.frameComplete with
  | false => exact hconsumes.quiet hcomplete
  | true =>
    obtain ⟨content, hcontent, -⟩ := hdrains.complete hcomplete
    rw [feed_of_completes 2 hcontent] at hquiet
    cases hquiet

/-! ### Calls that read out the queue -/

/-- The frames that the bytes in the queue complete. -/
def framesIn (r : Receiver) (rxQueue : List UInt8) : ℕ := (feed 2 r rxQueue).2.length

/-- There is at most one for every two flags, and one for the flag that has opened the stretch under
way. -/
theorem framesIn_le (r : Receiver) (rxQueue : List UInt8) :
    2 * framesIn r rxQueue ≤ rxQueue.count hdlcFlag + 1 := by
  have hcount : 2 * framesIn r rxQueue + _ ≤ r.flags + rxQueue.count hdlcFlag :=
    length_feed_le 2 r rxQueue
  have hflags : r.flags ≤ 1 := by cases r <;> simp [State.flags]
  omega

/-- Nothing arrives while these calls run. -/
def Quiet (polls : List Call) : Prop := ∀ call ∈ polls, call.arrivals.flatten = []

theorem arrived_of_quiet {polls : List Call} (h : Quiet polls) : arrived polls = [] :=
  List.flatMap_eq_nil_iff.2 h

/-- **The step lemma**: a call that finds everything arrived empties the queue, or uses up a frame
of those in it. -/
theorem emptied_or_fewer {port port' : Port} {r : Receiver} {call : Call} {ret : Return}
    (hs : Sim port.statics r) (hquiet : call.arrivals.flatten = [])
    (hcall : receive port call = some (port', ret)) :
    port'.rxQueue = [] ∨
      framesIn (feed 2 r ret.consumed).1 port'.rxQueue < framesIn r port.rxQueue := by
  obtain ⟨port₁, ret₁, hcall₁, hsplit, -, -⟩ := receive_sim hs call
  cases hcall.symm.trans hcall₁
  rw [hquiet, List.append_nil] at hsplit
  obtain ⟨-, hall⟩ := consumed_of_receive hs hcall
  rw [available_of_flatten hquiet] at hall
  by_cases hframe : (feed 2 r ret.consumed).2 = []
  · left
    have hread := hall hframe
    rw [hsplit] at hread
    exact List.self_eq_append_right.1 hread
  · right
    rw [framesIn, framesIn, hsplit, feed_append, List.length_append]
    exact Nat.lt_add_of_pos_left (List.length_pos_iff.2 hframe)

/-- A queue that nothing arrives in stays empty. -/
theorem rxQueue_of_quiet {port port' : Port} {r : Receiver} {polls : List Call}
    {rets : List Return} (hs : Sim port.statics r) (hquiet : Quiet polls)
    (hempty : port.rxQueue = []) (hall : receiveAll port polls = some (port', rets)) :
    port'.rxQueue = [] := by
  obtain ⟨port₁, rets₁, hall₁, hsplit, -, -⟩ := receiveAll_sim port hs polls
  cases hall.symm.trans hall₁
  rw [hempty, arrived_of_quiet hquiet] at hsplit
  exact (List.append_eq_nil_iff.1 hsplit.symm).2

/-- **The run lemma**: more calls than there are frames in the queue empty it. -/
theorem rxQueue_of_frames {port port' : Port} {r : Receiver} {polls : List Call}
    {rets : List Return} (hs : Sim port.statics r) (hquiet : Quiet polls)
    (hframes : framesIn r port.rxQueue < polls.length)
    (hall : receiveAll port polls = some (port', rets)) : port'.rxQueue = [] := by
  induction polls generalizing port r rets with
  | nil => exact absurd hframes (Nat.not_lt_zero _)
  | cons call polls ih =>
    obtain ⟨hcallQuiet, hquiet⟩ := List.forall_mem_cons.1 hquiet
    obtain ⟨port₁, ret, hcall, -, hsim, -⟩ := receive_sim hs call
    simp only [receiveAll, hcall, Option.bind_eq_bind, Option.bind_some,
      Option.bind_eq_some_iff] at hall
    obtain ⟨⟨port₂, rets₂⟩, hall, heq⟩ := hall
    cases heq
    rcases emptied_or_fewer hs hcallQuiet hcall with hempty | hfewer
    · exact rxQueue_of_quiet hsim hquiet hempty hall
    · refine ih hsim hquiet ?_ hall
      rw [List.length_cons] at hframes
      omega

theorem receiveAll_append (port : Port) (early polls : List Call) :
    receiveAll port (early ++ polls) = do
      let (port, rets) ← receiveAll port early
      let (port, rets') ← receiveAll port polls
      return (port, rets ++ rets') := by
  induction early generalizing port with
  | nil =>
    simp only [List.nil_append, receiveAll, Option.bind_eq_bind, Option.bind_some]
    exact (Option.bind_fun_some _).symm
  | cons call early ih => simp [receiveAll, ih, Option.bind_assoc]

/-- **Enough calls** for these bytes: once all of them have arrived, at least one more call is made
than there are frames that they can complete. -/
def ReadOut (bytes : List UInt8) (calls : List Call) : Prop :=
  ∃ early polls, calls = early ++ polls ∧ Quiet polls ∧
    bytes.count hdlcFlag + 1 < 2 * polls.length

/-- **Progress**: enough calls leave nothing in the queue. -/
theorem rxQueue_of_readOut {port port' : Port} {r : Receiver} {calls : List Call}
    {rets : List Return} (hs : Sim port.statics r)
    (henough : ReadOut (port.rxQueue ++ arrived calls) calls)
    (hall : receiveAll port calls = some (port', rets)) : port'.rxQueue = [] := by
  obtain ⟨early, polls, rfl, hquiet, hlength⟩ := henough
  obtain ⟨port₁, rets₁, hearly, hsplit, hsim, -⟩ := receiveAll_sim port hs early
  rw [receiveAll_append, hearly] at hall
  simp only [Option.bind_eq_bind, Option.bind_some, Option.bind_eq_some_iff] at hall
  obtain ⟨⟨port₂, rets₂⟩, hpolls, heq⟩ := hall
  cases heq
  refine rxQueue_of_frames hsim hquiet ?_ hpolls
  -- what is left after the early calls is the end of what has arrived
  have harrived : port.rxQueue ++ arrived (early ++ polls) = consumed rets₁ ++ port₁.rxQueue := by
    rw [arrived, List.flatMap_append, ← arrived, ← arrived, arrived_of_quiet hquiet,
      List.append_nil, hsplit]
  rw [harrived, List.count_append] at hlength
  have hframes := framesIn_le (feed 2 r (consumed rets₁)).1 port₁.rxQueue
  omega

end EmbenetNode.Brt
