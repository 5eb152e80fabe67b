import EmbenetNode.Lib.GuardedRun
import EmbenetNode.Brt.Raw
import EmbenetNode.Brt.Stream

/-!
# Both ways of receiving

`EMBENET_BRT_Receive` and `EMBENET_BRT_ReceiveRaw` read the same UART, and `EMBENET_BRT_Deinit` and
`EMBENET_BRT_Init` close and open it again, while the static variables of the decoder stay.

* `Session`, `Session.step`: calls of all of them, in any order, with what every call has read;
* `Shared`, `shared_step`: every byte has one reader, and the decoder knows the bytes of its own
  calls only;
* `readers_share`: the same for every run;
* `recovers`: whatever the calls have taken out of the middle of frames, at most one packet sent
  afterwards is lost.
-/

namespace EmbenetNode.Brt

open ByteStuffing Deframer GuardedRun

/-- Who took a byte from the UART: a call of `EMBENET_BRT_Receive` or of `EMBENET_BRT_ReceiveRaw`, or
nobody, as the UART was closed with the byte unread. -/
inductive Reader
  | receive
  | receiveRaw
  | nobody
  deriving DecidableEq

/-- The port; the bytes that arrived, those that each reader has taken, and what the calls
returned. -/
structure Session where
  port : Port := .initial
  arrived : List UInt8 := []
  taken : List (Reader × List UInt8) := []
  rets : List Return := []
  rawRets : List RawReturn := []

/-- Bytes arrive between calls; a call of `EMBENET_BRT_Receive`, or of `EMBENET_BRT_ReceiveRaw`;
`EMBENET_BRT_Deinit` and `EMBENET_BRT_Init`. -/
inductive SessionEvent
  | arrive (bytes : List UInt8)
  | receive (call : Call)
  | receiveRaw (call : RawCall)
  | reopen

/-- One event. The UART is opened with an empty queue. -/
def Session.step (s : Session) : SessionEvent → Option Session
  | .arrive bytes =>
      some { s with
        port := { s.port with rxQueue := s.port.rxQueue ++ bytes }
        arrived := s.arrived ++ bytes }
  | .receive call => do
      let (port, ret) ← Brt.receive s.port call
      return { s with
        port
        arrived := s.arrived ++ call.arrivals.flatten
        taken := s.taken ++ [(.receive, ret.consumed)]
        rets := s.rets ++ [ret] }
  | .receiveRaw call => do
      let (rxQueue, ret) ← Brt.receiveRaw s.port.rxQueue call
      return { s with
        port := { s.port with rxQueue }
        arrived := s.arrived ++ call.arrivals.flatten
        taken := s.taken ++ [(.receiveRaw, ret.bytes)]
        rawRets := s.rawRets ++ [ret] }
  | .reopen =>
      some { s with
        port := { s.port with rxQueue := [] }
        taken := s.taken ++ [(.nobody, s.port.rxQueue)] }

/-- The bytes that a reader has taken. -/
def Session.takenBy (s : Session) (reader : Reader) : List UInt8 :=
  (s.taken.filter (·.1 = reader)).flatMap Prod.snd

/-- The callers' buffers: one that holds any packet, one that is not empty. -/
def SessionEvent.HasBuffer : SessionEvent → Prop
  | .receive call => 254 ≤ call.packetBufferSize
  | .receiveRaw call => 0 < call.dataBufferSize
  | .arrive _ | .reopen => True

/-- Every byte that arrived has one reader or is in the queue, in the order of arrival; the raw calls
handed over the bytes that they took, and the others the packets of the frames in the bytes that they
took. -/
structure Shared (s : Session) : Prop where
  sim : Sim s.port.statics (feed 2 .hunting (s.takenBy .receive)).1
  stream : s.arrived = s.taken.flatMap Prod.snd ++ s.port.rxQueue
  raw : handedOver s.rawRets = s.takenBy .receiveRaw
  framed : delivered s.rets =
    (feed 2 (.hunting : Receiver) (s.takenBy .receive)).2.filterMap payload

variable {s s' : Session} {e : SessionEvent}

theorem shared_start : Shared {} := ⟨initial_sim, rfl, rfl, rfl⟩

/-- What one more entry adds to the bytes that a reader has taken. -/
theorem takenBy_of_eq {reader : Reader} {bytes : List UInt8}
    (h : s'.taken = s.taken ++ [(reader, bytes)]) :
    s'.takenBy reader = s.takenBy reader ++ bytes ∧
      ∀ other, other ≠ reader → s'.takenBy other = s.takenBy other := by
  unfold Session.takenBy
  rw [h]
  constructor
  · simp
  · intro other hother
    simp [hother.symm]

theorem flatMap_of_eq {reader : Reader} {bytes : List UInt8}
    (h : s'.taken = s.taken ++ [(reader, bytes)]) :
    s'.taken.flatMap Prod.snd = s.taken.flatMap Prod.snd ++ bytes := by
  rw [h, List.flatMap_append, List.flatMap_singleton]

/-- A call of `EMBENET_BRT_Receive`. -/
theorem shared_receive {call : Call} (hs : Shared s) (hbuffer : 254 ≤ call.packetBufferSize)
    (h : s.step (.receive call) = some s') : Shared s' := by
  obtain ⟨⟨port, ret⟩, hreceive, heq⟩ := Option.bind_eq_some_iff.1 h
  obtain ⟨port', ret', hreceive', hsplit, hsim, hout⟩ := receive_sim hs.sim call
  cases hreceive.symm.trans hreceive'
  have htaken : s'.taken = s.taken ++ [(.receive, ret.consumed)] := by cases heq; rfl
  have hport : s'.port = port := by cases heq; rfl
  have harrived : s'.arrived = s.arrived ++ call.arrivals.flatten := by cases heq; rfl
  have hrets : s'.rets = s.rets ++ [ret] := by cases heq; rfl
  have hrawRets : s'.rawRets = s.rawRets := by cases heq; rfl
  obtain ⟨hmine, hother⟩ := takenBy_of_eq htaken
  constructor
  · rw [hport, hmine, feed_append]
    exact hsim
  · rw [harrived, hs.stream, flatMap_of_eq htaken, hport, List.append_assoc, hsplit,
      List.append_assoc]
  · rw [hrawRets, hother .receiveRaw nofun]
    exact hs.raw
  · rw [hrets, hmine, feed_append, List.filterMap_append, ← hs.framed, ← delivered_one hout hbuffer]
    simp only [delivered, List.filter_append, List.map_append]

/-- A call of `EMBENET_BRT_ReceiveRaw`. -/
theorem shared_receiveRaw {call : RawCall} (hs : Shared s) (hbuffer : 0 < call.dataBufferSize)
    (h : s.step (.receiveRaw call) = some s') : Shared s' := by
  obtain ⟨⟨rxQueue, ret⟩, hreceive, heq⟩ := Option.bind_eq_some_iff.1 h
  obtain ⟨rxQueue', ret', hreceive', hcontract⟩ :=
    (meetsContract_iff s.port.rxQueue call).2 (.inl hbuffer)
  cases hreceive.symm.trans hreceive'
  have htaken : s'.taken = s.taken ++ [(.receiveRaw, ret.bytes)] := by cases heq; rfl
  have hstatics : s'.port.statics = s.port.statics := by cases heq; rfl
  have hqueue : s'.port.rxQueue = rxQueue := by cases heq; rfl
  have harrived : s'.arrived = s.arrived ++ call.arrivals.flatten := by cases heq; rfl
  have hrets : s'.rets = s.rets := by cases heq; rfl
  have hrawRets : s'.rawRets = s.rawRets ++ [ret] := by cases heq; rfl
  obtain ⟨hmine, hother⟩ := takenBy_of_eq htaken
  constructor
  · rw [hstatics, hother .receive nofun]
    exact hs.sim
  · rw [harrived, hs.stream, flatMap_of_eq htaken, hqueue, List.append_assoc, hcontract.split,
      List.append_assoc]
  · rw [hrawRets, hmine, handedOver, List.flatMap_append, List.flatMap_singleton]
    exact congrArg (· ++ ret.bytes) hs.raw
  · rw [hrets, hother .receive nofun]
    exact hs.framed

/-- The UART is closed and opened again. -/
theorem shared_reopen (hs : Shared s) (h : s.step .reopen = some s') : Shared s' := by
  have htaken : s'.taken = s.taken ++ [(.nobody, s.port.rxQueue)] := by cases h; rfl
  have hstatics : s'.port.statics = s.port.statics := by cases h; rfl
  have hqueue : s'.port.rxQueue = [] := by cases h; rfl
  have harrived : s'.arrived = s.arrived := by cases h; rfl
  have hrets : s'.rets = s.rets := by cases h; rfl
  have hrawRets : s'.rawRets = s.rawRets := by cases h; rfl
  obtain ⟨-, hother⟩ := takenBy_of_eq htaken
  constructor
  · rw [hstatics, hother .receive nofun]
    exact hs.sim
  · rw [harrived, hs.stream, flatMap_of_eq htaken, hqueue, List.append_nil]
  · rw [hrawRets, hother .receiveRaw nofun]
    exact hs.raw
  · rw [hrets, hother .receive nofun]
    exact hs.framed

/-- **The step lemma**: every event keeps the invariant. -/
theorem shared_step (hs : Shared s) (he : e.HasBuffer) (h : s.step e = some s') : Shared s' := by
  cases e with
  | arrive bytes =>
    cases h
    refine ⟨hs.sim, ?_, hs.raw, hs.framed⟩
    show s.arrived ++ bytes = s.taken.flatMap Prod.snd ++ (s.port.rxQueue ++ bytes)
    rw [hs.stream, List.append_assoc]
  | receive call => exact shared_receive hs he h
  | receiveRaw call => exact shared_receiveRaw hs he h
  | reopen => exact shared_reopen hs h

theorem shared_run {es : List SessionEvent} (hbuffer : ∀ e ∈ es, e.HasBuffer) (hs : Shared s)
    (h : es.foldlM Session.step s = some s') : Shared s' := by
  induction es generalizing s with
  | nil =>
    cases h
    exact hs
  | cons e es ih =>
    rw [List.forall_mem_cons] at hbuffer
    obtain ⟨s₁, hs₁, h⟩ := foldlM_cons_eq_some.1 h
    exact ih hbuffer.2 (shared_step hs hbuffer.1 hs₁) h

/-- **Every byte has one reader.** In any sequence of arrivals, calls of EMBENET_BRT_Receive and of
EMBENET_BRT_ReceiveRaw, and of closing and opening the UART: the bytes that arrived are, in order,
those taken by the calls, those dropped when the UART was closed, and those in the queue. The raw
calls hand over exactly the bytes that they took, and the others deliver exactly the packets of the
frames in the bytes that they took, joined together. -/
theorem readers_share {es : List SessionEvent} (hbuffer : ∀ e ∈ es, e.HasBuffer) :
    Along Session.step
      (fun _ _ s' => s'.arrived = s'.taken.flatMap Prod.snd ++ s'.port.rxQueue ∧
        handedOver s'.rawRets = s'.takenBy .receiveRaw ∧
        delivered s'.rets =
          (feed 2 (.hunting : Receiver) (s'.takenBy .receive)).2.filterMap payload)
      {} es := by
  have hstep : ∀ s e s', Shared s → e.HasBuffer → Session.step s e = some s' →
      (s'.arrived = s'.taken.flatMap Prod.snd ++ s'.port.rxQueue ∧
        handedOver s'.rawRets = s'.takenBy .receiveRaw ∧
        delivered s'.rets =
          (feed 2 (.hunting : Receiver) (s'.takenBy .receive)).2.filterMap payload) ∧ Shared s' := by
    intro s e s' hs hbuffer h
    have hs' := shared_step hs hbuffer h
    exact ⟨⟨hs'.stream, hs'.raw, hs'.framed⟩, hs'⟩
  exact Along.of_invariant hstep shared_start
    (along_of_forall_mem es _ fun e he _ _ => hbuffer e he)

/-- A call of `EMBENET_BRT_ReceiveRaw` with a buffer of three bytes. -/
def rawCall : RawCall := ⟨3, Vector.replicate 3 0, 3, Nat.le_refl 3, []⟩

/-- A raw call takes the beginning of a frame, and closing the UART the end of another. -/
def interrupted : List SessionEvent :=
  [.arrive (sent [1] ++ sent [2]), .receiveRaw rawCall, .receive (fullCall []),
    .receive (fullCall []), .arrive (hdlcFlag :: [3, 4]), .reopen]

instance decidableSessionBuffer : ∀ e : SessionEvent, Decidable e.HasBuffer
  | .receive _ => inferInstanceAs (Decidable (_ ≤ _))
  | .receiveRaw _ => inferInstanceAs (Decidable (_ < _))
  | .arrive _ | .reopen => isTrue trivial

theorem readers_share_interrupted :
    Along Session.step
      (fun _ _ s' => s'.arrived = s'.taken.flatMap Prod.snd ++ s'.port.rxQueue ∧
        handedOver s'.rawRets = s'.takenBy .receiveRaw ∧
        delivered s'.rets =
          (feed 2 (.hunting : Receiver) (s'.takenBy .receive)).2.filterMap payload)
      {} interrupted :=
  readers_share (by decide +kernel)

/-! ### Back in step -/

/-- Bytes arrive, and `EMBENET_BRT_Receive` alone reads them. -/
def SessionEvent.IsFramed : SessionEvent → Bool
  | .arrive _ | .receive _ => true
  | .receiveRaw _ | .reopen => false

/-- What such a run has taken. -/
theorem takenBy_framed {es : List SessionEvent} (hframed : ∀ e ∈ es, e.IsFramed = true)
    (h : es.foldlM Session.step s = some s') :
    ∃ bytes, s'.takenBy .receive = s.takenBy .receive ++ bytes ∧
      s'.taken.flatMap Prod.snd = s.taken.flatMap Prod.snd ++ bytes := by
  induction es generalizing s with
  | nil =>
    cases h
    exact ⟨[], (List.append_nil _).symm, (List.append_nil _).symm⟩
  | cons e es ih =>
    rw [List.forall_mem_cons] at hframed
    obtain ⟨s₁, hs₁, h⟩ := foldlM_cons_eq_some.1 h
    obtain ⟨bytes, hmine, hall⟩ := ih hframed.2 h
    cases e with
    | arrive arrived =>
      cases hs₁
      exact ⟨bytes, hmine, hall⟩
    | receive call =>
      obtain ⟨⟨port, ret⟩, -, heq⟩ := Option.bind_eq_some_iff.1 hs₁
      have htaken : s₁.taken = s.taken ++ [(.receive, ret.consumed)] := by cases heq; rfl
      refine ⟨ret.consumed ++ bytes, ?_, ?_⟩
      · rw [hmine, (takenBy_of_eq htaken).1, List.append_assoc]
      · rw [hall, flatMap_of_eq htaken, List.append_assoc]
    | receiveRaw | reopen => cases hframed.1

/-- From an empty queue: what arrives in such a run is what it takes, and what is left. -/
theorem arrived_framed {es : List SessionEvent} (hs : Shared s) (hs' : Shared s')
    (hempty : s.port.rxQueue = []) (hframed : ∀ e ∈ es, e.IsFramed = true)
    (h : es.foldlM Session.step s = some s') :
    ∃ bytes, s'.takenBy .receive = s.takenBy .receive ++ bytes ∧
      s'.arrived = s.arrived ++ (bytes ++ s'.port.rxQueue) := by
  obtain ⟨bytes, hmine, hall⟩ := takenBy_framed hframed h
  refine ⟨bytes, hmine, ?_⟩
  rw [hs'.stream, hall, hs.stream, hempty, List.append_nil, List.append_assoc]

/-- Calls of `EMBENET_BRT_Receive` one after another. -/
theorem receiveAll_of_polls {polls : List Call}
    (h : (polls.map SessionEvent.receive).foldlM Session.step s = some s') :
    (∃ rets, receiveAll s.port polls = some (s'.port, rets)) ∧
      s'.arrived = s.arrived ++ Brt.arrived polls := by
  induction polls generalizing s with
  | nil =>
    cases h
    exact ⟨⟨[], rfl⟩, (List.append_nil _).symm⟩
  | cons call polls ih =>
    obtain ⟨s₁, hs₁, h⟩ := foldlM_cons_eq_some.1 h
    obtain ⟨⟨rets, hall⟩, harrived⟩ := ih h
    obtain ⟨⟨port, ret⟩, hreceive, heq⟩ := Option.bind_eq_some_iff.1 hs₁
    have hport : s₁.port = port := by cases heq; rfl
    have hmore : s₁.arrived = s.arrived ++ call.arrivals.flatten := by cases heq; rfl
    rw [hport] at hall
    refine ⟨⟨ret :: rets, by simp [receiveAll, hreceive, hall]⟩, ?_⟩
    rw [harrived, hmore, List.append_assoc]
    rfl

theorem count_sent (packet : List UInt8) : (sent packet).count hdlcFlag = 2 := by
  rw [sent_eq_frame]
  exact hdlc.count_flag_frame _

theorem count_flatMap_sent (packets : List (List UInt8)) :
    (packets.flatMap sent).count hdlcFlag = 2 * packets.length := by
  induction packets with
  | nil => rfl
  | cons packet packets ih =>
    rw [List.flatMap_cons, List.count_append, count_sent, ih, List.length_cons]
    omega

/-- The first frame sent to a receiver in any state yields one packet at most, and the others are
delivered. -/
theorem feed_sent_any (r : Receiver) (packet : List UInt8) (packets : List (List UInt8)) :
    ∃ first, (feed 2 r ((packet :: packets).flatMap sent)).2.filterMap payload =
      first ++ deliverable packets ∧ first.length ≤ 1 := by
  have hframes := framesIn_le r (sent packet)
  have hready := (feed_frame_any 2 r (packet ++ fcs packet)).1
  rw [← sent_eq_frame] at hready
  rw [List.flatMap_cons, feed_append, List.filterMap_append, (feed_sent hready packets).2]
  refine ⟨_, rfl, ?_⟩
  have hpayload := List.length_filterMap_le payload (feed 2 r (sent packet)).2
  rw [framesIn, count_sent] at hframes
  omega

/-- More calls than packets were sent leave nothing in the queue. -/
theorem rxQueue_of_polls {polls : List Call} {bytes : List UInt8}
    {packets : List (List UInt8)} (hs : Shared s)
    (hsent : bytes ++ s.port.rxQueue = packets.flatMap sent) (hquiet : Quiet polls)
    (henough : packets.length < polls.length)
    (h : (polls.map SessionEvent.receive).foldlM Session.step s = some s') :
    s'.port.rxQueue = [] := by
  obtain ⟨⟨rets, hall⟩, -⟩ := receiveAll_of_polls h
  refine rxQueue_of_frames hs.sim hquiet ?_ hall
  have hframes := framesIn_le (feed 2 .hunting (s.takenBy .receive)).1 s.port.rxQueue
  have hcount := congrArg (List.count hdlcFlag) hsent
  rw [List.count_append, count_flatMap_sent] at hcount
  omega

/-- **One packet at most is lost.** After any sequence of such calls that leaves the queue empty, be
it in the middle of a frame, packets are sent to EMBENET_BRT_Receive alone: at every moment it has
delivered a beginning of them, but perhaps for the first, in whose place one other packet may come;
when the queue is empty it has delivered them all; and the queue is empty after more calls than
packets, made when everything has arrived. -/
theorem recovers {es es' : List SessionEvent} {packet : List UInt8} {packets : List (List UInt8)}
    (hbuffer : ∀ e ∈ es ++ es', e.HasBuffer) (hrun : es.foldlM Session.step {} = some s)
    (hempty : s.port.rxQueue = []) (hframed : ∀ e ∈ es', e.IsFramed = true)
    (hrun' : es'.foldlM Session.step s = some s')
    (harrived : s'.arrived = s.arrived ++ (packet :: packets).flatMap sent) :
    ∃ first, first.length ≤ 1 ∧
      delivered s'.rets <+: delivered s.rets ++ first ++ deliverable packets ∧
      (s'.port.rxQueue = [] →
        delivered s'.rets = delivered s.rets ++ first ++ deliverable packets) ∧
      ∀ early polls, es' = early ++ polls.map .receive → Quiet polls →
        (packet :: packets).length < polls.length → s'.port.rxQueue = [] := by
  rw [List.forall_mem_append] at hbuffer
  have hs : Shared s := shared_run hbuffer.1 shared_start hrun
  have hs' : Shared s' := shared_run hbuffer.2 hs hrun'
  obtain ⟨bytes, hmine, hsplit⟩ := arrived_framed hs hs' hempty hframed hrun'
  rw [harrived, List.append_right_inj] at hsplit
  obtain ⟨first, hfirst, hone⟩ :=
    feed_sent_any (feed 2 .hunting (s.takenBy .receive)).1 packet packets
  have hdelivered : delivered s'.rets = delivered s.rets ++
      (feed 2 (feed 2 (.hunting : Receiver) (s.takenBy .receive)).1 bytes).2.filterMap payload := by
    rw [hs'.framed, hmine, feed_append, List.filterMap_append, ← hs.framed]
  refine ⟨first, hone, ?_, ?_, ?_⟩
  · have hread : bytes <+: (packet :: packets).flatMap sent := ⟨_, hsplit.symm⟩
    rw [hdelivered, List.append_assoc, ← hfirst, List.prefix_append_right_inj]
    exact (feed_of_isPrefix 2 _ hread).filterMap payload
  · intro hread
    rw [hread, List.append_nil] at hsplit
    rw [hdelivered, ← hsplit, hfirst, List.append_assoc]
  · rintro early polls rfl hquiet henough
    rw [List.forall_mem_append] at hframed hbuffer
    obtain ⟨s₁, hearly, hpolls⟩ := foldlM_append_eq_some.1 hrun'
    have hs₁ : Shared s₁ := shared_run hbuffer.2.1 hs hearly
    obtain ⟨bytes₁, -, hsplit₁⟩ := arrived_framed hs hs₁ hempty hframed.1 hearly
    -- nothing arrives after the early events
    have hlast := (receiveAll_of_polls hpolls).2
    rw [arrived_of_quiet hquiet, List.append_nil, harrived, hsplit₁, List.append_right_inj] at hlast
    exact rxQueue_of_polls hs₁ hlast.symm hquiet henough hpolls

/-- The UART is opened again, two packets are sent, and three calls are made. -/
def resumed : List SessionEvent :=
  .arrive ([[5], [6]].flatMap sent) :: (List.replicate 3 (fullCall [])).map .receive

/-- The state that the first run ends in. -/
def afterInterrupted : Session := (interrupted.foldlM Session.step {}).get (by decide +kernel)

/-- The state that the second run ends in. -/
def afterResumed : Session := (resumed.foldlM Session.step afterInterrupted).get (by decide +kernel)

theorem run_interrupted : interrupted.foldlM Session.step {} = some afterInterrupted :=
  (Option.some_get _).symm

theorem run_resumed : resumed.foldlM Session.step afterInterrupted = some afterResumed :=
  (Option.some_get _).symm

theorem recovers_interrupted :
    ∃ first, first.length ≤ 1 ∧ afterResumed.port.rxQueue = [] ∧
      delivered afterResumed.rets =
        delivered afterInterrupted.rets ++ first ++ deliverable [[6]] := by
  obtain ⟨first, hone, -, hwhole, hread⟩ :=
    recovers (show ∀ e ∈ interrupted ++ resumed, e.HasBuffer by decide +kernel)
      run_interrupted (by decide +kernel) (by decide +kernel) run_resumed
      (show afterResumed.arrived = afterInterrupted.arrived ++ ([5] :: [[6]]).flatMap sent by
        decide +kernel)
  have hempty := hread [.arrive ([[5], [6]].flatMap sent)] (List.replicate 3 (fullCall [])) rfl
    (by simp [Quiet, fullCall]) (by decide)
  exact ⟨first, hone, hempty, hwhole hempty⟩

end EmbenetNode.Brt
