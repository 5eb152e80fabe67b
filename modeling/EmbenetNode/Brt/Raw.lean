import EmbenetNode.Brt.Model

/-!
# Raw bytes over the border router interface

`EMBENET_BRT_SendRaw` writes bytes as they are, `EMBENET_BRT_ReceiveRaw` reads as many as there are
and fit. The loop of the latter reads a byte before it looks at the room left.

* `receiveRawLoop_stores`: the loop, from a position with room left;
* `meetsContract_iff`: a call keeps to the caller's buffer exactly when the buffer is not empty, or
  there is nothing to read;
* `raw_iff`: the same for runs, and the stream that such a run hands over.
-/

namespace EmbenetNode.Brt

open Checked

section SendRaw

variable {σ : Type*} (uart2Write : σ → UInt8 → σ)

/-- `EMBENET_BRT_SendRaw` -/
def sendRaw (uart : σ) (data : List UInt8) : σ := data.foldl (writeByte uart2Write) uart

end SendRaw

/-- The bytes that a sequence of calls of `EMBENET_BRT_SendRaw` writes. -/
def sentRaw (datas : List (List UInt8)) : List UInt8 :=
  datas.foldl (sendRaw fun wire byte => wire ++ [byte]) []

/-- A call of `EMBENET_BRT_ReceiveRaw`: a buffer of the size passed, at the start of a region of
`room` bytes, and what the UART receives while the call runs. -/
structure RawCall where
  room : ℕ
  data : Vector UInt8 room
  dataBufferSize : ℕ
  fits : dataBufferSize ≤ room
  arrivals : List (List UInt8)

/-- What the loop leaves: the region, the position reached in it, and the receive queue. -/
structure RawExit (room : ℕ) where
  data : Vector UInt8 room
  dataBytes : ℕ
  rxQueue : List UInt8

section Loop

variable {room : ℕ} (dataBufferSize : ℕ)

/-- The loop of `EMBENET_BRT_ReceiveRaw` when nothing more arrives while it runs. -/
def receiveRawDrain (data : Vector UInt8 room) (dataBytes : ℕ) :
    List UInt8 → Option (RawExit room)
  | [] => some ⟨data, dataBytes, []⟩
  | byte :: rxQueue => do
      let data ← store data dataBytes byte
      if dataBytes + 1 ≥ dataBufferSize then return ⟨data, dataBytes + 1, rxQueue⟩
      receiveRawDrain data (dataBytes + 1) rxQueue

/-- The loop. `arrivals` lists what the UART receives before each test of the loop condition; what
it lists beyond the last test arrives after the loop. -/
def receiveRawLoop (data : Vector UInt8 room) (dataBytes : ℕ) (rxQueue : List UInt8) :
    List (List UInt8) → Option (RawExit room)
  | [] => receiveRawDrain dataBufferSize data dataBytes rxQueue
  | chunk :: arrivals =>
      match rxQueue ++ chunk with
      | [] => some ⟨data, dataBytes, arrivals.flatten⟩
      | byte :: rxQueue => do
          let data ← store data dataBytes byte
          if dataBytes + 1 ≥ dataBufferSize then
            return ⟨data, dataBytes + 1, rxQueue ++ arrivals.flatten⟩
          receiveRawLoop data (dataBytes + 1) rxQueue arrivals

end Loop

/-- What a call returns, and what it leaves in the region. -/
structure RawReturn where
  size : ℕ
  data : List UInt8
  deriving DecidableEq

/-- The bytes handed to the caller. -/
def RawReturn.bytes (ret : RawReturn) : List UInt8 := ret.data.take ret.size

/-- `EMBENET_BRT_ReceiveRaw`: the receive queue after it, and what it returns. -/
def receiveRaw (rxQueue : List UInt8) (call : RawCall) : Option (List UInt8 × RawReturn) := do
  let exit ← receiveRawLoop call.dataBufferSize call.data 0 rxQueue call.arrivals
  return (exit.rxQueue, ⟨exit.dataBytes, exit.data.toList⟩)

/-- A run: one call after another. -/
def receiveRawAll (rxQueue : List UInt8) : List RawCall → Option (List UInt8 × List RawReturn)
  | [] => some (rxQueue, [])
  | call :: calls => do
      let (rxQueue, ret) ← receiveRaw rxQueue call
      let (rxQueue, rets) ← receiveRawAll rxQueue calls
      return (rxQueue, ret :: rets)

/-- All bytes that the UART receives in a run. -/
def arrivedRaw (calls : List RawCall) : List UInt8 := calls.flatMap (·.arrivals.flatten)

/-! ### The loop -/

/-- From position `dataBytes` the loop has stored a beginning of the stream, left the rest of the
region and of the stream alone, and not gone past the buffer; it has stopped at the end of the
buffer, or with nothing left but what came later. -/
structure Stores {room : ℕ} (dataBufferSize : ℕ) (data : Vector UInt8 room) (dataBytes : ℕ)
    (stream later : List UInt8) (exit : RawExit room) (taken : List UInt8) : Prop where
  split : stream = taken ++ exit.rxQueue
  position : exit.dataBytes = dataBytes + taken.length
  bound : exit.dataBytes ≤ dataBufferSize
  region : exit.data.toList =
    data.toList.take dataBytes ++ taken ++ data.toList.drop exit.dataBytes
  stop : exit.dataBytes = dataBufferSize ∨ exit.rxQueue <:+ later

section Loop

variable {room dataBufferSize : ℕ} {data : Vector UInt8 room} {dataBytes : ℕ}

/-- A region after a store. -/
theorem toList_set (hroom : dataBytes < room) (byte : UInt8) :
    (data.set dataBytes byte hroom).toList =
      data.toList.take dataBytes ++ byte :: data.toList.drop (dataBytes + 1) := by
  rw [Vector.toList_set, List.set_eq_take_append_cons_drop, if_pos (by simpa using hroom)]

theorem stores_idle (hle : dataBytes ≤ dataBufferSize) {rxQueue later : List UInt8}
    (hlater : rxQueue <:+ later) :
    Stores dataBufferSize data dataBytes rxQueue later ⟨data, dataBytes, rxQueue⟩ [] where
  split := rfl
  position := rfl
  bound := hle
  region := by simp
  stop := Or.inr hlater

theorem stores_last (hroom : dataBytes < room) (hlast : dataBytes + 1 = dataBufferSize)
    (byte : UInt8) (rxQueue later : List UInt8) :
    Stores dataBufferSize data dataBytes (byte :: rxQueue) later
      ⟨data.set dataBytes byte hroom, dataBytes + 1, rxQueue⟩ [byte] where
  split := rfl
  position := rfl
  bound := Nat.le_of_eq hlast
  region := by simp [toList_set hroom]
  stop := Or.inl hlast

theorem stores_cons (hroom : dataBytes < room) {byte : UInt8} {stream later taken : List UInt8}
    {exit : RawExit room}
    (h : Stores dataBufferSize (data.set dataBytes byte hroom) (dataBytes + 1) stream later exit
      taken) :
    Stores dataBufferSize data dataBytes (byte :: stream) later exit (byte :: taken) where
  split := congrArg (byte :: ·) h.split
  position := by rw [h.position, List.length_cons]; omega
  bound := h.bound
  region := by
    have hlen : (data.toList.take dataBytes).length = dataBytes := by simp; omega
    have htake : (data.set dataBytes byte hroom).toList.take (dataBytes + 1) =
        data.toList.take dataBytes ++ [byte] := take_store data hroom byte
    have hdrop : (data.set dataBytes byte hroom).toList.drop exit.dataBytes =
        data.toList.drop exit.dataBytes := by
      rw [Vector.toList_set, List.drop_set_of_lt (by rw [h.position]; omega)]
    rw [h.region, htake, hdrop, List.append_assoc, List.append_assoc, List.append_assoc]
    rfl
  stop := h.stop

theorem receiveRawDrain_stores (hlt : dataBytes < dataBufferSize) (hfits : dataBufferSize ≤ room)
    (rxQueue : List UInt8) :
    ∃ exit taken, receiveRawDrain dataBufferSize data dataBytes rxQueue = some exit ∧
      Stores dataBufferSize data dataBytes rxQueue [] exit taken := by
  induction rxQueue generalizing data dataBytes with
  | nil => exact ⟨_, [], rfl, stores_idle (Nat.le_of_lt hlt) (List.suffix_refl _)⟩
  | cons byte rxQueue ih =>
    have hroom : dataBytes < room := by omega
    have hstore : store data dataBytes byte = some (data.set dataBytes byte hroom) := dif_pos hroom
    by_cases hlast : dataBytes + 1 ≥ dataBufferSize
    · exact ⟨_, [byte], by simp [receiveRawDrain, hstore, hlast],
        stores_last hroom (by omega) byte rxQueue []⟩
    · obtain ⟨exit, taken, hexit, hstores⟩ :=
        @ih (data.set dataBytes byte hroom) (dataBytes + 1) (Nat.lt_of_not_ge hlast)
      exact ⟨exit, byte :: taken, by simp [receiveRawDrain, hstore, hlast, hexit],
        stores_cons hroom hstores⟩

/-- **The loop**, from a position with room left, whatever arrives while it runs. -/
theorem receiveRawLoop_stores (hlt : dataBytes < dataBufferSize) (hfits : dataBufferSize ≤ room)
    (rxQueue : List UInt8) (arrivals : List (List UInt8)) :
    ∃ exit taken, receiveRawLoop dataBufferSize data dataBytes rxQueue arrivals = some exit ∧
      Stores dataBufferSize data dataBytes (rxQueue ++ arrivals.flatten) arrivals.flatten exit
        taken := by
  induction arrivals generalizing data dataBytes rxQueue with
  | nil => simpa [receiveRawLoop] using receiveRawDrain_stores hlt hfits rxQueue
  | cons chunk arrivals ih =>
    rw [List.flatten_cons, ← List.append_assoc]
    cases hqueue : rxQueue ++ chunk with
    | nil =>
      exact ⟨_, [], by rw [receiveRawLoop, hqueue]; rfl,
        stores_idle (Nat.le_of_lt hlt) (List.suffix_append _ _)⟩
    | cons byte rest =>
      have hroom : dataBytes < room := by omega
      have hstore : store data dataBytes byte = some (data.set dataBytes byte hroom) :=
        dif_pos hroom
      by_cases hlast : dataBytes + 1 ≥ dataBufferSize
      · exact ⟨_, [byte], by simp [receiveRawLoop, hqueue, hstore, hlast],
          stores_last hroom (by omega) byte _ _⟩
      · obtain ⟨exit, taken, hexit, hstores⟩ :=
          @ih (data.set dataBytes byte hroom) (dataBytes + 1) (Nat.lt_of_not_ge hlast) rest
        refine ⟨exit, byte :: taken, by simp [receiveRawLoop, hqueue, hstore, hlast, hexit],
          stores_cons hroom { hstores with stop := hstores.stop.imp_right fun h => ?_ }⟩
        exact h.trans (List.suffix_append _ _)

end Loop

/-! ### One call -/

/-- What a call promises: the first bytes of the stream are handed over, as many as fit when none
arrives meanwhile, the others stay queued, and nothing else is written. -/
structure Contract (rxQueue : List UInt8) (call : RawCall) (rxQueue' : List UInt8)
    (ret : RawReturn) : Prop where
  bound : ret.size ≤ call.dataBufferSize
  length : ret.bytes.length = ret.size
  split : rxQueue ++ call.arrivals.flatten = ret.bytes ++ rxQueue'
  untouched : ret.data.drop ret.size = call.data.toList.drop ret.size
  whole : call.arrivals.flatten = [] → ret.size = min call.dataBufferSize rxQueue.length

/-- The call returns and keeps its promise. -/
def MeetsContract (rxQueue : List UInt8) (call : RawCall) : Prop :=
  ∃ rxQueue' ret, receiveRaw rxQueue call = some (rxQueue', ret) ∧
    Contract rxQueue call rxQueue' ret

/-- The buffer is not empty, or no byte is there when the loop looks for the first one. -/
def HasRoom (rxQueue : List UInt8) (call : RawCall) : Prop :=
  0 < call.dataBufferSize ∨ rxQueue ++ call.arrivals.headD [] = []

theorem contract_of_stores {rxQueue taken : List UInt8} {call : RawCall}
    {exit : RawExit call.room}
    (h : Stores call.dataBufferSize call.data 0 (rxQueue ++ call.arrivals.flatten)
      call.arrivals.flatten exit taken) :
    Contract rxQueue call exit.rxQueue ⟨exit.dataBytes, exit.data.toList⟩ := by
  have hsize : exit.dataBytes = taken.length := by rw [h.position, Nat.zero_add]
  have hregion : exit.data.toList = taken ++ call.data.toList.drop taken.length := by
    rw [h.region, hsize, List.take_zero, List.nil_append]
  have hbytes : RawReturn.bytes ⟨exit.dataBytes, exit.data.toList⟩ = taken := by
    rw [RawReturn.bytes, hregion, hsize, List.take_left]
  refine ⟨h.bound, by rw [hbytes, hsize], by rw [hbytes, h.split], ?_, fun hnone => ?_⟩
  · rw [hregion, hsize, List.drop_left]
  · have hsplit := congrArg List.length h.split
    rw [hnone, List.append_nil, List.length_append, ← hsize] at hsplit
    have hbound := h.bound
    show exit.dataBytes = min call.dataBufferSize rxQueue.length
    rcases h.stop with hfull | hlater
    · omega
    · rw [hnone, List.suffix_nil] at hlater
      rw [hlater, List.length_nil] at hsplit
      omega

/-- The loop of a call that has room. -/
theorem receiveRawLoop_of_hasRoom {rxQueue : List UInt8} {call : RawCall}
    (h : HasRoom rxQueue call) :
    ∃ exit taken,
      receiveRawLoop call.dataBufferSize call.data 0 rxQueue call.arrivals = some exit ∧
      Stores call.dataBufferSize call.data 0 (rxQueue ++ call.arrivals.flatten)
        call.arrivals.flatten exit taken := by
  rcases h with hpos | hnone
  · exact receiveRawLoop_stores hpos call.fits rxQueue call.arrivals
  · obtain ⟨rfl, hchunk⟩ := List.append_eq_nil_iff.1 hnone
    cases harrivals : call.arrivals with
    | nil =>
      exact ⟨⟨call.data, 0, []⟩, [], rfl, stores_idle (Nat.zero_le _) (List.suffix_refl _)⟩
    | cons chunk arrivals =>
      rw [harrivals, List.headD_cons] at hchunk
      subst hchunk
      exact ⟨⟨call.data, 0, arrivals.flatten⟩, [], rfl,
        stores_idle (Nat.zero_le _) (List.suffix_refl _)⟩

/-- A call without room returns more than the buffer's size, if it returns. -/
theorem size_pos_of_not_hasRoom {rxQueue rxQueue' : List UInt8} {call : RawCall} {ret : RawReturn}
    (h : ¬ HasRoom rxQueue call) (hret : receiveRaw rxQueue call = some (rxQueue', ret)) :
    call.dataBufferSize < ret.size := by
  rw [HasRoom, not_or] at h
  obtain ⟨hzero, hbyte⟩ := h
  have hsize : call.dataBufferSize = 0 := Nat.eq_zero_of_not_pos hzero
  have hone : ∀ exit, receiveRawLoop call.dataBufferSize call.data 0 rxQueue call.arrivals =
      some exit → exit.dataBytes = 1 := by
    intro exit hexit
    rw [hsize] at hexit
    cases harrivals : call.arrivals with
    | nil =>
      rw [harrivals] at hbyte hexit
      cases rxQueue with
      | nil => exact absurd rfl hbyte
      | cons byte rxQueue =>
        cases hstore : store call.data 0 byte <;>
          simp [receiveRawLoop, receiveRawDrain, hstore] at hexit
        rw [← hexit]
    | cons chunk arrivals =>
      rw [harrivals, List.headD_cons] at hbyte
      rw [harrivals, receiveRawLoop] at hexit
      cases hqueue : rxQueue ++ chunk with
      | nil => exact absurd hqueue hbyte
      | cons byte rest =>
        rw [hqueue] at hexit
        cases hstore : store call.data 0 byte <;> simp [hstore] at hexit
        rw [← hexit]
  obtain ⟨exit, hexit, hpair⟩ := Option.bind_eq_some_iff.1 hret
  have hret' : (⟨exit.dataBytes, exit.data.toList⟩ : RawReturn) = ret :=
    congrArg Prod.snd (Option.some.inj hpair)
  rw [hsize, ← hret', hone exit hexit]
  exact Nat.zero_lt_one

/-- **One call.** -/
theorem meetsContract_iff (rxQueue : List UInt8) (call : RawCall) :
    MeetsContract rxQueue call ↔ HasRoom rxQueue call := by
  constructor
  · rintro ⟨rxQueue', ret, hret, hcontract⟩
    by_contra hroom
    have hmore := size_pos_of_not_hasRoom hroom hret
    have hbound := hcontract.bound
    omega
  · intro hroom
    obtain ⟨exit, taken, hexit, hstores⟩ := receiveRawLoop_of_hasRoom hroom
    exact ⟨exit.rxQueue, ⟨exit.dataBytes, exit.data.toList⟩, by simp [receiveRaw, hexit],
      contract_of_stores hstores⟩

/-! ### A run of calls -/

/-- Every call of the run keeps its promise. -/
def ContractAlong : List UInt8 → List RawCall → Prop
  | _, [] => True
  | rxQueue, call :: calls => MeetsContract rxQueue call ∧
      ∀ rxQueue' ret, receiveRaw rxQueue call = some (rxQueue', ret) → ContractAlong rxQueue' calls

/-- Every call of the run has room. -/
def RoomAlong : List UInt8 → List RawCall → Prop
  | _, [] => True
  | rxQueue, call :: calls => HasRoom rxQueue call ∧
      ∀ rxQueue' ret, receiveRaw rxQueue call = some (rxQueue', ret) → RoomAlong rxQueue' calls

theorem contractAlong_iff (rxQueue : List UInt8) (calls : List RawCall) :
    ContractAlong rxQueue calls ↔ RoomAlong rxQueue calls := by
  induction calls generalizing rxQueue with
  | nil => exact Iff.rfl
  | cons call calls ih => simp only [ContractAlong, RoomAlong, meetsContract_iff, ih]

/-- All bytes handed over in a run. -/
def handedOver (rets : List RawReturn) : List UInt8 := rets.flatMap RawReturn.bytes

/-- In a run with room the bytes handed over and those still queued are the bytes that arrived. -/
theorem handedOver_of_room {rxQueue : List UInt8} {calls : List RawCall}
    (h : RoomAlong rxQueue calls) :
    ∃ rxQueue' rets, receiveRawAll rxQueue calls = some (rxQueue', rets) ∧
      handedOver rets ++ rxQueue' = rxQueue ++ arrivedRaw calls := by
  induction calls generalizing rxQueue with
  | nil => exact ⟨rxQueue, [], rfl, by simp [handedOver, arrivedRaw]⟩
  | cons call calls ih =>
    obtain ⟨rxQueue₁, ret, hret, hcontract⟩ := (meetsContract_iff rxQueue call).2 h.1
    obtain ⟨rxQueue₂, rets, hrets, hstream⟩ := ih (h.2 rxQueue₁ ret hret)
    refine ⟨rxQueue₂, ret :: rets, by simp [receiveRawAll, hret, hrets], ?_⟩
    calc handedOver (ret :: rets) ++ rxQueue₂
        = ret.bytes ++ (handedOver rets ++ rxQueue₂) := by simp [handedOver]
      _ = ret.bytes ++ rxQueue₁ ++ arrivedRaw calls := by rw [hstream, List.append_assoc]
      _ = rxQueue ++ arrivedRaw (call :: calls) := by
        rw [← hcontract.split, List.append_assoc, arrivedRaw, arrivedRaw, List.flatMap_cons]

theorem sentRaw_eq_flatten (datas : List (List UInt8)) : sentRaw datas = datas.flatten := by
  have hone : ∀ (data wire : List UInt8),
      sendRaw (fun wire byte => wire ++ [byte]) wire data = wire ++ data := by
    intro data
    induction data with
    | nil => simp [sendRaw]
    | cons byte data ih =>
      intro wire
      have hrest := ih (wire ++ [byte])
      rw [List.append_assoc, List.singleton_append] at hrest
      exact hrest
  have hall : ∀ wire, datas.foldl (sendRaw fun wire byte => wire ++ [byte]) wire =
      wire ++ datas.flatten := by
    induction datas with
    | nil => simp
    | cons data datas ih =>
      intro wire
      rw [List.foldl_cons, hone, ih, List.flatten_cons, List.append_assoc]
  exact hall []

/-- **Raw streams.** In a run of calls of any sizes, whatever the queue holds at first and whatever
arrives, the calls keep their promises exactly when each has a buffer that is not empty or nothing
to read. Then what they hand over is the stream sent, without loss or duplication. -/
theorem raw_iff (rxQueue : List UInt8) (calls : List RawCall) :
    (ContractAlong rxQueue calls ↔ RoomAlong rxQueue calls) ∧
      (RoomAlong rxQueue calls → ∀ datas, rxQueue ++ arrivedRaw calls <+: sentRaw datas →
        ∃ rxQueue' rets, receiveRawAll rxQueue calls = some (rxQueue', rets) ∧
          handedOver rets ++ rxQueue' = rxQueue ++ arrivedRaw calls ∧
          handedOver rets <+: datas.flatten ∧
          (rxQueue ++ arrivedRaw calls = sentRaw datas → rxQueue' = [] →
            handedOver rets = datas.flatten)) := by
  refine ⟨contractAlong_iff rxQueue calls, fun hroom datas hsent => ?_⟩
  obtain ⟨rxQueue', rets, hrets, hstream⟩ := handedOver_of_room hroom
  refine ⟨rxQueue', rets, hrets, hstream, ?_, fun hall hempty => ?_⟩
  · rw [sentRaw_eq_flatten, ← hstream] at hsent
    exact (List.prefix_append _ _).trans hsent
  · rw [← sentRaw_eq_flatten, ← hall, ← hstream, hempty, List.append_nil]

/-- A call with an empty buffer at the start of a region of one byte. -/
def emptyBufferCall : RawCall where
  room := 1
  data := Vector.replicate 1 0
  dataBufferSize := 0
  fits := Nat.zero_le 1
  arrivals := []

/-- It returns 1, having written a byte where there is no buffer. -/
theorem emptyBuffer_overrun :
    receiveRaw [0x41, 0x42] emptyBufferCall = some ([0x42], ⟨1, [0x41]⟩) ∧
      ¬ ContractAlong [0x41, 0x42] [emptyBufferCall] := by
  refine ⟨by decide, fun h => ?_⟩
  have hroom := (meetsContract_iff _ _).1 h.1
  revert hroom
  unfold HasRoom
  decide

end EmbenetNode.Brt
