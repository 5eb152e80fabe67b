import EmbenetNode.Lib.Deframer
import EmbenetNode.Brt.Model

/-!
# The border router interface refines byte stuffing

`hdlc` is the stuffing code of the interface.

* `sent_eq_frame`: the encoder writes the frame of the packet followed by its two CRC bytes;
* `Sim`: the static variables of the decoder hold a state of the abstract receiver;
* `loopBody_sim`, `receive_sim`, `receiveAll_sim`: one byte, one call and a run keep the two in
  step, and no array access or subtraction of the decoder goes wrong.
-/

namespace EmbenetNode.Brt

open ByteStuffing Deframer Checked

/-- The stuffing code of the interface. -/
def hdlc : Code UInt8 where
  flag := hdlcFlag
  esc := hdlcEscape
  mask := (· ^^^ hdlcEscapeMask)
  flag_ne_esc := by decide
  mask_mask a := by rw [UInt8.xor_assoc, UInt8.xor_self, UInt8.xor_zero]
  mask_flag_ne_flag := by decide
  mask_flag_ne_esc := by decide
  mask_esc_ne_flag := by decide
  mask_esc_ne_esc := by decide

@[simp] theorem hdlc_flag : hdlc.flag = hdlcFlag := rfl
@[simp] theorem hdlc_esc : hdlc.esc = hdlcEscape := rfl

/-- The two CRC bytes of a packet, low byte first. -/
def fcs (packet : List UInt8) : List UInt8 :=
  let crc := ~~~(packet.foldl calculateCRC hdlcCrcInit)
  [((crc >>> 0) &&& 0xff).toUInt8, ((crc >>> 8) &&& 0xff).toUInt8]

@[simp] theorem length_fcs (packet : List UInt8) : (fcs packet).length = 2 := rfl

/-! ### The encoder -/

section Send

variable {σ : Type*} (uart2Write : σ → UInt8 → σ)

theorem encodeAndWrite_eq_foldl (uart : σ) (data : UInt8) :
    encodeAndWrite uart2Write uart data = (hdlc.stuffOne data).foldl uart2Write uart := by
  rw [encodeAndWrite, Code.stuffOne, hdlc_flag, hdlc_esc]
  split_ifs <;> rfl

theorem sendLoop_eq (uart : σ) (finalCrc : UInt16) (packet : List UInt8) :
    sendLoop uart2Write uart finalCrc packet =
      ((hdlc.stuff packet).foldl uart2Write uart, packet.foldl calculateCRC finalCrc) := by
  induction packet generalizing uart finalCrc with
  | nil => rfl
  | cons byte packet ih =>
    rw [sendLoop, ih, encodeAndWrite_eq_foldl, Code.stuff_cons, List.foldl_append, List.foldl_cons]

/-- The encoder makes one write for each symbol of the frame, in order. -/
theorem send_eq_foldl (uart : σ) (packet : List UInt8) :
    send uart2Write uart packet =
      (hdlc.frame (packet ++ fcs packet)).foldl uart2Write uart := by
  simp only [send, sendLoop_eq, encodeAndWrite_eq_foldl, writeByte, Code.frame, Code.stuff,
    List.flatMap_append, fcs, List.flatMap_cons, List.flatMap_nil, List.append_nil,
    List.foldl_cons, List.foldl_append, List.foldl_nil]
  rfl

end Send

theorem foldl_concat (wire bytes : List UInt8) :
    bytes.foldl (fun wire byte => wire ++ [byte]) wire = wire ++ bytes := by
  induction bytes generalizing wire with
  | nil => simp
  | cons byte bytes ih => simp [ih]

/-- **The encoder refines stuffing.** -/
theorem sent_eq_frame (packet : List UInt8) : sent packet = hdlc.frame (packet ++ fcs packet) := by
  rw [sent, send_eq_foldl, foldl_concat, List.nil_append]

/-! ### The decoder, one byte at a time -/

/-- The states of the abstract receiver: frames of at most 256 bytes. -/
abbrev Receiver := Deframer.State hdlc maxFrameSize

/-- The frame buffer holds `content`. -/
structure Holds (s : Statics) (content : List UInt8) : Prop where
  index : s.inputFrameDataIndex = content.length
  frame : s.inputFrame.toList.take content.length = content

/-- The static variables hold a state of the abstract receiver. While hunting, the frame buffer,
its index and the last byte are leftovers that are reset before they are read. -/
def Sim (s : Statics) : Receiver → Prop
  | .hunting => s.inputFrameReceiving = false
  | .collecting w =>
      s.inputFrameReceiving = true ∧ Holds s w.content ∧ s.lastDataByte = w.raw.getLastD hdlcFlag

theorem initial_sim : Sim .initial .hunting := rfl

/-- The last byte is a flag right after the flag that opened the stretch, and only there. -/
theorem getLastD_eq_flag (w : Stretch hdlc maxFrameSize) :
    w.raw.getLastD hdlcFlag = hdlcFlag ↔ w.raw = [] := by
  constructor
  · intro h
    rcases List.eq_nil_or_concat' w.raw with hnil | ⟨u, b, hub⟩
    · exact hnil
    · have hb : b = hdlcFlag := by simpa [hub] using h
      exact absurd (by simp [hub, hb]) w.flagFree
  · intro h
    rw [h]
    rfl

/-! The seven things that the loop body can do. -/

section LoopBody

variable {s : Statics} {b : UInt8}

theorem loopBody_open (hrec : s.inputFrameReceiving = false) :
    loopBody s hdlcFlag = some ({ s with
      inputFrameReceiving := true, inputFrameDataIndex := 0, lastDataByte := hdlcFlag }, false) := by
  simp [loopBody, handleByte, hrec]

theorem loopBody_ignore (hrec : s.inputFrameReceiving = false) (hb : b ≠ hdlcFlag) :
    loopBody s b = some ({ s with lastDataByte := b }, false) := by
  simp [loopBody, handleByte, hrec, hb.symm]

theorem loopBody_close (hrec : s.inputFrameReceiving = true) (hlast : s.lastDataByte ≠ hdlcFlag) :
    loopBody s hdlcFlag = some ({ s with inputFrameReceiving := false, lastDataByte := hdlcFlag },
      decide (2 < s.inputFrameDataIndex)) := by
  simp [loopBody, handleByte, hrec, hlast.symm]

theorem loopBody_restart (hrec : s.inputFrameReceiving = true) (hlast : s.lastDataByte = hdlcFlag) :
    loopBody s hdlcFlag = some ({ s with
      inputFrameReceiving := true, inputFrameDataIndex := 0, lastDataByte := hdlcFlag }, false) := by
  simp [loopBody, handleByte, hrec, hlast]

theorem loopBody_escape (hrec : s.inputFrameReceiving = true)
    (hroom : s.inputFrameDataIndex < maxFrameSize) :
    loopBody s hdlcEscape = some ({ s with lastDataByte := hdlcEscape }, false) := by
  have hne : hdlcFlag ≠ hdlcEscape := by decide
  simp [loopBody, handleByte, hrec, hroom, hne]

theorem loopBody_data (hrec : s.inputFrameReceiving = true)
    (hroom : s.inputFrameDataIndex < maxFrameSize) (hb : b ≠ hdlcFlag) (hesc : b ≠ hdlcEscape) :
    loopBody s b = some ({ s with
      inputFrame := s.inputFrame.set s.inputFrameDataIndex
        (if s.lastDataByte = hdlcEscape then b ^^^ hdlcEscapeMask else b) hroom
      inputFrameDataIndex := s.inputFrameDataIndex + 1
      lastDataByte := b }, false) := by
  by_cases hlast : s.lastDataByte = hdlcEscape
  · simp [loopBody, handleByte, Statics.append, store, hrec, hroom, hb.symm, hesc.symm, hlast]
  · simp [loopBody, handleByte, Statics.append, store, hrec, hroom, hb.symm, hesc.symm, hlast,
      Ne.symm hlast]

theorem loopBody_overflow (hrec : s.inputFrameReceiving = true)
    (hroom : ¬ s.inputFrameDataIndex < maxFrameSize) (hb : b ≠ hdlcFlag) :
    loopBody s b = some ({ s with
      inputFrameReceiving := false, inputFrameDataIndex := 0, lastDataByte := b }, false) := by
  simp [loopBody, handleByte, hrec, hroom, hb.symm]

end LoopBody

/-- A byte stored is a byte more of content. -/
theorem holds_store {s : Statics} {content : List UInt8} (hs : Holds s content)
    (hroom : s.inputFrameDataIndex < maxFrameSize) (b last : UInt8) :
    Holds { s with
      inputFrame := s.inputFrame.set s.inputFrameDataIndex b hroom
      inputFrameDataIndex := s.inputFrameDataIndex + 1
      lastDataByte := last } (content ++ [b]) where
  index := by simp [hs.index]
  frame := by
    have htake := take_store s.inputFrame hroom b
    rw [List.length_append, List.length_singleton, ← hs.index, htake, hs.index, hs.frame]

/-- The content of a stretch with one more byte. -/
theorem content_push (w : Stretch hdlc maxFrameSize) {b : UInt8} (hb : b ≠ hdlc.flag)
    (hroom : w.content.length < maxFrameSize) :
    (w.push b hb hroom).content =
      w.content ++ if b = hdlcEscape then []
        else [if w.raw.getLastD hdlcFlag = hdlcEscape then b ^^^ hdlcEscapeMask else b] := by
  rw [Stretch.content, Stretch.content, Stretch.push, Code.unstuff, Code.unstuff,
    Code.unstuffFrom_append, Code.unstuffFrom]
  rfl

theorem getLastD_push (w : Stretch hdlc maxFrameSize) {b : UInt8} (hb : b ≠ hdlc.flag)
    (hroom : w.content.length < maxFrameSize) :
    (w.push b hb hroom).raw.getLastD hdlcFlag = b := List.getLastD_concat

/-- **One byte**: the loop body does what the abstract receiver does, and completes a frame exactly
when it does. -/
theorem loopBody_sim {s : Statics} {r : Receiver} (hs : Sim s r) (b : UInt8) :
    ∃ s', loopBody s b = some (s', (next 2 r b).2.isSome) ∧ Sim s' (next 2 r b).1 ∧
      ∀ content, (next 2 r b).2 = some content → Holds s' content := by
  rcases r with _ | w
  · have hrec : s.inputFrameReceiving = false := hs
    by_cases hb : b = hdlcFlag
    · subst hb
      rw [show next 2 (.hunting : Receiver) hdlcFlag = _ from next_hunting_flag 2]
      exact ⟨_, loopBody_open hrec, ⟨rfl, ⟨rfl, rfl⟩, rfl⟩, by simp⟩
    · rw [next_hunting_of_ne 2 hb]
      exact ⟨_, loopBody_ignore hrec hb, hrec, by simp⟩
  · obtain ⟨hrec, hholds, hlast⟩ := hs
    have hlt : s.inputFrameDataIndex < maxFrameSize ↔ w.content.length < maxFrameSize := by
      rw [hholds.index]
    by_cases hb : b = hdlcFlag
    · subst hb
      by_cases hraw : w.raw = []
      · -- two flags in a row: the frame starts over
        have hflag : s.lastDataByte = hdlcFlag := by rw [hlast, getLastD_eq_flag, hraw]
        rw [show w = .fresh from Stretch.ext hraw,
          show next 2 (.collecting .fresh : Receiver) hdlcFlag = _ from next_fresh_flag 2]
        exact ⟨_, loopBody_restart hrec hflag, ⟨rfl, ⟨rfl, rfl⟩, rfl⟩, by simp⟩
      · -- the closing flag
        have hflag : s.lastDataByte ≠ hdlcFlag := by
          rw [hlast, ne_eq, getLastD_eq_flag]
          exact hraw
        rw [show next 2 (.collecting w : Receiver) hdlcFlag = _ from next_flag_of_ne_nil 2 hraw]
        refine ⟨{ s with inputFrameReceiving := false, lastDataByte := hdlcFlag }, ?_, rfl, ?_⟩
        · rw [loopBody_close hrec hflag, hholds.index, Stretch.close]
          split_ifs <;> simp_all
        · intro content hcontent
          obtain ⟨-, rfl⟩ : _ ∧ w.content = content := by simpa [Stretch.close] using hcontent
          exact ⟨hholds.index, hholds.frame⟩
    · have hb' : b ≠ hdlc.flag := hb
      by_cases hroom : w.content.length < maxFrameSize
      · rw [next_push 2 hb' hroom]
        by_cases hesc : b = hdlcEscape
        · subst hesc
          refine ⟨_, loopBody_escape hrec (hlt.2 hroom), ⟨hrec, ?_, ?_⟩, by simp⟩
          · rw [content_push, if_pos rfl, List.append_nil]
            exact ⟨hholds.index, hholds.frame⟩
          · rw [getLastD_push]
        · refine ⟨_, loopBody_data hrec (hlt.2 hroom) hb hesc, ⟨hrec, ?_, ?_⟩, by simp⟩
          · rw [content_push, if_neg hesc, ← hlast]
            exact holds_store hholds (hlt.2 hroom) _ b
          · rw [getLastD_push]
      · -- the frame buffer is full: the frame is given up
        rw [next_overflow 2 hb' hroom]
        exact ⟨_, loopBody_overflow hrec (mt hlt.1 hroom) hb, rfl, by simp⟩

/-! ### The loop -/

/-- What a loop that started in state `r` with `bytes` to come has done when it ends. -/
structure Drains (r : Receiver) (bytes : List UInt8) (exit : LoopExit) : Prop where
  split : bytes = exit.consumed ++ exit.rxQueue
  sim : Sim exit.statics (feed 2 r exit.consumed).1
  quiet : exit.frameComplete = false → (feed 2 r exit.consumed).2 = []
  complete : exit.frameComplete = true →
    ∃ content, Completes 2 r exit.consumed content ∧ Holds exit.statics content

theorem drains_idle {s : Statics} {r : Receiver} (hs : Sim s r) (rxQueue : List UInt8) :
    Drains r rxQueue ⟨s, false, [], rxQueue⟩ where
  split := rfl
  sim := hs
  quiet _ := rfl
  complete h := absurd h (by simp)

theorem drains_frame {s : Statics} {r : Receiver} {b : UInt8} {content : List UInt8}
    (hs : Sim s (next 2 r b).1) (hb : (next 2 r b).2 = some content) (hholds : Holds s content)
    (rxQueue : List UInt8) : Drains r (b :: rxQueue) ⟨s, true, [b], rxQueue⟩ where
  split := rfl
  sim := hs
  quiet h := absurd h (by simp)
  complete _ := ⟨content, completes_singleton 2 hb, hholds⟩

theorem drains_cons {r : Receiver} {b : UInt8} {bytes : List UInt8} {exit : LoopExit}
    (hb : (next 2 r b).2 = none) (h : Drains (next 2 r b).1 bytes exit) :
    Drains r (b :: bytes) { exit with consumed := b :: exit.consumed } where
  split := congrArg (b :: ·) h.split
  sim := h.sim
  quiet hquiet := by simp [feed_cons, hb, h.quiet hquiet]
  complete hcomplete := by
    obtain ⟨content, hcontent, hholds⟩ := h.complete hcomplete
    exact ⟨content, completes_cons 2 hb hcontent, hholds⟩

theorem receiveDrain_sim {s : Statics} {r : Receiver} (hs : Sim s r) (rxQueue : List UInt8) :
    ∃ exit, receiveDrain s rxQueue = some exit ∧ Drains r rxQueue exit := by
  induction rxQueue generalizing s r with
  | nil => exact ⟨_, rfl, drains_idle hs []⟩
  | cons b rxQueue ih =>
    obtain ⟨s', hbody, hsim, hholds⟩ := loopBody_sim hs b
    cases hb : (next 2 r b).2 with
    | none =>
      obtain ⟨exit, hexit, hdrains⟩ := ih hsim
      exact ⟨_, by simp [receiveDrain, hbody, hb, hexit], drains_cons hb hdrains⟩
    | some content =>
      exact ⟨_, by simp [receiveDrain, hbody, hb], drains_frame hsim hb (hholds content hb) rxQueue⟩

/-- **The loop**, whatever arrives while it runs. -/
theorem receiveLoop_sim {s : Statics} {r : Receiver} (hs : Sim s r) (rxQueue : List UInt8)
    (arrivals : List (List UInt8)) :
    ∃ exit, receiveLoop s rxQueue arrivals = some exit ∧
      Drains r (rxQueue ++ arrivals.flatten) exit := by
  induction arrivals generalizing s r rxQueue with
  | nil => simpa [receiveLoop] using receiveDrain_sim hs rxQueue
  | cons chunk arrivals ih =>
    rw [List.flatten_cons, ← List.append_assoc]
    cases hqueue : rxQueue ++ chunk with
    | nil => exact ⟨_, by rw [receiveLoop, hqueue]; rfl, drains_idle hs _⟩
    | cons b rest =>
      obtain ⟨s', hbody, hsim, hholds⟩ := loopBody_sim hs b
      cases hb : (next 2 r b).2 with
      | none =>
        obtain ⟨exit, hexit, hdrains⟩ := ih hsim rest
        exact ⟨_, by simp [receiveLoop, hqueue, hbody, hb, hexit], drains_cons hb hdrains⟩
      | some content =>
        exact ⟨_, by simp [receiveLoop, hqueue, hbody, hb],
          drains_frame hsim hb (hholds content hb) _⟩

/-! ### The CRC check -/

/-- The packet in a completed frame, when its CRC is right. -/
def payload (content : List UInt8) : Option (List UInt8) :=
  if content.drop (content.length - 2) = fcs (content.take (content.length - 2)) then
    some (content.take (content.length - 2))
  else none

theorem payload_append_fcs (packet : List UInt8) : payload (packet ++ fcs packet) = some packet := by
  simp [payload]

theorem append_fcs_of_payload {content packet : List UInt8} (h : payload content = some packet) :
    content = packet ++ fcs packet := by
  unfold payload at h
  split_ifs at h with hfcs
  obtain rfl := Option.some.inj h
  rw [← hfcs, List.take_append_drop]

/-- What `EMBENET_BRT_Receive` returns for a completed frame, and leaves in the caller's buffer. -/
def verdict (content : List UInt8) (packetBufferSize : ℕ) (packetBuffer : List UInt8) :
    ℕ × List UInt8 :=
  match payload content with
  | none => (0, packetBuffer)
  | some packet =>
      if packet.length ≤ packetBufferSize then
        (packet.length, packet ++ packetBuffer.drop packet.length)
      else (0, packet.take packetBufferSize ++ packetBuffer.drop packetBufferSize)

theorem frameCRC_eq {s : Statics} {length : ℕ} (h : length ≤ maxFrameSize) :
    frameCRC s.inputFrame length =
      some ((s.inputFrame.toList.take length).foldl calculateCRC hdlcCrcInit) := by
  induction length with
  | zero => rfl
  | succ length ih =>
    have hroom : length < maxFrameSize := h
    have hlt : length < s.inputFrame.toList.length := by simpa using hroom
    have hih := ih (Nat.le_of_succ_le h)
    rw [frameCRC] at hih
    rw [frameCRC, List.range_succ, List.foldlM_append, hih, List.take_succ_eq_append_getElem hlt,
      List.foldl_append]
    simp [hroom]

/-- The comparison made on 16-bit values is the comparison of the bytes. -/
theorem masked_eq_iff (crc : UInt16) (b : UInt8) :
    (crc &&& 0xff) = b.toUInt16 ↔ b = (crc &&& 0xff).toUInt8 := by
  have hmask : (crc &&& 0xff).toNat < 256 :=
    Nat.lt_succ_of_le (by rw [UInt16.toNat_and]; exact Nat.and_le_right)
  rw [← UInt16.toNat_inj, ← UInt8.toNat_inj, UInt8.toNat_toUInt16, UInt16.toNat_toUInt8,
    Nat.mod_eq_of_lt hmask, eq_comm]

theorem finishFrame_incomplete {room : ℕ} (s : Statics) (packetBuffer : Vector UInt8 room)
    (packetBufferSize : ℕ) :
    finishFrame s false packetBuffer packetBufferSize = some (0, packetBuffer) := by
  simp [finishFrame]

/-- Shorter parts of the frame buffer hold shorter parts of the content. -/
theorem holds_take {s : Statics} {content : List UInt8} (hs : Holds s content) {n : ℕ}
    (hn : n ≤ content.length) : s.inputFrame.toList.take n = content.take n := by
  conv_rhs => rw [← hs.frame]
  rw [List.take_take, Nat.min_eq_left hn]

theorem length_le_of_holds {s : Statics} {content : List UInt8} (h : Holds s content) :
    content.length ≤ maxFrameSize := by
  have hlen := congrArg List.length h.frame
  rw [List.length_take, Vector.length_toList] at hlen
  omega

theorem holds_getElem {s : Statics} {content : List UInt8} (hs : Holds s content) {i : ℕ}
    (hi : i < content.length) : s.inputFrame[i]? = some content[i] := by
  have h := congrArg (·[i]?) hs.frame
  simpa [List.getElem?_take_of_lt hi, hi] using h

/-- The two comparisons of `EMBENET_BRT_Receive` compare the end of the content with the CRC bytes
of the rest. -/
theorem crc_check_iff {content : List UInt8} (h : 2 ≤ content.length) :
    let crc := ~~~((content.take (content.length - 2)).foldl calculateCRC hdlcCrcInit)
    (((crc >>> 0) &&& 0xff) = (content[content.length - 2]).toUInt16 ∧
        ((crc >>> 8) &&& 0xff) = (content[content.length - 1]).toUInt16) ↔
      content.drop (content.length - 2) = fcs (content.take (content.length - 2)) := by
  have hdrop : content.drop (content.length - 2) =
      [content[content.length - 2], content[content.length - 1]] := by
    rw [List.drop_eq_getElem_cons (by omega), List.drop_eq_getElem_cons (by omega),
      List.drop_of_length_le (by omega)]
    simp only [show content.length - 2 + 1 = content.length - 1 by omega]
  simp only [masked_eq_iff, hdrop, fcs, List.cons.injEq, and_true]

/-- The comparison that `EMBENET_BRT_Receive` makes in the frame buffer. -/
def crcMatches (s : Statics) : Option Bool := do
  let dataLength ← sub s.inputFrameDataIndex 2
  let crc ← frameCRC s.inputFrame dataLength
  let crc := ~~~crc
  let low ← s.inputFrame[← sub s.inputFrameDataIndex 2]?
  let high ← s.inputFrame[← sub s.inputFrameDataIndex 1]?
  return decide (((crc >>> 0) &&& 0xff) = low.toUInt16 ∧ ((crc >>> 8) &&& 0xff) = high.toUInt16)

/-- It is the comparison of the content that the frame buffer holds. -/
theorem crcMatches_eq {s : Statics} {content : List UInt8} (hs : Holds s content)
    (h : 2 ≤ content.length) :
    crcMatches s =
      some (decide (content.drop (content.length - 2) =
        fcs (content.take (content.length - 2)))) := by
  have hmax := length_le_of_holds hs
  have hsub2 : sub s.inputFrameDataIndex 2 = some (content.length - 2) := by
    rw [hs.index, sub_of_le h]
  have hsub1 : sub s.inputFrameDataIndex 1 = some (content.length - 1) := by
    rw [hs.index, sub_of_le (by omega)]
  have hcrc : frameCRC s.inputFrame (content.length - 2) =
      some ((content.take (content.length - 2)).foldl calculateCRC hdlcCrcInit) := by
    rw [frameCRC_eq (by omega), holds_take hs (by omega)]
  have hlow := holds_getElem hs (i := content.length - 2) (by omega)
  have hhigh := holds_getElem hs (i := content.length - 1) (by omega)
  simp only [crcMatches, hsub2, hsub1, hcrc, hlow, hhigh, Option.bind_eq_bind, Option.bind_some,
    crc_check_iff h]
  rfl

/-- After a completed frame `EMBENET_BRT_Receive` branches on this comparison. -/
theorem finishFrame_eq_crcMatches {room : ℕ} {s : Statics} (hs : s.inputFrameDataIndex > 0)
    (packetBuffer : Vector UInt8 room) (packetBufferSize : ℕ) :
    finishFrame s true packetBuffer packetBufferSize = do
      if ← crcMatches s then
        let returnSize ← sub s.inputFrameDataIndex 2
        if packetBufferSize ≥ returnSize then
          return (returnSize, ← memcpy packetBuffer s.inputFrame.toList returnSize)
        else return (0, ← memcpy packetBuffer s.inputFrame.toList packetBufferSize)
      else return (0, packetBuffer) := by
  simp [finishFrame, crcMatches, hs, Option.bind_assoc]

/-- After a completed frame, `EMBENET_BRT_Receive` branches on the CRC bytes and on the size of the
caller's buffer; its reads and subtractions are all in range. -/
theorem finishFrame_eq {room : ℕ} {s : Statics} {content : List UInt8} (hs : Holds s content)
    (h : 2 ≤ content.length) (packetBuffer : Vector UInt8 room) (packetBufferSize : ℕ) :
    finishFrame s true packetBuffer packetBufferSize =
      if content.drop (content.length - 2) = fcs (content.take (content.length - 2)) then
        if content.length - 2 ≤ packetBufferSize then
          (memcpy packetBuffer s.inputFrame.toList (content.length - 2)).map
            (content.length - 2, ·)
        else (memcpy packetBuffer s.inputFrame.toList packetBufferSize).map (0, ·)
      else some (0, packetBuffer) := by
  have hpos : s.inputFrameDataIndex > 0 := by rw [hs.index]; omega
  have hsub2 : sub s.inputFrameDataIndex 2 = some (content.length - 2) := by
    rw [hs.index, sub_of_le h]
  rw [finishFrame_eq_crcMatches hpos, crcMatches_eq hs h]
  simp only [hsub2, Option.bind_eq_bind, Option.bind_some, decide_eq_true_eq, ge_iff_le,
    Option.map_eq_bind]
  rfl

/-- **After the loop**: a completed frame gets its verdict, inside all bounds. -/
theorem finishFrame_complete {room : ℕ} {s : Statics} {content : List UInt8}
    (hs : Holds s content) (hlen : Admissible 2 maxFrameSize content)
    (packetBuffer : Vector UInt8 room) {packetBufferSize : ℕ} (hfits : packetBufferSize ≤ room) :
    ∃ size buffer, finishFrame s true packetBuffer packetBufferSize = some (size, buffer) ∧
      (size, buffer.toList) = verdict content packetBufferSize packetBuffer.toList := by
  rw [finishFrame_eq hs (Nat.le_of_lt hlen.1)]
  obtain ⟨hmin, hmax⟩ := hlen
  have hpacket : (content.take (content.length - 2)).length = content.length - 2 := by simp
  rw [verdict, payload]
  split_ifs with hgood hsize
  · obtain ⟨buffer, hcopy, hbuffer⟩ := memcpy_of_le packetBuffer s.inputFrame.toList
      (n := content.length - 2) (by omega) (by simp; omega)
    refine ⟨content.length - 2, buffer, by rw [hcopy]; rfl, ?_⟩
    rw [hbuffer, holds_take hs (by omega)]
    simp [hpacket, hsize]
  · obtain ⟨buffer, hcopy, hbuffer⟩ := memcpy_of_le packetBuffer s.inputFrame.toList
      (n := packetBufferSize) hfits (by simp; omega)
    refine ⟨0, buffer, by rw [hcopy]; rfl, ?_⟩
    rw [hbuffer, holds_take hs (by omega)]
    simp only [hpacket, hsize, if_false, List.take_take,
      Nat.min_eq_left (Nat.le_of_not_le hsize)]
  · exact ⟨0, packetBuffer, rfl, rfl⟩

/-! ### A call, and a run of calls -/

/-- What a call that finds the receiver in state `r` returns: nothing, or the verdict on the frame
that the last byte it read completed. -/
inductive Outcome (r : Receiver) (call : Call) (ret : Return) : Prop
  | quiet (hfeed : (feed 2 r ret.consumed).2 = [])
      (hret : (ret.size, ret.packetBuffer) = (0, call.packetBuffer.toList))
  | frame (content : List UInt8) (hfeed : Completes 2 r ret.consumed content)
      (hret : (ret.size, ret.packetBuffer) =
        verdict content call.packetBufferSize call.packetBuffer.toList)

/-- A call that has read the end of a frame returns the verdict on it. -/
theorem Outcome.of_completes {r : Receiver} {call : Call} {ret : Return} (h : Outcome r call ret)
    {content : List UInt8} (hcontent : Completes 2 r ret.consumed content) :
    (ret.size, ret.packetBuffer) =
      verdict content call.packetBufferSize call.packetBuffer.toList := by
  have hfeed := feed_of_completes 2 hcontent
  cases h with
  | quiet hquiet hret =>
    rw [hquiet] at hfeed
    cases hfeed
  | frame content' hcontent' hret =>
    rw [feed_of_completes 2 hcontent'] at hfeed
    cases hfeed
    exact hret

/-- **A call** returns, and keeps the receiver in step with the bytes it read. -/
theorem receive_sim {port : Port} {r : Receiver} (hs : Sim port.statics r) (call : Call) :
    ∃ port' ret, receive port call = some (port', ret) ∧
      port.rxQueue ++ call.arrivals.flatten = ret.consumed ++ port'.rxQueue ∧
      Sim port'.statics (feed 2 r ret.consumed).1 ∧ Outcome r call ret := by
  obtain ⟨exit, hloop, hdrains⟩ := receiveLoop_sim hs port.rxQueue call.arrivals
  cases hcomplete : exit.frameComplete with
  | false =>
    have hfinish := finishFrame_incomplete exit.statics call.packetBuffer call.packetBufferSize
    refine ⟨⟨exit.statics, exit.rxQueue⟩, ⟨0, call.packetBuffer.toList, exit.consumed⟩, ?_,
      hdrains.split, hdrains.sim, .quiet (hdrains.quiet hcomplete) rfl⟩
    simp [receive, hloop, hcomplete, hfinish]
  | true =>
    obtain ⟨content, hcontent, hholds⟩ := hdrains.complete hcomplete
    obtain ⟨size, buffer, hfinish, hverdict⟩ := finishFrame_complete hholds
      (admissible_of_completes 2 hcontent) call.packetBuffer call.fits
    refine ⟨⟨exit.statics, exit.rxQueue⟩, ⟨size, buffer.toList, exit.consumed⟩, ?_,
      hdrains.split, hdrains.sim, .frame content hcontent hverdict⟩
    simp [receive, hloop, hcomplete, hfinish]

/-- All bytes that the calls of a run have read. -/
def consumed (rets : List Return) : List UInt8 := rets.flatMap (·.consumed)

@[simp] theorem consumed_cons (ret : Return) (rets : List Return) :
    consumed (ret :: rets) = ret.consumed ++ consumed rets := List.flatMap_cons

/-- The outcomes of a run that finds the receiver in state `r`. -/
inductive Outcomes : Receiver → List Call → List Return → Prop
  | nil (r : Receiver) : Outcomes r [] []
  | cons {r : Receiver} {call : Call} {calls : List Call} {ret : Return} {rets : List Return}
      (hcall : Outcome r call ret) (hcalls : Outcomes (feed 2 r ret.consumed).1 calls rets) :
      Outcomes r (call :: calls) (ret :: rets)

/-- **A run** returns, and keeps the receiver in step with the bytes it read. -/
theorem receiveAll_sim (port : Port) {r : Receiver} (hs : Sim port.statics r)
    (calls : List Call) :
    ∃ port' rets, receiveAll port calls = some (port', rets) ∧
      port.rxQueue ++ arrived calls = consumed rets ++ port'.rxQueue ∧
      Sim port'.statics (feed 2 r (consumed rets)).1 ∧ Outcomes r calls rets := by
  induction calls generalizing port r with
  | nil => exact ⟨port, [], rfl, by simp [arrived, consumed], hs, .nil r⟩
  | cons call calls ih =>
    obtain ⟨port₁, ret, hreceive, hsplit, hsim, hcall⟩ := receive_sim hs call
    obtain ⟨port₂, rets, hall, hsplit', hsim', hcalls⟩ := ih port₁ hsim
    refine ⟨port₂, ret :: rets, ?_, ?_, ?_, .cons hcall hcalls⟩
    · simp [receiveAll, hreceive, hall]
    · rw [arrived, List.flatMap_cons, ← List.append_assoc, hsplit, List.append_assoc,
        ← arrived, hsplit', consumed_cons, List.append_assoc]
    · rw [consumed_cons, feed_append]
      exact hsim'

/-- The outcome of a call made after others. -/
theorem outcome_of_receive {before : List Call} {call : Call} {port port' : Port}
    {rets : List Return} {ret : Return} (hbefore : receiveAll .initial before = some (port, rets))
    (hcall : receive port call = some (port', ret)) :
    port.rxQueue ++ call.arrivals.flatten = ret.consumed ++ port'.rxQueue ∧
      Outcome (feed 2 (.hunting : Receiver) (consumed rets)).1 call ret := by
  obtain ⟨port₁, rets₁, hall, -, hsim, -⟩ := receiveAll_sim .initial initial_sim before
  cases hbefore.symm.trans hall
  obtain ⟨port₂, ret₂, hreceive, hsplit, -, hout⟩ := receive_sim hsim call
  cases hcall.symm.trans hreceive
  exact ⟨hsplit, hout⟩

end EmbenetNode.Brt
