import EmbenetNode.Brt.Progress

/-!
# What a call writes to the caller's buffer

A call that returns 0 is documented to copy nothing. When a valid packet is longer than the
caller's buffer, the decoder fills the buffer all the same, and returns 0.

* `WritesNothingElse`: a call changes no byte of the buffer beyond those it returns;
* `Fits`: the condition on the bytes at hand;
* `writesNothingElse_iff`: when the call writes to its result only.
-/

namespace EmbenetNode.Brt

open Deframer Checked

/-- A call that returns 0 leaves the caller's buffer as it was, one that returns `n` all but its
first `n` bytes. -/
def WritesNothingElse (call : Call) (ret : Return) : Prop :=
  (ret.size = 0 → ret.packetBuffer = call.packetBuffer.toList) ∧
    (0 < ret.size → ret.packetBuffer.drop ret.size = call.packetBuffer.toList.drop ret.size)

/-- The packet in the first frame that the bytes complete, if its CRC is right, fits in the
caller's buffer, or begins with the bytes that are in it already. -/
def Fits (r : Receiver) (bytes : List UInt8) (call : Call) : Prop :=
  ∀ stream content packet, stream <+: bytes → Completes 2 r stream content →
    payload content = some packet →
    packet.length ≤ call.packetBufferSize ∨
      packet.take call.packetBufferSize = call.packetBuffer.toList.take call.packetBufferSize

/-! ### What it writes -/

variable {r : Receiver} {call : Call} {ret : Return} {bytes : List UInt8}

/-- A call that completes no frame writes nothing. -/
theorem writesNothingElse_of_quiet (hret : (ret.size, ret.packetBuffer) =
    (0, call.packetBuffer.toList)) : WritesNothingElse call ret := by
  obtain ⟨hsize, hbuffer⟩ := Prod.mk.inj hret
  refine ⟨fun _ => hbuffer, fun hpos => ?_⟩
  rw [hsize] at hpos
  cases hpos

theorem append_drop_eq_iff {l u : List UInt8} {n : ℕ} : u ++ l.drop n = l ↔ u = l.take n := by
  constructor
  · intro h
    have hl : u ++ l.drop n = l.take n ++ l.drop n := by rw [h, List.take_append_drop]
    exact List.append_cancel_right hl
  · rintro rfl
    exact List.take_append_drop n l

/-- A packet that does not fit is written as far as the buffer goes. -/
theorem writesNothingElse_verdict {content : List UInt8}
    (hret : (ret.size, ret.packetBuffer) =
      verdict content call.packetBufferSize call.packetBuffer.toList) :
    WritesNothingElse call ret ↔
      ∀ packet, payload content = some packet →
        packet.length ≤ call.packetBufferSize ∨
          packet.take call.packetBufferSize =
            call.packetBuffer.toList.take call.packetBufferSize := by
  unfold verdict at hret
  cases hpayload : payload content with
  | none =>
    rw [hpayload] at hret
    exact iff_of_true (writesNothingElse_of_quiet hret) nofun
  | some packet =>
    simp only [hpayload, Option.some.injEq, forall_eq'] at hret ⊢
    by_cases hfits : packet.length ≤ call.packetBufferSize
    · rw [if_pos hfits] at hret
      obtain ⟨hsize, hbuffer⟩ := Prod.mk.inj hret
      refine iff_of_true ⟨fun hzero => ?_, fun _ => ?_⟩ (Or.inl hfits)
      · have hnil : packet = [] := List.eq_nil_of_length_eq_zero (hsize.symm.trans hzero)
        rw [hbuffer, hnil]
        rfl
      · rw [hbuffer, hsize, List.drop_left]
    · rw [if_neg hfits] at hret
      obtain ⟨hsize, hbuffer⟩ := Prod.mk.inj hret
      have hpos : ¬ 0 < ret.size := by
        rw [hsize]
        exact Nat.lt_irrefl 0
      rw [WritesNothingElse, hbuffer, append_drop_eq_iff]
      exact ⟨fun h => Or.inr (h.1 hsize),
        fun h => ⟨fun _ => h.resolve_left hfits, fun h => absurd h hpos⟩⟩

theorem writesNothingElse_iff_fits {bytes : List UInt8} (hout : Outcome r call ret)
    (hconsumed : ret.consumed <+: bytes)
    (hquiet : (feed 2 r ret.consumed).2 = [] → ret.consumed = bytes) :
    WritesNothingElse call ret ↔ Fits r bytes call := by
  cases hout with
  | quiet hfeed hret =>
    refine iff_of_true (writesNothingElse_of_quiet hret) ?_
    intro stream content packet hstream hcontent
    have hmore := feed_of_isPrefix 2 r hstream
    rw [← hquiet hfeed, hfeed, feed_of_completes 2 hcontent, List.prefix_nil] at hmore
    cases hmore
  | frame content hcontent hret =>
    rw [writesNothingElse_verdict hret]
    constructor
    · intro h stream content' packet hstream hcontent' hpacket
      rw [completes_unique 2 hstream hconsumed hcontent' hcontent] at hpacket
      exact h packet hpacket
    · intro h packet hpacket
      exact h ret.consumed content packet hconsumed hcontent hpacket

/-- **When a call writes to its result only.** After any calls, one writes nothing beyond what it
returns exactly if the packet in the first frame that the bytes at hand complete fits in its buffer,
or begins with what the buffer holds. -/
theorem writesNothingElse_iff (before : List Call) (call : Call) :
    ∃ port rets port' ret, receiveAll .initial before = some (port, rets) ∧
      receive port call = some (port', ret) ∧
      (WritesNothingElse call ret ↔
        Fits (feed 2 .hunting (consumed rets)).1 (available port.rxQueue call.arrivals) call) := by
  obtain ⟨port, rets, hall, -, hsim, -⟩ := receiveAll_sim .initial initial_sim before
  obtain ⟨port', ret, hcall, -, -, hout⟩ := receive_sim hsim call
  obtain ⟨hconsumed, hquiet⟩ := consumed_of_receive hsim hcall
  exact ⟨port, rets, port', ret, hall, hcall, writesNothingElse_iff_fits hout hconsumed hquiet⟩

/-- A packet of two bytes arrives while the caller has room for one. -/
def shortCall : Call where
  room := 1
  packetBuffer := #v[0]
  packetBufferSize := 1
  fits := by decide
  arrivals := [sent [1, 2]]

theorem writes_reporting_nothing :
    ∃ port ret, receive .initial shortCall = some (port, ret) ∧ ret.size = 0 ∧
      ret.packetBuffer = [1] ∧ ¬ WritesNothingElse shortCall ret := by
  have hret : (receive .initial shortCall).map (fun p => (p.2.size, p.2.packetBuffer)) =
      some (0, [1]) := by
    decide +kernel
  obtain ⟨⟨port, ret⟩, hcall, heq⟩ := Option.map_eq_some_iff.1 hret
  obtain ⟨hsize, hbuffer⟩ := Prod.mk.inj heq
  refine ⟨port, ret, hcall, hsize, hbuffer, fun h => ?_⟩
  have hunchanged := h.1 hsize
  rw [hbuffer] at hunchanged
  cases hunchanged

end EmbenetNode.Brt
