import EmbenetNode.Brt.Stream

/-!
# What the border router interface delivers is justified

Whatever bytes arrive, each packet delivered is what a stretch between two flags stands for, its
CRC bytes taken off, and the stretches of two deliveries do not overlap (`receive_sound`). That a
run returns at all says that no array access of the decoder is out of range, and that no
subtraction wraps.
-/

namespace EmbenetNode.Brt

open ByteStuffing Deframer

/-- `ret` is justified by the bytes `stream` read so far. Its data and the CRC bytes are what a
flag-free string stands for. One flag comes before the string, at position `opening`, and one after
it, as the last byte read. -/
structure Justified (stream : List UInt8) (opening : ℕ) (call : Call) (ret : Return) : Prop where
  stretch : ∃ before raw, stream = before ++ hdlcFlag :: (raw ++ [hdlcFlag]) ∧
    before.length = opening ∧ hdlcFlag ∉ raw ∧ hdlc.unstuff raw = ret.data ++ fcs ret.data
  size : ret.size = ret.data.length
  bounds : 1 ≤ ret.size ∧ ret.size ≤ 254
  fits : ret.size ≤ call.packetBufferSize

variable {r : Receiver} {call : Call} {ret : Return} {stream : List UInt8} {done : ℕ}

/-- A delivery is justified by a stretch that begins after all earlier ones. -/
theorem justified_of_outcome (hcall : Outcome r call ret) (hopened : Opened stream done r)
    (hsize : ret.size ≠ 0) :
    ∃ opening, Justified (stream ++ ret.consumed) opening call ret ∧ done ≤ opening := by
  rcases hcall with ⟨-, hret⟩ | ⟨content, hcontent, hret⟩
  · exact absurd (congrArg Prod.fst hret) hsize
  · rcases verdict_cases hret with ⟨packet, hpayload, hfits, hlen, hdata⟩ | ⟨hzero, -⟩
    · obtain ⟨⟨before, raw, hstream, hdone, hflagFree, hraw, hadm⟩, -⟩ :=
        opened_completes 2 hopened hcontent
      rw [append_fcs_of_payload hpayload, admissible_iff, ← hlen] at hadm
      refine ⟨before.length, ⟨⟨before, raw, hstream, rfl, hflagFree, ?_⟩, ?_, hadm, ?_⟩, hdone⟩
      · rw [hraw, append_fcs_of_payload hpayload, hdata]
      · rw [hlen, hdata]
      · rw [hlen]
        exact hfits
    · exact absurd hzero hsize

/-- After a call, later stretches begin after the stretch that it closed, if any. -/
theorem opened_of_outcome (hcall : Outcome r call ret) (hopened : Opened stream done r) :
    ∃ done', done ≤ done' ∧ Opened (stream ++ ret.consumed) done' (feed 2 r ret.consumed).1 ∧
      (ret.size ≠ 0 → done' = (stream ++ ret.consumed).length) := by
  rcases hcall with ⟨hquiet, hret⟩ | ⟨content, hcontent, -⟩
  · exact ⟨done, Nat.le_refl done, opened_quiet 2 hopened hquiet,
      fun hsize => absurd (congrArg Prod.fst hret) hsize⟩
  · obtain ⟨⟨before, raw, hstream, hdone, -⟩, hnext⟩ := opened_completes 2 hopened hcontent
    refine ⟨_, ?_, hnext, fun _ => rfl⟩
    rw [hstream, List.length_append]
    omega

/-- Every call of a run returns. -/
theorem length_of_outcomes {calls : List Call} {rets : List Return} (h : Outcomes r calls rets) :
    rets.length = calls.length := by
  induction h with
  | nil => rfl
  | cons _ _ ih => rw [List.length_cons, List.length_cons, ih]

/-- Every delivery of a run is justified, by a stretch after those of the deliveries before it. -/
theorem justified_of_outcomes {calls : List Call} {rets : List Return}
    (h : Outcomes r calls rets) (hopened : Opened stream done r) (i : ℕ)
    (hcall : calls[i]? = some call) (hret : rets[i]? = some ret) (hsize : ret.size ≠ 0) :
    ∃ opening, Justified (stream ++ consumed (rets.take (i + 1))) opening call ret ∧
      done ≤ opening ∧ ∀ j < i, ∀ ret', rets[j]? = some ret' → ret'.size ≠ 0 →
        (stream ++ consumed (rets.take (j + 1))).length ≤ opening := by
  -- `done` is the end of the last stretch that a delivery has used
  induction h generalizing stream done i with
  | nil r => simp at hcall
  | @cons r call₀ calls ret₀ rets hfirst _ ih =>
    cases i with
    | zero =>
      obtain rfl : call₀ = call := by simpa using hcall
      obtain rfl : ret₀ = ret := by simpa using hret
      obtain ⟨opening, hjust, hdone⟩ := justified_of_outcome hfirst hopened hsize
      exact ⟨opening, by simpa [consumed] using hjust, hdone, fun j hj => absurd hj (by omega)⟩
    | succ i =>
      obtain ⟨done', hle, hopened', hlast⟩ := opened_of_outcome hfirst hopened
      obtain ⟨opening, hjust, hdone, hearlier⟩ := ih hopened' i hcall hret
      rw [List.append_assoc] at hjust
      refine ⟨opening, hjust, Nat.le_trans hle hdone, fun j hj ret' hret' hsize' => ?_⟩
      cases j with
      | zero =>
        obtain rfl : ret₀ = ret' := by simpa using hret'
        have hopening := hlast hsize'
        simpa [consumed, ← hopening] using hdone
      | succ j =>
        have hj' := hearlier j (by omega) ret' hret' hsize'
        rw [List.append_assoc] at hj'
        exact hj'

/-- **Soundness.** Whatever arrives, in whatever pieces, and whatever sizes the callers pass, the
decoder never leaves its arrays. Each call that returns more than 0 has just read a flag; the bytes
between it and the flag before it stand for the data returned and its CRC bytes. Stretches that
justify two deliveries do not overlap. -/
theorem receive_sound (calls : List Call) :
    ∃ port rets, receiveAll .initial calls = some (port, rets) ∧
      rets.length = calls.length ∧ arrived calls = consumed rets ++ port.rxQueue ∧
      ∀ i call ret, calls[i]? = some call → rets[i]? = some ret → ret.size ≠ 0 →
        ∃ opening, Justified (consumed (rets.take (i + 1))) opening call ret ∧
          ∀ j < i, ∀ ret', rets[j]? = some ret' → ret'.size ≠ 0 →
            (consumed (rets.take (j + 1))).length ≤ opening := by
  obtain ⟨port, rets, hall, hsplit, -, hout⟩ := receiveAll_sim .initial initial_sim calls
  refine ⟨port, rets, hall, length_of_outcomes hout, hsplit, fun i call ret hcall hret hsize => ?_⟩
  have hopened : Opened [] 0 (.hunting : Receiver) := Nat.le_refl 0
  obtain ⟨opening, hjust, -, hearlier⟩ :=
    justified_of_outcomes hout hopened i hcall hret hsize
  exact ⟨opening, by simpa using hjust, by simpa using hearlier⟩

end EmbenetNode.Brt
