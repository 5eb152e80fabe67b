import EmbenetNode.Lib.CString
import EmbenetNode.Services.Output

/-!
# The control topic: `onLedcontrolUpdate`

The messages of the control topic switch a LED. The handler compares the commands with the message
by `strncmp` and the length of the message, which ends the comparison before the terminator of the
command: a beginning of a command is taken for it, the empty message included, and so is a message
that goes on with a zero byte (`takenFor_iff`).

* `onLedcontrolUpdate`, `onLedcontrolUpdate_append`: the handler, and what it does with a message;
* `Recognizes`: the two commands switch the LED, and nothing else does;
* `recognizes_iff`: the messages for which this is so.
-/

namespace EmbenetNode.Mqttsn

open CString Services

def led1on : List UInt8 := ascii "led1on"

def led1off : List UInt8 := ascii "led1off"

/-- What is printed of a message. -/
def gotMessage (text : List UInt8) : Output :=
  .log (ascii "MQTT-SN: Got message on control topic: " ++ text ++ ascii "\n")

/-- `onLedcontrolUpdate` of the `dataSize` bytes at `msg`. -/
def onLedcontrolUpdate (msg : List UInt8) (dataSize : ℕ) : Option (List Output) := do
  let text ← stringAt msg
  let r ← strncmp (led1on ++ [0]) msg dataSize
  if r = 0 then return [gotMessage text, .gpioWrite .led0 true]
  else
    let r ← strncmp (led1off ++ [0]) msg dataSize
    if r = 0 then
      return [gotMessage text, .gpioWrite .led0 false,
        .log (ascii "MQTT-SN: Unknown command, ignoring\n")]
    else return [gotMessage text]

/-- The comparison does not tell the payload from the command. -/
def TakenFor (command payload : List UInt8) : Prop :=
  payload <+: command ∨ command ++ [0] <+: payload

instance (command payload : List UInt8) : Decidable (TakenFor command payload) :=
  inferInstanceAs (Decidable (_ ∨ _))

/-- What the handler does with a payload after it has printed the message. -/
def switched (payload : List UInt8) : List Output :=
  if TakenFor led1on payload then [.gpioWrite .led0 true]
  else if TakenFor led1off payload then
    [.gpioWrite .led0 false, .log (ascii "MQTT-SN: Unknown command, ignoring\n")]
  else []

/-- The LED is switched on exactly by `led1on`, off exactly by `led1off`, and left alone by anything
else. -/
def Recognizes (payload : List UInt8) (out : List Output) : Prop :=
  (.gpioWrite .led0 true ∈ out ↔ payload = led1on) ∧
    (.gpioWrite .led0 false ∈ out ↔ payload = led1off) ∧
    (payload ≠ led1on → payload ≠ led1off → writes out = [])

instance (payload : List UInt8) (out : List Output) : Decidable (Recognizes payload out) :=
  inferInstanceAs (Decidable (_ ∧ _ ∧ _))

variable {command payload : List UInt8}

theorem zero_notMem_led1on : 0 ∉ led1on := by decide

theorem zero_notMem_led1off : 0 ∉ led1off := by decide

/-- **What the handler does**: the message is printed as far as its terminator, the LED is switched
by the payload alone. -/
theorem onLedcontrolUpdate_append (payload rest : List UInt8) :
    onLedcontrolUpdate (payload ++ rest) payload.length =
      (stringAt (payload ++ rest)).map fun text => gotMessage text :: switched payload := by
  obtain ⟨r, hr, hzero⟩ := strncmp_literal zero_notMem_led1on payload rest
  obtain ⟨r', hr', hzero'⟩ := strncmp_literal zero_notMem_led1off payload rest
  rw [onLedcontrolUpdate, hr, hr']
  cases stringAt (payload ++ rest) with
  | none => rfl
  | some text =>
    simp only [Option.bind_eq_bind, Option.bind_some, Option.map_some, switched, TakenFor,
      ← hzero, ← hzero']
    split_ifs <;> rfl

/-- Every payload is handled, in a memory where a terminator follows. -/
theorem exists_handled (payload : List UInt8) :
    ∃ rest text, onLedcontrolUpdate (payload ++ rest) payload.length =
      some (gotMessage text :: switched payload) := by
  have hterminated : (stringAt (payload ++ [0])).isSome := by
    rw [isSome_stringAt_iff]
    exact List.mem_append_right payload (List.mem_singleton_self 0)
  obtain ⟨text, htext⟩ := Option.isSome_iff_exists.1 hterminated
  refine ⟨[0], text, ?_⟩
  rw [onLedcontrolUpdate_append, htext, Option.map_some]

/-- A payload is taken for a command it is not, exactly if it is a beginning of it, or goes on with
a zero byte. -/
theorem takenFor_iff :
    TakenFor command payload ∧ payload ≠ command ↔
      (payload <+: command ∧ payload ≠ command) ∨ command ++ [0] <+: payload := by
  constructor
  · rintro ⟨hbegins | hlonger, hne⟩
    · exact .inl ⟨hbegins, hne⟩
    · exact .inr hlonger
  · rintro (⟨hbegins, hne⟩ | hlonger)
    · exact ⟨.inl hbegins, hne⟩
    · refine ⟨.inr hlonger, ?_⟩
      rintro rfl
      have hlength := hlonger.length_le
      rw [List.length_append, List.length_singleton] at hlength
      omega

theorem switched_led1on : switched led1on = [.gpioWrite .led0 true] := by decide

theorem switched_led1off : switched led1off =
    [.gpioWrite .led0 false, .log (ascii "MQTT-SN: Unknown command, ignoring\n")] := by decide

/-- Another payload is told from the commands if nothing is switched. -/
theorem recognizes_of_ne (text : List UInt8) (hon : payload ≠ led1on) (hoff : payload ≠ led1off) :
    Recognizes payload (gotMessage text :: switched payload) ↔
      ¬ TakenFor led1on payload ∧ ¬ TakenFor led1off payload := by
  unfold Recognizes switched
  split_ifs with htaken htaken'
  · simp [hon, htaken]
  · simp [hon, hoff, htaken, htaken', gotMessage]
  · simp [hon, hoff, htaken, htaken', gotMessage]

/-- A payload is told from the commands unless it is taken for one that it is not. -/
theorem recognizes_switched_iff (text : List UInt8) :
    Recognizes payload (gotMessage text :: switched payload) ↔
      (TakenFor led1on payload → payload = led1on) ∧
        (TakenFor led1off payload → payload = led1off) := by
  by_cases hon : payload = led1on
  · subst hon
    have hoff : ¬ TakenFor led1off led1on := by decide
    have hne : led1on ≠ led1off := by decide
    simp [Recognizes, switched_led1on, gotMessage, hoff, hne]
  · by_cases hoff : payload = led1off
    · subst hoff
      have hnot : ¬ TakenFor led1on led1off := by decide
      simp [Recognizes, switched_led1off, gotMessage, hnot, hon]
    · rw [recognizes_of_ne text hon hoff]
      simp [hon, hoff]

/-- **The control topic recognizes its two commands** exactly in the payloads that are neither a
proper beginning of a command, nor a command that goes on with a zero byte. -/
theorem recognizes_iff (payload : List UInt8) :
    (∀ rest out, onLedcontrolUpdate (payload ++ rest) payload.length = some out →
        Recognizes payload out) ↔
      ∀ command ∈ [led1on, led1off],
        (payload <+: command → payload = command) ∧ ¬ command ++ [0] <+: payload := by
  have htold : ∀ command, (TakenFor command payload → payload = command) ↔
      (payload <+: command → payload = command) ∧ ¬ command ++ [0] <+: payload := by
    intro command
    have hiff := @takenFor_iff command payload
    tauto
  have hcommands : (∀ command ∈ [led1on, led1off],
      (payload <+: command → payload = command) ∧ ¬ command ++ [0] <+: payload) ↔
      (TakenFor led1on payload → payload = led1on) ∧
        (TakenFor led1off payload → payload = led1off) := by
    simp only [List.forall_mem_cons, htold, List.not_mem_nil, false_imp_iff, implies_true, and_true]
  rw [hcommands]
  constructor
  · intro h
    obtain ⟨rest, text, hhandled⟩ := exists_handled payload
    exact (recognizes_switched_iff text).1 (h rest _ hhandled)
  · intro h rest out hout
    rw [onLedcontrolUpdate_append] at hout
    obtain ⟨text, -, rfl⟩ := Option.map_eq_some_iff.1 hout
    exact (recognizes_switched_iff text).2 h

/-- The empty message and a beginning of both commands switch the LED on, a longer beginning of
`led1off` switches it off. -/
theorem beginnings_not_recognized :
    (onLedcontrolUpdate [0] 0).map writes = some [(.led0, true)] ∧
      (onLedcontrolUpdate (ascii "led" ++ [0]) 3).map writes = some [(.led0, true)] ∧
      (onLedcontrolUpdate (ascii "led1of" ++ [0]) 6).map writes = some [(.led0, false)] ∧
      ¬ ∀ rest out, onLedcontrolUpdate ([] ++ rest) 0 = some out → Recognizes [] out := by
  refine ⟨by decide +kernel, by decide +kernel, by decide +kernel, fun h => ?_⟩
  have hrecognized := h [0] [gotMessage [], .gpioWrite .led0 true] (by decide +kernel)
  revert hrecognized
  decide +kernel

end EmbenetNode.Mqttsn
