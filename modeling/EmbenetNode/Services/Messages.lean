import EmbenetNode.CustomService.Model
import EmbenetNode.Mqttsn.Control

/-!
# What the message handlers read

A handler is called with the address of a message and its length, and the message has no terminator.
The reception handler of the custom service compares seven characters with each `off` command, one
more than a message of six has; the control topic prints the message as a string. What they do then
depends on the memory behind the message.

* `truncated`: the messages that are an `off` command but for its last character;
* `customService_append`, `control_append`: a handler that stays inside the message does the same
  wherever the message lies;
* `messageOnly_iff`: the messages for which the handlers stay inside, and depend on nothing else.
-/

namespace EmbenetNode.Services

open CString CustomService Mqttsn

/-- The `off` commands without their last character. -/
def truncated : List (List UInt8) := ["led1of", "led2of", "led3of", "led4of"].map ascii

/-! ### The custom service -/

/-- The text of a command has no zero byte, and all of it is compared. -/
theorem commands_text : ∀ c ∈ commands, 0 ∉ c.text ∧ c.count = c.text.length := by decide

theorem commands_length :
    ∀ c ∈ commands, c.text.length ≤ 7 ∧ (6 < c.text.length → c.text.take 6 ∈ truncated) := by
  decide

theorem firstMatch_append {msg : List UInt8} {cs : List Command} {found : Option Command}
    (h : firstMatch msg cs = some found) (rest : List UInt8) :
    firstMatch (msg ++ rest) cs = some found := by
  induction cs with
  | nil => exact h
  | cons c cs ih =>
    rw [firstMatch] at h ⊢
    obtain ⟨r, hr, hfound⟩ := Option.bind_eq_some_iff.1 h
    have hmore : strncmp (msg ++ rest) (c.text ++ [0]) c.count = some r := by
      simpa using strncmp_append hr rest []
    rw [hmore]
    refine Option.bind_eq_some_iff.2 ⟨r, rfl, ?_⟩
    split_ifs at hfound ⊢ with hzero
    · exact hfound
    · exact ih hfound

/-- The comparisons stay inside a message that is not a proper beginning of a command. -/
theorem isSome_firstMatch {msg : List UInt8} {cs : List Command}
    (hcs : ∀ c ∈ cs, 0 ∉ c.text ∧ c.count = c.text.length)
    (hmsg : ∀ c ∈ cs, ¬ (msg <+: c.text ∧ msg ≠ c.text)) : (firstMatch msg cs).isSome := by
  induction cs with
  | nil => rfl
  | cons c cs ih =>
    rw [List.forall_mem_cons] at hcs hmsg
    obtain ⟨⟨hzero, hcount⟩, hcs⟩ := hcs
    have hinside : (strncmp msg (c.text ++ [0]) c.count).isSome := by
      rw [hcount, isSome_strncmp_iff hzero]
      exact hmsg.1
    obtain ⟨r, hr⟩ := Option.isSome_iff_exists.1 hinside
    rw [firstMatch, hr, Option.bind_eq_bind, Option.bind_some]
    split_ifs
    · rfl
    · exact ih hcs hmsg.2

/-- A message of at least six bytes is a proper beginning of a command only if the last character
of an `off` command is missing. -/
theorem mem_truncated {msg : List UInt8} {c : Command} (hc : c ∈ commands)
    (hlength : 6 ≤ msg.length) (hbegins : msg <+: c.text) (hne : msg ≠ c.text) :
    msg ∈ truncated := by
  obtain ⟨hle, htake⟩ := commands_length c hc
  have hlt : msg.length < c.text.length := by
    refine Nat.lt_of_le_of_ne hbegins.length_le fun heq => hne (hbegins.eq_of_length heq)
  have hsix : msg.length = 6 := by omega
  have hmsg : msg = c.text.take 6 := by
    rw [← hsix]
    exact List.prefix_iff_eq_take.1 hbegins
  rw [hmsg]
  exact htake (by omega)

theorem customService_append {msg : List UInt8} {dataSize : ℕ} {out : List Output}
    (h : customServiceReceptionHandler msg dataSize = some out) (rest : List UInt8) :
    customServiceReceptionHandler (msg ++ rest) dataSize = some out := by
  rw [customServiceReceptionHandler] at h ⊢
  split_ifs at h ⊢ with hsize
  · obtain ⟨found, hfound, hout⟩ := Option.bind_eq_some_iff.1 h
    rw [firstMatch_append hfound rest]
    exact hout
  · exact h

/-- The last comparison of these messages is with the byte behind them. -/
theorem customService_truncated : ∀ payload ∈ truncated,
    customServiceReceptionHandler payload payload.length = none ∧
      ∃ out ∈ customServiceReceptionHandler (payload ++ ascii "f") payload.length,
        ∃ out' ∈ customServiceReceptionHandler (payload ++ [0]) payload.length, out ≠ out' := by
  decide +kernel

/-- The reception handler stays inside the other messages. -/
theorem isSome_customService_iff (payload : List UInt8) :
    (customServiceReceptionHandler payload payload.length).isSome ↔ payload ∉ truncated := by
  constructor
  · intro h hmem
    rw [(customService_truncated payload hmem).1] at h
    cases h
  · intro h
    rw [customServiceReceptionHandler]
    split_ifs with hsize
    · have hfound : (firstMatch payload commands).isSome :=
        isSome_firstMatch commands_text fun c hc ⟨hbegins, hne⟩ =>
          h (mem_truncated hc hsize hbegins hne)
      obtain ⟨found, hfound⟩ := Option.isSome_iff_exists.1 hfound
      rw [hfound]
      cases found <;> rfl
    · rfl

theorem sameOutput_customService_iff (payload : List UInt8) :
    SameOutput (customServiceReceptionHandler · payload.length) payload ↔ payload ∉ truncated := by
  constructor
  · intro h hmem
    obtain ⟨-, out, hout, out', hout', hne⟩ := customService_truncated payload hmem
    exact hne (h _ _ out out' hout hout')
  · intro h
    exact sameOutput_of_isSome (fun out rest hout => customService_append hout rest)
      ((isSome_customService_iff payload).2 h)

/-! ### The control topic -/

theorem control_alone (payload : List UInt8) :
    onLedcontrolUpdate payload payload.length =
      (stringAt payload).map fun text => gotMessage text :: switched payload := by
  simpa using onLedcontrolUpdate_append payload []

theorem control_append {payload : List UInt8} {out : List Output}
    (h : onLedcontrolUpdate payload payload.length = some out) (rest : List UInt8) :
    onLedcontrolUpdate (payload ++ rest) payload.length = some out := by
  rw [control_alone] at h
  obtain ⟨text, htext, rfl⟩ := Option.map_eq_some_iff.1 h
  rw [onLedcontrolUpdate_append, stringAt_append htext, Option.map_some]

/-- The control topic stays inside the messages that have a terminator. -/
theorem isSome_control_iff (payload : List UInt8) :
    (onLedcontrolUpdate payload payload.length).isSome ↔ 0 ∈ payload := by
  rw [control_alone, Option.isSome_map, isSome_stringAt_iff]

/-- Without terminator, the bytes behind the message are printed as far as the next one. -/
theorem control_of_notMem {payload : List UInt8} (h : 0 ∉ payload) (rest : List UInt8) :
    onLedcontrolUpdate (payload ++ rest) payload.length =
      (stringAt rest).map fun text => gotMessage (payload ++ text) :: switched payload := by
  rw [onLedcontrolUpdate_append, stringAt_append_of_notMem h, Option.map_map]
  rfl

theorem sameOutput_control_iff (payload : List UInt8) :
    SameOutput (onLedcontrolUpdate · payload.length) payload ↔ 0 ∈ payload := by
  constructor
  · intro h
    by_contra hzero
    have hout := control_of_notMem hzero [0]
    have hout' := control_of_notMem hzero [1, 0]
    have heq := h _ _ _ _ hout hout'
    simp [gotMessage] at heq
  · intro h
    exact sameOutput_of_isSome (fun out rest hout => control_append hout rest)
      ((isSome_control_iff payload).2 h)

/-- **The handlers depend on the message only**, and read nothing behind it: the reception handler
for all messages that are not an `off` command without its last character, the control topic
for those that contain a terminator. -/
theorem messageOnly_iff (payload : List UInt8) :
    ((SameOutput (customServiceReceptionHandler · payload.length) payload ↔ payload ∉ truncated) ∧
        ((customServiceReceptionHandler payload payload.length).isSome ↔ payload ∉ truncated)) ∧
      (SameOutput (onLedcontrolUpdate · payload.length) payload ↔ 0 ∈ payload) ∧
        ((onLedcontrolUpdate payload payload.length).isSome ↔ 0 ∈ payload) :=
  ⟨⟨sameOutput_customService_iff payload, isSome_customService_iff payload⟩,
    sameOutput_control_iff payload, isSome_control_iff payload⟩

/-- The byte behind `led1of` decides whether a LED is switched off, and the bytes behind `led1on`
are printed. -/
theorem bytes_behind_message :
    ¬ SameOutput (customServiceReceptionHandler · 6) (ascii "led1of") ∧
      ¬ SameOutput (onLedcontrolUpdate · 6) (ascii "led1on") := by
  constructor
  · intro h
    have hout : customServiceReceptionHandler (ascii "led1of" ++ ascii "f") 6 =
        some [.log (ascii "CUSTOM_SERVICE: Led 1 off\n"), .gpioWrite .led0 false] := by
      decide +kernel
    have hout' : customServiceReceptionHandler (ascii "led1of" ++ [0]) 6 =
        some [.log (ascii "CUSTOM_SERVICE: Unrecognized command with size: 6\n")] := by
      decide +kernel
    exact absurd (h _ _ _ _ hout hout') (by decide)
  · intro h
    have hout : onLedcontrolUpdate (ascii "led1on" ++ [0]) 6 =
        some [gotMessage (ascii "led1on"), .gpioWrite .led0 true] := by
      decide +kernel
    have hout' : onLedcontrolUpdate (ascii "led1on" ++ ascii "!\x00") 6 =
        some [gotMessage (ascii "led1on!"), .gpioWrite .led0 true] := by
      decide +kernel
    exact absurd (h _ _ _ _ hout hout') (by decide)

end EmbenetNode.Services
