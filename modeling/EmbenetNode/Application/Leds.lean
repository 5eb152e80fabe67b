import EmbenetNode.Application.Model
import EmbenetNode.Services.Messages

/-!
# The LEDs

The custom service switches all LEDs, the control topic switches LED 0, and
`mqttsn_client_service_proc` switches LED 1: on for a press of the button, and off whenever it finds
the button released. So what the custom service makes of LED 1 lasts as long as the button is held.

* `lit`: whether a LED was last switched on;
* `switches_custom`: what the reception handler of the custom service switches;
* `Event.Lights`, `Event.Darkens`, `lit_only`: a LED is lit only since an event that lights it.
-/

namespace EmbenetNode.Application

open CString CustomService Services GuardedRun
open Mqttsn (Scheduler Pressed)

/-- Whether the value last written to a LED is the one for on. -/
def lit (led : Led) (outputs : List Output) : Bool :=
  (writes outputs).foldl (fun on w => if w.1 = led then w.2 else on) false

theorem lit_append (led : Led) (before outputs : List Output) :
    lit led (before ++ outputs) =
      (writes outputs).foldl (fun on w => if w.1 = led then w.2 else on) (lit led before) := by
  rw [lit, writes, List.filterMap_append, List.foldl_append]
  rfl

/-! ### The reception handler -/

/-- No command is the beginning of another one. -/
theorem command_eq {c c' : Command} (hc : c ∈ commands) (hc' : c' ∈ commands) {msg : List UInt8}
    (h : c.text <+: msg) (h' : c'.text <+: msg) : c = c' := by
  have hfree : ∀ c ∈ commands, ∀ c' ∈ commands, c.text <+: c'.text → c = c' := by decide +kernel
  rcases List.prefix_or_prefix_of_prefix h h' with hle | hle
  · exact hfree c hc c' hc' hle
  · exact (hfree c' hc' c hc hle).symm

/-- The handler finds the command that the message begins with. -/
theorem firstMatch_spec {msg : List UInt8} {cs : List Command} {found : Option Command}
    (hcs : ∀ c ∈ cs, 0 ∉ c.text ∧ c.count = c.text.length)
    (h : firstMatch msg cs = some found) :
    (∃ c ∈ cs, found = some c ∧ c.text <+: msg) ∨ found = none ∧ ∀ c ∈ cs, ¬ c.text <+: msg := by
  induction cs with
  | nil =>
    cases h
    exact .inr ⟨rfl, nofun⟩
  | cons c cs ih =>
    rw [List.forall_mem_cons] at hcs
    obtain ⟨⟨hzero, hcount⟩, hcs⟩ := hcs
    obtain ⟨r, hr, hfound⟩ := Option.bind_eq_some_iff.1 h
    rw [hcount] at hr
    have hiff := strncmp_eq_zero_iff hzero hr
    split_ifs at hfound with hzero
    · cases hfound
      exact .inl ⟨c, List.mem_cons_self, rfl, hiff.1 hzero⟩
    · rcases ih hcs hfound with ⟨c', hc', hsome, hprefix⟩ | ⟨hnone, hno⟩
      · exact .inl ⟨c', List.mem_cons_of_mem c hc', hsome, hprefix⟩
      · exact .inr ⟨hnone, List.forall_mem_cons.2 ⟨fun hprefix => hzero (hiff.2 hprefix), hno⟩⟩

/-- **What the reception handler switches**: the LED of the command that the message begins with. -/
theorem switches_custom {msg : List UInt8} {dataSize : ℕ} {out : List Output}
    (h : customServiceReceptionHandler msg dataSize = some out) :
    (6 ≤ dataSize ∧ ∃ c ∈ commands, c.text <+: msg ∧ writes out = [(c.led, c.on)]) ∨
      (6 ≤ dataSize → ∀ c ∈ commands, ¬ c.text <+: msg) ∧ writes out = [] := by
  rw [customServiceReceptionHandler] at h
  split_ifs at h with hsize
  · obtain ⟨found, hfound, hout⟩ := Option.bind_eq_some_iff.1 h
    rcases firstMatch_spec commands_text hfound with ⟨c, hc, rfl, hprefix⟩ | ⟨rfl, hno⟩
    · cases hout
      exact .inl ⟨hsize, c, hc, hprefix, rfl⟩
    · cases hout
      exact .inr ⟨fun _ => hno, rfl⟩
  · cases h
    exact .inr ⟨fun hsix => absurd hsix hsize, rfl⟩

/-! ### The events -/

/-- A datagram with a command of the custom service for the LED. -/
def Commands (led : Led) (on : Bool) (msg : List UInt8) (dataSize : ℕ) : Prop :=
  6 ≤ dataSize ∧ ∃ c ∈ commands, c.led = led ∧ c.on = on ∧ c.text <+: msg

/-- A message of the control topic that switches the LED. -/
def Controls (led : Led) (on : Bool) (msg : List UInt8) (dataSize : ℕ) : Prop :=
  ∃ out ∈ Mqttsn.onLedcontrolUpdate msg dataSize, writes out = [(led, on)]

instance (led : Led) (on : Bool) (msg : List UInt8) (dataSize : ℕ) :
    Decidable (Commands led on msg dataSize) := inferInstanceAs (Decidable (_ ∧ _))

/-- The event lights the LED: LED 1 also by the button. -/
def Event.Lights (led : Led) : Event → Prop
  | .customServiceReceptionHandler msg dataSize => Commands led true msg dataSize
  | .onLedcontrolUpdate msg dataSize => Controls led true msg dataSize
  | .loop low low' _ _ => led = .led1 ∧ low = true ∧ low' = true
  | .onJoined .. | .onLeft _ | .onJoinAttempt .. | .dataOnUregisteredPort _
  | .onQuickJoinCredentialsObsolete | .customServiceTask .. | .mqttsnServiceTask ..
  | .onMQTTConnected _ | .onMQTTDisconnected _ | .onMQTTTopicRegistered .. => False

/-- The event turns the LED off: LED 1 also when the button is found released. -/
def Event.Darkens (led : Led) : Event → Prop
  | .customServiceReceptionHandler msg dataSize => Commands led false msg dataSize
  | .onLedcontrolUpdate msg dataSize => Controls led false msg dataSize
  | .loop _ low' _ _ => led = .led1 ∧ low' = false
  | .onJoined .. | .onLeft _ | .onJoinAttempt .. | .dataOnUregisteredPort _
  | .onQuickJoinCredentialsObsolete | .customServiceTask .. | .mqttsnServiceTask ..
  | .onMQTTConnected _ | .onMQTTDisconnected _ | .onMQTTTopicRegistered .. => False

/-! ### The steps -/

variable {uid : UInt64} {scheduler : Scheduler} {s s' : System} {e : Event} {led : Led}

theorem lit_of_nil {before outputs : List Output} (h : writes outputs = []) :
    lit led (before ++ outputs) = lit led before := by
  rw [lit_append, h]
  rfl

theorem lit_of_singleton {before outputs : List Output} {led' : Led} {on : Bool}
    (h : writes outputs = [(led', on)]) :
    lit led (before ++ outputs) = if led' = led then on else lit led before := by
  rw [lit_append, h]
  rfl

theorem lit_custom {before outputs : List Output} {msg : List UInt8} {dataSize : ℕ}
    (h : customServiceReceptionHandler msg dataSize = some outputs)
    (hlit : lit led (before ++ outputs) = true) :
    Commands led true msg dataSize ∨ lit led before = true ∧ ¬ Commands led false msg dataSize := by
  rcases switches_custom h with ⟨hsize, c, hc, hprefix, hwrites⟩ | ⟨hno, hwrites⟩
  · rw [lit_of_singleton hwrites] at hlit
    split_ifs at hlit with hled
    · exact .inl ⟨hsize, c, hc, hled, hlit, hprefix⟩
    · refine .inr ⟨hlit, ?_⟩
      rintro ⟨-, c', hc', hled', -, hprefix'⟩
      rw [command_eq hc hc' hprefix hprefix'] at hled
      exact hled hled'
  · rw [lit_of_nil hwrites] at hlit
    refine .inr ⟨hlit, ?_⟩
    rintro ⟨hsize, c, hc, -, -, hprefix⟩
    exact hno hsize c hc hprefix

/-- The control topic switches LED 0 only. -/
theorem switches_control {msg : List UInt8} {dataSize : ℕ} {out : List Output}
    (h : Mqttsn.onLedcontrolUpdate msg dataSize = some out) :
    writes out = [] ∨ ∃ on, writes out = [(.led0, on)] := by
  obtain ⟨text, -, h⟩ := Option.bind_eq_some_iff.1 h
  obtain ⟨r, -, h⟩ := Option.bind_eq_some_iff.1 h
  split_ifs at h
  · cases h
    exact .inr ⟨true, rfl⟩
  · obtain ⟨r', -, h⟩ := Option.bind_eq_some_iff.1 h
    split_ifs at h
    · cases h
      exact .inr ⟨false, rfl⟩
    · cases h
      exact .inl rfl

theorem lit_control {before outputs : List Output} {msg : List UInt8} {dataSize : ℕ}
    (h : Mqttsn.onLedcontrolUpdate msg dataSize = some outputs)
    (hlit : lit led (before ++ outputs) = true) :
    Controls led true msg dataSize ∨ lit led before = true ∧ ¬ Controls led false msg dataSize := by
  have hsame : ∀ on, Controls led on msg dataSize → writes outputs = [(led, on)] := by
    rintro on ⟨out, hout, hwrites⟩
    rwa [Option.some.inj (h.symm.trans hout)]
  rcases switches_control h with hwrites | ⟨on, hwrites⟩
  · rw [lit_of_nil hwrites] at hlit
    refine .inr ⟨hlit, fun hoff => ?_⟩
    exact absurd ((hsame false hoff).symm.trans hwrites) nofun
  · rw [lit_of_singleton hwrites] at hlit
    split_ifs at hlit with hled
    · rw [hled, hlit] at hwrites
      exact .inl ⟨outputs, h, hwrites⟩
    · refine .inr ⟨hlit, fun hoff => hled ?_⟩
      have heq := (hsame false hoff).symm.trans hwrites
      cases heq
      rfl

/-- What `mqttsn_client_service_proc` switches. -/
theorem writes_proc (low low' : Bool) (now now' : UInt64) (s : Mqttsn.Statics) :
    writes ((Mqttsn.proc low low' now now' s).2.filterMap ledOfCall) =
      (if Pressed low now s then [(.led1, true)] else []) ++
        if low' then [] else [(.led1, false)] := by
  by_cases hpressed : Pressed low now s
  · rw [Mqttsn.proc_of_pressed hpressed, if_pos hpressed]
    cases low' <;> rfl
  · rw [Mqttsn.proc_of_not_pressed hpressed, if_neg hpressed]
    cases low' <;> rfl

theorem lit_proc {before : List Output} {low low' : Bool} {now now' : UInt64} {s : Mqttsn.Statics}
    (hlit : lit led (before ++ (Mqttsn.proc low low' now now' s).2.filterMap ledOfCall) = true) :
    (led = .led1 ∧ low = true ∧ low' = true) ∨
      lit led before = true ∧ ¬ (led = .led1 ∧ low' = false) := by
  rw [lit_append, writes_proc] at hlit
  by_cases hled : led = .led1
  · subst hled
    cases low' with
    | false =>
      -- the last write is the one of the second reading
      rw [List.foldl_append] at hlit
      cases hlit
    | true =>
      by_cases hpressed : Pressed low now s
      · exact .inl ⟨rfl, hpressed.2.1, rfl⟩
      · rw [if_neg hpressed] at hlit
        exact .inr ⟨hlit, nofun⟩
  · have hother : Led.led1 ≠ led := fun heq => hled heq.symm
    refine .inr ⟨?_, fun hboth => hled hboth.1⟩
    by_cases hpressed : Pressed low now s <;> cases low' <;> simpa [hpressed, hother] using hlit

/-- **The step lemma**: a LED that is lit after a step was lit by it, or was lit before and not
turned off by it. -/
theorem lit_step (h : ServicesStep false uid scheduler s e s') (hlit : lit led s'.outputs = true) :
    e.Lights led ∨ lit led s.outputs = true ∧ ¬ e.Darkens led := by
  obtain ⟨outputs, houtputs, heq⟩ := h.outputs
  rw [heq] at hlit
  cases e with
  | customServiceReceptionHandler msg dataSize => exact lit_custom houtputs hlit
  | onLedcontrolUpdate msg dataSize => exact lit_control houtputs hlit
  | loop low low' now now' =>
    cases houtputs
    exact lit_proc hlit
  | onJoined | onLeft | onJoinAttempt | dataOnUregisteredPort | onQuickJoinCredentialsObsolete
  | customServiceTask | mqttsnServiceTask | onMQTTConnected | onMQTTDisconnected
  | onMQTTTopicRegistered =>
    cases houtputs
    rw [List.append_nil] at hlit
    exact .inr ⟨hlit, fun hdarkens => hdarkens⟩

/-- **A LED is lit only by its last command**: when a LED is lit after a run of the program, one of
the events lit it, and none since has turned it off. So LED 1 is off whenever the button was found
released after its last command, also when the command was `led2on` of the custom service. -/
theorem lit_only {results : Results} {es : List Event}
    (hrun : es.foldlM (step false uid scheduler) (.started false uid results) = some s')
    (hlit : lit led s'.outputs = true) :
    ∃ es₁ e es₂, es = es₁ ++ e :: es₂ ∧ e.Lights led ∧ ∀ e' ∈ es₂, ¬ e'.Darkens led := by
  have hdark : ¬ lit led (System.started false uid results).outputs = true := nofun
  have hstep : ∀ s e s', step false uid scheduler s e = some s' → lit led s'.outputs = true →
      e.Lights led ∨ lit led s.outputs = true ∧ ¬ e.Darkens led :=
    fun _ _ _ h hlit => lit_step (services_step h) hlit
  exact exists_cause hstep hdark hrun hlit

/-- LED 1 is switched on by the custom service while the button is held. -/
def heldDown : List Event :=
  [.customServiceReceptionHandler (ascii "led2on") 6, .loop true true 50 50,
    .onLeft .failedToRunTask]

theorem lit_only_heldDown :
    ∃ es₁ e es₂, heldDown = es₁ ++ e :: es₂ ∧ e.Lights .led1 ∧ ∀ e' ∈ es₂, ¬ e'.Darkens .led1 :=
  lit_only (show heldDown.foldlM (step false 1 Mqttsn.always) (.started false 1 {}) = some _ from rfl)
    (by decide +kernel)

end EmbenetNode.Application
