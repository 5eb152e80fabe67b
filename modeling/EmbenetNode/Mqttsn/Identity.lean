import Mathlib.Data.List.Basic
import EmbenetNode.Lib.Numeral
import EmbenetNode.Mqttsn.Model

/-!
# The names of a node

The client id and the topics are made from the UID: its upper half in as many hexadecimal digits as
it takes, its lower half in exactly eight. So the lower half can be told from the end of a name, and
different nodes have different names (`identities_distinct`).
-/

namespace EmbenetNode.Mqttsn

open Numeral

/-- The size of the buffers of the client id. -/
def clientIdSize : ℕ := 32

/-- `MQTTSN_MAX_CLIENT_ID_LENGTH` -/
def maxClientIdLength : ℕ := 23

/-- `MQTTSN_MAX_TOPIC_NAME_LENGTH`, the size of the buffers of the topics. -/
def maxTopicNameLength : ℕ := 38

theorem hex08_eq_padded (n : UInt32) : hex08 n = padded 16 8 n.toNat := rfl

theorem hex_injective : Function.Injective hex := fun _ _ h =>
  UInt32.toNat_inj.1 (toDigits_injective (by decide) (by decide) h)

theorem hex08_injective : Function.Injective hex08 := fun _ _ h =>
  UInt32.toNat_inj.1 (padded_injective (by decide) (by decide) 8 h)

theorem length_hex (n : UInt32) : 1 ≤ (hex n).length ∧ (hex n).length ≤ 8 :=
  ⟨Nat.length_toDigits_pos, (Nat.length_toDigits_le_iff (by decide) (by decide)).2 n.toNat_lt⟩

theorem length_hex08 (n : UInt32) : (hex08 n).length = 8 := by
  rw [hex08_eq_padded]
  exact length_padded (by decide) (by decide) n.toNat_lt

theorem toNat_upper (uid : UInt64) :
    (uid >>> 32).toUInt32.toNat = uid.toNat / 4294967296 := by
  have hlt : uid.toNat / 4294967296 < 4294967296 :=
    Nat.div_lt_of_lt_mul uid.toNat_lt
  rw [UInt64.toNat_toUInt32, UInt64.toNat_shiftRight, Nat.shiftRight_eq_div_pow]
  exact Nat.mod_eq_of_lt hlt

/-- A UID is determined by its two halves. -/
theorem uid_of_halves {uid uid' : UInt64} (hupper : (uid >>> 32).toUInt32 = (uid' >>> 32).toUInt32)
    (hlower : uid.toUInt32 = uid'.toUInt32) : uid = uid' := by
  have hdiv : uid.toNat / 4294967296 = uid'.toNat / 4294967296 := by
    rw [← toNat_upper, ← toNat_upper, hupper]
  have hmod : uid.toNat % 4294967296 = uid'.toNat % 4294967296 := congrArg UInt32.toNat hlower
  apply UInt64.toNat_inj.1
  omega

/-- The lower half is in the last eight characters. -/
theorem uidText_injective : Function.Injective uidText := by
  intro uid uid' h
  have hlength : (hex08 uid.toUInt32).length = (hex08 uid'.toUInt32).length := by
    rw [length_hex08, length_hex08]
  obtain ⟨hupper, hlower⟩ := List.append_inj' h hlength
  exact uid_of_halves (hex_injective hupper) (hex08_injective hlower)

theorem length_uidText (uid : UInt64) :
    9 ≤ (uidText uid).length ∧ (uidText uid).length ≤ 16 := by
  have hupper := length_hex (uid >>> 32).toUInt32
  have hlower := length_hex08 uid.toUInt32
  rw [uidText, List.length_append]
  omega

/-- A name that begins with a fixed text. -/
theorem name_injective (text : CString) : Function.Injective fun uid => text ++ uidText uid :=
  fun _ _ h => uidText_injective (List.append_cancel_left h)

theorem length_name (text : CString) (uid : UInt64) :
    text.length + 9 ≤ (text ++ uidText uid).length ∧
      (text ++ uidText uid).length ≤ text.length + 16 := by
  have huid := length_uidText uid
  rw [List.length_append]
  omega

/-- **The names of a node** are its own, a topic for the uptime is not one for the button, and all
of them fit into their buffers with the terminator. -/
theorem identities_distinct :
    Function.Injective clientId ∧ Function.Injective uptimeTopicOf ∧
      Function.Injective buttonTopicOf ∧
      (∀ uid uid', uptimeTopicOf uid ≠ buttonTopicOf uid') ∧
      (∀ uid, 1 ≤ (clientId uid).length ∧ (clientId uid).length ≤ maxClientIdLength) ∧
      (∀ uid, (clientId uid).length + 1 ≤ clientIdSize) ∧
      (∀ uid, (uptimeTopicOf uid).length + 1 ≤ maxTopicNameLength) ∧
      (∀ uid, (buttonTopicOf uid).length + 1 ≤ maxTopicNameLength) := by
  have hclient : ∀ uid, 15 ≤ (clientId uid).length ∧ (clientId uid).length ≤ 22 :=
    length_name "Client".toList
  have huptime : ∀ uid, 16 ≤ (uptimeTopicOf uid).length ∧ (uptimeTopicOf uid).length ≤ 23 :=
    length_name "uptime/".toList
  have hbutton : ∀ uid, 16 ≤ (buttonTopicOf uid).length ∧ (buttonTopicOf uid).length ≤ 23 :=
    length_name "button/".toList
  refine ⟨name_injective _, name_injective _, name_injective _, ?_, ?_, ?_, ?_, ?_⟩
  · intro uid uid' h
    exact absurd (List.cons.inj h).1 (by decide)
  · intro uid
    have hlength := hclient uid
    unfold maxClientIdLength
    omega
  · intro uid
    have hlength := hclient uid
    unfold clientIdSize
    omega
  · intro uid
    have hlength := huptime uid
    unfold maxTopicNameLength
    omega
  · intro uid
    have hlength := hbutton uid
    unfold maxTopicNameLength
    omega

end EmbenetNode.Mqttsn
