import Mathlib.Data.Int.Notation
import Mathlib.Data.List.Basic

/-!
# What the message handlers do

The handlers of the two services print on the console and switch LEDs.

* `Led`, `Output`: the LEDs, and a text printed or a value written to a LED;
* `ascii`, `decimal`: the bytes of a text and of `%d`;
* `writes`: the LEDs switched by some outputs.
-/

namespace EmbenetNode.Services

/-- `CONFIG_LED_0_GPIO` to `CONFIG_LED_3_GPIO` -/
inductive Led
  | led0
  | led1
  | led2
  | led3
  deriving DecidableEq

/-- `printf` or `puts` of a text; `GPIO_write` of `CONFIG_GPIO_LED_ON` or `CONFIG_GPIO_LED_OFF`. -/
inductive Output
  | log (text : List UInt8)
  | gpioWrite (led : Led) (on : Bool)
  deriving DecidableEq

/-- The bytes of a text of ASCII characters. -/
def ascii (text : String) : List UInt8 := text.toList.map fun c => UInt8.ofNat c.toNat

/-- `%d` of an `int`. -/
def decimal (n : ℤ) : List UInt8 :=
  let digits := (Nat.toDigits 10 n.natAbs).map fun c => UInt8.ofNat c.toNat
  if n < 0 then ascii "-" ++ digits else digits

/-- The cast of a `size_t` to `int`. -/
def toInt (size : ℕ) : ℤ := Int.bmod size 4294967296

/-- The LEDs switched, in order. -/
def writes (outputs : List Output) : List (Led × Bool) :=
  outputs.filterMap fun
    | .log _ => none
    | .gpioWrite led on => some (led, on)

@[simp] theorem writes_nil : writes [] = [] := rfl

@[simp] theorem writes_log (text : List UInt8) (outputs : List Output) :
    writes (.log text :: outputs) = writes outputs := rfl

@[simp] theorem writes_gpioWrite (led : Led) (on : Bool) (outputs : List Output) :
    writes (.gpioWrite led on :: outputs) = (led, on) :: writes outputs := rfl

end EmbenetNode.Services
