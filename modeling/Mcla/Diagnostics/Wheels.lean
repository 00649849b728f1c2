import Mcla.Diagnostics.TriggerCategory
import Mcla.Host.ActiveDevice

/-! # The state of the wheels

What `mcla_diagnostic_trigger` records of the input devices for a wheel snapshot.
-/
namespace Mcla.Wheels
open TriggerCategory (Bytes literal)
open ActiveDevice (InputSource ActiveTransition)
open List

/-- Raw button indices, each -1 for none. -/
structure WheelButtons where
  (l2 r2 : Int := -1)

/-- One joystick, as the snapshot holds it. -/
structure JoystickState where
  instance_id : UInt32 := 0
  (name guid : Bytes := [])
  (vendor_id product_id : UInt16 := 0)
  joystick_type : Int := 0
  (is_gamepad is_wheel opened haptic : Bool := false)
  axes : List Int := []
  (buttons hats : List UInt8 := [])

/-- The input devices of a session. -/
structure WheelState where
  buttons : WheelButtons := {}
  trigger_device : Option UInt32 := none
  devices : List JoystickState := []
  host_latest_known : Bool := false
  host_latest : UInt32 := 0
  host_latest_source : InputSource := .kJoystick
  (host_latest_timestamp_ms host_total_transitions : UInt64 := 0)
  host_transitions : List ActiveTransition := []
  (sdk_active_controller_log sdk_force_feedback_log sdk_device_log : List Bytes := [])

/-- `%X` of four bits. -/
def upperHexDigit (d : Nat) : UInt8 := UInt8.ofNat (if d < 10 then 48 + d else 55 + d)

/-- `Hex16`: `0x%04X`. -/
def hex16 (value : UInt16) : Bytes :=
  literal "0x" ++ [value.toNat / 4096, value.toNat / 256 % 16, value.toNat / 16 % 16,
    value.toNat % 16].map upperHexDigit

/-- A digit, a capital letter or the `x`. -/
theorem hex16_printable {value : UInt16} {c : UInt8} (h : c ∈ hex16 value) :
    48 ≤ c.toNat ∧ c.toNat < 127 ∧ c ≠ 92 := by
  have hdigit : ∀ d, d < 16 → 48 ≤ (upperHexDigit d).toNat ∧ (upperHexDigit d).toNat < 127 ∧
      upperHexDigit d ≠ 92 := by
    decide
  have hvalue := value.toNat_lt
  rcases mem_append.mp h with hfirst | hdigits
  · have hplain : (literal "0x").all fun c => 48 ≤ c.toNat ∧ c.toNat < 127 ∧ c ≠ 92 := by
      decide
    exact of_decide_eq_true (all_eq_true.mp hplain c hfirst)
  · obtain ⟨d, hd, rfl⟩ := mem_map.mp hdigits
    simp only [mem_cons, not_mem_nil, or_false] at hd
    apply hdigit
    omega

end Mcla.Wheels
