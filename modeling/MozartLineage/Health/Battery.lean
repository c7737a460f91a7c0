import Mathlib.Data.Int.Notation
import Mathlib.Logic.Basic
import Mathlib.Tactic.ByContra
import Mathlib.Tactic.SplitIfs

/-!
# The units of the battery's readings

The fuel gauge reports current and charge in mA and mAh, and Health wants µA and µAh.
`healthd` scales its 32-bit properties in place. A property that is asked for one by one is
scaled as a 64-bit value and narrowed by the HAL afterwards. Each of the two leaves a value
alone that it would overflow on, but the bounds are those of different widths.
-/

namespace MozartLineage.Health

def kMilliToMicro : Int32 := 1000

/-- `scaleToMicro` for an `int`. -/
def scaleToMicro (value : Int32) : Int32 :=
  if value > Int32.maxValue / kMilliToMicro ∨ value < Int32.minValue / kMilliToMicro then value
  else value * kMilliToMicro

/-- `scaleToMicro` for an `int64_t`. -/
def scaleToMicro64 (value : Int64) : Int64 :=
  if value > Int64.maxValue / kMilliToMicro.toInt64 ∨
      value < Int64.minValue / kMilliToMicro.toInt64 then value
  else value * kMilliToMicro.toInt64

structure BatteryProperties where
  batteryCurrent : Int32
  batteryFullCharge : Int32
  batteryChargeCounter : Int32
  deriving DecidableEq

def healthdBoardBatteryUpdate (props : BatteryProperties) : BatteryProperties where
  batteryCurrent := scaleToMicro props.batteryCurrent
  batteryFullCharge := scaleToMicro props.batteryFullCharge
  batteryChargeCounter := scaleToMicro props.batteryChargeCounter

inductive BatteryProp where
  | chargeCounter
  | currentNow
  | currentAvg
  | other (id : ℤ)
  deriving DecidableEq

def healthdBoardBatteryPropertyUpdate (id : BatteryProp) (value : Int64) : Int64 :=
  match id with
  | .chargeCounter => scaleToMicro64 value
  | .currentNow => scaleToMicro64 value
  | .currentAvg => scaleToMicro64 value
  | .other _ => value

/-- `getProperty` of the HAL with `int32_t` for `T`. The monitor gives a value or an error. -/
def getProperty (id : BatteryProp) (defaultValue : Int32) (result : Except ℤ Int64) : Int32 :=
  match result with
  | .error _ => defaultValue
  | .ok valueInt64 => (healthdBoardBatteryPropertyUpdate id valueInt64).toInt32

/-- A reading that is published in both ways. -/
inductive Reading where
  | current
  | chargeCounter
  deriving DecidableEq

namespace Reading

/-- The field that `healthd` publishes it in. -/
def field : Reading → BatteryProperties → Int32
  | current => BatteryProperties.batteryCurrent
  | chargeCounter => BatteryProperties.batteryChargeCounter

/-- The properties that are asked for it. -/
def ids : Reading → List BatteryProp
  | current => [.currentNow, .currentAvg]
  | chargeCounter => [.chargeCounter]

/-- Both ways give the same value. -/
def Agrees (r : Reading) (props : BatteryProperties) : Prop :=
  ∀ id ∈ r.ids, ∀ defaultValue,
    getProperty id defaultValue (.ok (r.field props).toInt64) =
      r.field (healthdBoardBatteryUpdate props)

end Reading

/-- What 32 bits can hold in the smaller unit too. -/
def Scalable (v : Int32) : Prop := -2147483 ≤ v.toInt ∧ v.toInt ≤ 2147483

instance (v : Int32) : Decidable (Scalable v) := inferInstanceAs (Decidable (_ ∧ _))

variable {v w : Int32} {r : Reading} {props props' : BatteryProperties}

theorem scaleToMicro_eq : scaleToMicro v = if Scalable v then v * kMilliToMicro else v := by
  have hmax : (Int32.maxValue / kMilliToMicro).toInt = 2147483 := rfl
  have hmin : (Int32.minValue / kMilliToMicro).toInt = -2147483 := rfl
  have hguard : (v > Int32.maxValue / kMilliToMicro ∨ v < Int32.minValue / kMilliToMicro) ↔
      ¬ Scalable v := by
    rw [gt_iff_lt, Int32.lt_iff_toInt_lt, Int32.lt_iff_toInt_lt, hmax, hmin, Scalable]
    omega
  rw [scaleToMicro]
  simp only [hguard, ite_not]

theorem toInt_scaleToMicro (h : Scalable v) : (scaleToMicro v).toInt = v.toInt * 1000 := by
  have hk : kMilliToMicro.toInt = 1000 := rfl
  obtain ⟨hmin, hmax⟩ := h
  rw [scaleToMicro_eq, if_pos ⟨hmin, hmax⟩, Int32.toInt_mul, hk]
  exact Int.bmod_eq_of_le (by omega) (by omega)

/-- The bounds for 64 bits do not hold up a value of 32 bits. -/
theorem toInt_scaleToMicro64 : (scaleToMicro64 v.toInt64).toInt = v.toInt * 1000 := by
  have hle := v.le_toInt
  have hlt := v.toInt_lt
  have hmax : (Int64.maxValue / kMilliToMicro.toInt64).toInt = 9223372036854775 := rfl
  have hmin : (Int64.minValue / kMilliToMicro.toInt64).toInt = -9223372036854775 := rfl
  have hk : kMilliToMicro.toInt64.toInt = 1000 := rfl
  have hguard : ¬ (v.toInt64 > Int64.maxValue / kMilliToMicro.toInt64 ∨
      v.toInt64 < Int64.minValue / kMilliToMicro.toInt64) := by
    rw [gt_iff_lt, Int64.lt_iff_toInt_lt, Int64.lt_iff_toInt_lt, hmax, hmin,
      Int32.toInt_toInt64]
    omega
  rw [scaleToMicro64, if_neg hguard, Int64.toInt_mul, Int32.toInt_toInt64, hk]
  exact Int.bmod_eq_of_le (by omega) (by omega)

/-- Narrowing gives the product of 32 bits, wrapped. -/
theorem toInt32_scaleToMicro64 : (scaleToMicro64 v.toInt64).toInt32 = v * kMilliToMicro := by
  rw [← Int32.toInt_inj, Int64.toInt_toInt32, toInt_scaleToMicro64, Int32.toInt_mul]
  rfl

theorem getProperty_eq {id : BatteryProp} (hid : id ∈ r.ids) (defaultValue : Int32) :
    getProperty id defaultValue (.ok v.toInt64) = v * kMilliToMicro := by
  rw [← toInt32_scaleToMicro64]
  cases r with
  | current =>
      simp only [Reading.ids, List.mem_cons, List.not_mem_nil, or_false] at hid
      rcases hid with rfl | rfl <;> rfl
  | chargeCounter =>
      obtain rfl := List.mem_singleton.1 hid
      rfl

theorem Reading.field_update :
    r.field (healthdBoardBatteryUpdate props) = scaleToMicro (r.field props) := by
  cases r <;> rfl

theorem mul_kMilliToMicro_eq_self_iff : v * kMilliToMicro = v ↔ v = 0 := by
  have hk : kMilliToMicro.toInt = 1000 := rfl
  have hle := v.le_toInt
  have hlt := v.toInt_lt
  rw [← Int32.toInt_inj, ← Int32.toInt_inj, Int32.toInt_mul, hk, Int.bmod_def, Int32.toInt_zero]
  -- 999 is prime to the modulus
  split_ifs <;> omega

/-- The two ways part where the value of 32 bits can no longer be scaled. -/
theorem Reading.agrees_iff : r.Agrees props ↔ Scalable (r.field props) := by
  have hids : ∃ id, id ∈ r.ids := by
    cases r <;> simp [Reading.ids]
  constructor
  · intro h
    obtain ⟨id, hid⟩ := hids
    have heq := h id hid 0
    rw [getProperty_eq hid, field_update, scaleToMicro_eq] at heq
    by_contra hout
    rw [if_neg hout, mul_kMilliToMicro_eq_self_iff] at heq
    rw [heq] at hout
    exact hout (by decide)
  · intro h id hid defaultValue
    rw [getProperty_eq hid, field_update, scaleToMicro_eq, if_pos h]

theorem scaleToMicro_mono (hv : Scalable v) (hw : Scalable w) (h : v ≤ w) :
    scaleToMicro v ≤ scaleToMicro w := by
  rw [Int32.le_iff_toInt_le] at h ⊢
  rw [toInt_scaleToMicro hv, toInt_scaleToMicro hw]
  omega

/-- A reading that can be scaled is published in the smaller unit in both ways, and another
one is left as it is by `healthd`. What `healthd` publishes does not decrease with the
reading among those that are scaled, nor among the others. -/
theorem Reading.scaled (r : Reading) (props : BatteryProperties) :
    (Scalable (r.field props) → r.Agrees props ∧
      (r.field (healthdBoardBatteryUpdate props)).toInt = (r.field props).toInt * 1000) ∧
    (¬ Scalable (r.field props) →
      r.field (healthdBoardBatteryUpdate props) = r.field props) ∧
    ∀ props', r.field props ≤ r.field props' →
      (Scalable (r.field props) ↔ Scalable (r.field props')) →
      r.field (healthdBoardBatteryUpdate props) ≤
        r.field (healthdBoardBatteryUpdate props') := by
  refine ⟨fun h => ⟨agrees_iff.2 h, ?_⟩, fun h => ?_, fun props' hle hboth => ?_⟩
  · rw [field_update, toInt_scaleToMicro h]
  · rw [field_update, scaleToMicro_eq, if_neg h]
  · rw [field_update, field_update]
    by_cases h : Scalable (r.field props)
    · exact scaleToMicro_mono h (hboth.1 h) hle
    · rwa [scaleToMicro_eq, if_neg h, scaleToMicro_eq, if_neg fun h' => h (hboth.2 h')]

/-- From 2147484 on the reading is left in the larger unit, and the HAL narrows a product
that has wrapped; the readings before it are larger when they are published. -/
theorem not_agrees_tooLarge :
    ¬ Reading.current.Agrees ⟨2147484, 0, 0⟩ ∧
      ¬ (healthdBoardBatteryUpdate ⟨2147483, 0, 0⟩).batteryCurrent ≤
        (healthdBoardBatteryUpdate ⟨2147484, 0, 0⟩).batteryCurrent := by
  refine ⟨fun h => absurd (h .currentNow (by decide) 0) (by decide), by decide⟩

end MozartLineage.Health
