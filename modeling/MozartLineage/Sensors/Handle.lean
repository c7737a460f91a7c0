import Mathlib.Logic.Function.Basic
import Mathlib.Data.Int.Notation
import Mathlib.Data.List.Induction
import Mathlib.Data.List.Nodup

/-!
# Global and local sensor handles

A sub-HAL numbers its sensors with local handles; the framework sees global
handles, which are assigned in the order in which the sensors are listed.
-/

namespace MozartLineage.Sensors

/-- Globally identifies a sensor, by module index and local handle. -/
structure FullHandle where
  moduleIndex : ℤ
  localHandle : ℤ
  deriving DecidableEq, Repr

/-- The two maps between global and full handles, and the next free global
handle. -/
structure HandleMaps where
  globalToFull : ℤ → Option FullHandle
  fullToGlobal : FullHandle → Option ℤ
  nextGlobalHandle : ℤ

namespace HandleMaps

/-- The maps before any sensor has been listed. -/
def empty : HandleMaps where
  globalToFull _ := none
  fullToGlobal _ := none
  nextGlobalHandle := 1

/-- The maps after a new handle has been assigned, and the handle. -/
def assignGlobalHandle (m : HandleMaps) (moduleIndex localHandle : ℤ) :
    HandleMaps × ℤ :=
  let globalHandle := m.nextGlobalHandle
  let fullHandle : FullHandle := ⟨moduleIndex, localHandle⟩
  ({ globalToFull := Function.update m.globalToFull globalHandle (some fullHandle)
     fullToGlobal := Function.update m.fullToGlobal fullHandle (some globalHandle)
     nextGlobalHandle := globalHandle + 1 }, globalHandle)

/-- The local handle, or `-1` if it does not exist. -/
def getLocalHandle (m : HandleMaps) (globalHandle : ℤ) : ℤ :=
  match m.globalToFull globalHandle with
  | none => -1
  | some f => f.localHandle

/-- The index of the module that contains the sensor, or `-1` if the global
handle does not exist. -/
def getModuleIndex (m : HandleMaps) (globalHandle : ℤ) : ℤ :=
  match m.globalToFull globalHandle with
  | none => -1
  | some f => f.moduleIndex

/-- The global handle, or `-1` if the full handle is unknown. -/
def getGlobalHandle (m : HandleMaps) (fullHandle : FullHandle) : ℤ :=
  match m.fullToGlobal fullHandle with
  | none => -1
  | some globalHandle => globalHandle

/-- No sensor has two global handles. -/
def Injective (m : HandleMaps) : Prop :=
  ∀ f g g', m.globalToFull g = some f → m.globalToFull g' = some f → g = g'

/-- The maps after the handles of a list have been assigned in turn. -/
def registered (fs : List FullHandle) : HandleMaps :=
  fs.foldl (fun m f => (m.assignGlobalHandle f.moduleIndex f.localHandle).1) empty

theorem registered_concat (fs : List FullHandle) (f : FullHandle) :
    registered (fs ++ [f]) =
      ((registered fs).assignGlobalHandle f.moduleIndex f.localHandle).1 := by
  simp [registered]

theorem nextGlobalHandle_registered (fs : List FullHandle) :
    (registered fs).nextGlobalHandle = fs.length + 1 := by
  induction fs using List.reverseRecOn with
  | nil => rfl
  | append_singleton fs f ih =>
      rw [registered_concat]
      simp [assignGlobalHandle, ih]

/-- Global handles count from `1`, in the order of the list. -/
theorem globalToFull_registered {fs : List FullHandle} {g : ℤ} {f : FullHandle} :
    (registered fs).globalToFull g = some f ↔ ∃ i : ℕ, g = i + 1 ∧ fs[i]? = some f := by
  induction fs using List.reverseRecOn with
  | nil => simp [registered, empty]
  | append_singleton fs f' ih =>
      simp only [registered_concat, assignGlobalHandle, nextGlobalHandle_registered,
        List.getElem?_append, List.getElem?_singleton]
      by_cases hg : g = fs.length + 1
      · subst hg
        rw [Function.update_self]
        constructor
        · intro h
          exact ⟨fs.length, by simp, by simpa using h⟩
        · rintro ⟨i, hi, h⟩
          obtain rfl : fs.length = i := by omega
          simpa using h
      · rw [Function.update_of_ne hg, ih]
        refine exists_congr fun i => and_congr_right fun hi => ?_
        split_ifs with hlt hlast
        · rfl
        · omega
        · simp [List.getElem?_eq_none (Nat.not_lt.1 hlt)]

theorem injective_registered {fs : List FullHandle} (h : fs.Nodup) :
    (registered fs).Injective := by
  intro f g g' hg hg'
  obtain ⟨i, rfl, hi⟩ := globalToFull_registered.1 hg
  obtain ⟨j, rfl, hj⟩ := globalToFull_registered.1 hg'
  obtain ⟨hlt, hi⟩ := List.getElem?_eq_some_iff.1 hi
  obtain ⟨hlt', hj⟩ := List.getElem?_eq_some_iff.1 hj
  obtain rfl : i = j := (h.getElem_inj_iff).1 (hi.trans hj.symm)
  rfl

/-- The two maps are inverse to each other. -/
theorem fullToGlobal_registered {fs : List FullHandle} (h : fs.Nodup) {g : ℤ}
    {f : FullHandle} :
    (registered fs).fullToGlobal f = some g ↔ (registered fs).globalToFull g = some f := by
  induction fs using List.reverseRecOn generalizing g f with
  | nil => simp [registered, empty]
  | append_singleton fs f' ih =>
      obtain ⟨hnodup, hnew⟩ : fs.Nodup ∧ f' ∉ fs := by
        refine ⟨h.of_append_left, fun hmem => ?_⟩
        exact (List.nodup_append.1 h).2.2 f' hmem f' (by simp) rfl
      have hnone (g : ℤ) : (registered fs).globalToFull g ≠ some f' := by
        intro hg
        obtain ⟨i, -, hi⟩ := globalToFull_registered.1 hg
        exact hnew (List.mem_of_getElem? hi)
      have hfresh : (registered fs).globalToFull (fs.length + 1) = none := by
        rw [Option.eq_none_iff_forall_ne_some]
        intro f hf
        obtain ⟨i, hi, hget⟩ := globalToFull_registered.1 hf
        have hlt := (List.getElem?_eq_some_iff.1 hget).1
        omega
      simp only [registered_concat, assignGlobalHandle, nextGlobalHandle_registered]
      by_cases hf : f = f'
      · subst hf
        by_cases hg : g = fs.length + 1
        · simp [hg]
        · simpa [Function.update_of_ne hg, hnone, eq_comm] using hg
      · rw [Function.update_of_ne hf, ih hnodup]
        by_cases hg : g = fs.length + 1
        · simp [hg, hfresh, Ne.symm hf]
        · rw [Function.update_of_ne hg]

end HandleMaps

/-- The fields of a sensor event that the proxy reads or writes, and its
timestamp. `metaDataSensor` is `meta_data.sensor`. -/
structure SensorsEvent where
  type : ℤ
  sensor : ℤ
  metaDataSensor : ℤ
  timestamp : ℤ
  deriving DecidableEq, Repr

def sensorTypeMetaData : ℤ := 0

/-- The copy of `src` that `copy_event_remap_handle` makes for the queue
`subIndex`. -/
def copyEventRemapHandle (m : HandleMaps) (src : SensorsEvent) (subIndex : ℤ) :
    SensorsEvent :=
  -- If it's a metadata event, rewrite the inner payload, not the sensor field.
  if src.type = sensorTypeMetaData then
    { src with metaDataSensor := m.getGlobalHandle ⟨subIndex, src.metaDataSensor⟩ }
  else { src with sensor := m.getGlobalHandle ⟨subIndex, src.sensor⟩ }

end MozartLineage.Sensors
