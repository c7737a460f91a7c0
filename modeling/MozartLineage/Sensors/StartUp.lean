import Mathlib.Algebra.GroupWithZero.Nat
import Mathlib.Data.List.Zip
import MozartLineage.Sensors.Proxy

/-!
# Starting the sensor proxy

`open_sensors` opens the sub-HALs, and `get_sensors_list` builds the list of all
sensors on its first call. Either may come first, and may load the modules. The
two share the version map and `queue_mutex`: the one takes the mutex, and the
other gives it back.

A call may fault: it may use a pointer that is not there, or an entry of the
version map, block on a mutex that stays locked, or unlock one that is not. A
fault ends the run.
-/

namespace MozartLineage.Sensors

def sensorsDeviceApiVersion1_3 : ℤ := 0x01030001

def sensorTypeLight : ℤ := 5

def sensorTypeTemperature : ℤ := 7

def sensorTypeProximity : ℤ := 8

def sensorFlagWakeUp : ℕ := 1

def sensorFlagOnChangeMode : ℕ := 2

/-- The flags of a sensor, made compliant with the version of its sub-HAL. -/
def fixSensorFlags (version : ℤ) (sensor : SensorT) : SensorT :=
  if version < sensorsDeviceApiVersion1_3 then
    if sensor.type = sensorTypeProximity then
      { sensor with flags := sensor.flags ||| sensorFlagOnChangeMode ||| sensorFlagWakeUp }
    else if sensor.type = sensorTypeTemperature then
      { sensor with flags := sensor.flags ||| sensorFlagOnChangeMode }
    else if sensor.type = sensorTypeLight then
      { sensor with flags := sensor.flags ||| sensorFlagOnChangeMode }
    else sensor
  else sensor

@[simp] theorem fixSensorFlags_handle (version : ℤ) (sensor : SensorT) :
    (fixSensorFlags version sensor).handle = sensor.handle := by
  unfold fixSensorFlags
  split_ifs <;> rfl

namespace StartUp

/-- The modules that the configuration names, by their addresses, and the sensors
that each of them lists. A module may be named more than once. -/
structure SubHals where
  modules : List ℕ
  sensorsList : ℕ → List SensorT

inductive Mutex where
  | initModules
  | initSensors
  | queue
  deriving DecidableEq

structure Globals where
  subHwModules : Option (List ℕ)
  subHwVersions : Option (ℕ → Option ℤ)
  globalSensorsList : Option (List SensorT)
  globalSensorsCount : ℤ
  handles : HandleMaps
  locked : Mutex → Bool

def Globals.init : Globals where
  subHwModules := none
  subHwVersions := none
  globalSensorsList := none
  globalSensorsCount := -1
  handles := .empty
  locked _ := false

inductive Fault where
  | nullPointer
  | outOfRange
  | blocked
  | notLocked
  deriving DecidableEq

def lock (m : Mutex) (s : Globals) : Except Fault Globals :=
  if s.locked m then .error .blocked
  else .ok { s with locked := Function.update s.locked m true }

def unlock (m : Mutex) (s : Globals) : Except Fault Globals :=
  if s.locked m then .ok { s with locked := Function.update s.locked m false }
  else .error .notLocked

/-! ### The list of sensors -/

/-- What has been built of the list, and the maps so far. -/
structure Listing where
  handles : HandleMaps
  sensors : List SensorT

/-- One sensor of the module `module`, which has the index `moduleIndex`. -/
def listSensor (versions : Option (ℕ → Option ℤ)) (module moduleIndex : ℕ) (l : Listing)
    (sensor : SensorT) : Except Fault Listing :=
  let assigned := l.handles.assignGlobalHandle moduleIndex sensor.handle
  match versions with
  | none => .error .nullPointer
  | some versions =>
      match versions module with
      | none => .error .outOfRange
      | some version =>
          .ok
            { handles := assigned.1
              sensors := l.sensors ++
                [fixSensorFlags version { sensor with handle := assigned.2 }] }

def listModule (hal : SubHals) (versions : Option (ℕ → Option ℤ)) (l : Listing)
    (module : ℕ × ℕ) : Except Fault Listing :=
  (hal.sensorsList module.1).foldlM (listSensor versions module.1 module.2) l

def listModules (hal : SubHals) (versions : Option (ℕ → Option ℤ)) (modules : List ℕ)
    (l : Listing) : Except Fault Listing :=
  modules.zipIdx.foldlM (listModule hal versions) l

/-! ### The calls -/

def lazyInitModules (hal : SubHals) (s : Globals) : Except Fault Globals := do
  let s ← lock .initModules s
  if s.subHwModules.isSome then unlock .initModules s
  else unlock .initModules { s with subHwModules := some hal.modules }

def lazyInitSensorsList (hal : SubHals) (s : Globals) : Except Fault Globals := do
  let s ← lock .initSensors s
  if s.globalSensorsList.isSome then
    -- already initialized
    unlock .initSensors s
  else
    let s ← lazyInitModules hal s
    match s.subHwModules with
    | none => .error .nullPointer
    | some modules =>
        let listing ← listModules hal s.subHwVersions modules ⟨s.handles, []⟩
        let s ← unlock .initSensors
          { s with
            globalSensorsCount := (modules.map fun m => (hal.sensorsList m).length).sum
            globalSensorsList := some listing.sensors
            handles := listing.handles
            subHwVersions := none }
        unlock .queue s

/-- The list that is handed out, and its length. -/
def moduleGetSensorsList (hal : SubHals) (s : Globals) :
    Except Fault (Globals × Option (List SensorT) × ℤ) := do
  let s ← lazyInitSensorsList hal s
  return (s, s.globalSensorsList, s.globalSensorsCount)

/-- The version of an opened module is remembered; the first one stays. -/
def insertVersion (opens : ℕ → Option ℤ) (versions : ℕ → Option ℤ) (module : ℕ × ℕ) :
    ℕ → Option ℤ :=
  match opens module.2 with
  | none => versions
  | some version =>
      if (versions module.1).isSome then versions
      else Function.update versions module.1 (some version)

/-- The version map after the modules have been opened. -/
def openVersions (opens : ℕ → Option ℤ) (modules : List ℕ) : ℕ → Option ℤ :=
  modules.zipIdx.foldl (insertVersion opens) fun _ => none

/-- The devices of the modules that could be opened. -/
def openDevices (opens : ℕ → Option ℤ) (modules : List ℕ) : List SubHwDevice :=
  (List.range modules.length).filterMap fun i =>
    (opens i).map fun version => ⟨i, version⟩

/-- `opens` gives the version of the device that is opened from the module of an
index, `none` where that fails. -/
def openSensors (hal : SubHals) (opens : ℕ → Option ℤ) (s : Globals) :
    Except Fault (Globals × List SubHwDevice) := do
  let s ← lazyInitModules hal s
  let s ← lock .queue s
  match s.subHwModules with
  | none => .error .nullPointer
  | some modules =>
      return ({ s with subHwVersions := some (openVersions opens modules) },
        openDevices opens modules)

/-! ### What the list holds -/

/-- A sensor, with the module that lists it. -/
structure Entry where
  module : ℕ
  moduleIndex : ℕ
  sensor : SensorT

def Entry.fullHandle (e : Entry) : FullHandle := ⟨e.moduleIndex, e.sensor.handle⟩

/-- All sensors, in the order in which they are listed. -/
def entries (hal : SubHals) (modules : List ℕ) : List Entry :=
  modules.zipIdx.flatMap fun m => (hal.sensorsList m.1).map fun x => ⟨m.1, m.2, x⟩

theorem mem_entries {hal : SubHals} {modules : List ℕ} {e : Entry} :
    e ∈ entries hal modules ↔
      modules[e.moduleIndex]? = some e.module ∧ e.sensor ∈ hal.sensorsList e.module := by
  obtain ⟨module, moduleIndex, sensor⟩ := e
  simp only [entries, List.mem_flatMap, List.mem_map, Prod.exists, List.mem_zipIdx_iff_getElem?]
  constructor
  · rintro ⟨m, i, hm, x, hx, h⟩
    cases h
    exact ⟨hm, hx⟩
  · rintro ⟨hm, hx⟩
    exact ⟨module, moduleIndex, hm, sensor, hx, rfl⟩

theorem length_entries (hal : SubHals) (modules : List ℕ) :
    (entries hal modules).length =
      (modules.map fun m => (hal.sensorsList m).length).sum := by
  have hmap := List.map_map (f := fun m : ℕ × ℕ => m.1)
    (g := fun m => (hal.sensorsList m).length) (l := modules.zipIdx)
  rw [List.zipIdx_map_fst] at hmap
  rw [entries, List.length_flatMap, hmap]
  simp only [List.length_map]
  rfl

/-- The list that is built when every version is known. -/
def listed (versions : ℕ → Option ℤ) (es : List Entry) : List SensorT :=
  es.mapIdx fun i e =>
    fixSensorFlags ((versions e.module).getD 0) { e.sensor with handle := i + 1 }

theorem map_handle_listed (versions : ℕ → Option ℤ) (es : List Entry) :
    (listed versions es).map SensorT.handle =
      (List.range es.length).map fun i : ℕ => (i + 1 : ℤ) := by
  apply List.ext_getElem
  · simp [listed]
  · simp [listed]

theorem listModules_eq (hal : SubHals) (versions : Option (ℕ → Option ℤ))
    (modules : List ℕ) (l : Listing) :
    listModules hal versions modules l =
      (entries hal modules).foldlM
        (fun l e => listSensor versions e.module e.moduleIndex l e.sensor) l := by
  unfold listModules entries
  generalize modules.zipIdx = ms
  induction ms generalizing l with
  | nil => rfl
  | cons m ms ih =>
      rw [List.foldlM_cons, List.flatMap_cons, List.foldlM_append, List.foldlM_map]
      simp only [ih]
      rfl

/-- With a version for every module that has sensors, the list is built. -/
theorem listModules_of_versions {hal : SubHals} {versions : ℕ → Option ℤ}
    {modules : List ℕ} (h : ∀ e ∈ entries hal modules, (versions e.module).isSome) :
    listModules hal (some versions) modules ⟨.empty, []⟩ =
      .ok ⟨.registered ((entries hal modules).map Entry.fullHandle),
        listed versions (entries hal modules)⟩ := by
  rw [listModules_eq]
  generalize entries hal modules = es at h
  induction es using List.reverseRecOn with
  | nil => rfl
  | append_singleton es e ih =>
      obtain ⟨version, hversion⟩ := Option.isSome_iff_exists.1 (h e (by simp))
      rw [List.foldlM_append, ih fun e he => h e (by simp [he])]
      simp [bind, Except.bind, pure, Except.pure, listSensor, hversion, listed,
        List.mapIdx_append, HandleMaps.registered_concat, HandleMaps.assignGlobalHandle,
        HandleMaps.nextGlobalHandle_registered, Entry.fullHandle]

/-- Without the version of one sensor, it is not. -/
theorem listModules_error {hal : SubHals} {versions : Option (ℕ → Option ℤ)}
    {modules : List ℕ} {e : Entry} (he : e ∈ entries hal modules)
    (h : versions.bind (· e.module) = none) (l : Listing) :
    ∃ fault, listModules hal versions modules l = .error fault := by
  rw [listModules_eq]
  generalize entries hal modules = es at he
  induction es generalizing l with
  | nil => simp at he
  | cons e' es ih =>
      rw [List.foldlM_cons]
      cases hnext : listSensor versions e'.module e'.moduleIndex l e'.sensor with
      | error fault => exact ⟨fault, rfl⟩
      | ok l' =>
          rcases List.mem_cons.1 he with rfl | he
          · cases versions with
            | none => simp [listSensor] at hnext
            | some versions =>
                have hnone : versions e.module = none := h
                simp [listSensor, hnone] at hnext
          · exact ih l' he

theorem insertVersion_isSome {opens versions : ℕ → Option ℤ} {module : ℕ × ℕ} {m : ℕ} :
    (insertVersion opens versions module m).isSome ↔
      (versions m).isSome ∨ module.1 = m ∧ (opens module.2).isSome := by
  unfold insertVersion
  cases hopen : opens module.2 with
  | none => simp
  | some version =>
      by_cases hm : module.1 = m
      · subst hm
        by_cases hold : (versions module.1).isSome <;> simp [hold]
      · by_cases hold : (versions module.1).isSome <;>
          simp [hold, hm, Function.update_of_ne (Ne.symm hm)]

/-- The modules with a known version are those that could be opened, at one of
their places at least. -/
theorem openVersions_isSome {opens : ℕ → Option ℤ} {modules : List ℕ} {m : ℕ} :
    (openVersions opens modules m).isSome ↔
      ∃ i, modules[i]? = some m ∧ (opens i).isSome := by
  induction modules using List.reverseRecOn with
  | nil => simp [openVersions]
  | append_singleton ms m' ih =>
      have hstep : openVersions opens (ms ++ [m']) =
          insertVersion opens (openVersions opens ms) (m', ms.length) := by
        simp [openVersions, List.zipIdx_append]
      rw [hstep, insertVersion_isSome, ih]
      constructor
      · rintro (⟨i, hi, hopen⟩ | ⟨rfl, hopen⟩)
        · have hlt := (List.getElem?_eq_some_iff.1 hi).1
          exact ⟨i, by rw [List.getElem?_append_left hlt, hi], hopen⟩
        · exact ⟨ms.length, by simp, hopen⟩
      · rintro ⟨i, hi, hopen⟩
        rcases Nat.lt_trichotomy i ms.length with hlt | rfl | hgt
        · rw [List.getElem?_append_left hlt] at hi
          exact Or.inl ⟨i, hi, hopen⟩
        · exact Or.inr ⟨by simpa using hi, hopen⟩
        · rw [List.getElem?_eq_none (by simp; omega)] at hi
          cases hi

/-! ### What the calls do -/

theorem lazyInitModules_eq {hal : SubHals} {s : Globals}
    (h : s.locked .initModules = false) :
    lazyInitModules hal s =
      .ok { s with subHwModules := some (s.subHwModules.getD hal.modules) } := by
  have hlocked : Function.update (Function.update s.locked .initModules true)
      .initModules false = s.locked := by
    rw [Function.update_idem, ← h, Function.update_eq_self]
  cases hm : s.subHwModules <;>
    simp [lazyInitModules, lock, unlock, h, hm, bind, Except.bind, hlocked]

theorem openSensors_eq {hal : SubHals} {opens : ℕ → Option ℤ} {s : Globals}
    (h : s.locked .initModules = false) (hqueue : s.locked .queue = false) :
    openSensors hal opens s =
      .ok
        ({ s with
            subHwModules := some (s.subHwModules.getD hal.modules)
            subHwVersions := some (openVersions opens (s.subHwModules.getD hal.modules))
            locked := Function.update s.locked .queue true },
          openDevices opens (s.subHwModules.getD hal.modules)) := by
  simp [openSensors, lazyInitModules_eq h, lock, hqueue, bind, Except.bind, pure,
    Except.pure]

theorem openSensors_blocked {hal : SubHals} {opens : ℕ → Option ℤ} {s : Globals}
    (h : s.locked .initModules = false) (hqueue : s.locked .queue = true) :
    openSensors hal opens s = .error .blocked := by
  simp [openSensors, lazyInitModules_eq h, lock, hqueue, bind, Except.bind]

/-- The list is built once. -/
theorem lazyInitSensorsList_of_listed {hal : SubHals} {s : Globals}
    (h : s.locked .initSensors = false) (hlist : s.globalSensorsList.isSome) :
    lazyInitSensorsList hal s = .ok s := by
  have hlocked : Function.update (Function.update s.locked .initSensors true)
      .initSensors false = s.locked := by
    rw [Function.update_idem, ← h, Function.update_eq_self]
  simp [lazyInitSensorsList, lock, unlock, h, hlist, bind, Except.bind, hlocked]

/-- The first query, from what the list comes to. -/
theorem lazyInitSensorsList_eq {hal : SubHals} {s : Globals}
    (h : s.locked .initSensors = false) (hmodules : s.locked .initModules = false)
    (hlist : s.globalSensorsList = none) {modules : List ℕ}
    (hm : s.subHwModules.getD hal.modules = modules) :
    lazyInitSensorsList hal s =
      match listModules hal s.subHwVersions modules ⟨s.handles, []⟩ with
      | .error fault => .error fault
      | .ok listing =>
          unlock .queue
            { s with
              subHwModules := some modules
              globalSensorsCount := (modules.map fun m => (hal.sensorsList m).length).sum
              globalSensorsList := some listing.sensors
              handles := listing.handles
              subHwVersions := none } := by
  have hlocked : Function.update (Function.update s.locked .initSensors true)
      .initSensors false = s.locked := by
    rw [Function.update_idem, ← h, Function.update_eq_self]
  have hlock : lock .initSensors s =
      .ok { s with locked := Function.update s.locked .initSensors true } := by
    simp [lock, h]
  simp only [lazyInitSensorsList, hlock, bind, Except.bind, hlist, Option.isSome_none]
  rw [lazyInitModules_eq (by simpa using hmodules)]
  simp only [hm]
  cases listModules hal s.subHwVersions modules ⟨s.handles, []⟩ with
  | error fault => rfl
  | ok listing => simp [unlock, hlocked]

end StartUp

end MozartLineage.Sensors
