import MozartLineage.Sensors.Routing
import Mathlib.Order.Defs.Unbundled

/-!
# The numbering of the sensors

The first query of the sensor list counts the sensors of all modules, allocates an array of
that size, and goes through the modules a second time to fill it. `fillModules` is that
second pass with its array and its three counters, and with a record of the slots that it
has written. It writes every slot once, in order, and what it leaves is the list that
`listModules` builds.

The maps of the handles are ordered by `FullHandle::operator<`, which is a strict total
order, so that keys are told apart if they differ.
-/

namespace MozartLineage.Sensors

namespace FullHandle

/-- `operator<` -/
def lt (this that : FullHandle) : Bool :=
  if this.moduleIndex < that.moduleIndex then true
  else if this.moduleIndex > that.moduleIndex then false
  else this.localHandle < that.localHandle

/-- `operator==` -/
def eq (this that : FullHandle) : Bool :=
  this.moduleIndex = that.moduleIndex ∧ this.localHandle = that.localHandle

variable {a b : FullHandle}

theorem lt_iff :
    a.lt b ↔ a.moduleIndex < b.moduleIndex ∨
      a.moduleIndex = b.moduleIndex ∧ a.localHandle < b.localHandle := by
  unfold lt
  split_ifs with hlt hgt
  · simp [hlt]
  · simp
    omega
  · simp only [decide_eq_true_eq]
    omega

theorem eq_iff : a.eq b ↔ a = b := by
  obtain ⟨i, l⟩ := a
  obtain ⟨j, l'⟩ := b
  simp [eq]

instance : IsStrictTotalOrder FullHandle fun a b => a.lt b where
  trichotomous a b hab hba := by
    rw [lt_iff] at hab hba
    rw [← eq_iff, eq, decide_eq_true_eq]
    omega
  irrefl a := by
    rw [lt_iff]
    omega
  trans a b c hab hbc := by
    rw [lt_iff] at hab hbc ⊢
    omega

/-- What the order cannot tell apart is equal. -/
theorem eq_iff_not_lt : a.eq b ↔ ¬ a.lt b ∧ ¬ b.lt a := by
  rw [eq_iff, lt_iff, lt_iff, ← eq_iff, eq, decide_eq_true_eq]
  omega

end FullHandle

namespace StartUp

/-! ### The second pass -/

/-- The array, with the slots that have been set, and the counters. `written` lists the slots
in the order in which they were written. -/
structure Filling where
  handles : HandleMaps
  mutableSensorList : ℕ → Option SensorT
  mutableSensorIndex : ℕ
  moduleIndex : ℕ
  written : List ℕ

def Filling.init : Filling where
  handles := .empty
  mutableSensorList _ := none
  mutableSensorIndex := 0
  moduleIndex := 0
  written := []

/-- One sensor of a module, into an array of `count` slots. -/
def fillSensor (count : ℕ) (versions : Option (ℕ → Option ℤ)) (module : ℕ) (f : Filling)
    (sensor : SensorT) : Except Fault Filling :=
  if count ≤ f.mutableSensorIndex then .error .outOfRange
  else
    let assigned := f.handles.assignGlobalHandle f.moduleIndex sensor.handle
    match versions with
    | none => .error .nullPointer
    | some versions =>
        match versions module with
        | none => .error .outOfRange
        | some version =>
            .ok
              { f with
                handles := assigned.1
                mutableSensorList := Function.update f.mutableSensorList f.mutableSensorIndex
                  (some (fixSensorFlags version { sensor with handle := assigned.2 }))
                mutableSensorIndex := f.mutableSensorIndex + 1
                written := f.written ++ [f.mutableSensorIndex] }

def fillModule (hal : SubHals) (count : ℕ) (versions : Option (ℕ → Option ℤ)) (f : Filling)
    (module : ℕ) : Except Fault Filling := do
  let f ← (hal.sensorsList module).foldlM (fillSensor count versions module) f
  return { f with moduleIndex := f.moduleIndex + 1 }

def fillModules (hal : SubHals) (count : ℕ) (versions : Option (ℕ → Option ℤ))
    (modules : List ℕ) (f : Filling) : Except Fault Filling :=
  modules.foldlM (fillModule hal count versions) f

/-- The first pass. -/
def countSensors (hal : SubHals) (modules : List ℕ) : ℕ :=
  (modules.map fun m => (hal.sensorsList m).length).sum

/-- The second pass when the sensors `es` have been filled in. -/
def filled (versions : ℕ → Option ℤ) (es : List Entry) (moduleIndex : ℕ) : Filling where
  handles := .registered (es.map Entry.fullHandle)
  mutableSensorList i := (listed versions es)[i]?
  mutableSensorIndex := es.length
  moduleIndex := moduleIndex
  written := List.range es.length

variable {hal : SubHals} {versions : ℕ → Option ℤ} {count : ℕ} {es : List Entry}

theorem listed_concat (e : Entry) :
    listed versions (es ++ [e]) = listed versions es ++
      [fixSensorFlags ((versions e.module).getD 0)
        { e.sensor with handle := es.length + 1 }] := by
  simp [listed, List.mapIdx_append]

@[simp] theorem length_listed : (listed versions es).length = es.length := by
  simp [listed]

/-- One more sensor goes into the next slot. -/
theorem fillSensor_filled {e : Entry} (hlt : es.length < count)
    (h : (versions e.module).isSome) :
    fillSensor count (some versions) e.module (filled versions es e.moduleIndex) e.sensor =
      .ok (filled versions (es ++ [e]) e.moduleIndex) := by
  obtain ⟨version, hversion⟩ := Option.isSome_iff_exists.1 h
  have hslots : Function.update (fun i => (listed versions es)[i]?) es.length
      (some (fixSensorFlags version { e.sensor with handle := es.length + 1 })) =
        fun i => (listed versions (es ++ [e]))[i]? := by
    funext i
    rw [listed_concat, hversion, Option.getD_some, List.getElem?_append, length_listed]
    by_cases hi : i = es.length
    · subst hi
      simp
    · rw [Function.update_of_ne hi]
      split_ifs with hlt
      · rfl
      · rw [List.getElem?_eq_none (by simpa using hlt), List.getElem?_eq_none (by simp; omega)]
  have hindex : ¬ count ≤ (filled versions es e.moduleIndex).mutableSensorIndex := not_le.2 hlt
  rw [fillSensor, if_neg hindex]
  simp only [hversion, filled, HandleMaps.assignGlobalHandle,
    HandleMaps.nextGlobalHandle_registered, List.length_map, hslots]
  simp [HandleMaps.registered_concat, HandleMaps.assignGlobalHandle,
    HandleMaps.nextGlobalHandle_registered, Entry.fullHandle, List.range_succ]

theorem foldlM_fillSensor_filled {module moduleIndex : ℕ} (h : (versions module).isSome)
    {sensors : List SensorT} (hle : es.length + sensors.length ≤ count) :
    sensors.foldlM (fillSensor count (some versions) module) (filled versions es moduleIndex) =
      .ok (filled versions (es ++ sensors.map fun x => ⟨module, moduleIndex, x⟩) moduleIndex) := by
  induction sensors generalizing es with
  | nil => simp [pure, Except.pure]
  | cons x xs ih =>
      rw [List.length_cons] at hle
      have hx : fillSensor count (some versions) module (filled versions es moduleIndex) x =
          .ok (filled versions (es ++ [⟨module, moduleIndex, x⟩]) moduleIndex) :=
        fillSensor_filled (e := ⟨module, moduleIndex, x⟩) (by omega) h
      rw [List.foldlM_cons, hx]
      refine (ih (by simp; omega)).trans ?_
      rw [List.append_assoc, List.map_cons, List.singleton_append]

theorem entries_concat (hal : SubHals) (ms : List ℕ) (m : ℕ) :
    entries hal (ms ++ [m]) =
      entries hal ms ++ (hal.sensorsList m).map fun x => ⟨m, ms.length, x⟩ := by
  simp [entries, List.zipIdx_append]

theorem countSensors_concat (hal : SubHals) (ms : List ℕ) (m : ℕ) :
    countSensors hal (ms ++ [m]) = countSensors hal ms + (hal.sensorsList m).length := by
  simp [countSensors]

/-- The first pass counts what the second one lists. -/
theorem countSensors_eq (hal : SubHals) (modules : List ℕ) :
    countSensors hal modules = (entries hal modules).length :=
  (length_entries hal modules).symm

/-- The modules that have been gone through. -/
theorem fillModules_filled {modules : List ℕ} (hle : countSensors hal modules ≤ count)
    (h : ∀ m ∈ modules, (versions m).isSome) :
    fillModules hal count (some versions) modules .init =
      .ok (filled versions (entries hal modules) modules.length) := by
  induction modules using List.reverseRecOn with
  | nil => rfl
  | append_singleton ms m ih =>
      rw [countSensors_concat] at hle
      have hms := ih (by omega) fun m' hm' => h m' (by simp [hm'])
      have hfits : (entries hal ms).length + (hal.sensorsList m).length ≤ count := by
        rwa [← countSensors_eq]
      have hm : (hal.sensorsList m).foldlM (fillSensor count (some versions) m)
          (filled versions (entries hal ms) ms.length) =
            .ok (filled versions (entries hal (ms ++ [m])) ms.length) := by
        rw [entries_concat]
        exact foldlM_fillSensor_filled (h m (by simp)) hfits
      rw [fillModules, List.foldlM_append, ← fillModules, hms]
      simp only [List.foldlM_cons, List.foldlM_nil, fillModule, bind, Except.bind, pure,
        Except.pure, hm]
      simp [filled]

/-! ### The query -/

/-- What `open_sensors` leaves to the first query, with a version for every module. -/
structure Ready (hal : SubHals) (versions : ℕ → Option ℤ) (s : Globals) : Prop where
  subHwModules : s.subHwModules = some hal.modules
  subHwVersions : s.subHwVersions = some versions
  known : ∀ m ∈ hal.modules, (versions m).isSome
  globalSensorsList : s.globalSensorsList = none
  handles : s.handles = .empty
  unlocked : s.locked .initSensors = false ∧ s.locked .initModules = false
  queue : s.locked .queue = true

/-- The global handles of a state count the entries of its list, in the order in which the
modules list them. -/
structure Numbers (hal : SubHals) (versions : ℕ → Option ℤ) (s : Globals)
    (list : List SensorT) : Prop where
  count : s.globalSensorsCount = list.length
  handles : list.map SensorT.handle = (List.range list.length).map fun i : ℕ => (i + 1 : ℤ)
  inverse : ∀ g f, s.handles.globalToFull g = some f ↔ s.handles.fullToGlobal f = some g
  globals : ∀ g, (s.handles.globalToFull g).isSome ↔ 1 ≤ g ∧ g ≤ list.length
  fulls : ∀ f, (s.handles.fullToGlobal f).isSome ↔
    ∃ (i m : ℕ) (x : SensorT), hal.modules[i]? = some m ∧ x ∈ hal.sensorsList m ∧
      f = ⟨i, x.handle⟩
  /-- the sensors in the order of the modules -/
  order : ∀ (k : ℕ) (e : Entry), (entries hal hal.modules)[k]? = some e →
    s.handles.globalToFull (k + 1) = some e.fullHandle
  /-- the entry before a handle is its sensor, but for the handle and the flags -/
  sensors : ∀ g f, s.handles.globalToFull g = some f →
    ∃ (i m : ℕ) (x : SensorT) (version : ℤ), hal.modules[i]? = some m ∧
      x ∈ hal.sensorsList m ∧ versions m = some version ∧ f = ⟨i, x.handle⟩ ∧
      list[(g - 1).toNat]? =
        some { x with handle := g, flags := (fixSensorFlags version x).flags }

theorem fixSensorFlags_eq (version handle : ℤ) (x : SensorT) :
    fixSensorFlags version { x with handle := handle } =
      { x with handle := handle, flags := (fixSensorFlags version x).flags } := by
  unfold fixSensorFlags
  split_ifs <;> rfl

variable {s : Globals}

/-- Every entry that is listed stands at its own index. -/
theorem listed_getElem? {k : ℕ} {e : Entry} {version : ℤ} (hk : es[k]? = some e)
    (hversion : versions e.module = some version) :
    (listed versions es)[k]? =
      some { e.sensor with handle := k + 1, flags := (fixSensorFlags version e.sensor).flags } := by
  rw [listed, List.getElem?_mapIdx, hk, Option.map_some, hversion, Option.getD_some,
    fixSensorFlags_eq]

section Registered

variable {g : ℤ} {f : FullHandle}

theorem globalToFull_entries :
    (HandleMaps.registered (es.map Entry.fullHandle)).globalToFull g = some f ↔
      ∃ (k : ℕ) (e : Entry), g = k + 1 ∧ es[k]? = some e ∧ e.fullHandle = f := by
  rw [HandleMaps.globalToFull_registered]
  simp only [List.getElem?_map, Option.map_eq_some_iff]
  constructor
  · rintro ⟨k, hk, e, he, hf⟩
    exact ⟨k, e, hk, he, hf⟩
  · rintro ⟨k, e, hk, he, hf⟩
    exact ⟨k, hk, e, he, hf⟩

/-- The global handles that are registered for a list of entries count them. -/
theorem globalToFull_entries_isSome :
    ((HandleMaps.registered (es.map Entry.fullHandle)).globalToFull g).isSome ↔
      1 ≤ g ∧ g ≤ es.length := by
  rw [Option.isSome_iff_exists]
  constructor
  · rintro ⟨f, hf⟩
    obtain ⟨k, e, rfl, he, -⟩ := globalToFull_entries.1 hf
    have hlt := (List.getElem?_eq_some_iff.1 he).1
    omega
  · rintro ⟨hpos, hle⟩
    obtain ⟨k, rfl⟩ : ∃ k : ℕ, g = k + 1 := ⟨(g - 1).toNat, by omega⟩
    exact ⟨_, globalToFull_entries.2 ⟨k, _, rfl, List.getElem?_eq_getElem (by omega), rfl⟩⟩

theorem fullToGlobal_entries_isSome (hnodup : (es.map Entry.fullHandle).Nodup) :
    ((HandleMaps.registered (es.map Entry.fullHandle)).fullToGlobal f).isSome ↔
      ∃ e ∈ es, e.fullHandle = f := by
  rw [Option.isSome_iff_exists]
  constructor
  · rintro ⟨g, hg⟩
    rw [HandleMaps.fullToGlobal_registered hnodup] at hg
    obtain ⟨k, e, -, he, hf⟩ := globalToFull_entries.1 hg
    exact ⟨e, List.mem_of_getElem? he, hf⟩
  · rintro ⟨e, he, hf⟩
    obtain ⟨k, hk⟩ := List.getElem?_of_mem he
    refine ⟨k + 1, (HandleMaps.fullToGlobal_registered hnodup).2 ?_⟩
    exact globalToFull_entries.2 ⟨k, e, rfl, hk, hf⟩

end Registered

theorem numbers_listed (hknown : ∀ m ∈ hal.modules, (versions m).isSome)
    (hdistinct : ∀ m ∈ hal.modules, ((hal.sensorsList m).map SensorT.handle).Nodup)
    (hcount : s.globalSensorsCount = countSensors hal hal.modules)
    (hhandles : s.handles = .registered ((entries hal hal.modules).map Entry.fullHandle)) :
    Numbers hal versions s (listed versions (entries hal hal.modules)) := by
  have hnodup := nodup_fullHandles hdistinct
  refine ⟨?_, ?_, fun g f => ?_, fun g => ?_, fun f => ?_, fun k e he => ?_, fun g f hf => ?_⟩
  · rw [hcount, length_listed, countSensors_eq]
  · rw [map_handle_listed, length_listed]
  · rw [hhandles, HandleMaps.fullToGlobal_registered hnodup]
  · rw [hhandles, length_listed]
    exact globalToFull_entries_isSome
  · rw [hhandles, fullToGlobal_entries_isSome hnodup]
    constructor
    · rintro ⟨e, he, rfl⟩
      obtain ⟨hm, hx⟩ := mem_entries.1 he
      exact ⟨e.moduleIndex, e.module, e.sensor, hm, hx, rfl⟩
    · rintro ⟨i, m, x, hm, hx, rfl⟩
      exact ⟨⟨m, i, x⟩, mem_entries.2 ⟨hm, hx⟩, rfl⟩
  · rw [hhandles]
    exact globalToFull_entries.2 ⟨k, e, rfl, he, rfl⟩
  · rw [hhandles] at hf
    obtain ⟨k, e, rfl, he, rfl⟩ := globalToFull_entries.1 hf
    obtain ⟨hm, hx⟩ := mem_entries.1 (List.mem_of_getElem? he)
    obtain ⟨version, hversion⟩ :=
      Option.isSome_iff_exists.1 (hknown e.module (List.mem_of_getElem? hm))
    refine ⟨e.moduleIndex, e.module, e.sensor, version, hm, hx, hversion, rfl, ?_⟩
    rw [Int.add_sub_cancel, Int.toNat_natCast]
    exact listed_getElem? he hversion

/-- The first query builds a list whose handles count its sensors. The array that it fills
for this is the list, every slot of it is written, and none is written twice; and the order
by which the maps tell keys apart is a strict total order that agrees with their equality. -/
theorem lazyInitSensorsList_numbers (hready : Ready hal versions s)
    (hdistinct : ∀ m ∈ hal.modules, ((hal.sensorsList m).map SensorT.handle).Nodup) :
    (∃ s' list f, lazyInitSensorsList hal s = .ok s' ∧ s'.globalSensorsList = some list ∧
      Numbers hal versions s' list ∧
      fillModules hal (countSensors hal hal.modules) s.subHwVersions hal.modules .init =
        .ok f ∧
      f.handles = s'.handles ∧ (∀ i, f.mutableSensorList i = list[i]?) ∧
      f.written = List.range list.length) ∧
    IsStrictTotalOrder FullHandle (fun a b => a.lt b) ∧
    ∀ a b : FullHandle, a.eq b ↔ ¬ a.lt b ∧ ¬ b.lt a := by
  refine ⟨?_, inferInstance, fun a b => FullHandle.eq_iff_not_lt⟩
  have hknown : ∀ e ∈ entries hal hal.modules, (versions e.module).isSome := fun e he =>
    hready.known e.module (List.mem_of_getElem? (mem_entries.1 he).1)
  have hlazy := @lazyInitSensorsList_eq hal s hready.unlocked.1 hready.unlocked.2
    hready.globalSensorsList _ rfl
  rw [hready.subHwModules, Option.getD_some, hready.subHwVersions, hready.handles,
    listModules_of_versions hknown] at hlazy
  simp only [unlock, hready.queue, if_true] at hlazy
  have hfill := fillModules_filled (le_refl (countSensors hal hal.modules)) hready.known
  rw [hready.subHwVersions]
  exact ⟨_, _, _, hlazy, rfl, numbers_listed hready.known hdistinct rfl rfl, hfill, rfl,
    fun _ => rfl, by rw [length_listed]; rfl⟩

/-- Three modules, of which the second one has no sensor. Two sensors have the same local
handle. -/
def threeModules : SubHals where
  modules := [10, 20, 30]
  sensorsList m :=
    if m = 10 then [⟨5, 5, 0, 10000, 0⟩, ⟨2, 8, 0, 10000, 0⟩]
    else if m = 30 then [⟨5, 1, 0, 10000, 0⟩]
    else []

def openedThree : Globals :=
  { Globals.init with
    subHwModules := some [10, 20, 30]
    subHwVersions := some fun _ => some 0x01000001
    locked := Function.update (fun _ => false) .queue true }

theorem numbers_threeModules :
    ∃ s' list, lazyInitSensorsList threeModules openedThree = .ok s' ∧
      s'.globalSensorsList = some list ∧
      Numbers threeModules (fun _ => some 0x01000001) s' list := by
  have hready : Ready threeModules (fun _ => some 0x01000001) openedThree :=
    ⟨rfl, rfl, fun _ _ => rfl, rfl, rfl, ⟨rfl, rfl⟩, rfl⟩
  obtain ⟨s', list, f, hs', hlist, hnumbers, -⟩ :=
    (lazyInitSensorsList_numbers hready (by decide)).1
  exact ⟨s', list, hs', hlist, hnumbers⟩

end StartUp

end MozartLineage.Sensors
