import MozartLineage.Sensors.StartUp
import MozartLineage.Transition.Run

/-!
# Calls on handles that are not registered

The framework opens the proxy, asks for the list of sensors and calls the proxy, in any
order. The look-ups of the proxy refuse a handle that is not registered, and with it the
calls that only look up. `activate` and `batch` take the refusal for a sensor below
API 1.1 and go on to the tables, at an index that is never theirs.
-/

namespace MozartLineage.Sensors

open Transition StartUp

namespace Framework

/-- The globals of the proxy, the devices that `open_sensors` has handed out, and the
tables, which come with the list of sensors. -/
structure State where
  globals : Globals
  opened : List (List SubHwDevice)
  tables : Proxy.Tables

inductive Action where
  | getSensorsList
  | openSensors (opens : ℕ → Option ℤ)
  /-- a call of an opened device, with its sub-HALs -/
  | request (devices : List SubHwDevice) (a : Proxy.Action)

def init : State := ⟨.init, [], .init⟩

/-- What a call on an opened device looks things up in. -/
def State.context (s : State) (devices : List SubHwDevice) : Proxy.Context :=
  ⟨s.globals.handles, devices, s.globals.globalSensorsList.getD []⟩

/-- One call of the framework; a fault ends the run. -/
def step (hal : SubHals) : Machine State Action Proxy.Event
  | s, .getSensorsList =>
      match moduleGetSensorsList hal s.globals with
      | .error _ => none
      | .ok (globals, _) =>
          some ({ s with
            globals := globals
            tables := if s.globals.globalSensorsList.isSome then s.tables else .init }, [])
  | s, .openSensors opens =>
      match openSensors hal opens s.globals with
      | .error _ => none
      | .ok (globals, devices) =>
          some ({ s with globals := globals, opened := devices :: s.opened }, [])
  | s, .request devices a =>
      if devices ∈ s.opened then
        (Proxy.step (s.context devices) s.tables a).map fun p => ({ s with tables := p.1 }, p.2)
      else none

end Framework

namespace StartUp

variable {hal : SubHals}

theorem handles_of_listSensor {versions : Option (ℕ → Option ℤ)} {module moduleIndex : ℕ}
    {l l' : Listing} {sensor : SensorT}
    (h : listSensor versions module moduleIndex l sensor = .ok l') :
    l'.handles = (l.handles.assignGlobalHandle moduleIndex sensor.handle).1 := by
  unfold listSensor at h
  dsimp only at h
  split at h
  · cases h
  · split at h <;> cases h
    rfl

/-- The maps after the list has been built, whatever the versions are. -/
theorem handles_of_listModules {versions : Option (ℕ → Option ℤ)} {modules : List ℕ}
    {listing : Listing} (h : listModules hal versions modules ⟨.empty, []⟩ = .ok listing) :
    listing.handles = .registered ((entries hal modules).map Entry.fullHandle) := by
  rw [listModules_eq] at h
  generalize entries hal modules = es at h
  induction es using List.reverseRecOn generalizing listing with
  | nil =>
      cases h
      rfl
  | append_singleton es e ih =>
      rw [List.foldlM_append] at h
      cases hes : es.foldlM
          (fun l e => listSensor versions e.module e.moduleIndex l e.sensor)
          (⟨.empty, []⟩ : Listing) with
      | error fault => simp [hes, bind, Except.bind] at h
      | ok l =>
          rw [hes] at h
          have hlast : listSensor versions e.module e.moduleIndex l e.sensor =
              .ok listing := by
            cases hsensor : listSensor versions e.module e.moduleIndex l e.sensor with
            | error fault => simp [bind, Except.bind, hsensor] at h
            | ok l' => simpa [bind, Except.bind, pure, Except.pure, hsensor] using h
          rw [handles_of_listSensor hlast, ih hes, List.map_append, List.map_singleton,
            HandleMaps.registered_concat]
          rfl

/-- Between two calls the handles that are registered are those of the list, counted
from one. -/
structure Indexed (s : Globals) : Prop where
  initSensors : s.locked .initSensors = false
  initModules : s.locked .initModules = false
  handles : ∃ fs : List FullHandle, s.handles = .registered fs ∧
    (s.globalSensorsList = none ∧ fs = [] ∧ s.globalSensorsCount = -1 ∨
      s.globalSensorsList.isSome ∧ s.globalSensorsCount = fs.length)

theorem Indexed.getSensorsList {s s' : Globals} {r : Option (List SensorT) × ℤ}
    (hs : Indexed s) (h : moduleGetSensorsList hal s = .ok (s', r)) : Indexed s' := by
  have hlazy : lazyInitSensorsList hal s = .ok s' := by
    unfold moduleGetSensorsList at h
    cases hl : lazyInitSensorsList hal s with
    | error fault => simp [hl, bind, Except.bind] at h
    | ok t =>
        simp only [hl, bind, Except.bind, pure, Except.pure, Except.ok.injEq,
          Prod.mk.injEq] at h
        rw [h.1]
  obtain ⟨fs, hfs, ⟨hnone, rfl, -⟩ | ⟨hlisted, hcount⟩⟩ := hs.handles
  · rw [lazyInitSensorsList_eq hs.initSensors hs.initModules hnone rfl] at hlazy
    split at hlazy
    · cases hlazy
    · next listing hlisting =>
      rw [hfs] at hlisting
      unfold unlock at hlazy
      split at hlazy <;> cases hlazy
      refine ⟨by simpa using hs.initSensors, by simpa using hs.initModules, _,
        handles_of_listModules hlisting, Or.inr ⟨rfl, ?_⟩⟩
      simp only [List.length_map, length_entries]
  · rw [lazyInitSensorsList_of_listed hs.initSensors hlisted] at hlazy
    cases hlazy
    exact hs

theorem Indexed.openSensors {s s' : Globals} {opens : ℕ → Option ℤ}
    {devices : List SubHwDevice} (hs : Indexed s)
    (h : openSensors hal opens s = .ok (s', devices)) : Indexed s' := by
  cases hqueue : s.locked .queue with
  | true => simp [openSensors_blocked hs.initModules hqueue] at h
  | false =>
      rw [openSensors_eq hs.initModules hqueue] at h
      cases h
      exact ⟨by simpa using hs.initSensors, by simpa using hs.initModules, hs.handles⟩

/-- A handle that is not registered is no index into the tables. -/
theorem Indexed.outside {s : Globals} (hs : Indexed s) {handle : ℤ}
    (hhandle : s.handles.globalToFull handle = none) :
    ¬ (0 ≤ handle - 1 ∧ handle - 1 < s.globalSensorsCount) := by
  rintro ⟨hlow, hhigh⟩
  obtain ⟨fs, hfs, ⟨-, -, hcount⟩ | ⟨-, hcount⟩⟩ := hs.handles
  · omega
  · have hlt : (handle - 1).toNat < fs.length := by omega
    have hregistered : (HandleMaps.registered fs).globalToFull handle =
        some fs[(handle - 1).toNat] :=
      HandleMaps.globalToFull_registered.2
        ⟨(handle - 1).toNat, by omega, List.getElem?_eq_getElem hlt⟩
    simp [← hfs, hhandle] at hregistered

end StartUp

namespace Framework

variable {hal : SubHals}

theorem indexed_init : Indexed init.globals :=
  ⟨rfl, rfl, [], rfl, Or.inl ⟨rfl, rfl, rfl⟩⟩

theorem step_indexed {s t : State} {a : Action} {o : List Proxy.Event}
    (hs : Indexed s.globals) (h : step hal s a = some (t, o)) : Indexed t.globals := by
  cases a with
  | getSensorsList =>
      simp only [step] at h
      split at h
      · cases h
      · next hlist =>
        cases h
        exact hs.getSensorsList hlist
  | openSensors opens =>
      simp only [step] at h
      split at h
      · cases h
      · next hopen =>
        cases h
        exact hs.openSensors hopen
  | request devices a =>
      simp only [step] at h
      split at h
      · obtain ⟨p, -, hp⟩ := Option.map_eq_some_iff.1 h
        cases hp
        exact hs
      · cases h

theorem run_indexed {s : State} {as : List Action} {os : List Proxy.Event}
    (hrun : (step hal).run init as = some (s, os)) : Indexed s.globals :=
  Machine.run_invariant (P := fun s _ => Indexed s.globals)
    (fun _ _ _ _ _ hs h => step_indexed hs h) indexed_init hrun

end Framework

namespace Proxy

variable {ctx : Context} {s : Tables} {handle : ℤ}

/-- The request is refused without effect: it returns an error, calls no sub-HAL, looks
only at the `count` entries of the tables and changes none of them. -/
structure Refused (count : ℤ) (s : Tables) (r : ℤ × Tables × List Event) : Prop where
  negative : r.1 < 0
  uncalled : ∀ i call result, .called i call result ∉ r.2.2
  inside : ∀ table index, .accessed table index ∈ r.2.2 → 0 ≤ index ∧ index < count
  unchanged : r.2.1 = s

/-- The requests that go on to the tables when the sensor is not known to be above
API 1.1. -/
def Request.usesTables : Request → Bool
  | .activate _ _ | .batch _ _ _ _ => true
  | .setDelay _ _ | .flush _ | .injectSensorData _ => false

theorem getV0DeviceByHandle_of_unregistered
    (h : ctx.handles.globalToFull handle = none) : ctx.getV0DeviceByHandle handle = none := by
  simp [Context.getV0DeviceByHandle, HandleMaps.getModuleIndex, h]

theorem halIsAPILevelCompliant_of_unregistered (handle : ℤ)
    (h : ctx.handles.globalToFull handle = none) (level : ℤ) :
    ctx.halIsAPILevelCompliant handle level = false := by
  simp [Context.halIsAPILevelCompliant, Context.getDeviceVersionByHandle,
    getV0DeviceByHandle_of_unregistered h]

/-- The look-ups refuse a handle that is not registered. -/
theorem callDevice_of_unregistered (handle : ℤ)
    (h : ctx.handles.globalToFull handle = none)
    (call : ℕ → ℤ → SubHalCall) (result : ℤ) :
    ctx.callDevice (ctx.getV0DeviceByHandle handle) handle call result =
      (negEinval, []) := by
  simp [Context.callDevice, getV0DeviceByHandle_of_unregistered h]

theorem refused_of_lookup (count : ℤ) : Refused count s (negEinval, s, []) :=
  ⟨show negEinval < 0 by decide, by simp, by simp, rfl⟩

/-- `activate` and `batch` access the table of enabled sensors at the handle minus one,
whether it is registered or not. -/
theorem accessed_of_usesTables {a : Action} (ha : a.request.usesTables)
    (h : ctx.handles.globalToFull a.request.handle = none) :
    .accessed .sensorsEnableState (a.request.handle - 1) ∈ (handleRequest ctx s a).2.2 := by
  obtain ⟨request, result, delayResult⟩ := a
  cases request with
  | activate g enabled =>
      have hlevel := halIsAPILevelCompliant_of_unregistered g h
      simp only [handleRequest, deviceActivate, hlevel, Request.handle, Bool.false_eq_true,
        not_false_eq_true, if_true]
      split_ifs <;> simp
  | batch g flags periodNs timeout =>
      have hlevel := halIsAPILevelCompliant_of_unregistered g h
      simp only [handleRequest, deviceBatch, hlevel, Request.handle, Bool.false_eq_true,
        if_false]
      split_ifs <;> simp
  | _ => cases ha

/-- A request for a handle that is no index into the tables is refused without effect if
and only if it does not go on to them. -/
theorem refused_iff {count : ℤ} {a : Action}
    (h : ctx.handles.globalToFull a.request.handle = none)
    (houtside : ¬ (0 ≤ a.request.handle - 1 ∧ a.request.handle - 1 < count)) :
    Refused count s (handleRequest ctx s a) ↔ a.request.usesTables = false := by
  constructor
  · intro hrefused
    by_contra huses
    exact houtside (hrefused.inside _ _ (accessed_of_usesTables (by simpa using huses) h))
  · obtain ⟨request, result, delayResult⟩ := a
    intro huses
    cases request with
    | setDelay g ns =>
        have hcall := callDevice_of_unregistered g h
        simpa [handleRequest, deviceSetDelay, Context.setDelay, hcall] using
          refused_of_lookup count
    | flush g =>
        have hlevel := halIsAPILevelCompliant_of_unregistered g h
        simpa [handleRequest, deviceFlush, Context.flush, hlevel] using
          refused_of_lookup count
    | injectSensorData data =>
        have hlevel := halIsAPILevelCompliant_of_unregistered data.sensor h
        simpa [handleRequest, deviceInjectSensorData, Context.injectSensorData, hlevel] using
          refused_of_lookup count
    | _ => cases huses

end Proxy

namespace Framework

variable {hal : SubHals}

/-- In every state that the framework can bring about, a request for a handle that is not
registered is refused without effect if and only if it is none of those that go on to the
tables. -/
theorem run_refused_iff {s : State} {as : List Action} {os : List Proxy.Event}
    (hrun : (step hal).run init as = some (s, os)) {devices : List SubHwDevice}
    {a : Proxy.Action} (hunknown : s.globals.handles.globalToFull a.request.handle = none) :
    Proxy.Refused s.globals.globalSensorsCount s.tables
        (Proxy.handleRequest (s.context devices) s.tables a) ↔
      a.request.usesTables = false := by
  have hglobal : (s.context devices).handles.globalToFull a.request.handle = none := hunknown
  exact Proxy.refused_iff hglobal ((run_indexed hrun).outside hunknown)

/-- One sub-HAL with one sensor. -/
def oneSensor : SubHals where
  modules := [10]
  sensorsList _ := [⟨5, sensorTypeLight, 0, 0, 1000⟩]

/-- The proxy is opened and the list is built. -/
def startedUp : List Action := [.openSensors fun _ => some 0x01000000, .getSensorsList]

theorem refused_flush_oneSensor :
    ∃ s os, (step oneSensor).run init startedUp = some (s, os) ∧
      s.globals.handles.globalToFull 2 = none ∧
      Proxy.Refused s.globals.globalSensorsCount s.tables
        (Proxy.handleRequest (s.context []) s.tables ⟨.flush 2, 0, 0⟩) := by
  have hrun : ∃ s os, (step oneSensor).run init startedUp = some (s, os) ∧
      s.globals.handles.globalToFull 2 = none := ⟨_, _, rfl, rfl⟩
  obtain ⟨s, os, hrun, hunknown⟩ := hrun
  exact ⟨s, os, hrun, hunknown, (run_refused_iff (a := ⟨.flush 2, 0, 0⟩) hrun hunknown).2 rfl⟩

/-- A `batch` for the handle 2 succeeds, and is saved behind the end of the table. -/
theorem not_refused_batch_oneSensor :
    ¬ ∀ (hal : SubHals) (as : List Action) (s : State) (os : List Proxy.Event)
      (devices : List SubHwDevice) (a : Proxy.Action),
      (step hal).run init as = some (s, os) → devices ∈ s.opened →
        s.globals.handles.globalToFull a.request.handle = none →
        Proxy.Refused s.globals.globalSensorsCount s.tables
          (Proxy.handleRequest (s.context devices) s.tables a) := by
  intro hall
  have hrun : ∃ s os devices, (step oneSensor).run init startedUp = some (s, os) ∧
      devices ∈ s.opened ∧ s.globals.handles.globalToFull 2 = none ∧
      (Proxy.handleRequest (s.context devices) s.tables ⟨.batch 2 0 10 0, 0, 0⟩).1 = 0 :=
    ⟨_, _, _, rfl, List.mem_singleton_self _, rfl, rfl⟩
  obtain ⟨s, os, devices, hrun, hdevices, hunknown, hresult⟩ := hrun
  have hrefused := hall oneSensor startedUp s os devices ⟨.batch 2 0 10 0, 0, 0⟩ hrun hdevices
    hunknown
  exact absurd hrefused.negative (by simp [hresult])

end Framework

end MozartLineage.Sensors
