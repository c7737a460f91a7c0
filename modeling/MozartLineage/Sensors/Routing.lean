import MozartLineage.Sensors.StartUp
import MozartLineage.Sensors.LegacySensor
import MozartLineage.Sensors.Delivery

/-!
# Routing after a start-up

A sensor is registered under the index of its module, and its device is looked up
under that index among the modules that could be opened. The two are the same as
long as no module before it has failed. `Routed` says what that is good for:
calls on the global handle reach the device, and its events come back under it.
-/

namespace MozartLineage.Sensors

open Transition

/-- The sensor that an event is about has that handle. -/
def SensorsEvent.Carries (e : SensorsEvent) (handle : ℤ) : Prop :=
  if e.type = sensorTypeMetaData then e.metaDataSensor = handle ∧ e.sensor = 0
  else e.sensor = handle

/-- The numbers that pass a test and stand at their own place among those. -/
theorem getElem?_filter_range {p : ℕ → Bool} {n i : ℕ} :
    ((List.range n).filter p)[i]? = some i ↔ i < n ∧ ∀ j ≤ i, p j := by
  induction n with
  | zero => simp
  | succ n ih =>
      have hlength : ((List.range n).filter p).length ≤ n := by
        simpa using List.length_filter_le p (List.range n)
      rw [List.range_succ, List.filter_append]
      rcases lt_or_ge i ((List.range n).filter p).length with hlt | hge
      · rw [List.getElem?_append_left hlt, ih]
        exact and_congr_left fun _ => by omega
      · rw [List.getElem?_append_right hge]
        constructor
        · intro h
          cases hp : p n with
          | false => simp [hp] at h
          | true =>
              obtain ⟨hi, rfl⟩ : i - ((List.range n).filter p).length = 0 ∧ n = i := by
                simpa [hp, List.getElem?_singleton] using h
              have hall : ((List.range n).filter p).length = (List.range n).length := by
                simp; omega
              rw [List.length_filter_eq_length_iff] at hall
              refine ⟨by omega, fun j hj => ?_⟩
              rcases Nat.lt_or_eq_of_le hj with hlt | rfl
              · exact hall j (List.mem_range.2 hlt)
              · exact hp
        · rintro ⟨hi, hall⟩
          have hin : i = n := by
            by_contra hne
            have hget := ih.2 ⟨by omega, hall⟩
            have hlt := (List.getElem?_eq_some_iff.1 hget).1
            omega
          subst hin
          have hself : (List.range i).filter p = List.range i :=
            List.filter_eq_self.2 fun j hj => hall j (List.mem_range.1 hj).le
          simp [hself, hall i le_rfl]

namespace StartUp

open Proxy

variable {hal : SubHals} {opens : ℕ → Option ℤ}

/-- Opening the proxy, and then asking for the list of sensors. -/
def startUp (hal : SubHals) (opens : ℕ → Option ℤ) : Except Fault Context := do
  let (s, devices) ← openSensors hal opens .init
  let (s, sensors, _) ← moduleGetSensorsList hal s
  return ⟨s.handles, devices, sensors.getD []⟩

/-- Every module with sensors can be opened at one of its places. -/
def Known (hal : SubHals) (opens : ℕ → Option ℤ) : Prop :=
  ∀ i m : ℕ, hal.modules[i]? = some m → hal.sensorsList m ≠ [] →
    ∃ j : ℕ, hal.modules[j]? = some m ∧ (opens j).isSome

/-- No module fails before one that is opened and has sensors. -/
def Aligned (hal : SubHals) (opens : ℕ → Option ℤ) : Prop :=
  ∀ i m : ℕ, hal.modules[i]? = some m → hal.sensorsList m ≠ [] → (opens i).isSome →
    ∀ j < i, (opens j).isSome

/-- Calls on the global handle `g` reach the device `j` under the local handle
`l`, and no other; events of that device come back under `g`. -/
structure Routed (ctx : Context) (g : ℤ) (j : ℕ) (l : ℤ) : Prop where
  activate : ∀ s enabled result delayResult,
    .called j (.activate (.sub j) l enabled) result ∈
      (deviceActivate ctx s g enabled result delayResult).2.2
  setDelay : ∀ s ns result,
    .called j (.setDelay (.sub j) l ns) result ∈ (deviceSetDelay ctx s g ns result).2.2
  batch : ctx.halIsAPILevelCompliant g sensorsDeviceApiVersion1_1 →
    ∀ s flags periodNs timeout result,
      .called j (.batch (.sub j) l flags periodNs timeout) result ∈
        (deviceBatch ctx s g flags periodNs timeout result).2.2
  /-- an older device gets the period, once the sensor is enabled -/
  batchLegacy : ctx.halIsAPILevelCompliant g sensorsDeviceApiVersion1_1 = false →
    ∀ s flags periodNs timeout result, s.sensorsEnableState (g - 1) ≠ 0 →
      .called j (.setDelay (.sub j) l periodNs) result ∈
        (deviceBatch ctx s g flags periodNs timeout result).2.2
  /-- an older device knows no `flush` -/
  flush : ctx.halIsAPILevelCompliant g sensorsDeviceApiVersion1_1 →
    ∀ s result, .called j (.flush (.sub j) l) result ∈ (deviceFlush ctx s g result).2.2
  only : ∀ s (a : Proxy.Action) p, Proxy.step ctx s a = some p → a.request.handle = g →
    ∀ e ∈ p.2, ∀ i l', e.sensor = some (i, l') → i = j ∧ l' = l
  event : ∀ e : SensorsEvent, e.Carries l →
    ∃ e', delivered ctx.handles (j, e) = some e' ∧ e'.Carries g

/-- The list is built, and every sensor of a module that was opened is listed and
routed to the device opened from there. -/
def Routes (hal : SubHals) (opens : ℕ → Option ℤ) : Prop :=
  ∃ ctx, startUp hal opens = .ok ctx ∧
    ∀ i m : ℕ, hal.modules[i]? = some m → (opens i).isSome → ∀ x ∈ hal.sensorsList m,
      ∃ g, ctx.handles.fullToGlobal ⟨i, x.handle⟩ = some g ∧
        g ∈ ctx.globalSensorsList.map SensorT.handle ∧
        ∃ j, (ctx.subHwDevices[j]?).map SubHwDevice.openedFrom = some i ∧
          Routed ctx g j x.handle

/-- Devices are those of the modules that were opened, in order. -/
theorem map_openedFrom_openDevices (opens : ℕ → Option ℤ) (modules : List ℕ) :
    (openDevices opens modules).map SubHwDevice.openedFrom =
      (List.range modules.length).filter fun i => (opens i).isSome := by
  unfold openDevices
  induction List.range modules.length with
  | nil => rfl
  | cons i is ih => cases h : opens i <;> simp [h, ih]

/-- The device at the index of a module is its own if no module fails up to it. -/
theorem openDevices_getElem? {modules : List ℕ} {i : ℕ} (hi : i < modules.length) :
    ((openDevices opens modules)[i]?).map SubHwDevice.openedFrom = some i ↔
      ∀ j ≤ i, (opens j).isSome := by
  rw [← List.getElem?_map, map_openedFrom_openDevices, getElem?_filter_range]
  exact and_iff_right hi

/-- What is looked up after a start-up without a fault. -/
def context (hal : SubHals) (opens : ℕ → Option ℤ) : Context where
  handles := .registered ((entries hal hal.modules).map Entry.fullHandle)
  subHwDevices := openDevices opens hal.modules
  globalSensorsList := listed (openVersions opens hal.modules) (entries hal hal.modules)

theorem startUp_eq_match (hal : SubHals) (opens : ℕ → Option ℤ) :
    startUp hal opens =
      match listModules hal (some (openVersions opens hal.modules)) hal.modules
        ⟨.empty, []⟩ with
      | .error fault => .error fault
      | .ok listing =>
          .ok ⟨listing.handles, openDevices opens hal.modules, listing.sensors⟩ := by
  unfold startUp moduleGetSensorsList
  rw [openSensors_eq rfl rfl]
  simp only [bind, Except.bind]
  rw [lazyInitSensorsList_eq rfl rfl rfl rfl]
  simp only [Globals.init, Option.getD_none, Option.getD_some]
  cases listModules hal (some (openVersions opens hal.modules)) hal.modules
      ⟨.empty, []⟩ with
  | error fault => rfl
  | ok listing => simp [unlock, pure, Except.pure]

theorem startUp_eq (h : Known hal opens) :
    startUp hal opens = .ok (context hal opens) := by
  have hknown : ∀ e ∈ entries hal hal.modules,
      (openVersions opens hal.modules e.module).isSome := by
    intro e he
    obtain ⟨hm, hx⟩ := mem_entries.1 he
    exact openVersions_isSome.2 (h _ _ hm (List.ne_nil_of_mem hx))
  rw [startUp_eq_match, listModules_of_versions hknown]
  rfl

theorem startUp_error (h : ¬ Known hal opens) :
    ∃ fault, startUp hal opens = .error fault := by
  simp only [Known, not_forall] at h
  obtain ⟨i, m, hm, hsensors, hnone⟩ := h
  obtain ⟨x, hx⟩ := List.exists_mem_of_ne_nil _ hsensors
  have he : ⟨m, i, x⟩ ∈ entries hal hal.modules := mem_entries.2 ⟨hm, hx⟩
  have hversion : (some (openVersions opens hal.modules)).bind (· m) = none := by
    rw [Option.bind_some, ← Option.not_isSome_iff_eq_none, openVersions_isSome]
    exact hnone
  obtain ⟨fault, hfault⟩ := listModules_error he hversion ⟨.empty, []⟩
  exact ⟨fault, by rw [startUp_eq_match, hfault]⟩

/-! ### Sensors and their devices -/

theorem nodup_fullHandles (h : ∀ m ∈ hal.modules,
      ((hal.sensorsList m).map SensorT.handle).Nodup) :
    ((entries hal hal.modules).map Entry.fullHandle).Nodup := by
  rw [entries, List.map_flatMap, List.nodup_flatMap]
  constructor
  · rintro ⟨m, i⟩ hm
    have hnodup := h m (List.fst_mem_of_mem_zipIdx hm)
    rw [List.map_map]
    refine List.Nodup.of_map FullHandle.localHandle ?_
    rw [List.map_map]
    exact hnodup
  · have hindex : hal.modules.zipIdx.Pairwise fun m m' => m.2 ≠ m'.2 := by
      rw [← List.pairwise_map, List.zipIdx_map_snd]
      exact List.nodup_range'
    refine hindex.imp fun hne f hf hf' => hne ?_
    simp only [List.mem_map] at hf hf'
    obtain ⟨e, ⟨x, -, rfl⟩, rfl⟩ := hf
    obtain ⟨e', ⟨x', -, rfl⟩, heq⟩ := hf'
    exact Int.natCast_inj.1 (congrArg FullHandle.moduleIndex heq.symm)

/-- The handle, the module and the device of one sensor. -/
theorem exists_handle (opens : ℕ → Option ℤ) {i m : ℕ} (hm : hal.modules[i]? = some m)
    {x : SensorT} (hx : x ∈ hal.sensorsList m) (h : ∀ m ∈ hal.modules,
      ((hal.sensorsList m).map SensorT.handle).Nodup) :
    ∃ g, (context hal opens).handles.fullToGlobal ⟨i, x.handle⟩ = some g ∧
      (context hal opens).handles.globalToFull g = some ⟨i, x.handle⟩ ∧ 1 ≤ g ∧
      g ∈ (context hal opens).globalSensorsList.map SensorT.handle := by
  have he : ⟨m, i, x⟩ ∈ entries hal hal.modules := mem_entries.2 ⟨hm, hx⟩
  have hf : (⟨i, x.handle⟩ : FullHandle) ∈ (entries hal hal.modules).map Entry.fullHandle :=
    List.mem_map_of_mem he
  obtain ⟨k, hk⟩ := List.getElem?_of_mem hf
  have hfull := HandleMaps.globalToFull_registered.2 ⟨k, rfl, hk⟩
  refine ⟨k + 1, (HandleMaps.fullToGlobal_registered (nodup_fullHandles h)).2 hfull, hfull,
    by omega, ?_⟩
  have hlt := (List.getElem?_eq_some_iff.1 hk).1
  simp only [context, map_handle_listed, List.mem_map, List.mem_range]
  exact ⟨k, by simpa using hlt, rfl⟩

/-- A handle whose module has its device at its own index names that device. -/
theorem names_of_openDevices {g : ℤ} {i : ℕ} {l : ℤ} (hl : 0 ≤ l)
    (hfull : (context hal opens).handles.globalToFull g = some ⟨i, l⟩)
    (hdevice : ((openDevices opens hal.modules)[i]?).map SubHwDevice.openedFrom = some i) :
    Names (context hal opens) g i l := by
  have hindex : i < (openDevices opens hal.modules).length := by
    by_contra hge
    simp [List.getElem?_eq_none (not_lt.1 hge)] at hdevice
  refine ⟨?_, by simp [HandleMaps.getLocalHandle, hfull], hl⟩
  simp [Context.getV0DeviceByHandle, HandleMaps.getModuleIndex, hfull]
  exact hindex

/-- A sensor whose device is found under the index of its module is routed. -/
theorem routed_of_names {ctx : Context} {g : ℤ} {j : ℕ} {l : ℤ} (hg : Names ctx g j l)
    (hpos : 1 ≤ g) (hglobal : ctx.handles.fullToGlobal ⟨j, l⟩ = some g) :
    Routed ctx g j l where
  activate s enabled result delayResult := by
    unfold deviceActivate
    rw [activate_of_names hg]
    dsimp only
    split_ifs <;> simp
  setDelay s ns result := by simp [deviceSetDelay, setDelay_of_names hg]
  batch hlevel s flags periodNs timeout result := by
    simp [deviceBatch, Context.batch, hlevel, callDevice_of_names hg]
  batchLegacy hlevel s flags periodNs timeout result hon := by
    simp [deviceBatch, hlevel, hon, setDelay_of_names hg]
  flush hlevel s result := by
    simp [deviceFlush, Context.flush, hlevel, callDevice_of_names hg]
  only s a p hs ha e he i l' hsensor := by
    have hnames := (step_allAbout hs).names he hsensor
    rw [ha] at hnames
    exact hnames.eq hg
  event e he := by
    have hhandle : ctx.handles.getGlobalHandle ⟨j, l⟩ = g := by
      simp [HandleMaps.getGlobalHandle, hglobal]
    unfold SensorsEvent.Carries at he
    split_ifs at he with htype
    · obtain ⟨rfl, hsensor⟩ := he
      refine ⟨{ e with metaDataSensor := g }, ?_, ?_⟩
      · simp [delivered, copyEventRemapHandle, htype, hhandle, hsensor]
      · simp [SensorsEvent.Carries, htype, hsensor]
    · subst he
      refine ⟨{ e with sensor := g }, ?_, ?_⟩
      · have hne : g ≠ -1 := by omega
        simp [delivered, copyEventRemapHandle, htype, hhandle, hne]
      · simp [SensorsEvent.Carries, htype]

/-- A device that a sensor is routed to stands at the index of its module. -/
theorem Routed.eq {ctx : Context} {g : ℤ} {j i : ℕ} {l : ℤ} (h : Routed ctx g j l)
    (hfull : ctx.handles.globalToFull g = some ⟨i, l⟩) : j = i := by
  let a : Proxy.Action := ⟨.activate g 1, 0, 0⟩
  have hcall : .called j (.activate (.sub j) l 1) 0 ∈
      Event.requested a.request :: (handleRequest ctx .init a).2.2 ++
        [.returned (handleRequest ctx .init a).1] := by
    simpa [a, handleRequest] using h.activate .init 1 0 0
  have hnames : Names ctx g j l := (step_allAbout (a := a) rfl).names hcall rfl
  have heq := Option.some.inj (hnames.globalToFull.symm.trans hfull)
  exact Int.natCast_inj.1 (congrArg FullHandle.moduleIndex heq)

/-- After a start-up all sensors of opened modules are routed if and only if every
module with sensors is known and none that is opened comes after one that has
failed. -/
theorem routes_iff
    (hnonneg : ∀ m ∈ hal.modules, ∀ x ∈ hal.sensorsList m, 0 ≤ x.handle)
    (hdistinct : ∀ m ∈ hal.modules, ((hal.sensorsList m).map SensorT.handle).Nodup) :
    Routes hal opens ↔ Known hal opens ∧ Aligned hal opens := by
  constructor
  · rintro ⟨ctx, hctx, hroutes⟩
    have hknown : Known hal opens := by
      by_contra hnot
      obtain ⟨fault, hfault⟩ := startUp_error hnot
      simp [hfault] at hctx
    refine ⟨hknown, fun i m hm hsensors hopen j hj => ?_⟩
    obtain rfl : context hal opens = ctx := by simpa [startUp_eq hknown] using hctx
    obtain ⟨x, hx⟩ := List.exists_mem_of_ne_nil _ hsensors
    obtain ⟨g, hglobal, -, k, hdevice, hrouted⟩ := hroutes i m hm hopen x hx
    have hfull := (HandleMaps.fullToGlobal_registered (nodup_fullHandles hdistinct)).1 hglobal
    obtain rfl : k = i := hrouted.eq hfull
    have hlt := (List.getElem?_eq_some_iff.1 hm).1
    exact (openDevices_getElem? hlt).1 hdevice j hj.le
  · rintro ⟨hknown, haligned⟩
    refine ⟨context hal opens, startUp_eq hknown, fun i m hm hopen x hx => ?_⟩
    obtain ⟨g, hglobal, hfull, hpos, hlist⟩ := exists_handle opens hm hx hdistinct
    have hlt := (List.getElem?_eq_some_iff.1 hm).1
    have hbefore := haligned i m hm (List.ne_nil_of_mem hx) hopen
    have hdevice := (openDevices_getElem? hlt).2 fun j hj => by
      rcases Nat.lt_or_eq_of_le hj with hlt | rfl
      · exact hbefore j hlt
      · exact hopen
    have hnames : Names (context hal opens) g i x.handle :=
      names_of_openDevices (hnonneg m (List.mem_of_getElem? hm) x hx) hfull hdevice
    exact ⟨g, hglobal, hlist, i, hdevice, routed_of_names hnames hpos hglobal⟩

/-! ### Two modules -/

/-- Two modules, of which the module `lists` has a sensor. -/
def twoModules (lists : ℕ) : SubHals where
  modules := [10, 20]
  sensorsList m := if m = lists then [⟨5, 5, 0, 10000, 0⟩] else []

/-- Opening the module at the index `fails` fails. -/
def opensBut (fails : ℕ) (i : ℕ) : Option ℤ :=
  if i = fails then none else some 0x01000001

theorem routes_twoModules : Routes (twoModules 10) (opensBut 1) := by
  refine (routes_iff (by decide) (by decide)).2 ⟨?_, ?_⟩
  · intro i m hm _
    match i with
    | 0 => exact ⟨0, hm, rfl⟩
    | 1 =>
        obtain rfl : 20 = m := by simpa [twoModules] using hm
        contradiction
    | i + 2 => simp [twoModules] at hm
  · intro i m hm _ hopen
    match i with
    | 0 => simp
    | 1 => simp [opensBut] at hopen
    | i + 2 => simp [twoModules] at hm

/-- The first module has no sensor and fails, and the sensor of the second one has
no device any more. -/
theorem not_routes_twoModules :
    ¬ ∀ (hal : SubHals) (opens : ℕ → Option ℤ),
      (∀ m ∈ hal.modules, ∀ x ∈ hal.sensorsList m, 0 ≤ x.handle) →
      (∀ m ∈ hal.modules, ((hal.sensorsList m).map SensorT.handle).Nodup) →
        Routes hal opens := by
  intro hall
  obtain ⟨ctx, hctx, hroutes⟩ := hall (twoModules 20) (opensBut 0) (by decide) (by decide)
  have hstart : startUp (twoModules 20) (opensBut 0) =
      .ok (context (twoModules 20) (opensBut 0)) := rfl
  obtain rfl : context _ _ = ctx := Except.ok.inj (hstart.symm.trans hctx)
  obtain ⟨g, hglobal, -, j, hdevice, hrouted⟩ :=
    hroutes 1 20 rfl rfl ⟨5, 5, 0, 10000, 0⟩ (by decide)
  have hfull := (HandleMaps.fullToGlobal_registered (by decide)).1 hglobal
  obtain rfl : j = 1 := hrouted.eq hfull
  exact absurd hdevice (by decide)

end StartUp

end MozartLineage.Sensors
