import MozartLineage.Sensors.Routing

/-!
# Translation of the calls to the sub-HALs

A call of the proxy comes with its own device pointer and a global handle, and a
call of a sub-HAL wants the pointer of that sub-HAL and a local handle. All entry
points replace both, but for the injection of an event: that passes the pointer
and the event on as they came.
-/

namespace MozartLineage.Sensors

namespace Proxy

/-- The device argument of a call. -/
def SubHalCall.device : SubHalCall → DevicePointer
  | .activate dev _ _ => dev
  | .setDelay dev _ _ => dev
  | .batch dev _ _ _ _ => dev
  | .flush dev _ => dev
  | .injectSensorData dev _ => dev

/-- The handle that a call or its event carries. -/
def SubHalCall.handle : SubHalCall → ℤ
  | .activate _ handle _ => handle
  | .setDelay _ handle _ => handle
  | .batch _ handle _ _ _ => handle
  | .flush _ handle => handle
  | .injectSensorData _ data => data.sensor

/-- A call is on the device that the handle `g` stands for, with the pointer of
that device and the local handle. -/
def Event.IsTranslated (ctx : Context) (g : ℤ) : Event → Prop
  | .called on call _ =>
      ctx.getV0DeviceByHandle g = some on ∧ call.device = .sub on ∧
        call.handle = ctx.handles.getLocalHandle g
  | _ => True

def Translated (ctx : Context) (g : ℤ) (es : List Event) : Prop :=
  ∀ e ∈ es, e.IsTranslated ctx g

variable {ctx : Context} {s : Tables} {g : ℤ}

theorem Translated.append {es es' : List Event} (h : Translated ctx g es)
    (h' : Translated ctx g es') : Translated ctx g (es ++ es') := by
  intro e he
  rcases List.mem_append.1 he with he | he
  · exact h e he
  · exact h' e he

theorem translated_of_forall_ne_called {es : List Event}
    (h : ∀ e ∈ es, ∀ on call result, e ≠ .called on call result) :
    Translated ctx g es := by
  intro e he
  cases e with
  | called on call result => exact absurd rfl (h _ he on call result)
  | _ => trivial

/-- The events of a request, from those between its start and its end. -/
theorem translated_request_iff {es : List Event} {r : Request} {retval : ℤ} :
    Translated ctx g (.requested r :: es ++ [.returned retval]) ↔ Translated ctx g es := by
  constructor
  · intro h e he
    exact h e (by simp [he])
  · intro h
    have hstart : Translated ctx g [.requested r] :=
      translated_of_forall_ne_called (by simp)
    have hend : Translated ctx g [.returned retval] :=
      translated_of_forall_ne_called (by simp)
    exact (hstart.append h).append hend

theorem translated_accesses {es : List Event} (h : ∀ e ∈ es, ∃ t j, e = .accessed t j) :
    Translated ctx g es := by
  intro e he
  obtain ⟨t, j, rfl⟩ := h e he
  trivial

theorem translated_callDevice {call : ℕ → ℤ → SubHalCall} {result : ℤ}
    (hdevice : ∀ i l, (call i l).device = .sub i) (hhandle : ∀ i l, (call i l).handle = l) :
    Translated ctx g (ctx.callDevice (ctx.getV0DeviceByHandle g) g call result).2 := by
  unfold Context.callDevice
  cases hi : ctx.getV0DeviceByHandle g with
  | none => exact translated_of_forall_ne_called (by simp)
  | some i =>
      dsimp only
      split_ifs
      · intro e he
        obtain rfl : e = _ := List.mem_singleton.1 he
        exact ⟨hi, hdevice i _, hhandle i _⟩
      · exact translated_of_forall_ne_called (by simp)

theorem translated_activate (enabled result : ℤ) :
    Translated ctx g (ctx.activate g enabled result).2 :=
  translated_callDevice (fun _ _ => rfl) fun _ _ => rfl

theorem translated_setDelay (ns result : ℤ) :
    Translated ctx g (ctx.setDelay g ns result).2 :=
  translated_callDevice (fun _ _ => rfl) fun _ _ => rfl

/-- The injection of an event that is not refused. -/
def Reaches (ctx : Context) (data : SensorsEvent) : Prop :=
  ctx.halIsAPILevelCompliant data.sensor sensorsDeviceApiVersion1_4 ∧
    0 ≤ ctx.handles.getLocalHandle data.sensor

instance (ctx : Context) (data : SensorsEvent) : Decidable (Reaches ctx data) :=
  inferInstanceAs (Decidable (_ ∧ _))

theorem exists_device_of_compliant {level : ℤ}
    (h : ctx.halIsAPILevelCompliant g level) : ∃ i, ctx.getV0DeviceByHandle g = some i := by
  cases hi : ctx.getV0DeviceByHandle g with
  | none => simp [Context.halIsAPILevelCompliant, Context.getDeviceVersionByHandle, hi] at h
  | some i => exact ⟨i, rfl⟩

/-- An event that gets through carries the pointer of the proxy. -/
theorem translated_injectSensorData_iff {data : SensorsEvent} {result : ℤ} :
    Translated ctx data.sensor (ctx.injectSensorData .proxy data result).2 ↔
      ¬ Reaches ctx data := by
  unfold Context.injectSensorData Reaches
  by_cases hlevel : ctx.halIsAPILevelCompliant data.sensor sensorsDeviceApiVersion1_4
  · rw [if_pos hlevel]
    obtain ⟨i, hi⟩ := exists_device_of_compliant hlevel
    by_cases hlocal : 0 ≤ ctx.handles.getLocalHandle data.sensor
    · simp only [Context.callDevice, Context.getV1DeviceByHandle_eq, hi, ge_iff_le, hlocal,
        if_true, hlevel, and_self, not_true_eq_false, iff_false]
      intro h
      obtain ⟨-, hdevice, -⟩ := h _ (List.mem_singleton_self _)
      cases hdevice
    · simp [Context.callDevice, hi, hlocal, Translated]
  · rw [if_neg hlevel]
    simp [hlevel, Translated]

/-- The calls of a request are translated unless an event is injected. -/
theorem step_translated_iff {a : Action} {p : Tables × List Event}
    (h : step ctx s a = some p) :
    Translated ctx a.request.handle p.2 ↔
      ∀ data, a.request = .injectSensorData data → ¬ Reaches ctx data := by
  cases step_spec h with
  | activateThrough =>
      rw [translated_request_iff]
      exact iff_of_true (translated_activate _ _) (by simp)
  | activate _ _ haccesses =>
      rw [translated_request_iff]
      refine iff_of_true ((translated_activate _ _).append ?_) (by simp)
      exact translated_accesses fun e he => (haccesses e he).imp fun t ht => ⟨_, ht⟩
  | activateReplay =>
      rw [translated_request_iff]
      refine iff_of_true (Translated.append ?_ ?_) (by simp)
      · apply ((translated_activate _ _).append _).append (translated_setDelay _ _)
        exact translated_accesses (by simp)
      · exact translated_accesses (by simp)
  | setDelay =>
      rw [translated_request_iff]
      exact iff_of_true (translated_setDelay _ _) (by simp)
  | batchThrough hlevel =>
      rw [translated_request_iff, Context.batch, if_pos hlevel]
      exact iff_of_true (translated_callDevice (fun _ _ => rfl) fun _ _ => rfl) (by simp)
  | batchSave =>
      exact iff_of_true (translated_of_forall_ne_called (by simp)) (by simp)
  | batchNow =>
      rw [translated_request_iff, ← List.singleton_append]
      refine iff_of_true (Translated.append ?_ (translated_setDelay _ _)) (by simp)
      exact translated_accesses (by simp)
  | flush =>
      rw [translated_request_iff]
      refine iff_of_true ?_ (by simp)
      unfold Context.flush
      split_ifs
      · exact translated_callDevice (fun _ _ => rfl) fun _ _ => rfl
      · exact translated_of_forall_ne_called (by simp)
  | injectSensorData =>
      rw [translated_request_iff]
      exact translated_injectSensorData_iff.trans (by simp)

end Proxy

namespace StartUp

open Proxy

variable {hal : SubHals} {opens : ℕ → Option ℤ}

/-- When no module has failed, the devices stand at the indices of their modules. -/
theorem map_openedFrom_of_opens {modules : List ℕ}
    (hopens : ∀ i < modules.length, (opens i).isSome) :
    (openDevices opens modules).map SubHwDevice.openedFrom = List.range modules.length := by
  rw [map_openedFrom_openDevices]
  exact List.filter_eq_self.2 fun i hi => hopens i (List.mem_range.1 hi)

/-- A registered handle is that of a module. -/
theorem exists_module_of_globalToFull {g : ℤ} {f : FullHandle}
    (h : (context hal opens).handles.globalToFull g = some f) :
    ∃ i < hal.modules.length, f.moduleIndex = i := by
  obtain ⟨k, -, hk⟩ := HandleMaps.globalToFull_registered.1 h
  obtain ⟨e, he, rfl⟩ := List.mem_map.1 (List.mem_of_getElem? hk)
  exact ⟨e.moduleIndex, (List.getElem?_eq_some_iff.1 (mem_entries.1 he).1).1, rfl⟩

/-- A call is on the device of the module that lists the sensor, with its pointer and
the local handle. -/
def OwnCall (ctx : Context) (f : FullHandle) : Proxy.Event → Prop
  | .called on call _ =>
      (∃ d, ctx.subHwDevices[on]? = some d ∧ d.openedFrom = f.moduleIndex) ∧
        call.device = .sub on ∧ call.handle = f.localHandle
  | _ => True

theorem isTranslated_iff_ownCall (hopens : ∀ i < hal.modules.length, (opens i).isSome)
    {g : ℤ} {f : FullHandle} (hg : (context hal opens).handles.globalToFull g = some f)
    (e : Proxy.Event) :
    e.IsTranslated (context hal opens) g ↔ OwnCall (context hal opens) f e := by
  obtain ⟨i, hi, hf⟩ := exists_module_of_globalToFull hg
  cases e with
  | called on call result =>
      have hdevices : (context hal opens).subHwDevices.map SubHwDevice.openedFrom =
          List.range hal.modules.length := map_openedFrom_of_opens hopens
      have hlength : (context hal opens).subHwDevices.length = hal.modules.length := by
        simpa using congrArg List.length hdevices
      have hindex : (context hal opens).handles.getModuleIndex g = i := by
        simp [HandleMaps.getModuleIndex, hg, hf]
      have hdevice : (context hal opens).getV0DeviceByHandle g = some i := by
        simp [Context.getV0DeviceByHandle, hindex, hlength, hi]
      have hlocal : (context hal opens).handles.getLocalHandle g = f.localHandle := by
        simp [HandleMaps.getLocalHandle, hg]
      have hfrom (j : ℕ) (d : SubHwDevice)
          (hd : (context hal opens).subHwDevices[j]? = some d) : d.openedFrom = j := by
        have hj := (List.getElem?_eq_some_iff.1 hd).1
        have hget := congrArg (·[j]?) hdevices
        simpa [hd, List.getElem?_range (hlength ▸ hj)] using hget
      have howner : (∃ d, (context hal opens).subHwDevices[on]? = some d ∧
          d.openedFrom = f.moduleIndex) ↔ i = on := by
        rw [hf]
        constructor
        · rintro ⟨d, hd, hdi⟩
          exact (Int.natCast_inj.1 hdi).symm.trans (hfrom on d hd)
        · rintro rfl
          have hd := List.getElem?_eq_getElem (hlength ▸ hi)
          exact ⟨_, hd, congrArg Nat.cast (hfrom i _ hd)⟩
      rw [Proxy.Event.IsTranslated, OwnCall, hdevice, hlocal, howner, Option.some.injEq]
  | _ => exact Iff.rfl

/-- When all sub-HALs have been opened, the calls that come of a request on a
registered handle are the owner's if and only if the request is no event that is
injected. -/
theorem startUp_ownCalls_iff (hopens : ∀ i < hal.modules.length, (opens i).isSome)
    {ctx : Context} (hctx : startUp hal opens = .ok ctx) {f : FullHandle} {a : Proxy.Action}
    (hg : ctx.handles.globalToFull a.request.handle = some f) {s : Tables}
    {p : Tables × List Proxy.Event} (hs : Proxy.step ctx s a = some p) :
    (∀ e ∈ p.2, OwnCall ctx f e) ↔
      ∀ data, a.request = .injectSensorData data → ¬ Reaches ctx data := by
  have hknown : Known hal opens := fun i m hm _ =>
    ⟨i, hm, hopens i (List.getElem?_eq_some_iff.1 hm).1⟩
  obtain rfl : context hal opens = ctx := by simpa [startUp_eq hknown] using hctx
  rw [← step_translated_iff hs]
  exact forall₂_congr fun e _ => (isTranslated_iff_ownCall hopens hg e).symm

/-! ### One light sensor -/

/-- A module with one sensor, which is opened. -/
def lightModule : SubHals where
  modules := [10]
  sensorsList _ := [⟨5, 5, 0, 10000, 0⟩]

def opensLight (_ : ℕ) : Option ℤ := some sensorsDeviceApiVersion1_4

theorem ownCalls_lightModule :
    ∃ ctx p, startUp lightModule opensLight = .ok ctx ∧
      Proxy.step ctx .init ⟨.activate 1 1, 0, 0⟩ = some p ∧
        .called 0 (.activate (.sub 0) 5 1) 0 ∈ p.2 ∧ ∀ e ∈ p.2, OwnCall ctx ⟨0, 5⟩ e := by
  have hopens : ∀ i < lightModule.modules.length, (opensLight i).isSome := fun _ _ => rfl
  have hctx : startUp lightModule opensLight = .ok (context lightModule opensLight) := rfl
  refine ⟨context lightModule opensLight, _, hctx, rfl, by decide, ?_⟩
  exact (startUp_ownCalls_iff (a := ⟨.activate 1 1, 0, 0⟩) hopens hctx rfl rfl).2 (by simp)

/-- The event that is injected has the global handle, and comes with the pointer of the
proxy. -/
theorem not_ownCalls_lightModule :
    ¬ ∀ (hal : SubHals) (opens : ℕ → Option ℤ) (ctx : Context) (f : FullHandle)
        (a : Proxy.Action) (s : Tables) (p : Tables × List Proxy.Event),
      (∀ i < hal.modules.length, (opens i).isSome) → startUp hal opens = .ok ctx →
        ctx.handles.globalToFull a.request.handle = some f →
          Proxy.step ctx s a = some p → ∀ e ∈ p.2, OwnCall ctx f e := by
  intro hall
  have h := hall lightModule opensLight (context lightModule opensLight) ⟨0, 5⟩
    ⟨.injectSensorData ⟨5, 1, 0, 10⟩, 0, 0⟩ .init _ (fun _ _ => rfl) rfl rfl rfl
    (.called 0 (.injectSensorData .proxy ⟨5, 1, 0, 10⟩) 0) (by decide)
  obtain ⟨-, hdevice, -⟩ := h
  cases hdevice

end StartUp

end MozartLineage.Sensors
