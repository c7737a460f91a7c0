import MozartLineage.Sensors.Proxy

/-!
# Sensors of older sub-HALs

`Names ctx g i l` says that the global handle `g` stands for the sensor `l` of
sub-HAL `i`, and `Legacy ctx g i l` that this sub-HAL is below API 1.1, so that
the tables of the proxy come in. A request on one handle makes no call on the
sensor of another one and leaves its places in the tables alone.

What the calls so far say of a sensor is read off the history: whether it is
active, which period was set last, and which period was asked for last.
-/

namespace MozartLineage.Sensors.Proxy

open Transition

variable {ctx : Context} {s : Tables} {g : ℤ} {i : ℕ} {l : ℤ}

/-! ### Handles -/

/-- The global handle `g` stands for the sensor `l` of sub-HAL `i`. -/
structure Names (ctx : Context) (g : ℤ) (i : ℕ) (l : ℤ) : Prop where
  device : ctx.getV0DeviceByHandle g = some i
  localHandle : ctx.handles.getLocalHandle g = l
  nonneg : 0 ≤ l

theorem Names.globalToFull (h : Names ctx g i l) :
    ctx.handles.globalToFull g = some ⟨i, l⟩ := by
  have hdevice := h.device
  have hlocal := h.localHandle
  unfold Context.getV0DeviceByHandle at hdevice
  dsimp only at hdevice
  split_ifs at hdevice with hbounds
  unfold HandleMaps.getModuleIndex at hdevice hbounds
  unfold HandleMaps.getLocalHandle at hlocal
  cases hf : ctx.handles.globalToFull g with
  | none => simp [hf] at hbounds
  | some f =>
      simp only [hf, Option.some.injEq] at hbounds hdevice hlocal
      have hindex : f.moduleIndex = i := by omega
      rw [← hindex, ← hlocal]

theorem Names.eq (h : Names ctx g i l) {i' : ℕ} {l' : ℤ} (h' : Names ctx g i' l') :
    i = i' ∧ l = l' :=
  ⟨Option.some.inj (h.device.symm.trans h'.device),
    h.localHandle.symm.trans h'.localHandle⟩

theorem Names.handle_eq (h : Names ctx g i l) (hctx : ctx.handles.Injective) {g' : ℤ}
    (h' : Names ctx g' i l) : g = g' :=
  hctx _ g g' h.globalToFull h'.globalToFull

/-- A handle of a sub-HAL whose sensors have no `batch`. -/
structure Legacy (ctx : Context) (g : ℤ) (i : ℕ) (l : ℤ) : Prop
    extends Names ctx g i l where
  legacy : ctx.halIsAPILevelCompliant g sensorsDeviceApiVersion1_1 = false

theorem callDevice_of_names (h : Names ctx g i l) (call : ℕ → ℤ → SubHalCall)
    (result : ℤ) :
    ctx.callDevice (ctx.getV0DeviceByHandle g) g call result =
      (result, [.called i (call i l) result]) := by
  simp [Context.callDevice, h.device, h.localHandle, h.nonneg]

/-- An `activate` or a `batch` of a registered handle. -/
def Action.ActivatesOrBatches (ctx : Context) (a : Action) : Prop :=
  (ctx.handles.globalToFull a.request.handle).isSome ∧
    match a.request with
    | .activate _ _ => True
    | .batch _ _ _ _ => True
    | _ => False

instance (ctx : Context) (a : Action) : Decidable (a.ActivatesOrBatches ctx) :=
  match a with
  | ⟨.activate _ _, _, _⟩ | ⟨.batch _ _ _ _, _, _⟩ =>
      inferInstanceAs (Decidable (_ ∧ True))
  | ⟨.setDelay _ _, _, _⟩ | ⟨.flush _, _, _⟩ | ⟨.injectSensorData _, _, _⟩ =>
      inferInstanceAs (Decidable (_ ∧ False))

/-! ### What a call is about -/

/-- The sub-HAL and the local handle that a call names. -/
def Event.sensor : Event → Option (ℕ × ℤ)
  | .called on (.activate _ handle _) _ => some (on, handle)
  | .called on (.setDelay _ handle _) _ => some (on, handle)
  | .called on (.batch _ handle _ _ _) _ => some (on, handle)
  | .called on (.flush _ handle) _ => some (on, handle)
  | _ => none

/-- The value that a successful `activate` gives to a sensor. -/
def activation (i : ℕ) (l : ℤ) : Event → Option Bool
  | .called on (.activate _ handle enabled) result =>
      if on = i ∧ handle = l ∧ result = 0 then some (enabled ≠ 0) else none
  | _ => none

/-- The period that a `setDelay` gives to a sensor. -/
def delay (i : ℕ) (l : ℤ) : Event → Option (Option ℤ)
  | .called on (.setDelay _ handle ns) _ =>
      if on = i ∧ handle = l then some (some ns) else none
  | _ => none

/-- The period that the framework asks for. -/
def batched (g : ℤ) : Event → Option (Option ℤ)
  | .requested (.batch handle _ periodNs _) =>
      if handle = g then some (some periodNs) else none
  | _ => none

/-- The last successful `activate` of the sensor was an enable. -/
def activeAfter (i : ℕ) (l : ℤ) (os : List Event) : Bool :=
  latest (activation i l) false os

def lastDelay (i : ℕ) (l : ℤ) (os : List Event) : Option ℤ :=
  latest (delay i l) none os

def lastBatch (g : ℤ) (os : List Event) : Option ℤ := latest (batched g) none os

theorem activation_eq_none {e : Event} (h : e.sensor ≠ some (i, l)) :
    activation i l e = none := by
  unfold activation
  split
  · rw [if_neg fun hc => h (by simp [Event.sensor, hc.1, hc.2.1])]
  · rfl

theorem delay_eq_none {e : Event} (h : e.sensor ≠ some (i, l)) : delay i l e = none := by
  unfold delay
  split
  · rw [if_neg fun hc => h (by simp [Event.sensor, hc.1, hc.2])]
  · rfl

/-! ### Requests on other handles -/

/-- A request is for the handle `g`; a call on a sensor is on that of `g`. -/
def Event.IsAbout (ctx : Context) (g : ℤ) : Event → Prop
  | .requested request => request.handle = g
  | .called on call result =>
      ∀ i l, (Event.called on call result).sensor = some (i, l) → Names ctx g i l
  | _ => True

def AllAbout (ctx : Context) (g : ℤ) (es : List Event) : Prop :=
  ∀ e ∈ es, e.IsAbout ctx g

theorem AllAbout.names {es : List Event} (h : AllAbout ctx g es) {e : Event} (he : e ∈ es)
    (hsensor : e.sensor = some (i, l)) : Names ctx g i l := by
  cases e with
  | called on call result => exact h _ he i l hsensor
  | _ => simp [Event.sensor] at hsensor

theorem AllAbout.batched_eq_none {es : List Event} {g' : ℤ} (h : AllAbout ctx g' es)
    (hne : g ≠ g') : ∀ e ∈ es, batched g e = none := by
  intro e he
  unfold batched
  split
  · refine if_neg fun hg => hne ?_
    rw [← hg]
    exact h _ he
  · rfl

theorem AllAbout.append {es es' : List Event} (h : AllAbout ctx g es)
    (h' : AllAbout ctx g es') : AllAbout ctx g (es ++ es') := by
  intro e he
  rcases List.mem_append.1 he with he | he
  · exact h e he
  · exact h' e he

/-- The events of a request, from those between its start and its end. -/
theorem AllAbout.request {es : List Event} (h : AllAbout ctx g es) {r : Request}
    (hr : r.handle = g) (retval : ℤ) :
    AllAbout ctx g (.requested r :: es ++ [.returned retval]) := by
  intro e he
  simp only [List.cons_append, List.mem_cons, List.mem_append, List.not_mem_nil,
    or_false] at he
  rcases he with rfl | he | rfl
  · exact hr
  · exact h e he
  · trivial

theorem allAbout_nil : AllAbout ctx g [] := by
  intro e he
  simp at he

theorem allAbout_callDevice {call : ℕ → ℤ → SubHalCall} {result : ℤ}
    (hcall : ∀ i l, (Event.called i (call i l) result).sensor ∈ [none, some (i, l)]) :
    AllAbout ctx g (ctx.callDevice (ctx.getV0DeviceByHandle g) g call result).2 := by
  unfold Context.callDevice
  dsimp only
  split
  · next i hi =>
    split_ifs with hl
    · intro e he
      obtain rfl : e = _ := by simpa using he
      intro i' l' hsensor
      obtain ⟨rfl, rfl⟩ : i' = i ∧ l' = _ := by
        simpa [hsensor] using hcall i (ctx.handles.getLocalHandle g)
      exact ⟨hi, rfl, hl⟩
    · exact allAbout_nil
  · exact allAbout_nil

theorem allAbout_activate (enabled result : ℤ) :
    AllAbout ctx g (ctx.activate g enabled result).2 :=
  allAbout_callDevice (by simp [Event.sensor])

theorem allAbout_setDelay (ns result : ℤ) :
    AllAbout ctx g (ctx.setDelay g ns result).2 :=
  allAbout_callDevice (by simp [Event.sensor])

theorem allAbout_accesses {es : List Event} (h : ∀ e ∈ es, ∃ t j, e = .accessed t j) :
    AllAbout ctx g es := by
  intro e he
  obtain ⟨t, j, rfl⟩ := h e he
  trivial

/-- A request and all calls that it leads to are about its handle. -/
theorem step_allAbout {a : Action} {p : Tables × List Event} (h : step ctx s a = some p) :
    AllAbout ctx a.request.handle p.2 := by
  cases step_spec h with
  | activateThrough => exact (allAbout_activate _ _).request rfl _
  | activate _ _ haccesses =>
      refine AllAbout.request ?_ rfl _
      apply (allAbout_activate _ _).append
      exact allAbout_accesses fun e he => (haccesses e he).imp fun t ht => ⟨_, ht⟩
  | activateReplay =>
      refine AllAbout.request ?_ rfl _
      apply AllAbout.append
      · apply ((allAbout_activate _ _).append _).append (allAbout_setDelay _ _)
        exact allAbout_accesses (by simp)
      · exact allAbout_accesses (by simp)
  | setDelay => exact (allAbout_setDelay _ _).request rfl _
  | batchThrough hlevel =>
      rw [Context.batch, if_pos hlevel]
      exact (allAbout_callDevice (by simp [Event.sensor])).request rfl _
  | batchSave =>
      intro e he
      simp only [List.mem_cons, List.not_mem_nil, or_false] at he
      rcases he with rfl | rfl | rfl | rfl
      · rfl
      · trivial
      · trivial
      · trivial
  | batchNow =>
      refine AllAbout.request ?_ rfl _
      rw [← List.singleton_append]
      apply AllAbout.append _ (allAbout_setDelay _ _)
      exact allAbout_accesses (by simp)
  | flush =>
      unfold Context.flush
      split_ifs
      · exact (allAbout_callDevice (by simp [Event.sensor])).request rfl _
      · exact allAbout_nil.request rfl _
  | injectSensorData =>
      unfold Context.injectSensorData
      split_ifs
      · exact (allAbout_callDevice (by simp [Event.sensor])).request rfl _
      · exact allAbout_nil.request rfl _

/-- The places of other handles in the tables are left alone. -/
theorem step_tables {a : Action} {p : Tables × List Event} (h : step ctx s a = some p)
    (hg : g ≠ a.request.handle) :
    p.1.sensorsEnableState (g - 1) = s.sensorsEnableState (g - 1) ∧
      p.1.sensorsBatchList (g - 1) = s.sensorsBatchList (g - 1) := by
  cases step_spec h <;>
    simp_all [Tables.setEnableState, Tables.setBatchData, Request.handle]

/-- A request on another handle leaves a sensor as it is. -/
theorem activeAfter_of_ne (hg : Names ctx g i l) (hctx : ctx.handles.Injective)
    {a : Action} {p : Tables × List Event} (hs : step ctx s a = some p)
    (hne : g ≠ a.request.handle) (os : List Event) :
    activeAfter i l (os ++ p.2) = activeAfter i l os :=
  latest_append_of_forall_eq_none (fun _ he => activation_eq_none fun hsensor =>
    hne (hg.handle_eq hctx ((step_allAbout hs).names he hsensor))) _ _

theorem lastDelay_of_ne (hg : Names ctx g i l) (hctx : ctx.handles.Injective)
    {a : Action} {p : Tables × List Event} (hs : step ctx s a = some p)
    (hne : g ≠ a.request.handle) (os : List Event) :
    lastDelay i l (os ++ p.2) = lastDelay i l os :=
  latest_append_of_forall_eq_none (fun _ he => delay_eq_none fun hsensor =>
    hne (hg.handle_eq hctx ((step_allAbout hs).names he hsensor))) _ _

theorem activate_of_names (hg : Names ctx g i l) (enabled result : ℤ) :
    ctx.activate g enabled result =
      (result, [.called i (.activate (.sub i) l enabled) result]) :=
  callDevice_of_names hg _ _

theorem setDelay_of_names (hg : Names ctx g i l) (ns result : ℤ) :
    ctx.setDelay g ns result = (result, [.called i (.setDelay (.sub i) l ns) result]) :=
  callDevice_of_names hg _ _

/-- The events that touch the tables say nothing of a sensor. -/
theorem latest_accesses {β : Type*} {f : Event → Option β} {accesses : List Event}
    {index : ℤ} (h : ∀ e ∈ accesses, ∃ table, e = .accessed table index)
    (hf : ∀ table, f (.accessed table index) = none) (b : β) :
    latest f b accesses = b := by
  apply latest_of_forall_eq_none
  intro e he
  obtain ⟨table, rfl⟩ := h e he
  exact hf table

/-- A sub-HAL with one sensor, which it calls `5`. -/
def lightContext : Context where
  handles := .registered [⟨0, 5⟩]
  subHwDevices := [⟨0, 0x01000001⟩]
  globalSensorsList := [⟨1, 5, 0, 10000, 0⟩]

theorem injective_lightContext : lightContext.handles.Injective :=
  HandleMaps.injective_registered (by decide)

theorem legacy_lightContext : Legacy lightContext 1 0 5 := ⟨⟨rfl, rfl, by decide⟩, rfl⟩

end MozartLineage.Sensors.Proxy
