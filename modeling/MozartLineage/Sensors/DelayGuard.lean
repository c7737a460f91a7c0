import MozartLineage.Sensors.LegacySensor

/-!
# When a period may be set

Setting the period of a sensor that is not active freezes the framework. The
proxy therefore looks at its own table of enabled sensors first, which is written
whatever the sub-HAL has returned. `Shadowed` says that a sensor the table calls
enabled is active. A sub-HAL that refuses to enable an inactive sensor breaks it,
and nothing else does.
-/

namespace MozartLineage.Sensors.Proxy

open Transition

variable {ctx : Context} {s : Tables} {g : ℤ} {i : ℕ} {l : ℤ} {os : List Event}

/-- No enable of a sensor fails that is not active anyway. -/
def EnablesHold (os : List Event) : Prop :=
  ∀ pre i dev l enabled result post,
    os = pre ++ .called i (.activate dev l enabled) result :: post → enabled ≠ 0 →
      result ≠ 0 → activeAfter i l pre

theorem EnablesHold.left {o : List Event} (h : EnablesHold (os ++ o)) : EnablesHold os :=
  fun pre i dev l enabled result post hos =>
    h pre i dev l enabled result (post ++ o) (by simp [hos])

/-- A sensor below API 1.1 that the table calls enabled is active. -/
def Shadowed (ctx : Context) (s : Tables) (os : List Event) : Prop :=
  ∀ g i l, Legacy ctx g i l → s.sensorsEnableState (g - 1) ≠ 0 → activeAfter i l os

/-- After an enable a sensor is active, whether the enable has succeeded or not,
as long as no other `activate` follows. -/
theorem activeAfter_enable {dev : DevicePointer} {enabled result : ℤ} {r : Request}
    {es : List Event} (henabled : enabled ≠ 0)
    (hsilent : ∀ e ∈ es, activation i l e = none)
    (h : EnablesHold (os ++
      .requested r :: .called i (.activate dev l enabled) result :: es)) :
    activeAfter i l (os ++
      .requested r :: .called i (.activate dev l enabled) result :: es) := by
  by_cases hok : result = 0
  · simp [activeAfter, latest_append, activation, hok, henabled,
      latest_of_forall_eq_none hsilent]
  · have hactive : activeAfter i l (os ++ [.requested r]) :=
      h (os ++ [.requested r]) i dev l enabled result es (by simp) henabled hok
    simpa [activeAfter, latest_append, activation, hok,
      latest_of_forall_eq_none hsilent] using hactive

theorem step_shadowed (hctx : ctx.handles.Injective) (h : Shadowed ctx s os) {a : Action}
    {p : Tables × List Event} (hs : step ctx s a = some p)
    (hcalls : a.ActivatesOrBatches ctx) (hhold : EnablesHold (os ++ p.2)) :
    Shadowed ctx p.1 (os ++ p.2) := by
  intro g i l hg hon
  by_cases hself : g = a.request.handle
  · have hactivate := activate_of_names hg.toNames
    have hdelay := setDelay_of_names hg.toNames
    cases step_spec hs with
    | @activateThrough g' _ _ _ hlevel =>
        obtain rfl : g = g' := hself
        simp [hg.legacy] at hlevel
    | @activate g' enabled _ _ accesses _ _ haccesses =>
        obtain rfl : g = g' := hself
        have henabled : enabled ≠ 0 := by simpa [Tables.setEnableState] using hon
        simp only [hactivate, List.cons_append, List.nil_append] at hhold ⊢
        refine activeAfter_enable henabled (fun e he => ?_) hhold
        rcases List.mem_append.1 he with he | he
        · obtain ⟨table, rfl⟩ := haccesses e he
          rfl
        · obtain rfl : e = _ := by simpa using he
          rfl
    | @activateReplay g' enabled _ _ _ henabled =>
        obtain rfl : g = g' := hself
        simp only [hactivate, hdelay, List.cons_append, List.nil_append] at hhold ⊢
        exact activeAfter_enable henabled (by simp [activation]) hhold
    | @batchThrough g' _ _ _ _ _ hlevel =>
        obtain rfl : g = g' := hself
        simp [hg.legacy] at hlevel
    | batchSave =>
        rw [activeAfter, latest_append_of_forall_eq_none (by simp [activation])]
        exact h g i l hg hon
    | @batchNow g' =>
        obtain rfl : g = g' := hself
        rw [activeAfter, latest_append_of_forall_eq_none (by simp [hdelay, activation])]
        exact h g i l hg hon
    | _ => exact absurd hcalls.2 id
  · rw [activeAfter_of_ne hg.toNames hctx hs hself]
    rw [(step_tables hs hself).1] at hon
    exact h g i l hg hon

/-- A step sets a period only for an active sensor. -/
theorem Shadowed.setDelay (h : Shadowed ctx s os) {a : Action}
    {p : Tables × List Event} (hs : step ctx s a = some p)
    (hcalls : a.ActivatesOrBatches ctx) {o₁ o₂ : List Event} {dev : DevicePointer}
    {ns result : ℤ} (hsplit : p.2 = o₁ ++ .called i (.setDelay dev l ns) result :: o₂)
    (hhold : EnablesHold (os ++ o₁)) : activeAfter i l (os ++ o₁) := by
  have hmem : .called i (.setDelay dev l ns) result ∈ p.2 := by simp [hsplit]
  have hnames := (step_allAbout hs).names hmem rfl
  cases step_spec hs with
  | @activateThrough g =>
      have hg : Names ctx g i l := hnames
      simp [activate_of_names hg] at hmem
  | @activate g _ _ _ accesses _ _ haccesses =>
      have hg : Names ctx g i l := hnames
      have hnone : .called i (.setDelay dev l ns) result ∉ accesses := fun he => by
        obtain ⟨table, he⟩ := haccesses _ he
        cases he
      simp [activate_of_names hg, hnone] at hmem
  | @activateReplay g enabled activated _ hlevel henabled =>
      have hg : Names ctx g i l := hnames
      -- the period is replayed right after the enable
      have ho : o₁ = [.requested (.activate g enabled),
          .called i (.activate (.sub i) l enabled) activated,
          .accessed .sensorsEnableState (g - 1), .accessed .sensorsBatchList (g - 1)] := by
        simp only [activate_of_names hg, setDelay_of_names hg] at hsplit
        exact (by simpa [List.cons_eq_append_iff] using hsplit : o₁ = _ ∧ _).1
      subst ho
      exact activeAfter_enable henabled (by simp [activation]) hhold
  | @batchThrough g _ _ _ _ _ hlevel =>
      have hg : Names ctx g i l := hnames
      rw [Context.batch, if_pos hlevel] at hmem
      simp [callDevice_of_names hg] at hmem
  | batchSave => simp at hmem
  | @batchNow g _ _ _ _ _ hlevel hon =>
      have hg : Names ctx g i l := hnames
      have hsilent : ∀ e ∈ o₁, activation i l e = none := by
        have hall : ∀ e ∈ o₁ ++ .called i (.setDelay dev l ns) result :: o₂,
            activation i l e = none := by
          rw [← hsplit]
          simp [setDelay_of_names hg, activation]
        exact fun e he => hall e (by simp [he])
      rw [activeAfter, latest_append_of_forall_eq_none hsilent]
      exact h g i l ⟨hg, hlevel⟩ hon
  | _ => exact absurd hcalls.2 id

/-- In every run of `activate` and `batch` in which no enable of an inactive
sensor fails, a period is set only while the sensor is active. -/
theorem run_setDelay_active (hctx : ctx.handles.Injective) {as : List Action}
    (hcalls : ∀ a ∈ as, a.ActivatesOrBatches ctx)
    (hrun : (step ctx).run .init as = some (s, os)) (hhold : EnablesHold os) :
    ∀ pre i dev l ns result post, os = pre ++ .called i (.setDelay dev l ns) result :: post →
      activeAfter i l pre := by
  intro pre i dev l ns result post hos
  refine Machine.run_events_of_meets
    (P := fun s os => EnablesHold os → Shadowed ctx s os)
    (G := fun _ a => a.ActivatesOrBatches ctx)
    (Q := fun pre e => EnablesHold pre → ∀ i dev l ns result,
      e = .called i (.setDelay dev l ns) result → activeAfter i l pre)
    ?_ ?_ ?_ (Machine.meets_of_forall (fun a ha _ => hcalls a ha) _) hrun pre _ post hos
    ?_ i dev l ns result rfl
  · intro s os a p hs hcall h hhold
    exact step_shadowed hctx (hs hhold.left) h hcall hhold
  · rintro s os a p hs hcall h o₁ e o₂ hsplit hhold i dev l ns result rfl
    exact (hs hhold.left).setDelay h hcall hsplit hhold
  · intro _ g i l _ hon
    simp [Tables.init] at hon
  · rw [hos] at hhold
    exact hhold.left

/-- After an enable of an inactive sensor that has failed, the next `batch` sets
the period of an inactive sensor. -/
theorem setDelay_of_failed_enable (hg : Legacy ctx g i l)
    (hactive : activeAfter i l os = false) {enabled failure : ℤ} (henabled : enabled ≠ 0)
    (hfailure : failure ≠ 0) {s' : Tables} {o : List Event}
    (hs : step ctx s ⟨.activate g enabled, failure, 0⟩ = some (s', o))
    (flags periodNs timeout result : ℤ) :
    ∃ dev pre post, (step ctx s' ⟨.batch g flags periodNs timeout, result, 0⟩).map Prod.snd =
        some (pre ++ .called i (.setDelay dev l periodNs) result :: post) ∧
      activeAfter i l (os ++ o ++ pre) = false := by
  have hactivate := activate_of_names hg.toNames
  have hdelay := setDelay_of_names hg.toNames
  have hon : s'.sensorsEnableState (g - 1) = enabled ∧
      activeAfter i l (os ++ o) = activeAfter i l os := by
    simp only [step, handleRequest, deviceActivate, hg.legacy, hactivate, hdelay] at hs
    split_ifs at hs <;> cases hs <;>
      simp_all [activeAfter, latest_append, activation, Tables.setEnableState,
        Tables.setBatchData]
  refine ⟨.sub i, [.requested (.batch g flags periodNs timeout),
    .accessed .sensorsEnableState (g - 1)], [.returned result], ?_, ?_⟩
  · simp [step, handleRequest, deviceBatch, hg.legacy, hon.1, henabled, hdelay]
  · rw [activeAfter, latest_append_of_forall_eq_none (by simp [activation])]
    exact hon.2.trans hactive

/-- Sub-HAL `0` is asked to enable its sensor, and answers with `result`; a
`batch` follows. -/
def enableThenBatch (result : ℤ) : List Action :=
  [⟨.activate 1 1, result, 0⟩, ⟨.batch 1 0 200000000 0, 0, 0⟩]

def enableThenBatchEvents (result : ℤ) : List Event :=
  [.requested (.activate 1 1), .called 0 (.activate (.sub 0) 5 1) result,
    .accessed .sensorsEnableState 0, .accessed .sensorsBatchList 0, .returned result,
    .requested (.batch 1 0 200000000 0), .accessed .sensorsEnableState 0,
    .called 0 (.setDelay (.sub 0) 5 200000000) 0, .returned 0]

theorem setDelay_enableThenBatch :
    (∃ s, (step lightContext).run .init (enableThenBatch 0) =
        some (s, enableThenBatchEvents 0)) ∧
      ∀ pre i dev l ns result post,
        enableThenBatchEvents 0 = pre ++ .called i (.setDelay dev l ns) result :: post →
          activeAfter i l pre := by
  have hcalls : ∀ a ∈ enableThenBatch 0, a.ActivatesOrBatches lightContext := by decide
  have hrun : (step lightContext).run .init (enableThenBatch 0) =
      some (_, enableThenBatchEvents 0) := rfl
  refine ⟨⟨_, hrun⟩, run_setDelay_active injective_lightContext hcalls hrun ?_⟩
  intro pre i dev l enabled result post hos _ hresult
  have hmem : .called i (.activate dev l enabled) result ∈ enableThenBatchEvents 0 := by
    simp [hos]
  obtain ⟨-, -, rfl⟩ : i = 0 ∧ (dev = .sub 0 ∧ l = 5 ∧ enabled = 1) ∧ result = 0 := by
    simpa [enableThenBatchEvents] using hmem
  exact absurd rfl hresult

/-- A sensor that could not be enabled gets a period. -/
theorem setDelay_inactive :
    ¬ ∀ (ctx : Context) (as : List Action) (s : Tables) (os : List Event),
      ctx.handles.Injective → (∀ a ∈ as, a.ActivatesOrBatches ctx) →
      (step ctx).run .init as = some (s, os) →
        ∀ pre i dev l ns result post,
          os = pre ++ .called i (.setDelay dev l ns) result :: post →
            activeAfter i l pre := by
  intro hall
  have hactive := hall lightContext (enableThenBatch (-5)) _ (enableThenBatchEvents (-5))
    injective_lightContext (by decide) rfl ((enableThenBatchEvents (-5)).take 7) 0 (.sub 0)
    5 200000000 0 [.returned 0] rfl
  exact absurd hactive (by decide)

end MozartLineage.Sensors.Proxy
