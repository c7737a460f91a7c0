import MozartLineage.Sensors.LegacySensor

/-!
# The period of a deferred batch

For a sensor below API 1.1 the proxy passes a period on at once while the sensor
is enabled, and saves it otherwise, until the sensor is enabled. Only the saved
one goes through a 32-bit parameter.

`PeriodKept` says where the period asked for last is: with the sub-HAL, or in
the table. It is kept by every step in which a period that is saved fits.
-/

namespace MozartLineage.Sensors.Proxy

open Transition

variable {ctx : Context} {s : Tables} {g : ℤ} {i : ℕ} {l : ℤ} {os : List Event}

/-- The calls of the sub-HAL succeed. -/
def Action.Succeeds (a : Action) : Prop := a.result = 0 ∧ a.delayResult = 0

instance (a : Action) : Decidable a.Succeeds := inferInstanceAs (Decidable (_ ∧ _))

/-- A number of 32 bits. -/
def FitsInt (value : ℤ) : Prop := -2 ^ 31 ≤ value ∧ value ≤ 2 ^ 31 - 1

instance (value : ℤ) : Decidable (FitsInt value) :=
  inferInstanceAs (Decidable (_ ∧ _))

/-- A period that is saved for a sensor below API 1.1 fits into 32 bits. -/
def DeferredFits (ctx : Context) (s : Tables) (a : Action) : Prop :=
  match a.request with
  | .batch handle _ periodNs _ =>
      ctx.halIsAPILevelCompliant handle sensorsDeviceApiVersion1_1 = false →
        s.sensorsEnableState (handle - 1) = 0 → FitsInt periodNs
  | _ => True

instance (ctx : Context) (s : Tables) (a : Action) : Decidable (DeferredFits ctx s a) :=
  match a with
  | ⟨.batch _ _ _ _, _, _⟩ => inferInstanceAs (Decidable (_ → _ → FitsInt _))
  | ⟨.activate _ _, _, _⟩ | ⟨.setDelay _ _, _, _⟩ | ⟨.flush _, _, _⟩
  | ⟨.injectSensorData _, _, _⟩ => .isTrue trivial

theorem toInt_of_fits {value : ℤ} (h : FitsInt value) : toInt value = value := by
  obtain ⟨hlow, hhigh⟩ := h
  unfold toInt
  rw [Int.bmod_eq_of_le] <;> omega

/-- The period that was asked for last is with the sub-HAL or, while the sensor
is disabled, in the table. -/
structure PeriodKept (s : Tables) (os : List Event) (g : ℤ) (i : ℕ) (l : ℤ) : Prop where
  active : activeAfter i l os = decide (s.sensorsEnableState (g - 1) ≠ 0)
  saved : (s.sensorsBatchList (g - 1)).empty = false →
    s.sensorsEnableState (g - 1) = 0 ∧
      lastBatch g os = some (s.sensorsBatchList (g - 1)).periodNs
  passed : (s.sensorsBatchList (g - 1)).empty → ∀ p, lastBatch g os = some p →
    lastDelay i l os = some p

/-- A request on another handle changes nothing that matters to a sensor. -/
theorem PeriodKept.step_of_ne (h : PeriodKept s os g i l) (hg : Names ctx g i l)
    (hctx : ctx.handles.Injective) {a : Action} {p : Tables × List Event}
    (hs : step ctx s a = some p) (hne : g ≠ a.request.handle) :
    PeriodKept p.1 (os ++ p.2) g i l := by
  obtain ⟨henable, hbatch⟩ := step_tables hs hne
  have hactive := activeAfter_of_ne hg hctx hs hne os
  have hdelay := lastDelay_of_ne hg hctx hs hne os
  have hlast : lastBatch g (os ++ p.2) = lastBatch g os :=
    latest_append_of_forall_eq_none ((step_allAbout hs).batched_eq_none hne) _ _
  constructor
  · rw [hactive, henable, h.active]
  · rw [hlast, henable, hbatch]
    exact h.saved
  · rw [hlast, hdelay, hbatch]
    exact h.passed

/-- What a request on the handle of a sensor below API 1.1 does to it. -/
theorem PeriodKept.step_self (h : PeriodKept s os g i l) (hg : Legacy ctx g i l)
    {a : Action} {p : Tables × List Event} (hs : step ctx s a = some p)
    (hcalls : a.ActivatesOrBatches ctx) (hok : a.Succeeds) (hfits : DeferredFits ctx s a)
    (hself : a.request.handle = g) : PeriodKept p.1 (os ++ p.2) g i l := by
  obtain ⟨hactive, hsaved, hpassed⟩ := h
  have hactivate := activate_of_names hg.toNames
  have hdelay := setDelay_of_names hg.toNames
  cases step_spec hs with
  | @activateThrough g' _ _ _ hlevel =>
      obtain rfl : g' = g := hself
      simp [hg.legacy] at hlevel
  | @activate g' enabled result _ accesses hlevel hnone haccesses =>
      obtain rfl : g' = g := hself
      obtain rfl : result = 0 := hok.1
      have hact (b : Bool) : latest (activation i l) b accesses = b :=
        latest_accesses haccesses (fun _ => rfl) b
      have hset (b : Option ℤ) : latest (delay i l) b accesses = b :=
        latest_accesses haccesses (fun _ => rfl) b
      have hask (b : Option ℤ) : latest (batched g') b accesses = b :=
        latest_accesses haccesses (fun _ => rfl) b
      -- what is saved stays saved while the sensor is disabled
      constructor
      · simp [activeAfter, latest_append, hactivate, activation, hact, Tables.setEnableState]
      · intro hempty
        replace hempty : (s.sensorsBatchList (g' - 1)).empty = false := hempty
        have hzero : enabled = 0 := hnone.resolve_right (by simp [hempty])
        refine ⟨by simp [Tables.setEnableState, hzero], ?_⟩
        refine Eq.trans ?_ (hsaved hempty).2
        simp [lastBatch, latest_append, hactivate, batched, hask]
      · intro hempty p hp
        have hold := hpassed hempty p (by
          simpa [lastBatch, latest_append, hactivate, batched, hask] using hp)
        simpa [lastDelay, latest_append, hactivate, delay, hset] using hold
  | @activateReplay g' enabled result delayResult hlevel henabled hpending =>
      obtain rfl : g' = g := hself
      obtain rfl : result = 0 := hok.1
      constructor
      · simp [activeAfter, latest_append, hactivate, hdelay, activation,
          Tables.setEnableState, Tables.setBatchData]
      · simp [Tables.setBatchData]
      · intro _ p hp
        have hlast : lastBatch g' os = some p := by
          simpa [lastBatch, latest_append, hactivate, hdelay, batched] using hp
        have hperiod : (s.sensorsBatchList (g' - 1)).periodNs = p :=
          Option.some.inj ((hsaved hpending).2.symm.trans hlast)
        simp [lastDelay, latest_append, hactivate, hdelay, delay, hperiod]
  | @batchThrough g' _ _ _ _ _ hlevel =>
      obtain rfl : g' = g := hself
      simp [hg.legacy] at hlevel
  | @batchSave g' flags periodNs timeout _ _ hlevel hoff =>
      obtain rfl : g' = g := hself
      have hperiod : toInt periodNs = periodNs :=
        toInt_of_fits (hfits hlevel hoff)
      constructor
      · refine Eq.trans ?_ hactive
        simp [activeAfter, latest_append, activation]
      · intro _
        simp [lastBatch, latest_append, batched, Tables.setBatchData, updateBatchData,
          hoff, hperiod]
      · simp [Tables.setBatchData, updateBatchData]
  | @batchNow g' flags periodNs timeout _ _ hlevel hon =>
      obtain rfl : g' = g := hself
      constructor
      · refine Eq.trans ?_ hactive
        simp [activeAfter, latest_append, hdelay, activation]
      · exact fun hempty => absurd (hsaved hempty).1 hon
      · intro _ p hp
        obtain rfl : periodNs = p := by
          simpa [lastBatch, latest_append, hdelay, batched] using hp
        simp [lastDelay, latest_append, hdelay, delay]
  | _ => exact absurd hcalls.2 id

theorem step_periodKept (hctx : ctx.handles.Injective) (hg : Legacy ctx g i l)
    (h : PeriodKept s os g i l) {a : Action} {p : Tables × List Event}
    (hs : step ctx s a = some p) (hcalls : a.ActivatesOrBatches ctx) (hok : a.Succeeds)
    (hfits : DeferredFits ctx s a) : PeriodKept p.1 (os ++ p.2) g i l := by
  by_cases hself : a.request.handle = g
  · exact h.step_self hg hs hcalls hok hfits hself
  · exact h.step_of_ne hg.toNames hctx hs (Ne.symm hself)

/-- In every run of `activate` and `batch` whose calls succeed and in which no
saved period is cut, an active sensor has the period that was asked for last. -/
theorem run_period (hctx : ctx.handles.Injective) {as : List Action}
    (hcalls : ∀ a ∈ as, a.ActivatesOrBatches ctx) (hok : ∀ a ∈ as, a.Succeeds)
    (hfits : (step ctx).Meets (DeferredFits ctx) .init as)
    (hrun : (step ctx).run .init as = some (s, os)) (hg : Legacy ctx g i l)
    (hactive : activeAfter i l os) {p : ℤ} (hp : lastBatch g os = some p) :
    lastDelay i l os = some p := by
  have hguard := hfits.and (Machine.meets_of_forall
    (G := fun _ a => a.ActivatesOrBatches ctx ∧ a.Succeeds)
    (fun a ha _ => ⟨hcalls a ha, hok a ha⟩) _)
  have hkept : PeriodKept s os g i l := Machine.run_invariant_of_meets
    (P := fun s os => PeriodKept s os g i l)
    (fun s os a t o h hG hs =>
      step_periodKept (p := (t, o)) hctx hg h hs hG.2.1 hG.2.2 hG.1)
    ⟨rfl, by simp [Tables.init], by simp [lastBatch]⟩ hguard hrun
  have hon : s.sensorsEnableState (g - 1) ≠ 0 := by simpa [hkept.active] using hactive
  refine hkept.passed ?_ p hp
  by_contra hempty
  exact hon (hkept.saved (by simpa using hempty)).1

/-- A saved period reaches the sub-HAL through the 32-bit parameter. -/
theorem lastDelay_batch_activate (hg : Legacy ctx g i l)
    (hoff : s.sensorsEnableState (g - 1) = 0) {flags periodNs timeout : ℤ} {enabled : ℤ}
    (henabled : enabled ≠ 0) {t : Tables} {o : List Event}
    (hrun : (step ctx).run s [⟨.batch g flags periodNs timeout, 0, 0⟩,
      ⟨.activate g enabled, 0, 0⟩] = some (t, o)) :
    activeAfter i l (os ++ o) ∧ lastBatch g (os ++ o) = some periodNs ∧
      lastDelay i l (os ++ o) = some (toInt periodNs) := by
  have hactivate := activate_of_names hg.toNames
  have hdelay := setDelay_of_names hg.toNames
  obtain rfl : _ = o := by
    simpa [Machine.run_cons, step, handleRequest, deviceBatch, deviceActivate, hg.legacy,
      hoff, henabled, Tables.setBatchData, Tables.setEnableState, updateBatchData,
      hactivate, hdelay] using congrArg (Option.map Prod.snd) hrun
  simp [activeAfter, lastBatch, lastDelay, latest_append, activation, batched, delay,
    henabled]

/-- The period and the timeout are 64-bit numbers that are not negative. -/
def Action.InRange (a : Action) : Prop :=
  match a.request with
  | .batch _ _ periodNs timeout =>
      (0 ≤ periodNs ∧ periodNs < 2 ^ 63) ∧ 0 ≤ timeout ∧ timeout < 2 ^ 63
  | _ => True

instance (a : Action) : Decidable a.InRange :=
  match a with
  | ⟨.batch _ _ _ _, _, _⟩ => inferInstanceAs (Decidable (_ ∧ _))
  | ⟨.activate _ _, _, _⟩ | ⟨.setDelay _ _, _, _⟩ | ⟨.flush _, _, _⟩
  | ⟨.injectSensorData _, _, _⟩ => .isTrue trivial

def batchThenEnable (periodNs : ℤ) : List Action :=
  [⟨.batch 1 0 periodNs 0, 0, 0⟩, ⟨.activate 1 1, 0, 0⟩]

theorem period_batchThenEnable :
    ∃ s os, (step lightContext).run .init (batchThenEnable 200000000) = some (s, os) ∧
      lastDelay 0 5 os = some 200000000 := by
  have hcalls : ∀ a ∈ batchThenEnable 200000000, a.ActivatesOrBatches lightContext := by
    decide
  have hfits : (step lightContext).Meets (DeferredFits lightContext) .init
      (batchThenEnable 200000000) := by decide
  exact ⟨_, _, rfl, run_period injective_lightContext hcalls
    (by decide) hfits rfl legacy_lightContext (by decide) rfl⟩

/-- The period `2 ^ 31` becomes negative. -/
theorem period_lost :
    ¬ ∀ (ctx : Context) (as : List Action) (s : Tables) (os : List Event) (g : ℤ) (i : ℕ)
        (l p : ℤ), ctx.handles.Injective → (∀ a ∈ as, a.ActivatesOrBatches ctx) →
      (∀ a ∈ as, a.Succeeds) → (∀ a ∈ as, a.InRange) →
      (step ctx).run .init as = some (s, os) → Legacy ctx g i l → activeAfter i l os →
        lastBatch g os = some p → lastDelay i l os = some p := by
  intro hall
  have hlost := hall lightContext (batchThenEnable (2 ^ 31)) _ _ 1 0 5 (2 ^ 31)
    injective_lightContext (by decide) (by decide) (by decide) rfl legacy_lightContext
    (by decide) rfl
  exact absurd hlost (by decide)

end MozartLineage.Sensors.Proxy
