import Mathlib.Data.Fintype.Option
import MozartLineage.Power.Boost
import MozartLineage.Transition.DeferredWrite

/-!
# The knobs of the interaction boost

The HAL sets `boostActive` under the lock and writes the profile of the new
value after it has left the lock, so it is a system of deferred writes: its
threads are the callers and the worker, its flag is `boostActive`, and its
store is sysfs. `State.deferred` is that reading of a state, and `step_kind`
says what a step of the HAL is in it.
-/

namespace MozartLineage.Power

open Transition

def Caller.pending : Caller → List (Path × String)
  | .writing writes => writes
  | _ => []

def Worker.pending : Worker → List (Path × String)
  | .writing writes => writes
  | _ => []

namespace State

variable {ι : Type*}

/-- The writes that a thread has still to make; `none` is the worker. -/
def pending (s : State ι) : Option ι → List (Path × String)
  | none => s.worker.pending
  | some i => (s.callers i).pending

/-- The HAL as a system of deferred writes. -/
def deferred (s : State ι) : DeferredWrite.State (Option ι) Path String Bool where
  flag := s.boost.boostActive
  store := s.files
  pending := s.pending

/-- No thread is between the lock and the last of its writes, nor between the
two locked sections of a low-power hint. -/
def Quiescent (s : State ι) : Prop :=
  (∀ t, s.pending t = []) ∧ ∀ i, s.callers i ≠ .cancelling true

/-- The knobs hold the profile that `boostActive` selects, and that is the
normal one in low-power mode. -/
def KnobsAgree (s : State ι) : Prop :=
  (∀ w ∈ setInteractionBoost s.boost.boostActive, s.files w.1 = w.2) ∧
    (s.boost.lowPowerMode → s.boost.boostActive = false)

/-- The path that an action writes to, when it is a write of a profile. -/
def writtenPath (s : State ι) : Action ι → Option Path
  | .caller i _ => (s.pending (some i)).head?.map Prod.fst
  | .workerWrite _ => (s.pending none).head?.map Prod.fst
  | _ => none

/-- Either the write of an action does not go to a knob of the profile that
`boostActive` selects, or a thread has the value of that profile for the knob
still to write. -/
def WriteHarmless (s : State ι) (a : Action ι) : Prop :=
  ∀ path, s.writtenPath a = some path →
    DeferredWrite.Harmless setInteractionBoost s.deferred path

end State

/-- The write of the action, if it makes one, succeeds. -/
def Action.Ok {ι : Type*} : Action ι → Prop
  | .caller _ ok => ok
  | .workerWrite ok => ok
  | _ => True

instance {ι : Type*} : DecidablePred (@Action.Ok ι)
  | .caller _ ok => inferInstanceAs (Decidable (ok = true))
  | .workerWrite ok => inferInstanceAs (Decidable (ok = true))
  | .tick _ => .isTrue trivial
  | .powerHint _ _ _ => .isTrue trivial
  | .powerSetInteractive _ _ => .isTrue trivial
  | .workerLock => .isTrue trivial
  | .workerTimeout => .isTrue trivial

section Decidable

variable {ι : Type*}

instance (s : State ι) : Decidable s.KnobsAgree :=
  inferInstanceAs (Decidable (_ ∧ _))

variable [Fintype ι]

instance (s : State ι) : Decidable s.Quiescent :=
  inferInstanceAs (Decidable (_ ∧ _))

instance [DecidableEq ι] (s : State ι) (path : Path) :
    Decidable (DeferredWrite.Harmless setInteractionBoost s.deferred path) :=
  inferInstanceAs (Decidable (∀ w ∈ setInteractionBoost s.boost.boostActive,
    w.1 = path → ∃ t, w ∈ s.pending t))

instance [DecidableEq ι] (s : State ι) (a : Action ι) :
    Decidable (s.WriteHarmless a) :=
  match h : s.writtenPath a with
  | none => .isTrue (by simp [State.WriteHarmless, h])
  | some path =>
      decidable_of_iff (DeferredWrite.Harmless setInteractionBoost s.deferred path)
        (by simp [State.WriteHarmless, h])

end Decidable

variable {ι : Type*} [DecidableEq ι]

theorem boostpulse_foreign :
    ∀ b, ∀ w ∈ setInteractionBoost b, w.1 ≠ Path.cpu0Boostpulse := by decide

@[simp] theorem deferred_setCaller (s : State ι) (i : ι) (c : Caller) :
    (s.setCaller i c).deferred =
      { s.deferred with
        pending := Function.update s.pending (some i) c.pending } := by
  refine DeferredWrite.State.ext rfl rfl ?_
  funext t
  cases t with
  | none => rfl
  | some j =>
      by_cases hj : j = i
      · subst hj
        simp [State.deferred, State.pending, State.setCaller]
      · simp [State.deferred, State.pending, State.setCaller, hj]

/-- A caller without writes that gets none is not seen by the others. -/
theorem deferred_setCaller_of_nil (s : State ι) (i : ι) {c : Caller}
    (hs : (s.callers i).pending = []) (hc : c.pending = []) :
    (s.setCaller i c).deferred = s.deferred := by
  have hp : Function.update s.pending (some i) c.pending = s.pending :=
    Function.update_eq_self_iff.2 (by simpa [State.pending, hc] using hs.symm)
  rw [deferred_setCaller, hp]
  rfl

@[simp] theorem deferred_setWorker (s : State ι) (w : Worker) :
    (s.setWorker w).deferred =
      { s.deferred with pending := Function.update s.pending none w.pending } := by
  refine DeferredWrite.State.ext rfl rfl ?_
  funext t
  cases t <;> rfl

theorem deferred_setWorker_of_nil (s : State ι) {w : Worker}
    (hs : s.worker.pending = []) (hw : w.pending = []) :
    (s.setWorker w).deferred = s.deferred := by
  have hp : Function.update s.pending none w.pending = s.pending :=
    Function.update_eq_self_iff.2 (by simpa [State.pending, hw] using hs.symm)
  rw [deferred_setWorker, hp]
  rfl

/-- What a step is for the system of deferred writes. -/
inductive StepKind (s t : State ι) (a : Action ι) : Prop where
  | silent (ha : s.writtenPath a = none) (h : t.deferred = s.deferred)
  | enter (u : Option ι) (b : Bool) (ha : s.writtenPath a = none)
      (hp : s.pending u = [])
      (h : t.deferred = s.deferred.enter setInteractionBoost u b)
  | write (u : Option ι) (w : Path × String) (ws : List (Path × String))
      (hp : s.pending u = w :: ws) (ha : s.writtenPath a = some w.1)
      (h : t.deferred = s.deferred.write u w ws)
  | pulse (v : String) (ha : s.writtenPath a = none)
      (h : t.deferred = s.deferred.foreign .cpu0Boostpulse v)

theorem requestBoostLocked_eq_some {b b' : Boost} {d : Timespec}
    (h : requestBoostLocked b d = some b') :
    b'.boostActive = true ∧ b.lowPowerMode = false ∧ b'.lowPowerMode = false := by
  unfold requestBoostLocked at h
  cases hl : b.lowPowerMode with
  | true => simp [hl] at h
  | false =>
      simp only [hl, Bool.false_eq_true, if_false] at h
      split at h <;> (cases h; simp)

theorem expireBoostLocked_eq_some {b b' : Boost} {now : Timespec}
    (h : expireBoostLocked b now = some b') :
    b' = { b with boostActive := false } := by
  unfold expireBoostLocked at h
  split at h <;> simp_all

omit [DecidableEq ι] in
theorem writtenPath_caller_of_nil {s : State ι} {i : ι} {ok : Bool}
    (h : (s.callers i).pending = []) : s.writtenPath (.caller i ok) = none := by
  simp [State.writtenPath, State.pending, h]

omit [DecidableEq ι] in
theorem writtenPath_workerWrite_of_nil {s : State ι} {ok : Bool}
    (h : s.worker.pending = []) : s.writtenPath (.workerWrite ok) = none := by
  simp [State.writtenPath, State.pending, h]

/-- A caller that steps into the lock had no writes left. -/
theorem StepKind.callerEnter {s : State ι} {i : ι} {ok b : Bool} {boost : Boost}
    (hp : (s.callers i).pending = []) (hb : boost.boostActive = b) :
    StepKind s ({ s with boost := boost }.setCaller i
      (.writing (setInteractionBoost b))) (.caller i ok) := by
  refine .enter (some i) b (writtenPath_caller_of_nil hp) hp ?_
  rw [deferred_setCaller]
  subst hb
  rfl

theorem workerLoop_pending (b : Boost) : (workerLoop b).pending = [] := by
  unfold workerLoop
  split <;> rfl

theorem pending_of_ne_writing {w : Worker} (hw : ∀ ws, w ≠ .writing ws) : w.pending = [] := by
  cases w with
  | writing ws => exact (hw ws rfl).elim
  | _ => rfl

theorem powerHint_pending (hint : PowerHint) (data : Option Int) :
    (powerHint hint data).pending = [] := by
  cases hint <;> simp only [powerHint] <;> first | rfl | (split <;> rfl)

/-- Every step whose write succeeds is a step of the system of deferred writes,
or is not seen there. -/
theorem step_kind {s t : State ι} {a : Action ι} {o : List Event}
    (h : step s a = some (t, o)) (hok : a.Ok) : StepKind s t a := by
  have hsilent : ∀ {i : ι} {ok : Bool} {c : Caller}, (s.callers i).pending = [] →
      c.pending = [] → StepKind s (s.setCaller i c) (.caller i ok) := fun hp hc =>
    .silent (writtenPath_caller_of_nil hp) (deferred_setCaller_of_nil s _ hp hc)
  cases step_spec h with
  | tick now => exact .silent rfl rfl
  | hintIgnored i hint data => exact .silent rfl rfl
  | setIgnored i on => exact .silent rfl rfl
  | enter ha hi =>
      cases ha with
      | powerHint i hint data =>
          exact .silent rfl (deferred_setCaller_of_nil s _ (by rw [hi]; rfl)
            (powerHint_pending hint data))
      | powerSetInteractive i =>
          exact .silent rfl (deferred_setCaller_of_nil s _ (by rw [hi]; rfl) rfl)
  | pulse i ok durationMs hi =>
      obtain rfl : ok = true := hok
      have hp : (s.callers i).pending = [] := by rw [hi]; rfl
      refine .pulse "1" (writtenPath_caller_of_nil hp) ?_
      rw [deferred_setCaller_of_nil _ _ (by simpa using hp) rfl]
      rfl
  | read i ok durationMs hi => exact hsilent (by rw [hi]; rfl) rfl
  | refuse i ok deadline hi => exact hsilent (by rw [hi]; rfl) rfl
  | accept i ok deadline b hi hb =>
      exact .callerEnter (by rw [hi]; rfl) (requestBoostLocked_eq_some hb).1
  | hint i ok enabled hi =>
      have hp : (s.callers i).pending = [] := by rw [hi]; rfl
      refine .silent (writtenPath_caller_of_nil hp) (deferred_setCaller_of_nil _ i hp ?_)
      cases enabled <;> rfl
  | cancel i ok lowPower hi =>
      have hp : (s.callers i).pending = [] := by rw [hi]; rfl
      cases hb : s.boost.boostActive with
      | false =>
          have hs : { s with boost := { s.boost with boostActive := false } } = s := by
            rw [← hb]
          simp only [cancelBoostLocked, hb, Bool.false_eq_true, if_false, hs]
          exact hsilent hp rfl
      | true =>
          simp only [cancelBoostLocked, hb, if_true]
          exact .callerEnter hp rfl
  | written i ok hi => exact hsilent (by rw [hi]; rfl) rfl
  | write i ok w ws hi =>
      obtain rfl : ok = true := hok
      have hp : s.pending (some i) = w :: ws := by simp [State.pending, hi, Caller.pending]
      refine .write (some i) w ws hp (by simp [State.writtenPath, hp]) ?_
      rw [deferred_setCaller]
      rfl
  | lock hw =>
      exact .silent rfl (deferred_setWorker_of_nil s (pending_of_ne_writing hw)
        (workerLoop_pending s.boost))
  | early deadline hw =>
      exact .silent rfl (deferred_setWorker_of_nil s (by rw [hw]; rfl)
        (workerLoop_pending s.boost))
  | expire deadline b hw hb =>
      obtain rfl := expireBoostLocked_eq_some hb
      refine .enter none false rfl (by simp [State.pending, hw, Worker.pending]) ?_
      rw [deferred_setWorker]
      rfl
  | workerWritten ok hw =>
      have hp : s.worker.pending = [] := by rw [hw]; rfl
      exact .silent (writtenPath_workerWrite_of_nil hp) (deferred_setWorker_of_nil s hp rfl)
  | workerWrite ok w ws hw =>
      obtain rfl : ok = true := hok
      have hp : s.pending none = w :: ws := by simp [State.pending, hw, Worker.pending]
      refine .write none w ws hp (by simp [State.writtenPath, hp]) ?_
      rw [deferred_setWorker]
      rfl

/-- A low-power hint that has set the mode has not returned before it has
cancelled the boost. -/
def State.LowPowerCancels (s : State ι) : Prop :=
  s.boost.lowPowerMode → s.boost.boostActive →
    ∃ i, s.callers i = .cancelling true

omit [DecidableEq ι] in
theorem State.LowPowerCancels.of_inactive {s : State ι}
    (h : s.boost.boostActive = false) : s.LowPowerCancels := by
  intro _ ha
  simp [h] at ha

/-- A caller that steps without touching the boost, and that is not in the
middle of a low-power hint, leaves the others in charge. -/
theorem State.LowPowerCancels.setCaller {s : State ι} (h : s.LowPowerCancels)
    {i : ι} (c : Caller) (hi : s.callers i ≠ .cancelling true) :
    (s.setCaller i c).LowPowerCancels := by
  intro hl ha
  obtain ⟨j, hj⟩ := h hl ha
  have hji : j ≠ i := by
    rintro rfl
    exact hi hj
  exact ⟨j, by simpa [State.setCaller, hji] using hj⟩

theorem step_lowPowerCancels {s t : State ι} {a : Action ι} {o : List Event}
    (hs : s.LowPowerCancels) (h : step s a = some (t, o)) : t.LowPowerCancels := by
  have hfiles : ∀ path value ok, (s.writeValue path value ok).LowPowerCancels := by
    intro path value ok
    simpa [State.LowPowerCancels] using hs
  cases step_spec h with
  | tick now => exact hs
  | hintIgnored i hint data => exact hs
  | setIgnored i on => exact hs
  | enter ha hi => exact hs.setCaller _ (by simp [hi])
  | pulse i ok durationMs hi => exact (hfiles _ _ _).setCaller _ (by simp [hi])
  | read i ok durationMs hi => exact hs.setCaller _ (by simp [hi])
  | refuse i ok deadline hi => exact hs.setCaller _ (by simp [hi])
  | accept i ok deadline b hi hb =>
      intro hl _
      simp [State.setCaller, (requestBoostLocked_eq_some hb).2.2] at hl
  | hint i ok enabled hi =>
      cases enabled with
      | false =>
          intro hl _
          simp [State.setCaller] at hl
      | true =>
          intro _ _
          exact ⟨i, by simp [State.setCaller]⟩
  | cancel i ok lowPower hi => exact .of_inactive rfl
  | written i ok hi => exact hs.setCaller _ (by simp [hi])
  | write i ok w ws hi => exact (hfiles _ _ _).setCaller _ (by simp [hi])
  | lock hw => exact hs
  | early deadline hw => exact hs
  | expire deadline b hw hb =>
      obtain rfl := expireBoostLocked_eq_some hb
      exact .of_inactive rfl
  | workerWritten ok hw => exact hs
  | workerWrite ok w ws hw => simpa [State.LowPowerCancels, State.setWorker] using hs

theorem init_covered (ι : Type*) (started : Bool) (clock : Timespec) :
    DeferredWrite.Covered setInteractionBoost (init ι started clock).deferred := by
  apply DeferredWrite.Settled.covered
  show ∀ w ∈ setInteractionBoost false,
    ((setInteractionBoost false).lookup w.1).getD "" = w.2
  decide

/-- A harmless step whose write succeeds keeps the knobs covered. -/
theorem step_covered {s t : State ι} {a : Action ι} {o : List Event}
    (hs : DeferredWrite.Covered setInteractionBoost s.deferred)
    (hw : s.WriteHarmless a) (hok : a.Ok) (h : step s a = some (t, o)) :
    DeferredWrite.Covered setInteractionBoost t.deferred := by
  cases step_kind h hok with
  | silent ha ht => rwa [ht]
  | enter u b ha hp ht => exact ht ▸ DeferredWrite.covered_enter _ u b
  | write u w ws hp ha ht => exact ht ▸ hs.write hp (hw _ ha)
  | pulse v ha ht => exact ht ▸ hs.foreign boostpulse_foreign

/-- In a run whose writes all succeed, and none of which puts a stale value over
a knob that no thread will write again, every quiescent state has all knobs at
the profile of `boostActive`, and the normal one in low-power mode. -/
theorem knobsAgree_of_harmless_writes {started : Bool} {clock : Timespec}
    {acts : List (Action ι)} {s : State ι} {os : List Event}
    (hrun : step.run (init ι started clock) acts = some (s, os))
    (hok : ∀ a ∈ acts, a.Ok)
    (hw : step.Meets State.WriteHarmless (init ι started clock) acts)
    (hq : s.Quiescent) : s.KnobsAgree := by
  have hG := hw.and (Machine.meets_of_forall (fun a ha _ => hok a ha) _)
  obtain ⟨hcov, hlow⟩ := Machine.run_invariant_of_meets
    (P := fun s _ =>
      DeferredWrite.Covered setInteractionBoost s.deferred ∧ s.LowPowerCancels)
    (fun s _ a t o hs ha h =>
      ⟨step_covered hs.1 ha.1 ha.2 h, step_lowPowerCancels hs.2 h⟩)
    ⟨init_covered ι started clock, .of_inactive rfl⟩ hG hrun
  refine ⟨hcov.settled hq.1, fun hl => ?_⟩
  by_contra ha
  obtain ⟨i, hi⟩ := hlow hl (by simpa using ha)
  exact hq.2 i hi

/-- A launch hint that runs alone: the boost is set and all its writes made. -/
def launchAlone (i : ι) : List (Action ι) :=
  [.powerHint i .launch (some 1), .caller i true, .caller i true] ++
    List.replicate 7 (.caller i true)

theorem knobsAgree_launchAlone :
    ∃ s os, step.run (init (Fin 1) true ⟨0, 0⟩) (launchAlone 0) = some (s, os) ∧
      s.boost.boostActive = true ∧ s.KnobsAgree := by
  have h : ((step.run (init (Fin 1) true ⟨0, 0⟩) (launchAlone 0)).map fun p =>
      (p.1.boost.boostActive, decide p.1.Quiescent)) = some (true, true) := by decide
  obtain ⟨⟨s, os⟩, hrun, hs⟩ := Option.map_eq_some_iff.1 h
  obtain ⟨ha, hq⟩ := Prod.mk.inj hs
  exact ⟨s, os, hrun, ha, knobsAgree_of_harmless_writes hrun (by decide)
    (by decide) (of_decide_eq_true hq)⟩

/-- Caller `i` takes the lock for a launch boost; before it has written anything,
the display goes off in caller `j`, which cancels the boost and writes the
normal profile. The writes of caller `i` come last. -/
def launchOvertaken (i j : ι) : List (Action ι) :=
  [.powerHint i .launch (some 1), .caller i true, .caller i true,
    .powerSetInteractive j false, .caller j true] ++
    List.replicate 7 (.caller j true) ++ List.replicate 7 (.caller i true)

/-- A cancelled boost can stay in the knobs for good. -/
theorem knobs_disagree_launchOvertaken :
    ¬ ∀ (acts : List (Action (Fin 2))) (s : State (Fin 2)) (os : List Event),
      step.run (init (Fin 2) true ⟨0, 0⟩) acts = some (s, os) →
        (∀ a ∈ acts, a.Ok) → s.Quiescent → s.KnobsAgree := by
  intro hall
  have h : ((step.run (init (Fin 2) true ⟨0, 0⟩) (launchOvertaken 0 1)).map fun p =>
      (decide p.1.Quiescent, decide p.1.KnobsAgree)) = some (true, false) := by
    decide
  obtain ⟨⟨s, os⟩, hrun, hs⟩ := Option.map_eq_some_iff.1 h
  obtain ⟨hq, hk⟩ := Prod.mk.inj hs
  exact of_decide_eq_false hk
    (hall _ s os hrun (by decide) (of_decide_eq_true hq))

/-- A write of a profile in which the write succeeds. -/
theorem step_write {s t : State ι} {a : Action ι} {o : List Event} {path : Path}
    (h : step s a = some (t, o)) (hok : a.Ok) (ha : s.writtenPath a = some path) :
    ∃ u w ws, s.pending u = w :: ws ∧ w.1 = path ∧
      t.deferred = s.deferred.write u w ws := by
  cases step_kind h hok with
  | silent hn ht => simp [ha] at hn
  | enter u b hn hp ht => simp [ha] at hn
  | write u w ws hp hw ht => exact ⟨u, w, ws, hp, by simpa [ha] using hw.symm, ht⟩
  | pulse v hn ht => simp [ha] at hn

/-- No weaker condition will do: after a write that is not harmless, the knobs
disagree for as long as the threads only make the writes they had begun, and so
when they have finished. -/
theorem not_knobsAgree_of_harmful_write {s t u : State ι} {a : Action ι}
    {acts : List (Action ι)} {o os : List Event}
    (h : step s a = some (t, o)) (hok : a.Ok) (hw : ¬ s.WriteHarmless a)
    (hrun : step.run t acts = some (u, os)) (hoks : ∀ b ∈ acts, b.Ok)
    (hacts : step.Meets (fun s b => (s.writtenPath b).isSome) t acts) :
    ¬ u.KnobsAgree := by
  simp only [State.WriteHarmless, not_forall] at hw
  obtain ⟨path, hpath, hw⟩ := hw
  have ht : ¬ DeferredWrite.Covered setInteractionBoost t.deferred := by
    obtain ⟨v, w, ws, hp, rfl, ht⟩ := step_write h hok hpath
    exact ht ▸ DeferredWrite.not_covered_write hp hw
  have hu := Machine.run_invariant_of_meets
    (P := fun s _ => ¬ DeferredWrite.Covered setInteractionBoost s.deferred)
    (fun s _ b t o hs hb h => by
      obtain ⟨path, hpath⟩ := Option.isSome_iff_exists.1 hb.1
      obtain ⟨v, w, ws, hp, rfl, ht⟩ := step_write h hb.2 hpath
      exact ht ▸ DeferredWrite.not_covered_write_of_not_covered hs hp)
    ht (hacts.and (Machine.meets_of_forall (fun b hb _ => hoks b hb) _)) hrun
  intro hagree
  exact hu (DeferredWrite.Settled.covered hagree.1)

end MozartLineage.Power
