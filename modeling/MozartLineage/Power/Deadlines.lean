import MozartLineage.Power.Knobs
import MozartLineage.Transition.History

/-!
# Deadlines of the interaction boost

A caller reads the clock and works out its deadline before it takes the lock, so that
deadlines come to the lock in any order and at any later time. Under the lock they are
merged by their maximum. The log of a run has every event with the reading of the clock
at which it happens; `Timed` relates the deadline of the boost to the requests that the
log shows.
-/

namespace MozartLineage.Power

open Transition

/-! ### Arithmetic -/

/-- A reading or a deadline in nanoseconds. -/
def Timespec.nanos (t : Timespec) : Int := t.tvSec * 1000000000 + t.tvNsec

def Timespec.Normalized (t : Timespec) : Prop := 0 ≤ t.tvNsec ∧ t.tvNsec < 1000000000

/-- A reading of the clock in its first 68 years, a `long` being of 32 bits. -/
def Timespec.Readable (t : Timespec) : Prop :=
  t.Normalized ∧ -2 ^ 31 ≤ t.tvSec ∧ t.tvSec < 2 ^ 31 - 4

theorem compareTimespec_nonneg_iff {a b : Timespec} (ha : a.Normalized)
    (hb : b.Normalized) : 0 ≤ compareTimespec a b ↔ b.nanos ≤ a.nanos := by
  obtain ⟨ha, ha'⟩ := ha
  obtain ⟨hb, hb'⟩ := hb
  unfold compareTimespec Timespec.nanos
  split_ifs <;> omega

theorem compareTimespec_pos_iff {a b : Timespec} (ha : a.Normalized)
    (hb : b.Normalized) : 0 < compareTimespec a b ↔ b.nanos < a.nanos := by
  obtain ⟨ha, ha'⟩ := ha
  obtain ⟨hb, hb'⟩ := hb
  unfold compareTimespec Timespec.nanos
  split_ifs <;> omega

/-- A result that a `long` can hold, `none` for an overflow. -/
def long (n : Int) : Option Int := if -2 ^ 31 ≤ n ∧ n < 2 ^ 31 then some n else none

/-- `deadlineAfter` with a check of every result on the way. -/
def deadlineAfterChecked (now : Timespec) (durationMs : Int) : Option Timespec := do
  let tvSec ← long (now.tvSec + durationMs / 1000)
  let extra ← long (durationMs % 1000 * 1000000)
  let tvNsec ← long (now.tvNsec + extra)
  if tvNsec ≥ 1000000000 then
    let tvSec ← long (tvSec + 1)
    let tvNsec ← long (tvNsec - 1000000000)
    return ⟨tvSec, tvNsec⟩
  else return ⟨tvSec, tvNsec⟩

theorem clampDuration_bounds (durationMs : Int) :
    0 < clampDuration durationMs ∧ clampDuration durationMs ≤ maxBoostMs := by
  unfold clampDuration defaultInteractionMs maxBoostMs
  split_ifs <;> omega

section DeadlineAfter

variable {now : Timespec} {durationMs : Int}

theorem deadlineAfter_normalized (hnow : now.Normalized) :
    (deadlineAfter now durationMs).Normalized := by
  obtain ⟨hlow, hhigh⟩ := hnow
  unfold deadlineAfter Timespec.Normalized
  dsimp only
  split_ifs <;> dsimp only <;> omega

theorem nanos_deadlineAfter (now : Timespec) (durationMs : Int) :
    (deadlineAfter now durationMs).nanos = now.nanos + durationMs * 1000000 := by
  unfold deadlineAfter Timespec.nanos
  dsimp only
  split_ifs <;> dsimp only <;> omega

/-- Nothing overflows on the way to a deadline of at most three seconds. -/
theorem deadlineAfterChecked_eq (hnow : now.Readable) (hpos : 0 < durationMs)
    (hmax : durationMs ≤ maxBoostMs) :
    deadlineAfterChecked now durationMs = some (deadlineAfter now durationMs) := by
  obtain ⟨⟨hlow, hhigh⟩, hsec, hsec'⟩ := hnow
  unfold maxBoostMs at hmax
  have hlong : ∀ n : Int, -2 ^ 31 ≤ n → n < 2 ^ 31 → long n = some n := fun n h h' =>
    if_pos ⟨h, h'⟩
  unfold deadlineAfterChecked deadlineAfter
  rw [hlong _ (by omega) (by omega), hlong (durationMs % 1000 * 1000000) (by omega) (by omega)]
  simp only [Option.bind_eq_bind, Option.bind_some]
  rw [hlong _ (by omega) (by omega)]
  simp only [Option.bind_some]
  split_ifs
  · rw [hlong _ (by omega) (by omega), hlong _ (by omega) (by omega)]
    rfl
  · rfl

end DeadlineAfter

/-! ### The log -/

/-- What has been accepted since the boost was off, from what was before the event. -/
def Event.accepts (ds : List Timespec) : Event → List Timespec
  | .accepted d => d :: ds
  | .cancelled _ | .expired _ => []
  | _ => ds

/-- The time of an event at which a request is accepted. -/
def Event.acceptedAt (e : Timespec × Event) : Option (Option Timespec) :=
  match e.2 with
  | .accepted _ => some (some e.1)
  | _ => none

/-- The deadlines that have been accepted since the boost became active. -/
def acceptedSince (log : List (Timespec × Event)) : List Timespec :=
  log.foldl (fun ds e => e.2.accepts ds) []

/-- When the latest request was accepted. -/
def latestAccepted (log : List (Timespec × Event)) : Option Timespec :=
  latest Event.acceptedAt none log

/-- The event says nothing about the boost. -/
def Event.IsQuiet : Event → Prop
  | .refused _ | .wrote _ _ => True
  | _ => False

theorem acceptedSince_append (log o : List (Timespec × Event)) :
    acceptedSince (log ++ o) = o.foldl (fun ds e => e.2.accepts ds) (acceptedSince log) := by
  simp [acceptedSince]

@[simp] theorem acceptedSince_concat (log : List (Timespec × Event)) (e : Timespec × Event) :
    acceptedSince (log ++ [e]) = e.2.accepts (acceptedSince log) := by
  simp [acceptedSince_append]

@[simp] theorem latestAccepted_concat (log : List (Timespec × Event))
    (e : Timespec × Event) :
    latestAccepted (log ++ [e]) = (Event.acceptedAt e).getD (latestAccepted log) := by
  simp [latestAccepted, latest_append]

/-- Quiet events change nothing of what the log says of requests. -/
theorem quiet_log {o : List Event} (ho : ∀ e ∈ o, e.IsQuiet) (now : Timespec)
    (log : List (Timespec × Event)) :
    acceptedSince (log ++ o.map fun e => (now, e)) = acceptedSince log ∧
      latestAccepted (log ++ o.map fun e => (now, e)) = latestAccepted log := by
  constructor
  · rw [acceptedSince_append]
    induction o with
    | nil => rfl
    | cons e o ih =>
        have he : e.accepts (acceptedSince log) = acceptedSince log := by
          have hquiet := ho e (by simp)
          cases e <;> first | rfl | exact absurd hquiet id
        rw [List.map_cons, List.foldl_cons, he]
        exact ih fun e' he' => ho e' (by simp [he'])
  · refine latest_append_of_forall_eq_none (fun e he => ?_) _ _
    obtain ⟨e', he', rfl⟩ := List.mem_map.1 he
    have hquiet := ho e' he'
    cases e' <;> first | rfl | exact absurd hquiet id

section Step

variable {ι : Type*} [DecidableEq ι]

/-- The HAL with every event at the time at which it happens. -/
def timed : Machine (State ι) (Action ι) (Timespec × Event) :=
  Machine.logged step fun s _ os => os.map fun e => (s.clock, e)

/-- What a step is for the deadlines. -/
inductive BoostStep (s t : State ι) : Action ι → List Event → Prop where
  | tick (now : Timespec) (hnow : 0 ≤ compareTimespec now s.clock)
      (ht : t = { s with clock := now }) : BoostStep s t (.tick now) []
  | read {a : Action ι} (i : ι) (durationMs : Int)
      (ht : t = s.setCaller i
        (.requesting (deadlineAfter s.clock (clampDuration durationMs)))) :
      BoostStep s t a [.deadline s.clock durationMs
        (deadlineAfter s.clock (clampDuration durationMs))]
  | accept {a : Action ι} (i : ι) (d : Timespec) (hi : s.callers i = .requesting d)
      (hb : requestBoostLocked s.boost d = some t.boost) (hclock : t.clock = s.clock)
      (hrequesting : ∀ j d', t.callers j = .requesting d' → s.callers j = .requesting d') :
      BoostStep s t a [.accepted d]
  | clear {a : Action ι} (e : Event) (he : ∀ ds, e.accepts ds = [])
      (hb : t.boost.boostActive = false) (hclock : t.clock = s.clock)
      (hrequesting : ∀ j d', t.callers j = .requesting d' → s.callers j = .requesting d') :
      BoostStep s t a [e]
  | quiet {a : Action ι} (o : List Event) (ho : ∀ e ∈ o, e.IsQuiet)
      (hactive : t.boost.boostActive = s.boost.boostActive)
      (hdeadline : t.boost.boostDeadline = s.boost.boostDeadline)
      (hclock : t.clock = s.clock)
      (hrequesting : ∀ j d', t.callers j = .requesting d' → s.callers j = .requesting d') :
      BoostStep s t a o

/-- A caller that goes on to something other than a request. -/
theorem requesting_of_setCaller {s : State ι} {i : ι} {c : Caller}
    (hc : ∀ d, c ≠ .requesting d) {j : ι} {d : Timespec}
    (h : (s.setCaller i c).callers j = .requesting d) : s.callers j = .requesting d := by
  by_cases hj : j = i
  · subst hj
    exact absurd (by simpa [State.setCaller] using h) (hc d)
  · simpa [State.setCaller, hj] using h

/-- Writing to a file, by a caller that does not go on to a request. -/
theorem BoostStep.writeValue {s : State ι} {i : ι} {ok : Bool} {c : Caller} {o : List Event}
    (ho : ∀ e ∈ o, e.IsQuiet) (hc : ∀ d, c ≠ .requesting d) (path : Path) (value : String) :
    BoostStep s ((s.writeValue path value ok).setCaller i c) (.caller i ok) o := by
  refine .quiet _ ho ?_ ?_ ?_ fun j d' hj => ?_
  · simp [State.setCaller]
  · simp [State.setCaller]
  · cases ok <;> rfl
  · simpa using requesting_of_setCaller hc hj

theorem step_boost {s t : State ι} {a : Action ι} {o : List Event}
    (h : step s a = some (t, o)) : BoostStep s t a o := by
  cases step_spec h with
  | tick now hnow => exact .tick now hnow rfl
  | hintIgnored i hint data => exact .quiet [] (by simp) rfl rfl rfl fun _ _ hj => hj
  | setIgnored i on => exact .quiet [] (by simp) rfl rfl rfl fun _ _ hj => hj
  | enter ha hi =>
      refine .quiet [] (by simp) rfl rfl rfl fun j d hj => requesting_of_setCaller ?_ hj
      cases ha with
      | powerHint i hint data =>
          intro d
          cases hint with
          | launch =>
              simp only [powerHint]
              split <;> simp
          | _ => simp [powerHint]
      | powerSetInteractive i => simp
  | pulse i ok durationMs hi => exact .writeValue (by simp) (by simp) _ _
  | read i ok durationMs hi => exact .read i durationMs rfl
  | refuse i ok deadline hi =>
      exact .quiet _ (by simp [Event.IsQuiet]) rfl rfl rfl fun j d' hj =>
        requesting_of_setCaller (by simp) hj
  | accept i ok deadline b hi hb =>
      exact .accept i deadline hi hb rfl fun j d' hj =>
        requesting_of_setCaller (s := { s with boost := b }) (by simp) hj
  | hint i ok enabled hi =>
      refine .quiet _ (by simp) rfl rfl rfl fun j d' hj => ?_
      exact requesting_of_setCaller
        (s := { s with boost := { s.boost with lowPowerMode := enabled } })
        (by cases enabled <;> simp) hj
  | cancel i ok lowPower hi =>
      have hnext : ∀ (wasActive : Bool) d,
          (if wasActive then Caller.writing (setInteractionBoost false) else .idle) ≠
            .requesting d := by
        intro wasActive d
        cases wasActive <;> simp
      exact .clear _ (fun ds => rfl) rfl rfl fun j d' hj => requesting_of_setCaller
        (s := { s with boost := { s.boost with boostActive := false } }) (hnext _) hj
  | written i ok hi =>
      exact .quiet _ (by simp) rfl rfl rfl fun j d' hj => requesting_of_setCaller (by simp) hj
  | write i ok w ws hi => exact .writeValue (by simp [Event.IsQuiet]) (by simp) _ _
  | lock hw => exact .quiet [] (by simp) rfl rfl rfl fun _ _ hj => hj
  | early deadline hw => exact .quiet [] (by simp) rfl rfl rfl fun _ _ hj => hj
  | expire deadline b hw hb =>
      obtain rfl := expireBoostLocked_eq_some hb
      exact .clear _ (fun ds => rfl) rfl rfl fun _ _ hj => hj
  | workerWritten ok hw => exact .quiet [] (by simp) rfl rfl rfl fun _ _ hj => hj
  | workerWrite ok w ws hw =>
      refine .quiet _ (by simp [Event.IsQuiet]) ?_ ?_ ?_ fun j d' hj => ?_
      · simp [State.setWorker]
      · simp [State.setWorker]
      · cases ok <;> rfl
      · simpa [State.setWorker] using hj

/-! ### Runs -/

/-- A tick of the clock goes to a time that it can read. -/
def Action.Readable : Action ι → Prop
  | .tick now => now.Readable
  | _ => True

/-- What a request makes of the clock reading `now`: a deadline after the clamped duration,
in a normal form and without an overflow. -/
structure DeadlineOf (now : Timespec) (durationMs : Int) (deadline : Timespec) : Prop where
  normalized : deadline.Normalized
  nanos : deadline.nanos = now.nanos + (if durationMs ≤ 0 then 1500 else
    if durationMs > 3000 then 3000 else durationMs) * 1000000
  checked : deadlineAfterChecked now (clampDuration durationMs) = some deadline

theorem deadlineAfter_deadlineOf {now : Timespec} (hnow : now.Readable) (durationMs : Int) :
    DeadlineOf now durationMs (deadlineAfter now (clampDuration durationMs)) := by
  obtain ⟨hpos, hmax⟩ := clampDuration_bounds durationMs
  exact ⟨deadlineAfter_normalized hnow.1, nanos_deadlineAfter now _,
    deadlineAfterChecked_eq hnow hpos hmax⟩

/-- The deadline is at most three seconds after the time `t`. -/
def Timespec.Within (d t : Timespec) : Prop := d.nanos ≤ t.nanos + 3000 * 1000000

/-- The deadline of a request that was accepted at the time `t` or before. -/
structure Timely (d t : Timespec) : Prop where
  normalized : d.Normalized
  within : d.Within t

theorem Timely.mono {d t t' : Timespec} (h : Timely d t) (ht : t.nanos ≤ t'.nanos) :
    Timely d t' :=
  ⟨h.normalized, Int.le_trans h.within (Int.add_le_add_right ht _)⟩

/-- The boost after the history `log`. -/
structure Timed (s : State ι) (log : List (Timespec × Event)) : Prop where
  clock : s.clock.Readable
  requesting : ∀ i d, s.callers i = .requesting d → Timely d s.clock
  active : s.boost.boostActive = true → ∃ t, latestAccepted log = some t ∧
    Timely s.boost.boostDeadline t ∧ t.nanos ≤ s.clock.nanos ∧
      ∀ d ∈ acceptedSince log, d.nanos ≤ s.boost.boostDeadline.nanos
  inactive : s.boost.boostActive = false → acceptedSince log = []
  read : ∀ t now durationMs d, (t, .deadline now durationMs d) ∈ log →
    now = t ∧ DeadlineOf now durationMs d

omit [DecidableEq ι] in
/-- What becomes of the callers when the clock does not go back. -/
theorem Timed.requesting_of {s t : State ι} {log : List (Timespec × Event)} (hs : Timed s log)
    (hclock : t.clock = s.clock)
    (hrequesting : ∀ j d', t.callers j = .requesting d' → s.callers j = .requesting d') :
    ∀ i d, t.callers i = .requesting d → Timely d t.clock := fun i d hi =>
  hclock ▸ hs.requesting i d (hrequesting i d hi)

omit [DecidableEq ι] in
theorem Timed.read_append {s : State ι} {log : List (Timespec × Event)} (hs : Timed s log)
    {o : List Event} (ho : ∀ now durationMs d, .deadline now durationMs d ∉ o)
    (time : Timespec) :
    ∀ t now durationMs d,
      (t, .deadline now durationMs d) ∈ log ++ o.map (fun e => (time, e)) →
        now = t ∧ DeadlineOf now durationMs d := by
  intro t now durationMs d hmem
  rcases List.mem_append.1 hmem with hmem | hmem
  · exact hs.read t now durationMs d hmem
  · obtain ⟨e, he, heq⟩ := List.mem_map.1 hmem
    cases heq
    exact absurd he (ho _ _ _)

/-- The deadline after a request is the later one of two. -/
theorem boostDeadline_of_accept {b b' : Boost} {d : Timespec}
    (h : requestBoostLocked b d = some b') (hd : d.Normalized)
    (hb : b.boostActive = true → b.boostDeadline.Normalized) :
    b'.boostDeadline = d ∧ (b.boostActive = true → b.boostDeadline.nanos ≤ d.nanos) ∨
      b'.boostDeadline = b.boostDeadline ∧ b.boostActive = true ∧
        d.nanos ≤ b.boostDeadline.nanos := by
  unfold requestBoostLocked at h
  split at h
  · cases h
  · split at h
    · next hnew =>
      cases h
      refine Or.inl ⟨rfl, fun hactive => ?_⟩
      have hlater : 0 < compareTimespec d b.boostDeadline := by simpa [hactive] using hnew
      exact ((compareTimespec_pos_iff hd (hb hactive)).1 hlater).le
    · next hold =>
      cases h
      simp only [Bool.or_eq_true, Bool.not_eq_true', decide_eq_true_eq, not_or,
        Bool.not_eq_false, gt_iff_lt] at hold
      refine Or.inr ⟨rfl, hold.1, ?_⟩
      rw [compareTimespec_pos_iff hd (hb hold.1)] at hold
      omega

theorem step_timed {s t : State ι} {a : Action ι} {log o : List (Timespec × Event)}
    (hs : Timed s log) (ha : a.Readable) (h : timed s a = some (t, o)) :
    Timed t (log ++ o) := by
  obtain ⟨o, hstep, rfl⟩ := Machine.logged_eq_some.1 h
  cases step_boost hstep with
  | tick now hnow ht =>
      subst ht
      have hlater : s.clock.nanos ≤ now.nanos :=
        (compareTimespec_nonneg_iff ha.1 hs.clock.1).1 hnow
      rw [List.map_nil, List.append_nil]
      refine ⟨ha, fun i d hi => (hs.requesting i d hi).mono hlater, fun hactive => ?_, hs.inactive,
        hs.read⟩
      obtain ⟨u, hlatest, htimely, hu, hmax⟩ := hs.active hactive
      exact ⟨u, hlatest, htimely, Int.le_trans hu hlater, hmax⟩
  | read i durationMs ht =>
      subst ht
      have hdeadline : DeadlineOf s.clock durationMs _ :=
        deadlineAfter_deadlineOf hs.clock durationMs
      have hwithin : Timely (deadlineAfter s.clock (clampDuration durationMs)) s.clock := by
        refine ⟨hdeadline.normalized, ?_⟩
        have hmax : clampDuration durationMs ≤ 3000 := (clampDuration_bounds durationMs).2
        rw [Timespec.Within, nanos_deadlineAfter]
        omega
      refine ⟨hs.clock, fun j d hj => ?_, ?_, ?_, ?_⟩
      · by_cases hji : j = i
        · subst hji
          obtain rfl : _ = d := by simpa [State.setCaller] using hj
          exact hwithin
        · exact hs.requesting j d (by simpa [State.setCaller, hji] using hj)
      · simpa [Event.accepts, Event.acceptedAt, State.setCaller] using hs.active
      · simpa [Event.accepts, State.setCaller] using hs.inactive
      · intro u now durationMs' d hmem
        rcases List.mem_append.1 hmem with hmem | hmem
        · exact hs.read u now durationMs' d hmem
        · obtain ⟨rfl, rfl, rfl, rfl⟩ := by simpa using hmem
          exact ⟨rfl, hdeadline⟩
  | accept i d hi hb hclock hrequesting =>
      have hd := hs.requesting i d hi
      have hmerge := boostDeadline_of_accept hb hd.normalized fun hactive => by
        obtain ⟨u, -, htimely, -⟩ := hs.active hactive
        exact htimely.normalized
      refine ⟨hclock ▸ hs.clock, hs.requesting_of hclock hrequesting, fun _ => ?_, ?_, ?_⟩
      · refine ⟨s.clock, by simp [Event.acceptedAt], ?_, by rw [hclock], ?_⟩
        · rcases hmerge with ⟨hnew, -⟩ | ⟨hold, hactive, -⟩
          · rw [hnew]
            exact hd
          · obtain ⟨u, -, htimely, hu, -⟩ := hs.active hactive
            rw [hold]
            exact htimely.mono hu
        · -- what was accepted before is below the old deadline, if there is one
          simp only [List.map_cons, List.map_nil, acceptedSince_concat, Event.accepts,
            List.mem_cons, forall_eq_or_imp]
          rcases hmerge with ⟨hnew, hlater⟩ | ⟨hold, hactive, hle⟩
          · rw [hnew]
            refine ⟨Int.le_refl _, fun d' hd' => ?_⟩
            cases hactive : s.boost.boostActive with
            | false => simp [hs.inactive hactive] at hd'
            | true =>
                obtain ⟨-, -, -, -, hmax⟩ := hs.active hactive
                exact Int.le_trans (hmax d' hd') (hlater hactive)
          · obtain ⟨-, -, -, -, hmax⟩ := hs.active hactive
            rw [hold]
            exact ⟨hle, hmax⟩
      · simp [(requestBoostLocked_eq_some hb).1]
      · exact hs.read_append (by simp) _
  | clear e he hb hclock hrequesting =>
      refine ⟨hclock ▸ hs.clock, hs.requesting_of hclock hrequesting, ?_, ?_, ?_⟩
      · simp [hb]
      · simp [he]
      · refine hs.read_append (fun now durationMs d hmem => ?_) _
        obtain rfl := List.mem_singleton.1 hmem
        simpa [Event.accepts] using he [s.clock]
  | quiet _ ho hactive hdeadline hclock hrequesting =>
      obtain ⟨hsince, hlatest⟩ := quiet_log ho s.clock log
      refine ⟨hclock ▸ hs.clock, hs.requesting_of hclock hrequesting, ?_, ?_, ?_⟩
      · rw [hsince, hlatest, hactive, hdeadline, hclock]
        exact hs.active
      · rw [hsince, hactive]
        exact hs.inactive
      · exact hs.read_append (fun now durationMs d hmem => ho _ hmem) _

/-- A step of the worker. -/
def Action.isWorker : Action ι → Bool
  | .workerLock | .workerTimeout | .workerWrite _ => true
  | _ => false

/-- The worker ends a boost only when the clock has come to its deadline. -/
theorem compareTimespec_of_expires {s t : State ι} {a : Action ι} {o : List Event}
    (h : step s a = some (t, o)) (ha : a.isWorker) (hs : s.boost.boostActive = true)
    (ht : t.boost.boostActive = false) :
    0 ≤ compareTimespec s.clock s.boost.boostDeadline := by
  cases step_spec h with
  | lock hw => simp [State.setWorker, hs] at ht
  | early deadline hw => simp [State.setWorker, hs] at ht
  | expire deadline b hw hb =>
      unfold expireBoostLocked at hb
      split at hb
      · next hexpired =>
        simp only [Bool.and_eq_true, decide_eq_true_eq] at hexpired
        exact hexpired.2
      · cases hb
  | workerWritten ok hw => simp [State.setWorker, hs] at ht
  | workerWrite ok w ws hw => simp [State.setWorker, hs] at ht
  | enter hcall hi => cases hcall <;> cases ha
  | _ => cases ha

omit [DecidableEq ι] in
theorem init_timed (started : Bool) {clock : Timespec} (hclock : clock.Readable) :
    Timed (init ι started clock) [] :=
  ⟨hclock, by simp [init], by simp [init], fun _ => rfl, by simp⟩

/-- Every run on a clock that does not go back and that a `long` can hold. A deadline is
exactly the clamped duration after the clock reading that it was made of. While the boost
is active, its deadline is not before that of any request accepted since it became
active, and at most three seconds after the latest one was accepted. The worker ends it
only when its deadline has come. In low-power mode it is off, unless a hint has still to
cancel it. -/
theorem run_deadlines {started : Bool} {clock : Timespec} {acts : List (Action ι)}
    {s : State ι} {log : List (Timespec × Event)} (hclock : clock.Readable)
    (hticks : ∀ a ∈ acts, a.Readable)
    (hrun : timed.run (init ι started clock) acts = some (s, log)) :
    (∀ t now durationMs d, (t, .deadline now durationMs d) ∈ log →
      now = t ∧ DeadlineOf now durationMs d) ∧
    (s.boost.boostActive = true → s.boost.boostDeadline.Normalized ∧
      (∀ d ∈ acceptedSince log, d.nanos ≤ s.boost.boostDeadline.nanos) ∧
      ∃ t, latestAccepted log = some t ∧ s.boost.boostDeadline.Within t) ∧
    (∀ a t o, step s a = some (t, o) → a.isWorker → s.boost.boostActive = true →
      t.boost.boostActive = false → s.boost.boostDeadline.nanos ≤ s.clock.nanos) ∧
    (s.boost.lowPowerMode = true → (∀ i, s.callers i ≠ .cancelling true) →
      s.boost.boostActive = false) := by
  have hs : Timed s log := Machine.run_invariant_of_meets
    (P := Timed) (fun _ _ _ _ _ hs ha h => step_timed hs ha h) (init_timed started hclock)
    (Machine.meets_of_forall (G := fun _ a => a.Readable) (fun a ha _ => hticks a ha) _) hrun
  refine ⟨hs.read, fun hactive => ?_, fun a t o h ha hactive hoff => ?_, fun hlow hnone => ?_⟩
  · obtain ⟨t, hlatest, htimely, -, hmax⟩ := hs.active hactive
    exact ⟨htimely.normalized, hmax, t, hlatest, htimely.within⟩
  · obtain ⟨u, -, htimely, -⟩ := hs.active hactive
    exact (compareTimespec_nonneg_iff hs.clock.1 htimely.normalized).1
      (compareTimespec_of_expires h ha hactive hoff)
  · obtain ⟨os, hrun⟩ := Machine.run_of_run_logged hrun
    have hcancels : s.LowPowerCancels := Machine.run_invariant
      (P := fun s _ => s.LowPowerCancels) (fun _ _ _ _ _ hs h => step_lowPowerCancels hs h)
      (.of_inactive rfl) hrun
    by_contra hactive
    obtain ⟨i, hi⟩ := hcancels hlow (by simpa using hactive)
    exact hnone i hi

/-- A launch hint at the time zero. -/
theorem deadlines_launchAlone :
    ∃ s log, timed.run (init (Fin 1) true ⟨0, 0⟩) (launchAlone 0) = some (s, log) ∧
      s.boost.boostActive = true ∧ s.boost.boostDeadline.Within ⟨0, 0⟩ := by
  have hrun : ∃ s log, timed.run (init (Fin 1) true ⟨0, 0⟩) (launchAlone 0) = some (s, log) ∧
      s.boost.boostActive = true ∧ latestAccepted log = some ⟨0, 0⟩ := ⟨_, _, rfl, rfl, rfl⟩
  obtain ⟨s, log, hrun, hactive, hlatest⟩ := hrun
  have hzero : Timespec.Readable ⟨0, 0⟩ := by
    unfold Timespec.Readable Timespec.Normalized
    decide
  have hticks : ∀ a ∈ launchAlone (0 : Fin 1), a.Readable := by
    simp [launchAlone, Action.Readable]
  obtain ⟨-, hboost, -⟩ := run_deadlines hzero hticks hrun
  obtain ⟨-, -, t, ht, hwithin⟩ := hboost hactive
  obtain rfl := Option.some.inj (hlatest.symm.trans ht)
  exact ⟨s, log, hrun, hactive, hwithin⟩

end Step

end MozartLineage.Power
