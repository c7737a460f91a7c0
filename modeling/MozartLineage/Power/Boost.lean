import Mathlib.Data.List.Basic
import Mathlib.Logic.Function.Basic
import MozartLineage.Transition.Run

/-!
# The interaction boost of the power HAL

`powerHint` and `powerSetInteractive` are called from any number of threads,
which the type `ι` names, and one worker thread ends a boost when its deadline
has passed. `boostLock` is not a part of the state: every section under the lock
is one step, and so is every single write to a sysfs file, which is made after
the lock has been left. A thread that has left the lock carries the writes it
still has to make.

A wait on `boostCond` may end at any time, since a condition variable may wake
up spuriously; a timed wait may time out only once its deadline has passed.
-/

namespace MozartLineage.Power

open Transition

/-- A reading of `CLOCK_MONOTONIC`, or a deadline on it. -/
structure Timespec where
  tvSec : Int
  tvNsec : Int
  deriving DecidableEq, Repr

def compareTimespec (left right : Timespec) : Int :=
  if left.tvSec ≠ right.tvSec then
    if left.tvSec < right.tvSec then -1 else 1
  else if left.tvNsec ≠ right.tvNsec then
    if left.tvNsec < right.tvNsec then -1 else 1
  else 0

/-- The sysfs files that the HAL writes. -/
inductive Path where
  | cpu0Min
  | cpu4Min
  | cpu0Boostpulse
  | gpuMin
  | ddrMin
  | hmpUp
  | hmpDown
  deriving DecidableEq, Repr

/-- The calls of `write_value` that `set_interaction_boost` makes, in order. -/
def setInteractionBoost (enabled : Bool) : List (Path × String) :=
  if enabled then
    [(.cpu0Min, "1516800"), (.cpu4Min, "2016000"), (.gpuMin, "600000000"),
      (.ddrMin, "667000000"), (.hmpUp, "300"), (.hmpDown, "150")]
  else
    [(.cpu0Min, "403200"), (.cpu4Min, "1017600"), (.gpuMin, "288000000"),
      (.ddrMin, "120000000"), (.hmpUp, "978"), (.hmpDown, "672")]

def defaultInteractionMs : Int := 1500

def launchBoostMs : Int := 1500

def maxBoostMs : Int := 3000

/-- The duration that `request_boost` works with. -/
def clampDuration (durationMs : Int) : Int :=
  if durationMs ≤ 0 then defaultInteractionMs
  else if durationMs > maxBoostMs then maxBoostMs
  else durationMs

/-- The deadline of `request_boost`, from the clock and a clamped duration. -/
def deadlineAfter (now : Timespec) (durationMs : Int) : Timespec :=
  let deadline : Timespec :=
    ⟨now.tvSec + durationMs / 1000, now.tvNsec + durationMs % 1000 * 1000000⟩
  if deadline.tvNsec ≥ 1000000000 then
    ⟨deadline.tvSec + 1, deadline.tvNsec - 1000000000⟩
  else deadline

/-- The variables that `boost_lock` guards. -/
structure Boost where
  boostActive : Bool
  boostDeadline : Timespec
  lowPowerMode : Bool
  deriving DecidableEq, Repr

/-- The section of `request_boost` under the lock; `none` when the request is
refused. -/
def requestBoostLocked (b : Boost) (deadline : Timespec) : Option Boost :=
  if b.lowPowerMode then none
  else if !b.boostActive || compareTimespec deadline b.boostDeadline > 0 then
    some { b with boostDeadline := deadline, boostActive := true }
  else some { b with boostActive := true }

/-- The section of `cancel_boost` under the lock, and `was_active`. -/
def cancelBoostLocked (b : Boost) : Boost × Bool :=
  ({ b with boostActive := false }, b.boostActive)

/-- The section of `boost_worker` after a timeout, at the clock reading `now`:
the boost it has ended, or `none` when it goes on. -/
def expireBoostLocked (b : Boost) (now : Timespec) : Option Boost :=
  if b.boostActive && compareTimespec now b.boostDeadline ≥ 0 then
    some { b with boostActive := false }
  else none

inductive PowerHint where
  | interaction
  | launch
  | lowPower
  | cpuBoost
  | other
  deriving DecidableEq, Repr

/-- Where a caller of the HAL stands. -/
inductive Caller where
  | idle
  /-- before the write to `cpu0_boostpulse` -/
  | pulsing (durationMs : Int)
  /-- in `request_boost`, before it reads the clock -/
  | boosting (durationMs : Int)
  /-- in `request_boost`, before it takes the lock -/
  | requesting (deadline : Timespec)
  /-- in a low-power hint, before it takes the lock -/
  | hinting (enabled : Bool)
  /-- in `cancel_boost`, before it takes the lock; `lowPower` when a low-power
  hint has called it -/
  | cancelling (lowPower : Bool)
  /-- in `set_interaction_boost`, with the writes that are left -/
  | writing (writes : List (Path × String))
  deriving DecidableEq, Repr

/-- Where the worker stands. -/
inductive Worker where
  /-- before it takes the lock -/
  | relocking
  /-- in `pthread_cond_wait` -/
  | waiting
  /-- in `pthread_cond_timedwait`, with the deadline it was called with -/
  | timedWaiting (deadline : Timespec)
  | writing (writes : List (Path × String))
  deriving DecidableEq, Repr

structure State (ι : Type*) where
  boost : Boost
  boostThreadStarted : Bool
  clock : Timespec
  files : Path → String
  worker : Worker
  callers : ι → Caller

inductive Action (ι : Type*) where
  /-- the clock moves on -/
  | tick (now : Timespec)
  | powerHint (i : ι) (hint : PowerHint) (data : Option Int)
  | powerSetInteractive (i : ι) (on : Bool)
  /-- the next step of caller `i`; `ok` tells whether a write succeeds -/
  | caller (i : ι) (ok : Bool)
  /-- the worker takes the lock, from a wait or to enter its loop -/
  | workerLock
  /-- a timed wait of the worker returns `ETIMEDOUT` -/
  | workerTimeout
  | workerWrite (ok : Bool)
  deriving DecidableEq, Repr

inductive Event where
  /-- `request_boost` has read the clock -/
  | deadline (now : Timespec) (durationMs : Int) (deadline : Timespec)
  | accepted (deadline : Timespec)
  | refused (deadline : Timespec)
  | cancelled (wasActive : Bool)
  | expired (now : Timespec)
  | wrote (path : Path) (value : String)
  deriving DecidableEq, Repr

namespace State

variable {ι : Type*}

def setCaller [DecidableEq ι] (s : State ι) (i : ι) (c : Caller) : State ι :=
  { s with callers := Function.update s.callers i c }

def setWorker (s : State ι) (w : Worker) : State ι :=
  { s with worker := w }

/-- `write_value`, which leaves the file alone when it fails. -/
def writeValue (s : State ι) (path : Path) (value : String) (ok : Bool) :
    State ι :=
  if ok then { s with files := Function.update s.files path value } else s

@[simp] theorem writeValue_boost (s : State ι) (path : Path) (value : String)
    (ok : Bool) : (s.writeValue path value ok).boost = s.boost := by
  cases ok <;> rfl

@[simp] theorem writeValue_callers (s : State ι) (path : Path) (value : String)
    (ok : Bool) : (s.writeValue path value ok).callers = s.callers := by
  cases ok <;> rfl

end State

/-- Where a caller stands right after it has called `power_hint`. -/
def powerHint : PowerHint → Option Int → Caller
  | .interaction, data => .pulsing (data.getD defaultInteractionMs)
  | .launch, data =>
      if data.getD 0 ≠ 0 then .boosting launchBoostMs else .idle
  | .lowPower, data => .hinting (data.getD 0 ≠ 0)
  -- Lineage passes this duration in microseconds.
  | .cpuBoost, data => .boosting ((data.getD 0).tdiv 1000)
  | .other, _ => .idle

section Step

variable {ι : Type*} [DecidableEq ι]

/-- The next step of a caller. -/
def callerStep (s : State ι) (i : ι) (ok : Bool) :
    Option (State ι × List Event) :=
  match s.callers i with
  | .idle => none
  | .pulsing durationMs =>
      some ((s.writeValue .cpu0Boostpulse "1" ok).setCaller i
        (.boosting durationMs), [])
  | .boosting durationMs =>
      let deadline := deadlineAfter s.clock (clampDuration durationMs)
      some (s.setCaller i (.requesting deadline),
        [.deadline s.clock durationMs deadline])
  | .requesting deadline =>
      match requestBoostLocked s.boost deadline with
      | none => some (s.setCaller i .idle, [.refused deadline])
      | some b =>
          some ({ s with boost := b }.setCaller i
            (.writing (setInteractionBoost true)), [.accepted deadline])
  | .hinting enabled =>
      some ({ s with boost := { s.boost with lowPowerMode := enabled } }.setCaller
        i (if enabled then .cancelling true else .idle), [])
  | .cancelling _ =>
      let (b, wasActive) := cancelBoostLocked s.boost
      some ({ s with boost := b }.setCaller i
        (if wasActive then .writing (setInteractionBoost false) else .idle),
        [.cancelled wasActive])
  | .writing [] => some (s.setCaller i .idle, [])
  | .writing ((path, value) :: writes) =>
      some ((s.writeValue path value ok).setCaller i (.writing writes),
        [.wrote path value])

/-- The head of the loop of `boost_worker`, under the lock. -/
def workerLoop (b : Boost) : Worker :=
  if b.boostActive then .timedWaiting b.boostDeadline else .waiting

def workerLock (s : State ι) : Option (State ι × List Event) :=
  match s.worker with
  | .writing _ => none
  | _ => some (s.setWorker (workerLoop s.boost), [])

def workerTimeout (s : State ι) : Option (State ι × List Event) :=
  match s.worker with
  | .timedWaiting deadline =>
      if compareTimespec s.clock deadline ≥ 0 then
        match expireBoostLocked s.boost s.clock with
        | none => some (s.setWorker (workerLoop s.boost), [])
        | some b =>
            some ({ s with boost := b }.setWorker
              (.writing (setInteractionBoost false)), [.expired s.clock])
      else none
  | _ => none

def workerWrite (s : State ι) (ok : Bool) : Option (State ι × List Event) :=
  match s.worker with
  | .writing [] => some (s.setWorker .relocking, [])
  | .writing ((path, value) :: writes) =>
      some ((s.writeValue path value ok).setWorker (.writing writes),
        [.wrote path value])
  | _ => none

/-- One atomic step of the HAL. A call enters an idle thread; it does nothing
unless `power_init` has started the worker. -/
def step : Machine (State ι) (Action ι) Event
  | s, .tick now =>
      if compareTimespec now s.clock ≥ 0 then some ({ s with clock := now }, [])
      else none
  | s, .powerHint i hint data =>
      if s.callers i = .idle then
        some (if s.boostThreadStarted then s.setCaller i (powerHint hint data)
          else s, [])
      else none
  | s, .powerSetInteractive i on =>
      if s.callers i = .idle then
        some (if !on && s.boostThreadStarted then
          s.setCaller i (.cancelling false) else s, [])
      else none
  | s, .caller i ok => callerStep s i ok
  | s, .workerLock => if s.boostThreadStarted then workerLock s else none
  | s, .workerTimeout => workerTimeout s
  | s, .workerWrite ok => workerWrite s ok

/-- The state in which the HAL starts: the knobs hold the normal profile. -/
def init (ι : Type*) (boostThreadStarted : Bool) (clock : Timespec) : State ι where
  boost := ⟨false, ⟨0, 0⟩, false⟩
  boostThreadStarted := boostThreadStarted
  clock := clock
  files path := ((setInteractionBoost false).lookup path).getD ""
  worker := .relocking
  callers _ := .idle

/-! ### What a step can do -/

/-- Where a call takes an idle thread. -/
inductive Enters (s : State ι) : Action ι → ι → Caller → Prop where
  | powerHint (i : ι) (hint : PowerHint) (data : Option Int) :
      Enters s (.powerHint i hint data) i (powerHint hint data)
  | powerSetInteractive (i : ι) : Enters s (.powerSetInteractive i false) i (.cancelling false)

/-- The steps, one constructor for each place where a thread stands. -/
inductive Step (s : State ι) : Action ι → State ι → List Event → Prop where
  | tick (now : Timespec) (hnow : 0 ≤ compareTimespec now s.clock) :
      Step s (.tick now) { s with clock := now } []
  | hintIgnored (i : ι) (hint : PowerHint) (data : Option Int) (hi : s.callers i = .idle) :
      Step s (.powerHint i hint data) s []
  | setIgnored (i : ι) (on : Bool) (hi : s.callers i = .idle) :
      Step s (.powerSetInteractive i on) s []
  | enter {a : Action ι} {i : ι} {c : Caller} (ha : Enters s a i c)
      (hi : s.callers i = .idle) : Step s a (s.setCaller i c) []
  | pulse (i : ι) (ok : Bool) (durationMs : Int) (hi : s.callers i = .pulsing durationMs) :
      Step s (.caller i ok)
        ((s.writeValue .cpu0Boostpulse "1" ok).setCaller i (.boosting durationMs)) []
  | read (i : ι) (ok : Bool) (durationMs : Int) (hi : s.callers i = .boosting durationMs) :
      Step s (.caller i ok)
        (s.setCaller i (.requesting (deadlineAfter s.clock (clampDuration durationMs))))
        [.deadline s.clock durationMs (deadlineAfter s.clock (clampDuration durationMs))]
  | refuse (i : ι) (ok : Bool) (deadline : Timespec) (hi : s.callers i = .requesting deadline) :
      Step s (.caller i ok) (s.setCaller i .idle) [.refused deadline]
  | accept (i : ι) (ok : Bool) (deadline : Timespec) (b : Boost)
      (hi : s.callers i = .requesting deadline)
      (hb : requestBoostLocked s.boost deadline = some b) :
      Step s (.caller i ok)
        ({ s with boost := b }.setCaller i (.writing (setInteractionBoost true)))
        [.accepted deadline]
  | hint (i : ι) (ok enabled : Bool) (hi : s.callers i = .hinting enabled) :
      Step s (.caller i ok)
        ({ s with boost := { s.boost with lowPowerMode := enabled } }.setCaller i
          (if enabled then .cancelling true else .idle)) []
  | cancel (i : ι) (ok lowPower : Bool) (hi : s.callers i = .cancelling lowPower) :
      Step s (.caller i ok)
        ({ s with boost := (cancelBoostLocked s.boost).1 }.setCaller i
          (if (cancelBoostLocked s.boost).2 then .writing (setInteractionBoost false)
            else .idle)) [.cancelled (cancelBoostLocked s.boost).2]
  | written (i : ι) (ok : Bool) (hi : s.callers i = .writing []) :
      Step s (.caller i ok) (s.setCaller i .idle) []
  | write (i : ι) (ok : Bool) (w : Path × String) (ws : List (Path × String))
      (hi : s.callers i = .writing (w :: ws)) :
      Step s (.caller i ok) ((s.writeValue w.1 w.2 ok).setCaller i (.writing ws))
        [.wrote w.1 w.2]
  | lock (hw : ∀ ws, s.worker ≠ .writing ws) :
      Step s .workerLock (s.setWorker (workerLoop s.boost)) []
  | early (deadline : Timespec) (hw : s.worker = .timedWaiting deadline) :
      Step s .workerTimeout (s.setWorker (workerLoop s.boost)) []
  | expire (deadline : Timespec) (b : Boost) (hw : s.worker = .timedWaiting deadline)
      (hb : expireBoostLocked s.boost s.clock = some b) :
      Step s .workerTimeout
        ({ s with boost := b }.setWorker (.writing (setInteractionBoost false)))
        [.expired s.clock]
  | workerWritten (ok : Bool) (hw : s.worker = .writing []) :
      Step s (.workerWrite ok) (s.setWorker .relocking) []
  | workerWrite (ok : Bool) (w : Path × String) (ws : List (Path × String))
      (hw : s.worker = .writing (w :: ws)) :
      Step s (.workerWrite ok) ((s.writeValue w.1 w.2 ok).setWorker (.writing ws))
        [.wrote w.1 w.2]

variable {s t : State ι} {o : List Event}

theorem callerStep_spec {i : ι} {ok : Bool} (h : callerStep s i ok = some (t, o)) :
    Step s (.caller i ok) t o := by
  cases hi : s.callers i with
  | idle => simp [callerStep, hi] at h
  | pulsing durationMs =>
      simp only [callerStep, hi] at h
      cases h
      exact .pulse i ok durationMs hi
  | boosting durationMs =>
      simp only [callerStep, hi] at h
      cases h
      exact .read i ok durationMs hi
  | requesting deadline =>
      cases hb : requestBoostLocked s.boost deadline with
      | none =>
          simp only [callerStep, hi, hb] at h
          cases h
          exact .refuse i ok deadline hi
      | some b =>
          simp only [callerStep, hi, hb] at h
          cases h
          exact .accept i ok deadline b hi hb
  | hinting enabled =>
      simp only [callerStep, hi] at h
      cases h
      exact .hint i ok enabled hi
  | cancelling lowPower =>
      simp only [callerStep, hi] at h
      cases h
      exact .cancel i ok lowPower hi
  | writing ws =>
      cases ws with
      | nil =>
          simp only [callerStep, hi] at h
          cases h
          exact .written i ok hi
      | cons w ws =>
          simp only [callerStep, hi] at h
          cases h
          exact .write i ok w ws hi

theorem workerTimeout_spec (h : workerTimeout s = some (t, o)) :
    Step s .workerTimeout t o := by
  cases hw : s.worker with
  | timedWaiting deadline =>
      simp only [workerTimeout, hw] at h
      split at h
      · cases hb : expireBoostLocked s.boost s.clock with
        | none =>
            simp only [hb] at h
            cases h
            exact .early deadline hw
        | some b =>
            simp only [hb] at h
            cases h
            exact .expire deadline b hw hb
      · cases h
  | _ => simp [workerTimeout, hw] at h

theorem workerWrite_spec {ok : Bool} (h : workerWrite s ok = some (t, o)) :
    Step s (.workerWrite ok) t o := by
  cases hw : s.worker with
  | writing ws =>
      cases ws with
      | nil =>
          simp only [workerWrite, hw] at h
          cases h
          exact .workerWritten ok hw
      | cons w ws =>
          simp only [workerWrite, hw] at h
          cases h
          exact .workerWrite ok w ws hw
  | _ => simp [workerWrite, hw] at h

theorem step_spec {a : Action ι} (h : step s a = some (t, o)) : Step s a t o := by
  cases a with
  | tick now =>
      simp only [step] at h
      split at h
      · next hnow =>
        cases h
        exact .tick now hnow
      · cases h
  | powerHint i hint data =>
      simp only [step] at h
      split at h
      · next hi =>
        cases h
        split
        · exact .enter (.powerHint i hint data) hi
        · exact .hintIgnored i hint data hi
      · cases h
  | powerSetInteractive i on =>
      simp only [step] at h
      split at h
      · next hi =>
        cases h
        cases on with
        | false =>
            cases hstarted : s.boostThreadStarted with
            | false => exact .setIgnored i _ hi
            | true => exact .enter (.powerSetInteractive i) hi
        | true => exact .setIgnored i _ hi
      · cases h
  | caller i ok => exact callerStep_spec h
  | workerLock =>
      simp only [step, workerLock] at h
      split at h
      · split at h
        · cases h
        · next hw =>
          cases h
          exact .lock hw
      · cases h
  | workerTimeout => exact workerTimeout_spec h
  | workerWrite ok => exact workerWrite_spec h

end Step

end MozartLineage.Power
