import MozartLineage.Graphics.BufferMapper
import MozartLineage.Transition.Monitor

/-!
# The fences of a lock

A lock is given a fence, or none, and may make a copy of it. Whatever the mapper returns,
and whatever happens to the cache between the sections of the call, both are given away
exactly once, and none is used afterwards.

The mapper consumes the fence that a lock passes to it, also when the lock fails.
-/

namespace MozartLineage.Graphics

open Transition

/-! ### The descriptors of a call -/

/-- A file descriptor that is not there, one that the call has to get rid of, and one
that it has got rid of. -/
inductive Fd where
  | absent
  | held
  | consumed
  deriving DecidableEq

/-- The descriptors of a call, and whether there is nothing left to wait for. -/
structure Fences where
  acquire : Fd
  retry : Fd
  ready : Bool
  deriving DecidableEq

namespace Fences

/-- Outside of any call. -/
def none : Fences := ⟨.absent, .absent, false⟩

/-- At the beginning of a call. -/
def given (hasFence : Bool) : Fences :=
  ⟨if hasFence then .held else .absent, .absent, !hasFence⟩

def fd (x : Fences) : Fence → Fd
  | .acquire => x.acquire
  | .retry => x.retry
  | .release => .absent

def consume (x : Fences) : Fence → Fences
  | .acquire => { x with acquire := .consumed }
  | .retry => { x with retry := .consumed }
  | .release => x

end Fences

inductive FenceEvent where
  | called (hasFence : Bool)
  | duplicated
  | passed (fence : Fence)
  | waited (fence : Fence)
  | closed (fence : Fence)
  /-- the contents are handed out, of a cached import or not -/
  | handedOut (cached : Bool)
  | returned
  deriving DecidableEq

/-- The monitor of the fences of a thread. Only a descriptor that is held is used, the
caller's fence is waited for before it is closed, a cached import is handed out only when
there is nothing left to wait for, and nothing is held when the call returns. The copy is
one of the same fence: it may be waited for instead. -/
def fences : Monitor FenceEvent Fences where
  next x
    | .called hasFence => .given hasFence
    | .duplicated => { x with retry := .held }
    | .passed fence | .closed fence => x.consume fence
    | .waited _ => { x with ready := true }
    | .handedOut _ => x
    | .returned => .none
  Allowed x
    | .called _ => x = .none
    | .duplicated => x.acquire = .held ∧ x.retry = .absent
    | .passed fence | .waited fence => x.fd fence = .held
    | .closed fence => x.fd fence = .held ∧ (fence = .acquire → x.ready)
    | .handedOut cached => cached → x.ready
    | .returned => x.acquire ≠ .held ∧ x.retry ≠ .held

instance (x : Fences) (e : FenceEvent) : Decidable (fences.Allowed x e) :=
  match e with
  | .called _ | .passed _ | .waited _ => inferInstanceAs (Decidable (_ = _))
  | .duplicated | .closed _ | .returned => inferInstanceAs (Decidable (_ ∧ _))
  | .handedOut _ => inferInstanceAs (Decidable (_ → _))

/-- The monitor accepts the events, and gets from `x` to `y` with them. -/
def Takes (x : Fences) (os : List FenceEvent) (y : Fences) : Prop :=
  fences.Accepts x os ∧ fences.after x os = y

instance (x : Fences) (os : List FenceEvent) (y : Fences) : Decidable (Takes x os y) :=
  inferInstanceAs (Decidable (_ ∧ _))

/-! ### Runs with any mapper and any cache -/

section Log

variable {θ η : Type*}

/-- A step of a thread, over a mapper that may refuse any handles this time, or any change
of the cache. -/
inductive Turn (θ η : Type*) where
  | act (rejects : η → Bool) (a : Action θ η)
  | change (importedBuffers : η → Option LegacyImportedBuffer)

def Action.thread : Action θ η → θ
  | .lock t _ | .lockRaw t _ _ | .lockClone t _ | .unlock t _ _ | .freeBuffer t _ _ => t

/-- A section of a lock finds the handle in the cache. -/
def State.hits (s : State θ η) : Action θ η → Bool
  | .lock _ call => (s.importedBuffers call.handle).isSome
  | .lockClone t _ =>
      match s.threads t with
      | .refused call _ => (s.importedBuffers call.handle).isSome
      | _ => false
  | _ => false

/-- What an event does with the fences of a lock. The fence of an unlock is none of
them. -/
def Event.fences (cached : Bool) : Event θ η → List FenceEvent
  | .locked _ _ _ => [.handedOut cached, .returned]
  | .lockFailed _ _ _ => [.returned]
  | .fenceDuplicated _ => [.duplicated]
  | .fencePassed _ fence => [.passed fence]
  | .fenceWaited _ fence => if fence = .release then [] else [.waited fence]
  | .fenceClosed _ fence => if fence = .release then [] else [.closed fence]
  | .unlocked _ _ | .freed _ _ | .imported _ _ | .cloneLocked _ _ | .cloneRefused _ _
  | .cloneUnlocked _ | .cloneFreed _ => []

def Action.fences : Action θ η → List FenceEvent
  | .lock _ call => [.called call.hasFence]
  | _ => []

/-- What a step does with the fences of its thread. -/
def State.fenceEvents (s : State θ η) (a : Action θ η) (os : List (Event θ η)) :
    List FenceEvent := a.fences ++ os.flatMap (Event.fences (s.hits a))

def fenceLog (s : State θ η) : Turn θ η → List (Event θ η) → List (θ × FenceEvent)
  | .act _ a, os => (s.fenceEvents a os).map (Prod.mk a.thread)
  | .change _, _ => []

variable [DecidableEq θ] [DecidableEq η]

def anyStep : Machine (State θ η) (Turn θ η) (Event θ η)
  | s, .act rejects a => step rejects s a
  | s, .change importedBuffers => some ({ s with importedBuffers := importedBuffers }, [])

/-- The same with what the steps do with fences. -/
def fenceStep : Machine (State θ η) (Turn θ η) (θ × FenceEvent) :=
  Machine.logged anyStep fenceLog

/-! ### What a call holds between its sections -/

/-- The mapper has taken the caller's fence; the call goes on only with a copy of it. -/
def Thread.fences : Thread η → Fences
  | .idle => .none
  | .missed call => .given call.hasFence
  | .refused call retryFence =>
      ⟨if call.hasFence then .consumed else .absent,
        if retryFence then .held else .absent, !call.hasFence⟩

/-- There is a copy of the fence if there is a fence. -/
def Thread.Copied : Thread η → Prop
  | .refused call retryFence => retryFence = call.hasFence
  | _ => True

/-- A thread goes on to `c`, and its fences are what they have to be. -/
structure Keeps (s : State θ η) (a : Action θ η) (p : State θ η × List (Event θ η))
    (c : Thread η) : Prop where
  threads : p.1.threads = Function.update s.threads a.thread c
  copied : c.Copied
  takes : Takes (s.threads a.thread).fences (s.fenceEvents a p.2) c.fences

section Events

variable {θ η : Type*} {cached there : Bool} {t : θ} {fence : Fence}

@[simp] theorem fences_duplicateFence :
    (duplicateFence t there : List (Event θ η)).flatMap (Event.fences cached) =
      if there then [.duplicated] else [] := by
  cases there <;> rfl

@[simp] theorem fences_passFence :
    (passFence t fence there : List (Event θ η)).flatMap (Event.fences cached) =
      if there then [.passed fence] else [] := by
  cases there <;> rfl

@[simp] theorem fences_closeFence :
    (closeFence t fence there : List (Event θ η)).flatMap (Event.fences cached) =
      if there ∧ fence ≠ .release then [.closed fence] else [] := by
  cases there <;> cases fence <;> rfl

@[simp] theorem fences_waitAndClose :
    (waitAndClose t fence there : List (Event θ η)).flatMap (Event.fences cached) =
      if there ∧ fence ≠ .release then [.waited fence, .closed fence] else [] := by
  cases there <;> cases fence <;> rfl

@[simp] theorem fences_locked {handle : η} {v : Mapped} :
    [Event.locked t handle v].flatMap (Event.fences cached) = [.handedOut cached, .returned] := rfl

@[simp] theorem fences_lockFailed {handle : η} {status : Status} :
    [Event.lockFailed t handle status].flatMap (Event.fences cached) = [.returned] := rfl

end Events

variable {rejects : η → Bool} {s : State θ η} {t : θ} {call : LockCall η}

theorem lockCached_threads {fence : Fence} {there : Bool} {e : LegacyImportedBuffer} :
    (lockCached s t call fence there e).1.threads = Function.update s.threads t .idle := by
  unfold lockCached
  dsimp only
  split <;> rfl

/-- A section that finds the handle waits for the fence it has, and returns. -/
theorem lockCached_fences {fence : Fence} (hfence : fence ≠ .release) (there : Bool)
    (e : LegacyImportedBuffer) :
    ∃ os ∈ [[], [FenceEvent.handedOut true]],
      (lockCached s t call fence there e).2.flatMap (Event.fences true) =
        (if there then [.waited fence, .closed fence] else []) ++ os ++ [.returned] := by
  unfold lockCached
  dsimp only
  split
  · exact ⟨[], by simp, by simp [hfence, Event.fences]⟩
  · exact ⟨[.handedOut true], by simp, by simp [hfence, Event.fences]⟩

/-- The second section passes the copy to the mapper or closes it. -/
theorem importAndLock_fences (retryFence : Bool)
    (result : Except Error (Except Error Mapped)) :
    ∃ e ∈ [FenceEvent.passed .retry, .closed .retry],
      ∃ os ∈ [[], [FenceEvent.handedOut false]],
        (importAndLock s t call retryFence result).2.flatMap (Event.fences false) =
          (if retryFence then [e] else []) ++ os ++ [.returned] := by
  match result with
  | .error error =>
      exact ⟨.closed .retry, by simp, [], by simp, by simp [importAndLock, Event.fences]⟩
  | .ok (.error error) =>
      exact ⟨.passed .retry, by simp, [], by simp, by simp [importAndLock, Event.fences]⟩
  | .ok (.ok v) =>
      exact ⟨.passed .retry, by simp, [.handedOut false], by simp,
        by simp [importAndLock, Event.fences]⟩

theorem importAndLock_threads {retryFence : Bool}
    {result : Except Error (Except Error Mapped)} :
    (importAndLock s t call retryFence result).1.threads =
      Function.update s.threads t .idle := by
  match result with
  | .error _ | .ok (.error _) | .ok (.ok _) => rfl

omit [DecidableEq θ] in
/-- The fence of an unlock is none of a lock. -/
theorem dropClone_fences {cached releaseFence : Bool} {handle : η}
    {e : LegacyImportedBuffer} :
    (dropClone s t handle releaseFence e).2.flatMap (Event.fences cached) = [] := by
  cases releaseFence <;> rfl

/-- A call that finds the handle ends well if it does so whether or not the buffer is of
the right kind. -/
theorem lockCached_keeps {a : Action θ η} (ha : a.thread = t) {c : Thread η}
    (hp : s.threads t = c) (hhits : s.hits a = true) {fence : Fence}
    (hfence : fence ≠ .release) {there : Bool} {e : LegacyImportedBuffer}
    (htakes : ∀ os ∈ [[], [FenceEvent.handedOut true]], Takes c.fences
      (a.fences ++ ((if there then [.waited fence, .closed fence] else []) ++ os ++
        [.returned])) .none) :
    Keeps s a (lockCached s t call fence there e) .idle := by
  subst ha
  obtain ⟨os, hos, hevents⟩ : ∃ os ∈ _,
      (lockCached s a.thread call fence there e).2.flatMap (Event.fences true) = _ :=
    lockCached_fences hfence there e
  refine ⟨lockCached_threads, trivial, ?_⟩
  rw [State.fenceEvents, hhits, hevents, hp]
  exact htakes os hos

omit [DecidableEq η] in
/-- A step that is none of a lock. -/
theorem keeps_of_silent {a : Action θ η} {p : State θ η × List (Event θ η)}
    (hs : (s.threads a.thread).Copied) (hthreads : p.1.threads = s.threads)
    (hevents : s.fenceEvents a p.2 = []) : Keeps s a p (s.threads a.thread) := by
  refine ⟨?_, hs, ?_⟩
  · rw [hthreads, Function.update_eq_self]
  · rw [hevents]
    exact ⟨trivial, rfl⟩

theorem step_keeps {a : Action θ η} {p : State θ η × List (Event θ η)}
    (hs : (s.threads a.thread).Copied) (h : step rejects s a = some p) :
    ∃ c, Keeps s a p c := by
  cases step_spec h with
  | @hit t call e hp he =>
      have hhits : s.hits (.lock t call) = true := by simp [State.hits, he]
      refine ⟨.idle, lockCached_keeps rfl hp hhits (by decide) ?_⟩
      simp only [Action.fences, Thread.fences]
      cases call.hasFence <;> decide
  | @miss t call hp he =>
      refine ⟨.missed call, rfl, trivial, ?_⟩
      simp only [State.fenceEvents, Action.fences, Action.thread, hp]
      exact ⟨⟨rfl, trivial⟩, rfl⟩
  | @rawLocked t call dup v before after hp hr hbefore hafter =>
      refine ⟨.idle, rfl, trivial, ?_⟩
      subst hbefore hafter
      simp only [State.fenceEvents, Action.fences, Action.thread, hp, List.flatMap_append,
        fences_duplicateFence, fences_passFence, fences_closeFence, fences_locked, State.hits,
        Thread.fences]
      cases call.hasFence <;> cases dup <;> decide
  | @rawRefused t call dup before hp hr hfence hbefore =>
      have hcopied : (call.hasFence && dup) = call.hasFence := by
        cases hgiven : call.hasFence with
        | false => rfl
        | true => simpa [hgiven] using hfence
      refine ⟨_, rfl, hcopied, ?_⟩
      subst hbefore
      simp only [State.fenceEvents, Action.fences, Action.thread, hp, List.flatMap_append,
        fences_duplicateFence, fences_passFence, Thread.fences, hcopied]
      cases call.hasFence <;> decide
  | @rawFailed t call dup error before after hp hbefore hafter =>
      refine ⟨.idle, rfl, trivial, ?_⟩
      subst hbefore hafter
      simp only [State.fenceEvents, Action.fences, Action.thread, hp, List.flatMap_append,
        fences_duplicateFence, fences_passFence, fences_closeFence, fences_lockFailed,
        Thread.fences]
      cases call.hasFence <;> cases dup <;> decide
  | @hitAgain t call retryFence result e hp he =>
      have hhits : s.hits (.lockClone t result) = true := by simp [State.hits, hp, he]
      have hcopied : retryFence = call.hasFence := by
        simpa [Action.thread, hp, Thread.Copied] using hs
      refine ⟨.idle, lockCached_keeps rfl hp hhits (by decide) ?_⟩
      simp only [Action.fences, Thread.fences, hcopied]
      cases call.hasFence <;> decide
  | @importClone t call retryFence result hp he hr =>
      have hhits : s.hits (.lockClone t result) = false := by simp [State.hits, hp, he]
      have hcopied : retryFence = call.hasFence := by
        simpa [Action.thread, hp, Thread.Copied] using hs
      refine ⟨.idle, importAndLock_threads, trivial, ?_⟩
      obtain ⟨e, hmem, os, hos, hevents⟩ : ∃ e ∈ _, ∃ os ∈ _,
          (importAndLock s t call retryFence result).2.flatMap (Event.fences false) = _ :=
        importAndLock_fences retryFence result
      rw [State.fenceEvents, hhits, hevents]
      simp only [Action.fences, Action.thread, hp, Thread.fences, hcopied]
      clear hevents
      revert e os
      cases call.hasFence <;> decide
  | unlockShared | unlockRaw | freeRaw => exact ⟨_, keeps_of_silent hs rfl rfl⟩
  | unlockLast | freeCached =>
      refine ⟨_, keeps_of_silent hs rfl ?_⟩
      rw [State.fenceEvents, List.flatMap_append, dropClone_fences]
      rfl

/-! ### Whole runs -/

/-- The fences of all threads. -/
def State.fences (s : State θ η) : θ → Fences := fun t => (s.threads t).fences

theorem fenceStep_keeps {x : Turn θ η} {p : State θ η × List (θ × FenceEvent)}
    (hs : ∀ t, (s.threads t).Copied) (h : fenceStep s x = some p) :
    (∀ t, (p.1.threads t).Copied) ∧ Graphics.fences.each.after s.fences p.2 = p.1.fences ∧
      (Graphics.fences.each.Accepts s.fences p.2 ↔ True) := by
  obtain ⟨os, hstep, hlog⟩ := Machine.logged_eq_some.1 h
  cases x with
  | change importedBuffers =>
      obtain ⟨hstate, -⟩ : p.1 = { s with importedBuffers := importedBuffers } ∧ os = [] := by
        simpa [anyStep, eq_comm] using hstep
      rw [← hlog, hstate]
      exact ⟨hs, rfl, Iff.rfl⟩
  | act rejects a =>
      obtain ⟨c, hkeeps⟩ := step_keeps (hs a.thread) hstep
      rw [← hlog, fenceLog, Monitor.after_each, Monitor.accepts_each]
      refine ⟨fun t => ?_, ?_, iff_true_intro hkeeps.takes.1⟩
      · rw [hkeeps.threads]
        by_cases ht : t = a.thread
        · simp [ht, hkeeps.copied]
        · simpa [ht] using hs t
      · funext t
        have hafter : _ = c.fences := hkeeps.takes.2
        rw [State.fences, hafter, State.fences, hkeeps.threads]
        by_cases ht : t = a.thread
        · simp [ht]
        · simp [ht, State.fences]

/-- From any cache on, with any calls of any threads, any results of the mapper and of the
copying, and any changes of the cache between two steps: the fence of every call and its
copy are given away exactly once before the call returns and not used afterwards, and
the contents of a cached import are handed out only when the fence has been waited for. -/
theorem run_fences {s₀ s : State θ η} (hidle : ∀ t, s₀.threads t = .idle)
    {xs : List (Turn θ η)} {os : List (θ × FenceEvent)}
    (hrun : fenceStep.run s₀ xs = some (s, os)) :
    fences.each.Accepts (fun _ => .none) os ∧
      ∀ t, s.threads t = .idle → fences.each.after (fun _ => .none) os t = .none := by
  have hfences : s₀.fences = fun _ => .none := by
    funext t
    simp [State.fences, hidle t, Thread.fences]
  obtain ⟨-, hafter, haccepts⟩ := Monitor.run_accepts_iff (G := fun _ _ => True)
    State.fences (fun s x p hs h => fenceStep_keeps hs h)
    (fun t => by simp [hidle t, Thread.Copied]) hrun
  rw [hfences] at hafter haccepts
  refine ⟨haccepts.2 (Machine.meets_of_forall (fun _ _ _ => trivial) _), fun t ht => ?_⟩
  rw [hafter, State.fences, ht, Thread.fences]

end Log

/-! ### A lock that is overtaken by another one -/

/-- While the raw handle is refused, somebody else imports it. -/
def overtakenLock : List (Turn Unit ℕ) :=
  [.act (fun _ => true) (.lock () ⟨7, false, true⟩),
    .act (fun _ => true) (.lockRaw () true (.error .badBuffer)),
    .change (Function.update (fun _ => none) 7 (some (.new 0 (.address 0x1000)))),
    .act (fun _ => true) (.lockClone () (.error .noResources))]

theorem fences_overtakenLock :
    ∃ s, fenceStep.run (init Unit ℕ) overtakenLock = some (s,
        [((), .called true), ((), .duplicated), ((), .passed .acquire), ((), .waited .retry),
          ((), .closed .retry), ((), .handedOut true), ((), .returned)]) ∧
      fences.each.Accepts (fun _ => .none)
        [((), .called true), ((), .duplicated), ((), .passed .acquire), ((), .waited .retry),
          ((), .closed .retry), ((), .handedOut true), ((), .returned)] := by
  have hrun : ∃ s, fenceStep.run (init Unit ℕ) overtakenLock = some (s,
      [((), .called true), ((), .duplicated), ((), .passed .acquire), ((), .waited .retry),
        ((), .closed .retry), ((), .handedOut true), ((), .returned)]) := ⟨_, rfl⟩
  obtain ⟨s, hrun⟩ := hrun
  exact ⟨s, hrun, (run_fences (fun _ => rfl) hrun).1⟩

end MozartLineage.Graphics
