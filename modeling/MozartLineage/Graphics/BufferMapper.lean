import Mathlib.Algebra.Group.Nat.Defs
import Mathlib.Data.Int.Notation
import Mathlib.Logic.Function.Basic
import MozartLineage.Transition.Run

/-!
# The legacy import cache of `GraphicBufferMapper`

A raw handle that the mapper refuses to lock is imported, and the clone is kept
in a cache while it is locked. A step is a section of a call under
`mLegacyImportMutex`, or what a call does between its two sections: it makes a
copy of its fence and locks the raw handle directly.

The raw handles are of any type `η`, the threads of any type `θ`. Every import
yields a new clone; clones are numbered. Whether the mapper refuses a raw handle
depends on the handle alone; anything else that it returns comes with the action.
-/

namespace MozartLineage.Graphics

open Transition

/-- The planes of a buffer that is locked as YCbCr, in the layout of the mapper
and of its callers alike. -/
structure YCbCr where
  y : ℕ
  cb : ℕ
  cr : ℕ
  ystride : ℕ
  cstride : ℕ
  chromaStep : ℕ
  deriving DecidableEq

/-- What a lock returns. -/
inductive Mapped where
  | address (vaddr : ℕ)
  | ycbcr (layout : YCbCr)
  deriving DecidableEq

def Mapped.isYCbCr : Mapped → Bool
  | .address _ => false
  | .ycbcr _ => true

/-- The errors of the mapper. -/
inductive Error where
  | badDescriptor
  | badBuffer
  | badValue
  | noResources
  | unsupported
  deriving DecidableEq

/-- The status of a lock that fails: an error of the mapper, or `BAD_VALUE` for
a lock of the other kind. -/
inductive Status where
  | mapper (error : Error)
  | badValue
  deriving DecidableEq

structure LegacyImportedBuffer where
  handle : ℕ
  lockCount : ℕ
  data : ℕ
  ycbcr : YCbCr
  isYCbCr : Bool
  deriving DecidableEq

namespace LegacyImportedBuffer

/-- A clone that has been locked for the first time. -/
def new (handle : ℕ) : Mapped → LegacyImportedBuffer
  | .address vaddr => ⟨handle, 1, vaddr, ⟨0, 0, 0, 0, 0, 0⟩, false⟩
  | .ycbcr layout => ⟨handle, 1, 0, layout, true⟩

/-- What a lock of the right kind returns. -/
def mapped (e : LegacyImportedBuffer) : Mapped :=
  if e.isYCbCr then .ycbcr e.ycbcr else .address e.data

/-- One more lock, in 32 bits. -/
def addLock (e : LegacyImportedBuffer) : LegacyImportedBuffer :=
  { e with lockCount := (e.lockCount + 1) % 2 ^ 32 }

def removeLock (e : LegacyImportedBuffer) : LegacyImportedBuffer :=
  { e with lockCount := e.lockCount - 1 }

@[simp] theorem new_handle (handle : ℕ) (v : Mapped) : (new handle v).handle = handle := by
  cases v <;> rfl

@[simp] theorem new_mapped (handle : ℕ) (v : Mapped) : (new handle v).mapped = v := by
  cases v <;> rfl

@[simp] theorem new_lockCount (handle : ℕ) (v : Mapped) :
    (new handle v).lockCount = 1 := by
  cases v <;> rfl

end LegacyImportedBuffer

/-- A call of `lockAsync` or `lockAsyncYCbCr`. -/
structure LockCall (η : Type*) where
  handle : η
  isYCbCr : Bool
  hasFence : Bool

/-- The fences of a call: the one it was given, the copy for another try, and
the one that an unlock of a clone gives back. -/
inductive Fence where
  | acquire
  | retry
  | release
  deriving DecidableEq

inductive Thread (η : Type*) where
  | idle
  /-- after a first section that has not found the handle -/
  | missed (call : LockCall η)
  /-- after the mapper has refused the handle; whether there is a copy of the
  fence -/
  | refused (call : LockCall η) (retryFence : Bool)

structure State (θ η : Type*) where
  importedBuffers : η → Option LegacyImportedBuffer
  /-- the number of the next clone -/
  imports : ℕ
  threads : θ → Thread η

inductive Action (θ η : Type*) where
  /-- the first section of a lock -/
  | lock (t : θ) (call : LockCall η)
  /-- the copy of the fence, and the lock of the raw handle -/
  | lockRaw (t : θ) (dup : Bool) (result : Except Error Mapped)
  /-- the second section, with what the import and the lock of the clone return -/
  | lockClone (t : θ) (imported : Except Error (Except Error Mapped))
  | unlock (t : θ) (handle : η) (releaseFence : Bool)
  | freeBuffer (t : θ) (handle : η) (releaseFence : Bool)

inductive Event (θ η : Type*) where
  | locked (t : θ) (handle : η) (v : Mapped)
  | lockFailed (t : θ) (handle : η) (status : Status)
  | unlocked (t : θ) (handle : η)
  | freed (t : θ) (handle : η)
  | imported (clone : ℕ) (handle : η)
  | cloneLocked (clone : ℕ) (v : Mapped)
  | cloneRefused (clone : ℕ) (error : Error)
  | cloneUnlocked (clone : ℕ)
  | cloneFreed (clone : ℕ)
  | fenceDuplicated (t : θ)
  /-- the fence goes to the mapper, which consumes it -/
  | fencePassed (t : θ) (fence : Fence)
  | fenceWaited (t : θ) (fence : Fence)
  | fenceClosed (t : θ) (fence : Fence)

section Step

variable {θ η : Type*}

def duplicateFence (t : θ) (there : Bool) : List (Event θ η) :=
  if there then [.fenceDuplicated t] else []

/-- `sync_wait` and `close`, for a fence that is there. -/
def waitAndClose (t : θ) (fence : Fence) (there : Bool) : List (Event θ η) :=
  if there then [.fenceWaited t fence, .fenceClosed t fence] else []

def closeFence (t : θ) (fence : Fence) (there : Bool) : List (Event θ η) :=
  if there then [.fenceClosed t fence] else []

def passFence (t : θ) (fence : Fence) (there : Bool) : List (Event θ η) :=
  if there then [.fencePassed t fence] else []

variable [DecidableEq θ] [DecidableEq η]

namespace State

def setThread (s : State θ η) (t : θ) (c : Thread η) : State θ η :=
  { s with threads := Function.update s.threads t c }

def setBuffer (s : State θ η) (handle : η) (e : Option LegacyImportedBuffer) :
    State θ η :=
  { s with importedBuffers := Function.update s.importedBuffers handle e }

end State

/-- A section of a lock that finds the handle, with the fence it has. -/
def lockCached (s : State θ η) (t : θ) (call : LockCall η) (fence : Fence)
    (there : Bool) (e : LegacyImportedBuffer) : State θ η × List (Event θ η) :=
  let s := s.setThread t .idle
  if e.isYCbCr ≠ call.isYCbCr then
    (s, waitAndClose t fence there ++ [.lockFailed t call.handle .badValue])
  else
    (s.setBuffer call.handle (some e.addLock),
      waitAndClose t fence there ++ [.locked t call.handle e.mapped])

/-- The second section of a lock when it does not find the handle either. -/
def importAndLock (s : State θ η) (t : θ) (call : LockCall η) (retryFence : Bool) :
    Except Error (Except Error Mapped) → State θ η × List (Event θ η)
  | .error error =>
      (s.setThread t .idle, closeFence t .retry retryFence ++
        [.lockFailed t call.handle (.mapper error)])
  | .ok (.error error) =>
      ({ s.setThread t .idle with imports := s.imports + 1 },
        .imported s.imports call.handle :: passFence t .retry retryFence ++
          [.cloneRefused s.imports error, .cloneFreed s.imports,
            .lockFailed t call.handle (.mapper error)])
  | .ok (.ok v) =>
      ({ (s.setThread t .idle).setBuffer call.handle (some (.new s.imports v)) with
          imports := s.imports + 1 },
        .imported s.imports call.handle :: passFence t .retry retryFence ++
          [.cloneLocked s.imports v, .locked t call.handle v])

/-- A clone is given up. -/
def dropClone (s : State θ η) (t : θ) (handle : η) (releaseFence : Bool)
    (e : LegacyImportedBuffer) : State θ η × List (Event θ η) :=
  (s.setBuffer handle none,
    .cloneUnlocked e.handle :: waitAndClose t .release releaseFence ++
      [.cloneFreed e.handle])

/-- A mapper refuses the raw handles of `rejects`, and only those, with
`BAD_BUFFER`. What a lock returns is of the kind that was asked for. -/
def Consistent (rejects : η → Bool) (call : LockCall η) :
    Except Error Mapped → Prop
  | .error error => error = .badBuffer ↔ rejects call.handle
  | .ok v => ¬ rejects call.handle ∧ v.isYCbCr = call.isYCbCr

instance (rejects : η → Bool) (call : LockCall η) (result : Except Error Mapped) :
    Decidable (Consistent rejects call result) :=
  match result with
  | .error _ => inferInstanceAs (Decidable (_ ↔ _))
  | .ok _ => inferInstanceAs (Decidable (_ ∧ _))

/-- The same for the clone: the import may fail, and so may the lock. -/
def CloneConsistent (call : LockCall η) : Except Error (Except Error Mapped) → Prop
  | .ok (.ok v) => v.isYCbCr = call.isYCbCr
  | _ => True

instance (call : LockCall η) (result : Except Error (Except Error Mapped)) :
    Decidable (CloneConsistent call result) :=
  match result with
  | .error _ => .isTrue trivial
  | .ok (.error _) => .isTrue trivial
  | .ok (.ok _) => inferInstanceAs (Decidable (_ = _))

/-- One step, over a mapper that refuses the raw handles of `rejects`. -/
def step (rejects : η → Bool) : Machine (State θ η) (Action θ η) (Event θ η)
  | s, .lock t call =>
      match s.threads t with
      | .idle =>
          match s.importedBuffers call.handle with
          | some e => some (lockCached s t call .acquire call.hasFence e)
          | none => some (s.setThread t (.missed call), [])
      | _ => none
  | s, .lockRaw t dup result =>
      match s.threads t with
      | .missed call =>
          if Consistent rejects call result then
            let retryFence := call.hasFence && dup
            let before := duplicateFence t retryFence ++
              passFence t .acquire call.hasFence
            match result with
            | .ok v =>
                some (s.setThread t .idle, before ++ closeFence t .retry retryFence ++
                  [.locked t call.handle v])
            | .error error =>
                if error = .badBuffer ∧ (call.hasFence → retryFence) then
                  some (s.setThread t (.refused call retryFence), before)
                else
                  some (s.setThread t .idle, before ++
                    closeFence t .retry retryFence ++
                      [.lockFailed t call.handle (.mapper error)])
          else none
      | _ => none
  | s, .lockClone t result =>
      match s.threads t with
      | .refused call retryFence =>
          if CloneConsistent call result then
            match s.importedBuffers call.handle with
            | some e => some (lockCached s t call .retry retryFence e)
            | none => some (importAndLock s t call retryFence result)
          else none
      | _ => none
  | s, .unlock t handle releaseFence =>
      match s.threads t with
      | .idle =>
          match s.importedBuffers handle with
          | some e =>
              if e.lockCount > 1 then
                some (s.setBuffer handle (some e.removeLock), [.unlocked t handle])
              else
                let dropped := dropClone s t handle releaseFence e
                some (dropped.1, dropped.2 ++ [.unlocked t handle])
          | none => some (s, [.unlocked t handle])
      | _ => none
  | s, .freeBuffer t handle releaseFence =>
      match s.threads t with
      | .idle =>
          match s.importedBuffers handle with
          | some e =>
              let dropped := dropClone s t handle releaseFence e
              some (dropped.1, dropped.2 ++ [.freed t handle])
          | none => some (s, [.freed t handle])
      | _ => none

/-- Everything that a step can be. -/
inductive Step (rejects : η → Bool) (s : State θ η) :
    Action θ η → State θ η × List (Event θ η) → Prop where
  | hit {t call e} (hp : s.threads t = .idle)
      (he : s.importedBuffers call.handle = some e) :
      Step rejects s (.lock t call) (lockCached s t call .acquire call.hasFence e)
  | miss {t call} (hp : s.threads t = .idle)
      (he : s.importedBuffers call.handle = none) :
      Step rejects s (.lock t call) (s.setThread t (.missed call), [])
  | rawLocked {t call dup v before after} (hp : s.threads t = .missed call)
      (hr : ¬ rejects call.handle)
      (hbefore : before = duplicateFence t (call.hasFence && dup) ++
        passFence t .acquire call.hasFence)
      (hafter : after = closeFence t .retry (call.hasFence && dup)) :
      Step rejects s (.lockRaw t dup (.ok v))
        (s.setThread t .idle, before ++ after ++ [.locked t call.handle v])
  | rawRefused {t call dup before} (hp : s.threads t = .missed call)
      (hr : rejects call.handle) (hfence : call.hasFence → call.hasFence && dup)
      (hbefore : before = duplicateFence t (call.hasFence && dup) ++
        passFence t .acquire call.hasFence) :
      Step rejects s (.lockRaw t dup (.error .badBuffer))
        (s.setThread t (.refused call (call.hasFence && dup)), before)
  | rawFailed {t call dup error before after} (hp : s.threads t = .missed call)
      (hbefore : before = duplicateFence t (call.hasFence && dup) ++
        passFence t .acquire call.hasFence)
      (hafter : after = closeFence t .retry (call.hasFence && dup)) :
      Step rejects s (.lockRaw t dup (.error error))
        (s.setThread t .idle,
          before ++ after ++ [.lockFailed t call.handle (.mapper error)])
  | hitAgain {t call retryFence result e} (hp : s.threads t = .refused call retryFence)
      (he : s.importedBuffers call.handle = some e) :
      Step rejects s (.lockClone t result) (lockCached s t call .retry retryFence e)
  | importClone {t call retryFence result} (hp : s.threads t = .refused call retryFence)
      (he : s.importedBuffers call.handle = none) (hr : CloneConsistent call result) :
      Step rejects s (.lockClone t result) (importAndLock s t call retryFence result)
  | unlockShared {t handle releaseFence e} (hp : s.threads t = .idle)
      (he : s.importedBuffers handle = some e) (hcount : 1 < e.lockCount) :
      Step rejects s (.unlock t handle releaseFence)
        (s.setBuffer handle (some e.removeLock), [.unlocked t handle])
  | unlockLast {t handle releaseFence e} (hp : s.threads t = .idle)
      (he : s.importedBuffers handle = some e) (hcount : e.lockCount ≤ 1) :
      Step rejects s (.unlock t handle releaseFence)
        ((dropClone s t handle releaseFence e).1,
          (dropClone s t handle releaseFence e).2 ++ [.unlocked t handle])
  | unlockRaw {t handle releaseFence} (hp : s.threads t = .idle)
      (he : s.importedBuffers handle = none) :
      Step rejects s (.unlock t handle releaseFence) (s, [.unlocked t handle])
  | freeCached {t handle releaseFence e} (hp : s.threads t = .idle)
      (he : s.importedBuffers handle = some e) :
      Step rejects s (.freeBuffer t handle releaseFence)
        ((dropClone s t handle releaseFence e).1,
          (dropClone s t handle releaseFence e).2 ++ [.freed t handle])
  | freeRaw {t handle releaseFence} (hp : s.threads t = .idle)
      (he : s.importedBuffers handle = none) :
      Step rejects s (.freeBuffer t handle releaseFence) (s, [.freed t handle])

theorem step_spec {rejects : η → Bool} {s : State θ η} {a : Action θ η}
    {p : State θ η × List (Event θ η)} (h : step rejects s a = some p) :
    Step rejects s a p := by
  cases a with
  | lock t call =>
      simp only [step] at h
      split at h
      · split at h <;> cases h
        · exact .hit ‹_› ‹_›
        · exact .miss ‹_› ‹_›
      · cases h
  | lockRaw t dup result =>
      simp only [step] at h
      split at h
      · next call hp =>
        split_ifs at h with hr
        cases result with
        | ok v =>
            cases h
            exact .rawLocked hp hr.1 rfl rfl
        | error error =>
            dsimp only at h
            split_ifs at h with hretry <;> cases h
            · obtain ⟨rfl, hfence⟩ := hretry
              exact .rawRefused hp (hr.1 rfl) hfence rfl
            · exact .rawFailed hp rfl rfl
      · cases h
  | lockClone t result =>
      simp only [step] at h
      split at h
      · split_ifs at h with hr
        split at h <;> cases h
        · exact .hitAgain ‹_› ‹_›
        · exact .importClone ‹_› ‹_› hr
      · cases h
  | unlock t handle releaseFence =>
      simp only [step] at h
      split at h
      · split at h
        · split_ifs at h with hcount <;> cases h
          · exact .unlockShared ‹_› ‹_› hcount
          · exact .unlockLast ‹_› ‹_› (by omega)
        · cases h
          exact .unlockRaw ‹_› ‹_›
      · cases h
  | freeBuffer t handle releaseFence =>
      simp only [step] at h
      split at h
      · split at h <;> cases h
        · exact .freeCached ‹_› ‹_›
        · exact .freeRaw ‹_› ‹_›
      · cases h

/-- Before the first call. -/
def init (θ η : Type*) : State θ η where
  importedBuffers _ := none
  imports := 0
  threads _ := .idle

end Step

end MozartLineage.Graphics
