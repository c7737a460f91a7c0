import MozartLineage.Graphics.BufferMapper

/-!
# The history of a clone

The history of a clone is what a run has done with it. `Clones` says that the
clones in the cache are exactly those that have been locked and not been given
up; the others were freed, once, or have not been imported yet. Every step keeps
it.
-/

namespace MozartLineage.Graphics

open Transition

variable {θ η : Type*}

/-- The clone that an event is about. -/
def Event.clone : Event θ η → Option ℕ
  | .imported clone _ => some clone
  | .cloneLocked clone _ => some clone
  | .cloneRefused clone _ => some clone
  | .cloneUnlocked clone => some clone
  | .cloneFreed clone => some clone
  | _ => none

def history (i : ℕ) (os : List (Event θ η)) : List (Event θ η) :=
  os.filter fun e => e.clone = some i

/-- What may have been done with a clone that is not in the cache: nothing; or it
was freed after it could not be locked; or it was locked, unlocked and freed. -/
inductive Ended (i : ℕ) : List (Event θ η) → Prop where
  | nothing : Ended i []
  | refused (handle : η) (error : Error) :
      Ended i [.imported i handle, .cloneRefused i error, .cloneFreed i]
  | freed (handle : η) (v : Mapped) :
      Ended i [.imported i handle, .cloneLocked i v, .cloneUnlocked i, .cloneFreed i]

@[simp] theorem history_append (i : ℕ) (os o : List (Event θ η)) :
    history i (os ++ o) = history i os ++ history i o := List.filter_append os o

@[simp] theorem history_nil (i : ℕ) : history i ([] : List (Event θ η)) = [] := rfl

theorem history_cons (i : ℕ) (e : Event θ η) (os : List (Event θ η)) :
    history i (e :: os) = if e.clone = some i then e :: history i os
      else history i os := by
  simp [history, List.filter_cons]

@[simp] theorem history_waitAndClose (i : ℕ) (t : θ) (fence : Fence) (there : Bool) :
    history i (waitAndClose t fence there : List (Event θ η)) = [] := by
  cases there <;> rfl

@[simp] theorem history_closeFence (i : ℕ) (t : θ) (fence : Fence) (there : Bool) :
    history i (closeFence t fence there : List (Event θ η)) = [] := by
  cases there <;> rfl

@[simp] theorem history_passFence (i : ℕ) (t : θ) (fence : Fence) (there : Bool) :
    history i (passFence t fence there : List (Event θ η)) = [] := by
  cases there <;> rfl

@[simp] theorem history_duplicateFence (i : ℕ) (t : θ) (there : Bool) :
    history i (duplicateFence t there : List (Event θ η)) = [] := by
  cases there <;> rfl

/-- The clones of the cache have been imported and locked, each for its handle;
every other clone has come to its end; and no number was given out that is still
to come. -/
structure Clones (s : State θ η) (os : List (Event θ η)) : Prop where
  cached : ∀ handle e, s.importedBuffers handle = some e →
    history e.handle os = [.imported e.handle handle, .cloneLocked e.handle e.mapped]
  ended : ∀ i, (∀ handle e, s.importedBuffers handle = some e → e.handle ≠ i) →
    Ended i (history i os)
  fresh : ∀ i, s.imports ≤ i → history i os = []

namespace Clones

variable {s t : State θ η} {os o : List (Event θ η)} {handle : η}
  {e e' : LegacyImportedBuffer}

/-- Two entries never share a clone. -/
theorem handle_injective (h : Clones s os) {handle' : η}
    (he : s.importedBuffers handle = some e) (he' : s.importedBuffers handle' = some e')
    (heq : e.handle = e'.handle) : handle = handle' := by
  have hhistory := h.cached handle e he
  rw [heq, h.cached handle' e' he'] at hhistory
  simp only [List.cons.injEq, Event.imported.injEq, true_and] at hhistory
  exact hhistory.1.symm

theorem handle_ne_imports (h : Clones s os) (he : s.importedBuffers handle = some e) :
    e.handle ≠ s.imports := by
  intro heq
  have hhistory := h.cached handle e he
  rw [heq, h.fresh s.imports (Nat.le_refl _)] at hhistory
  cases hhistory

theorem silent (h : Clones s os) (hbuffers : t.importedBuffers = s.importedBuffers)
    (himports : t.imports = s.imports) (ho : ∀ i, history i o = []) :
    Clones t (os ++ o) := by
  refine ⟨fun handle e he => ?_, fun i hi => ?_, fun i hi => ?_⟩
  · rw [history_append, ho, List.append_nil]
    exact h.cached handle e (hbuffers ▸ he)
  · rw [history_append, ho, List.append_nil]
    exact h.ended i (hbuffers ▸ hi)
  · rw [history_append, ho, List.append_nil]
    exact h.fresh i (himports ▸ hi)

/-- A new clone, which cannot be locked. -/
theorem refuse (h : Clones s os) (handle : η) (error : Error)
    (hbuffers : t.importedBuffers = s.importedBuffers)
    (himports : t.imports = s.imports + 1)
    (ho : ∀ i, history i o = if s.imports = i then
      [.imported s.imports handle, .cloneRefused s.imports error,
        .cloneFreed s.imports] else []) :
    Clones t (os ++ o) := by
  refine ⟨fun k f hf => ?_, fun i hi => ?_, fun i hi => ?_⟩
  · have hf : s.importedBuffers k = some f := hbuffers ▸ hf
    have hne := (h.handle_ne_imports hf).symm
    simp [ho, hne, h.cached k f hf]
  · by_cases hne : s.imports = i
    · subst hne
      rw [history_append, h.fresh _ (Nat.le_refl _), ho, if_pos rfl]
      exact .refused handle error
    · rw [history_append, ho, if_neg hne, List.append_nil]
      exact h.ended i (hbuffers ▸ hi)
  · rw [himports] at hi
    have hne : s.imports ≠ i := by omega
    rw [history_append, ho, if_neg hne, h.fresh i (by omega)]
    rfl

variable [DecidableEq η]

/-- A change of the lock count. -/
theorem touch (h : Clones s os) (he : s.importedBuffers handle = some e)
    (hbuffers : t.importedBuffers = Function.update s.importedBuffers handle (some e'))
    (himports : t.imports = s.imports) (hhandle : e'.handle = e.handle)
    (hmapped : e'.mapped = e.mapped) (ho : ∀ i, history i o = []) :
    Clones t (os ++ o) := by
  refine ⟨fun k f hf => ?_, fun i hi => ?_, fun i hi => ?_⟩
  · rw [history_append, ho, List.append_nil]
    rw [hbuffers] at hf
    by_cases hk : k = handle
    · subst hk
      obtain rfl : e' = f := by simpa using hf
      rw [hhandle, hmapped]
      exact h.cached k e he
    · exact h.cached k f (by simpa [hk] using hf)
  · rw [history_append, ho, List.append_nil]
    refine h.ended i fun k f hf => ?_
    by_cases hk : k = handle
    · subst hk
      obtain rfl : e = f := by simpa [he] using hf
      exact hhandle ▸ hi k e' (by simp [hbuffers])
    · exact hi k f (by simpa [hbuffers, hk] using hf)
  · rw [history_append, ho, List.append_nil]
    exact h.fresh i (himports ▸ hi)

/-- A new clone, which is locked. -/
theorem add (h : Clones s os) (he : s.importedBuffers handle = none) {v : Mapped}
    (hbuffers : t.importedBuffers =
      Function.update s.importedBuffers handle (some (.new s.imports v)))
    (himports : t.imports = s.imports + 1)
    (ho : ∀ i, history i o = if s.imports = i then
      [.imported s.imports handle, .cloneLocked s.imports v] else []) :
    Clones t (os ++ o) := by
  refine ⟨fun k f hf => ?_, fun i hi => ?_, fun i hi => ?_⟩
  · rw [hbuffers] at hf
    by_cases hk : k = handle
    · subst hk
      obtain rfl : LegacyImportedBuffer.new s.imports v = f := by simpa using hf
      simp [h.fresh s.imports (Nat.le_refl _), ho]
    · have hf : s.importedBuffers k = some f := by simpa [hk] using hf
      have hne := (h.handle_ne_imports hf).symm
      simp [ho, hne, h.cached k f hf]
  · have hne : s.imports ≠ i := by
      simpa using hi handle (.new s.imports v) (by simp [hbuffers])
    rw [history_append, ho, if_neg hne, List.append_nil]
    refine h.ended i fun k f hf => hi k f ?_
    have hk : k ≠ handle := by
      rintro rfl
      simp [he] at hf
    simpa [hbuffers, hk] using hf
  · rw [himports] at hi
    have hne : s.imports ≠ i := by omega
    rw [history_append, ho, if_neg hne, h.fresh i (by omega)]
    rfl

/-- A clone is unlocked and freed. -/
theorem drop (h : Clones s os) (he : s.importedBuffers handle = some e)
    (hbuffers : t.importedBuffers = Function.update s.importedBuffers handle none)
    (himports : t.imports = s.imports)
    (ho : ∀ i, history i o = if e.handle = i then
      [.cloneUnlocked e.handle, .cloneFreed e.handle] else []) :
    Clones t (os ++ o) := by
  have hother {k : η} {f : LegacyImportedBuffer} (hf : t.importedBuffers k = some f) :
      s.importedBuffers k = some f ∧ e.handle ≠ f.handle := by
    rw [hbuffers] at hf
    have hk : k ≠ handle := by
      rintro rfl
      simp at hf
    have hf : s.importedBuffers k = some f := by simpa [hk] using hf
    exact ⟨hf, fun heq => hk (h.handle_injective hf he heq.symm)⟩
  refine ⟨fun k f hf => ?_, fun i hi => ?_, fun i hi => ?_⟩
  · obtain ⟨hf, hne⟩ := hother hf
    simp [ho, hne, h.cached k f hf]
  · by_cases hne : e.handle = i
    · subst hne
      rw [history_append, h.cached handle e he, ho, if_pos rfl]
      exact .freed handle e.mapped
    · rw [history_append, ho, if_neg hne, List.append_nil]
      refine h.ended i fun k f hf => ?_
      by_cases hk : k = handle
      · subst hk
        obtain rfl : e = f := by simpa [he] using hf
        exact hne
      · exact hi k f (by simpa [hbuffers, hk] using hf)
  · have hne : e.handle ≠ i := by
      rintro rfl
      have hhistory := h.cached handle e he
      rw [h.fresh e.handle (himports ▸ hi)] at hhistory
      cases hhistory
    rw [history_append, ho, if_neg hne, h.fresh i (himports ▸ hi)]
    rfl

end Clones

section Steps

variable [DecidableEq θ] [DecidableEq η] {rejects : η → Bool} {s : State θ η}
  {os : List (Event θ η)}

theorem lockCached_clones (hs : Clones s os) {t : θ} {call : LockCall η} {fence : Fence}
    {there : Bool} {e : LegacyImportedBuffer}
    (he : s.importedBuffers call.handle = some e) :
    Clones (lockCached s t call fence there e).1
      (os ++ (lockCached s t call fence there e).2) := by
  unfold lockCached
  split_ifs with hkind
  · exact hs.silent rfl rfl fun i => by simp [history_cons, Event.clone]
  · exact hs.touch he rfl rfl rfl rfl fun i => by simp [history_cons, Event.clone]

theorem importAndLock_clones (hs : Clones s os) {t : θ} {call : LockCall η}
    {retryFence : Bool} (he : s.importedBuffers call.handle = none)
    (result : Except Error (Except Error Mapped)) :
    Clones (importAndLock s t call retryFence result).1
      (os ++ (importAndLock s t call retryFence result).2) := by
  cases result with
  | error error =>
      exact hs.silent rfl rfl fun i => by
        simp [importAndLock, history_cons, Event.clone]
  | ok result =>
      cases result with
      | error error =>
          refine hs.refuse call.handle error rfl rfl fun i => ?_
          by_cases hi : s.imports = i <;> simp [importAndLock, history_cons, Event.clone, hi]
      | ok v =>
          refine hs.add he rfl rfl fun i => ?_
          by_cases hi : s.imports = i <;> simp [importAndLock, history_cons, Event.clone, hi]

omit [DecidableEq θ] in
theorem dropClone_clones (hs : Clones s os) {t : θ} {handle : η} {releaseFence : Bool}
    {e : LegacyImportedBuffer} (he : s.importedBuffers handle = some e)
    {last : Event θ η} (hlast : last.clone = none) :
    Clones (dropClone s t handle releaseFence e).1
      (os ++ ((dropClone s t handle releaseFence e).2 ++ [last])) := by
  refine hs.drop he rfl rfl fun i => ?_
  have hend : history i [last] = [] := by simp [history, hlast]
  rw [history_append, hend, List.append_nil]
  by_cases hi : e.handle = i <;> simp [dropClone, history_cons, Event.clone, hi]

theorem step_clones {a : Action θ η} {p : State θ η × List (Event θ η)}
    (hs : Clones s os) (h : step rejects s a = some p) : Clones p.1 (os ++ p.2) := by
  cases step_spec h with
  | hit hp he => exact lockCached_clones hs he
  | miss hp he => exact hs.silent rfl rfl fun i => rfl
  | rawLocked hp hr hbefore hafter =>
      subst hbefore hafter
      exact hs.silent rfl rfl fun i => by simp [history_cons, Event.clone]
  | rawRefused hp hr hfence hbefore =>
      subst hbefore
      exact hs.silent rfl rfl fun i => by simp
  | rawFailed hp hbefore hafter =>
      subst hbefore hafter
      exact hs.silent rfl rfl fun i => by simp [history_cons, Event.clone]
  | hitAgain hp he => exact lockCached_clones hs he
  | importClone hp he hr => exact importAndLock_clones hs he _
  | unlockShared hp he hcount => exact hs.touch he rfl rfl rfl rfl fun i => rfl
  | unlockLast hp he hcount => exact dropClone_clones hs he rfl
  | unlockRaw hp he => exact hs.silent rfl rfl fun i => rfl
  | freeCached hp he => exact dropClone_clones hs he rfl
  | freeRaw hp he => exact hs.silent rfl rfl fun i => rfl

end Steps

end MozartLineage.Graphics
