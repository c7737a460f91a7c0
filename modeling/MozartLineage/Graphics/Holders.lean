import MozartLineage.Graphics.Clones

/-!
# The locks that are held

The use of a raw handle, read off the events of a run, is how many locks of it
are held and what has been returned since it was last not held at all. `Counts`
says that the entry of a handle counts the locks that are held, and returns what
they have returned. With the history of the clones this is all that the cache is
there for.
-/

namespace MozartLineage.Graphics

open Transition

variable {θ η : Type*}

/-- How many locks are held, and what was returned since none was. -/
@[ext] structure Use where
  count : ℕ
  values : List Mapped

/-- Nobody holds the handle. -/
def Use.none : Use := ⟨0, []⟩

section Use

variable [DecidableEq η]

/-- A lock adds a holder; an unlock takes one away, if there is one; to free the
handle takes all of them away. -/
def Use.next (handle : η) (u : Use) : Event θ η → Use
  | .locked _ k v => if k = handle then ⟨u.count + 1, v :: u.values⟩ else u
  | .unlocked _ k =>
      if k = handle then
        if u.count ≤ 1 then .none else ⟨u.count - 1, u.values⟩
      else u
  | .freed _ k => if k = handle then .none else u
  | _ => u

def use (handle : η) (os : List (Event θ η)) : Use := os.foldl (Use.next handle) .none

@[simp] theorem use_append (handle : η) (os o : List (Event θ η)) :
    use handle (os ++ o) = o.foldl (Use.next handle) (use handle os) := by
  simp [use]

variable {handle : η} {u : Use} {t : θ}

@[simp] theorem next_waitAndClose (fence : Fence) (there : Bool) :
    (waitAndClose t fence there).foldl (Use.next handle) u = u := by
  cases there <;> rfl

@[simp] theorem next_closeFence (fence : Fence) (there : Bool) :
    (closeFence t fence there).foldl (Use.next handle) u = u := by
  cases there <;> rfl

@[simp] theorem next_passFence (fence : Fence) (there : Bool) :
    (passFence t fence there).foldl (Use.next handle) u = u := by
  cases there <;> rfl

@[simp] theorem next_duplicateFence (there : Bool) :
    (duplicateFence t there).foldl (Use.next handle) u = u := by
  cases there <;> rfl

/-- Fewer than `2 ^ 32` locks of a handle are ever held at the same time. -/
def Bounded (os : List (Event θ η)) : Prop :=
  ∀ pre, pre <+: os → ∀ handle, (use handle pre).count < 2 ^ 32

theorem Bounded.left {os o : List (Event θ η)} (h : Bounded (os ++ o)) : Bounded os :=
  fun pre hpre => h pre (hpre.trans (List.prefix_append os o))

theorem Bounded.self {os : List (Event θ η)} (h : Bounded os) (handle : η) :
    (use handle os).count < 2 ^ 32 :=
  h os List.prefix_rfl handle

/-- A lock never has more holders than there were events. -/
theorem use_count_le_length (handle : η) (os : List (Event θ η)) :
    (use handle os).count ≤ os.length := by
  induction os using List.reverseRecOn with
  | nil => simp [use, Use.none]
  | append_singleton os e ih =>
      rw [use_append, List.length_append]
      cases e with
      | locked t k v =>
          simp only [List.foldl_cons, List.foldl_nil, Use.next]
          split_ifs <;> simp <;> omega
      | unlocked t k =>
          simp only [List.foldl_cons, List.foldl_nil, Use.next]
          split_ifs <;> simp [Use.none] <;> omega
      | freed t k =>
          simp only [List.foldl_cons, List.foldl_nil, Use.next]
          split_ifs <;> simp [Use.none]
          omega
      | _ => exact Nat.le_trans ih (Nat.le_add_right _ _)

theorem bounded_of_length {os : List (Event θ η)} (h : os.length < 2 ^ 32) :
    Bounded os := by
  intro pre hpre handle
  have hle := Nat.le_trans (use_count_le_length handle pre) hpre.length_le
  exact Nat.lt_of_le_of_lt hle h

end Use

/-- The entry of a handle counts its holders, who all have what it returns; the
mapper has refused the handle. A handle without an entry has no holders, unless
the mapper does not refuse it. -/
def Agrees (rejects : η → Bool) (handle : η) (u : Use) :
    Option LegacyImportedBuffer → Prop
  | some e => rejects handle ∧ e.lockCount = u.count ∧ 0 < u.count ∧
      ∀ v ∈ u.values, v = e.mapped
  | none => rejects handle → u = .none

structure Counts [DecidableEq η] (rejects : η → Bool) (s : State θ η)
    (os : List (Event θ η)) : Prop where
  agrees : ∀ handle, Agrees rejects handle (use handle os) (s.importedBuffers handle)
  refused : ∀ t call retryFence, s.threads t = .refused call retryFence →
    rejects call.handle

namespace Agrees

variable [DecidableEq η] {rejects : η → Bool} {handle : η} {u : Use}
  {e : LegacyImportedBuffer} {t : θ}

theorem lock (h : Agrees rejects handle u (some e)) (hbound : u.count + 1 < 2 ^ 32) :
    Agrees rejects handle (u.next handle (.locked t handle e.mapped))
      (some e.addLock) := by
  obtain ⟨hr, hcount, hpos, hvalues⟩ := h
  refine ⟨hr, ?_, ?_, fun v hv => ?_⟩
  · have hmod : (u.count + 1) % 2 ^ 32 = u.count + 1 := Nat.mod_eq_of_lt hbound
    simpa only [LegacyImportedBuffer.addLock, Use.next, hcount, if_true] using hmod
  · simp [Use.next]
  · have hv : v = e.mapped ∨ v ∈ u.values := by simpa [Use.next] using hv
    exact hv.elim id (hvalues v)

theorem new (h : Agrees rejects handle u none) (hr : rejects handle) (clone : ℕ)
    (v : Mapped) :
    Agrees rejects handle (u.next handle (.locked t handle v))
      (some (.new clone v)) := by
  obtain rfl : u = .none := h hr
  exact ⟨hr, by simp [Use.next, Use.none], by simp [Use.next],
    by simp [Use.next, Use.none]⟩

theorem unlock (h : Agrees rejects handle u (some e)) (hshared : 1 < e.lockCount) :
    Agrees rejects handle (u.next handle (.unlocked t handle)) (some e.removeLock) := by
  obtain ⟨hr, hcount, -, hvalues⟩ := h
  have hle : ¬ u.count ≤ 1 := by omega
  refine ⟨hr, ?_, ?_, ?_⟩
  · simp [LegacyImportedBuffer.removeLock, Use.next, hle, hcount]
  · simp only [Use.next, hle, if_true, if_false]
    omega
  · have hmapped : e.removeLock.mapped = e.mapped := rfl
    simpa [Use.next, hle, hmapped] using hvalues

theorem unlock_last (h : Agrees rejects handle u (some e)) (hlast : e.lockCount ≤ 1) :
    Agrees rejects handle (u.next handle (.unlocked t handle)) none := by
  obtain ⟨-, hcount, -, -⟩ := h
  intro _
  simp [Use.next, ← hcount, hlast]

theorem unlock_none (h : Agrees rejects handle u none) :
    Agrees rejects handle (u.next handle (.unlocked t handle)) none := by
  intro hr
  obtain rfl : u = .none := h hr
  simp [Use.next, Use.none]

theorem free : Agrees rejects handle (u.next handle (.freed t handle)) none := by
  intro _
  simp [Use.next]

omit [DecidableEq η] in
/-- A handle that the mapper does not refuse has no entry. -/
theorem of_not_rejects {entry : Option LegacyImportedBuffer} {u' : Use}
    (h : Agrees rejects handle u entry) (hr : ¬ rejects handle) :
    Agrees rejects handle u' entry := by
  cases entry with
  | none => exact fun hr' => absurd hr' hr
  | some e => exact absurd h.1 hr

end Agrees

section Steps

variable [DecidableEq η] {rejects : η → Bool} {s t : State θ η}
  {os o : List (Event θ η)}

/-- A step concerns one handle at most. -/
theorem Counts.at (hs : Counts rejects s os) (handle : η)
    (hagrees : Agrees rejects handle (use handle (os ++ o)) (t.importedBuffers handle))
    (hbuffers : ∀ k ≠ handle, t.importedBuffers k = s.importedBuffers k)
    (huse : ∀ k ≠ handle, use k (os ++ o) = use k os)
    (hthreads : ∀ i call retryFence, t.threads i = .refused call retryFence →
      rejects call.handle) : Counts rejects t (os ++ o) := by
  refine ⟨fun k => ?_, hthreads⟩
  by_cases hk : k = handle
  · exact hk ▸ hagrees
  · rw [hbuffers k hk, huse k hk]
    exact hs.agrees k

theorem Counts.silent (hs : Counts rejects s os)
    (hbuffers : t.importedBuffers = s.importedBuffers)
    (huse : ∀ k, use k (os ++ o) = use k os)
    (hthreads : ∀ i call retryFence, t.threads i = .refused call retryFence →
      rejects call.handle) : Counts rejects t (os ++ o) := by
  refine ⟨fun k => ?_, hthreads⟩
  rw [hbuffers, huse k]
  exact hs.agrees k

variable [DecidableEq θ]

/-- A thread that is done, or has just begun, has not been refused. -/
theorem Counts.setThread (hs : Counts rejects s os) {i : θ} {c : Thread η}
    (hc : ∀ call retryFence, c = .refused call retryFence → rejects call.handle) :
    ∀ j call retryFence, (s.setThread i c).threads j = .refused call retryFence →
      rejects call.handle := by
  intro j call retryFence hj
  by_cases hji : j = i
  · subst hji
    exact hc call retryFence (by simpa [State.setThread] using hj)
  · exact hs.refused j call retryFence (by simpa [State.setThread, hji] using hj)

theorem Counts.setIdle (hs : Counts rejects s os) (i : θ) :
    ∀ j call retryFence, (s.setThread i .idle).threads j = .refused call retryFence →
      rejects call.handle :=
  hs.setThread fun _ _ h => by cases h

theorem lockCached_counts (hs : Counts rejects s os) {i : θ} {call : LockCall η}
    {fence : Fence} {there : Bool} {e : LegacyImportedBuffer}
    (he : s.importedBuffers call.handle = some e)
    (hbound : Bounded (os ++ (lockCached s i call fence there e).2)) :
    Counts rejects (lockCached s i call fence there e).1
      (os ++ (lockCached s i call fence there e).2) := by
  unfold lockCached at hbound ⊢
  split_ifs at hbound ⊢ with hkind
  · exact hs.silent rfl (fun k => by simp [Use.next]) (hs.setIdle i)
  · have hagrees := hs.agrees call.handle
    rw [he] at hagrees
    have hcount := hbound.self call.handle
    simp only [use_append, List.foldl_append, next_waitAndClose, List.foldl_cons,
      List.foldl_nil] at hcount
    refine hs.at call.handle ?_ (fun k hk => ?_) (fun k hk => ?_) (hs.setIdle i)
    · simpa [State.setBuffer] using hagrees.lock (by simpa [Use.next] using hcount)
    · simp [State.setBuffer, State.setThread, hk]
    · simp [Use.next, Ne.symm hk]

theorem importAndLock_counts (hs : Counts rejects s os) {i : θ} {call : LockCall η}
    {retryFence : Bool} (he : s.importedBuffers call.handle = none)
    (hr : rejects call.handle) (result : Except Error (Except Error Mapped)) :
    Counts rejects (importAndLock s i call retryFence result).1
      (os ++ (importAndLock s i call retryFence result).2) := by
  cases result with
  | error error =>
      exact hs.silent rfl (fun k => by simp [importAndLock, Use.next]) (hs.setIdle i)
  | ok result =>
      cases result with
      | error error =>
          exact hs.silent rfl (fun k => by simp [importAndLock, Use.next]) (hs.setIdle i)
      | ok v =>
          have hagrees := hs.agrees call.handle
          rw [he] at hagrees
          refine hs.at call.handle ?_ (fun k hk => ?_) (fun k hk => ?_) (hs.setIdle i)
          · have hnew := hagrees.new hr s.imports v (t := i)
            simpa [importAndLock, State.setBuffer, Use.next] using hnew
          · simp [importAndLock, State.setBuffer, State.setThread, hk]
          · simp [importAndLock, Use.next, Ne.symm hk]

omit [DecidableEq θ] in
@[simp] theorem next_dropClone {i : θ} {handle k : η} {releaseFence : Bool}
    {e : LegacyImportedBuffer} {u : Use} :
    (dropClone s i handle releaseFence e).2.foldl (Use.next k) u = u := by
  simp [dropClone, Use.next]

omit [DecidableEq θ] in
theorem dropClone_counts (hs : Counts rejects s os) {i : θ} {handle : η}
    {releaseFence : Bool} {e : LegacyImportedBuffer} {last : Event θ η}
    (hlast : Agrees rejects handle ((use handle os).next handle last) none)
    (hother : ∀ k ≠ handle, ∀ u : Use, u.next k last = u) :
    Counts rejects (dropClone s i handle releaseFence e).1
      (os ++ ((dropClone s i handle releaseFence e).2 ++ [last])) := by
  refine hs.at handle ?_ (fun k hk => ?_) (fun k hk => ?_) hs.refused
  · simpa [dropClone, State.setBuffer, Use.next] using hlast
  · simp [dropClone, State.setBuffer, hk]
  · simp [hother k hk]

theorem step_counts {a : Action θ η} {p : State θ η × List (Event θ η)}
    (hs : Counts rejects s os) (hbound : Bounded (os ++ p.2))
    (h : step rejects s a = some p) : Counts rejects p.1 (os ++ p.2) := by
  cases step_spec h with
  | hit hp he => exact lockCached_counts hs he hbound
  | miss hp he =>
      exact hs.silent rfl (fun k => by simp) (hs.setThread fun _ _ h => by cases h)
  | @rawLocked i call dup v before after hp hr hbefore hafter =>
      subst hbefore hafter
      refine hs.at call.handle ((hs.agrees call.handle).of_not_rejects hr)
        (fun k hk => rfl) (fun k hk => ?_) (hs.setIdle i)
      simp [Use.next, Ne.symm hk]
  | @rawRefused i call dup before hp hr hfence hbefore =>
      subst hbefore
      refine hs.silent rfl (fun k => by simp) (hs.setThread fun call' _ h => ?_)
      cases h
      exact hr
  | @rawFailed i call dup error before after hp hbefore hafter =>
      subst hbefore hafter
      exact hs.silent rfl (fun k => by simp [Use.next]) (hs.setIdle i)
  | hitAgain hp he => exact lockCached_counts hs he hbound
  | importClone hp he hr =>
      exact importAndLock_counts hs he (hs.refused _ _ _ hp) _
  | @unlockShared i handle releaseFence e hp he hcount =>
      have hagrees := hs.agrees handle
      rw [he] at hagrees
      refine hs.at handle ?_ (fun k hk => ?_) (fun k hk => ?_) hs.refused
      · simpa [State.setBuffer] using hagrees.unlock hcount
      · simp [State.setBuffer, hk]
      · simp [Use.next, Ne.symm hk]
  | @unlockLast i handle releaseFence e hp he hcount =>
      have hagrees := hs.agrees handle
      rw [he] at hagrees
      refine dropClone_counts hs (hagrees.unlock_last hcount) fun k hk u => ?_
      simp [Use.next, Ne.symm hk]
  | @unlockRaw i handle releaseFence hp he =>
      have hagrees := hs.agrees handle
      rw [he] at hagrees
      refine hs.at handle ?_ (fun k hk => rfl) (fun k hk => ?_) hs.refused
      · simpa [he] using hagrees.unlock_none
      · simp [Use.next, Ne.symm hk]
  | @freeCached i handle releaseFence e hp he =>
      refine dropClone_counts hs .free fun k hk u => ?_
      simp [Use.next, Ne.symm hk]
  | @freeRaw i handle releaseFence hp he =>
      refine hs.at handle ?_ (fun k hk => rfl) (fun k hk => ?_) hs.refused
      · rw [he]
        simpa using Agrees.free
      · simp [Use.next, Ne.symm hk]

end Steps

/-! ### Callers that unlock what they have locked -/

section Callers

variable [DecidableEq η] {handle : η} {os : List (Event θ η)}

def Event.isLock (handle : η) : Event θ η → Bool
  | .locked _ k _ => k = handle
  | _ => false

def Event.isUnlock (handle : η) : Event θ η → Bool
  | .unlocked _ k => k = handle
  | _ => false

/-- The locks of a handle that have succeeded. -/
def locks (handle : η) (os : List (Event θ η)) : ℕ := os.countP (Event.isLock handle)

def unlocks (handle : η) (os : List (Event θ η)) : ℕ :=
  os.countP (Event.isUnlock handle)

/-- Nobody has unlocked the handle without having locked it, or freed it. -/
def WellUsed (handle : η) (os : List (Event θ η)) : Prop :=
  (∀ pre, pre <+: os → unlocks handle pre ≤ locks handle pre) ∧
    ∀ t, .freed t handle ∉ os

theorem WellUsed.left {o : List (Event θ η)} (h : WellUsed handle (os ++ o)) :
    WellUsed handle os :=
  ⟨fun pre hpre => h.1 pre (hpre.trans (List.prefix_append os o)),
    fun t ht => h.2 t (by simp [ht])⟩

/-- For a handle that is well used, the locks that are held are those that have
not been unlocked. -/
theorem WellUsed.count_add_unlocks (h : WellUsed handle os) :
    (use handle os).count + unlocks handle os = locks handle os := by
  induction os using List.reverseRecOn with
  | nil => rfl
  | append_singleton os e ih =>
      have ih := ih h.left
      have hle := h.1 _ List.prefix_rfl
      rw [use_append]
      simp only [locks, unlocks, List.countP_append] at ih hle ⊢
      cases e with
      | locked t k v =>
          by_cases hk : k = handle
          · simp [Use.next, Event.isLock, Event.isUnlock, hk] at ih hle ⊢
            omega
          · simpa [Use.next, Event.isLock, Event.isUnlock, hk] using ih
      | unlocked t k =>
          by_cases hk : k = handle
          · by_cases hcount : (use handle os).count ≤ 1
            · simp [Use.next, Use.none, Event.isLock, Event.isUnlock, hk, hcount] at ih hle ⊢
              omega
            · simp [Use.next, Event.isLock, Event.isUnlock, hk, hcount] at ih hle ⊢
              omega
          · simpa [Use.next, Event.isLock, Event.isUnlock, hk] using ih
      | freed t k =>
          have hk : k ≠ handle := by
            rintro rfl
            exact h.2 t (by simp)
          simpa [Use.next, Event.isLock, Event.isUnlock, hk] using ih
      | _ => simpa [Use.next, Event.isLock, Event.isUnlock] using ih

/-- What has been returned stays noted while the handle is held. -/
theorem Use.mem_next {u : Use} {e : Event θ η} {v : Mapped} (hv : v ∈ u.values)
    (hpos : 0 < (u.next handle e).count) : v ∈ (u.next handle e).values := by
  cases e with
  | locked t k w =>
      by_cases hk : k = handle <;> simp [Use.next, hk, hv]
  | unlocked t k =>
      by_cases hk : k = handle
      · by_cases hcount : u.count ≤ 1
        · simp [Use.next, Use.none, hk, hcount] at hpos
        · simp [Use.next, hk, hcount, hv]
      · simp [Use.next, hk, hv]
  | freed t k =>
      by_cases hk : k = handle
      · simp [Use.next, Use.none, hk] at hpos
      · simp [Use.next, hk, hv]
  | _ => exact hv

theorem mem_values_of_held {pre suf : List (Event θ η)} {t : θ} {v : Mapped}
    (hheld : ∀ mid, mid <+: suf →
      0 < (use handle (pre ++ .locked t handle v :: mid)).count) :
    v ∈ (use handle (pre ++ .locked t handle v :: suf)).values := by
  induction suf using List.reverseRecOn with
  | nil => simp [Use.next]
  | append_singleton suf e ih =>
      have hmem := ih fun mid hmid => hheld mid (hmid.trans (List.prefix_append _ _))
      have hpos := hheld _ List.prefix_rfl
      have hsplit : pre ++ .locked t handle v :: (suf ++ [e]) =
          (pre ++ .locked t handle v :: suf) ++ [e] := by simp
      rw [hsplit, use_append] at hpos ⊢
      exact Use.mem_next hmem hpos

end Callers

/-! ### Whole runs -/

/-- The fallback has imported the clone, and it has not been freed. -/
def Live (i : ℕ) (os : List (Event θ η)) : Prop :=
  (∃ handle, .imported i handle ∈ os) ∧ .cloneFreed i ∉ os

theorem live_iff_history {i : ℕ} {os : List (Event θ η)} :
    Live i os ↔ (∃ handle, .imported i handle ∈ history i os) ∧
      .cloneFreed i ∉ history i os := by
  simp [Live, history, Event.clone]

theorem Clones.live_iff {s : State θ η} {os : List (Event θ η)} (h : Clones s os)
    (i : ℕ) : Live i os ↔ ∃ handle e, s.importedBuffers handle = some e ∧
      e.handle = i := by
  rw [live_iff_history]
  constructor
  · rintro ⟨⟨handle, himported⟩, hfreed⟩
    by_contra hnone
    have hended := h.ended i fun k e he heq => hnone ⟨k, e, he, heq⟩
    generalize history i os = l at hended himported hfreed
    cases hended <;> simp at himported hfreed
  · rintro ⟨handle, e, he, rfl⟩
    rw [h.cached handle e he]
    simp

/-- What the cache guarantees after the events `os`. -/
structure CacheSound [DecidableEq θ] [DecidableEq η] (rejects : η → Bool)
    (s : State θ η) (os : List (Event θ η)) : Prop where
  /-- the entries are the live clones -/
  live : ∀ i, Live i os ↔ ∃ handle e, s.importedBuffers handle = some e ∧ e.handle = i
  injective : ∀ handle handle' e e', s.importedBuffers handle = some e →
    s.importedBuffers handle' = some e' → e.handle = e'.handle → handle = handle'
  /-- a clone in the cache was imported once and has its one lock -/
  cached : ∀ handle e, s.importedBuffers handle = some e → 1 ≤ e.lockCount ∧
    history e.handle os = [.imported e.handle handle, .cloneLocked e.handle e.mapped]
  /-- any other clone was freed once, and not used afterwards -/
  ended : ∀ i, ¬ Live i os → Ended i (history i os)
  count : ∀ handle e, WellUsed handle os → s.importedBuffers handle = some e →
    e.lockCount + unlocks handle os = locks handle os
  /-- a lock that is held has returned what the live clone returns -/
  values : ∀ handle e, WellUsed handle os → s.importedBuffers handle = some e →
    ∀ pre t v suf, os = pre ++ .locked t handle v :: suf →
      (∀ mid, mid <+: suf → unlocks handle (pre ++ .locked t handle v :: mid) <
        locks handle (pre ++ .locked t handle v :: mid)) → v = e.mapped
  /-- the entry is gone when no lock is held, and not before -/
  gone : ∀ handle, rejects handle → WellUsed handle os →
    (s.importedBuffers handle = none ↔ locks handle os = unlocks handle os)
  /-- a lock of the other kind fails in either section, and changes nothing -/
  otherKind : ∀ call e a p, s.importedBuffers call.handle = some e →
    e.isYCbCr ≠ call.isYCbCr → step rejects s a = some p →
      ∀ t, (a = .lock t call ∨ ∃ retryFence result,
        s.threads t = .refused call retryFence ∧ a = .lockClone t result) →
          p.1.importedBuffers = s.importedBuffers ∧
            .lockFailed t call.handle .badValue ∈ p.2

section Run

variable [DecidableEq θ] [DecidableEq η] {rejects : η → Bool} {s : State θ η}
  {os : List (Event θ η)}

theorem lockCached_other_kind {t : θ} {call : LockCall η} {fence : Fence}
    {there : Bool} {e : LegacyImportedBuffer} (hkind : e.isYCbCr ≠ call.isYCbCr) :
    (lockCached s t call fence there e).1.importedBuffers = s.importedBuffers ∧
      .lockFailed t call.handle .badValue ∈ (lockCached s t call fence there e).2 := by
  unfold lockCached
  rw [if_pos hkind]
  exact ⟨rfl, by simp⟩

theorem step_other_kind {call : LockCall η} {e : LegacyImportedBuffer}
    {a : Action θ η} {p : State θ η × List (Event θ η)}
    (he : s.importedBuffers call.handle = some e) (hkind : e.isYCbCr ≠ call.isYCbCr)
    (h : step rejects s a = some p) {t : θ}
    (ha : a = .lock t call ∨ ∃ retryFence result,
      s.threads t = .refused call retryFence ∧ a = .lockClone t result) :
    p.1.importedBuffers = s.importedBuffers ∧
      .lockFailed t call.handle .badValue ∈ p.2 := by
  rcases ha with rfl | ⟨retryFence, result, hp, rfl⟩
  · cases step_spec h with
    | hit hp' he' =>
        obtain rfl := Option.some.inj (he.symm.trans he')
        exact lockCached_other_kind hkind
    | miss hp' he' => simp [he] at he'
  · cases step_spec h with
    | hitAgain hp' he' =>
        cases hp.symm.trans hp'
        obtain rfl := Option.some.inj (he.symm.trans he')
        exact lockCached_other_kind hkind
    | importClone hp' he' hr =>
        cases hp.symm.trans hp'
        simp [he] at he'

theorem cacheSound (hclones : Clones s os) (hcounts : Counts rejects s os) :
    CacheSound rejects s os := by
  have hentry {handle : η} {e : LegacyImportedBuffer}
      (he : s.importedBuffers handle = some e) :
      Agrees rejects handle (use handle os) (some e) := he ▸ hcounts.agrees handle
  refine ⟨hclones.live_iff, fun _ _ _ _ he he' => hclones.handle_injective he he',
    fun handle e he => ?_, fun i hi => ?_, fun handle e hused he => ?_,
    fun handle e hused he => ?_, fun handle hr hused => ?_,
    fun call e a p he hkind h t ha => step_other_kind he hkind h ha⟩
  · obtain ⟨-, hcount, hpos, -⟩ := hentry he
    exact ⟨by omega, hclones.cached handle e he⟩
  · refine hclones.ended i fun handle e he heq => hi ?_
    exact (hclones.live_iff i).2 ⟨handle, e, he, heq⟩
  · obtain ⟨-, hcount, -, -⟩ := hentry he
    rw [hcount]
    exact hused.count_add_unlocks
  · rintro pre t v suf rfl hheld
    refine (hentry he).2.2.2 v (mem_values_of_held fun mid hmid => ?_)
    have hpre : pre ++ .locked t handle v :: mid <+: pre ++ .locked t handle v :: suf :=
      (List.prefix_append_right_inj _).2 ((List.prefix_cons_inj _).2 hmid)
    obtain ⟨rest, hrest⟩ := hpre
    have hcount := (hrest ▸ hused).left.count_add_unlocks
    have hlt := hheld mid hmid
    omega
  · have hcount := hused.count_add_unlocks
    constructor
    · intro hnone
      have hagrees := hcounts.agrees handle
      rw [hnone] at hagrees
      rw [hagrees hr] at hcount
      simpa [Use.none] using hcount.symm
    · intro heq
      by_contra hne
      obtain ⟨e, he⟩ := Option.ne_none_iff_exists'.1 hne
      have hpos := (hentry he).2.2.1
      omega

/-- In every run in which fewer than `2 ^ 32` locks of a handle are held at any
time, the cache is sound. -/
theorem run_cacheSound {as : List (Action θ η)}
    (hrun : (step rejects).run (init θ η) as = some (s, os)) (hbound : Bounded os) :
    CacheSound rejects s os := by
  have hinv : Clones s os ∧ (Bounded os → Counts rejects s os) := by
    refine Machine.run_invariant (P := fun s os => Clones s os ∧
      (Bounded os → Counts rejects s os)) ?_ ⟨?_, fun _ => ?_⟩ hrun
    · rintro s os a t o ⟨hclones, hcounts⟩ h
      exact ⟨step_clones hclones h,
        fun hbound => step_counts (hcounts hbound.left) hbound h⟩
    · exact ⟨fun handle e he => (by cases he), fun i _ => .nothing, fun i _ => rfl⟩
    · exact ⟨fun handle _ => rfl, fun t call retryFence h => by cases h⟩
  exact cacheSound hinv.1 (hinv.2 hbound)

end Run

/-- Two threads lock the raw handle `0`, which the mapper refuses; a third lock is
of the other kind. -/
def lockTwice : List (Action (Fin 2) (Fin 1)) :=
  [.lock 0 ⟨0, false, true⟩, .lockRaw 0 true (.error .badBuffer),
    .lockClone 0 (.ok (.ok (.address 77))), .lock 1 ⟨0, false, false⟩,
    .lock 0 ⟨0, true, false⟩]

theorem cacheSound_lockTwice :
    ∃ s os, (step fun _ => true).run (init (Fin 2) (Fin 1)) lockTwice = some (s, os) ∧
      s.importedBuffers 0 = some ⟨0, 2, 77, ⟨0, 0, 0, 0, 0, 0⟩, false⟩ ∧
      CacheSound (fun _ => true) s os := by
  have h : ((step fun _ => true).run (init (Fin 2) (Fin 1)) lockTwice).map
      (fun p => (p.1.importedBuffers 0, decide (p.2.length < 2 ^ 32))) =
        some (some ⟨0, 2, 77, ⟨0, 0, 0, 0, 0, 0⟩, false⟩, true) := by decide
  obtain ⟨⟨s, os⟩, hrun, hs⟩ := Option.map_eq_some_iff.1 h
  obtain ⟨hentry, hlength⟩ := Prod.mk.inj hs
  exact ⟨s, os, hrun, hentry,
    run_cacheSound hrun (bounded_of_length (of_decide_eq_true hlength))⟩

end MozartLineage.Graphics
