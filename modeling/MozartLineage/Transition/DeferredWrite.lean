import Mathlib.Logic.Function.Basic
import Mathlib.Data.List.Basic

/-!
# Deferred writes

Several threads share a flag and a store. A thread changes the flag in one
step, and only afterwards, one write at a time, makes the writes that the
profile of the new flag asks for. Two threads may therefore write the profiles
of two different flags at the same time.

`Covered` is what such a system has to keep: every write of the profile in force
has either reached the store or is still to be made by some thread. A write is
`Harmless` when the profile in force does not need the key any more, or some
thread still has the right value for it to write. Harmless writes keep the store
covered; a write that is not harmless uncovers it, and it stays uncovered until
the flag is set again.
-/

namespace DeferredWrite

variable {θ κ ν β : Type*}

@[ext] structure State (θ κ ν β : Type*) where
  flag : β
  store : κ → ν
  /-- the writes that a thread has still to make, in order -/
  pending : θ → List (κ × ν)

section Covered

variable (profile : β → List (κ × ν))

def Covered (s : State θ κ ν β) : Prop :=
  ∀ w ∈ profile s.flag, s.store w.1 = w.2 ∨ ∃ t, w ∈ s.pending t

/-- A write to the key `k` does not undo the profile in force for good. -/
def Harmless (s : State θ κ ν β) (k : κ) : Prop :=
  ∀ w ∈ profile s.flag, w.1 = k → ∃ t, w ∈ s.pending t

/-- No thread has a write left to make. -/
def Quiescent (s : State θ κ ν β) : Prop := ∀ t, s.pending t = []

/-- The store holds the profile of the flag. -/
def Settled (s : State θ κ ν β) : Prop := ∀ w ∈ profile s.flag, s.store w.1 = w.2

variable {profile}

theorem Covered.settled {s : State θ κ ν β} (h : Covered profile s)
    (hq : Quiescent s) : Settled profile s := by
  intro w hw
  rcases h w hw with hs | ⟨t, ht⟩
  · exact hs
  · simp [hq t] at ht

theorem Settled.covered {s : State θ κ ν β} (h : Settled profile s) :
    Covered profile s :=
  fun w hw => Or.inl (h w hw)

/-- A profile write that is neither in the store nor pending: what is left when
the store is not covered. -/
theorem not_covered_iff {s : State θ κ ν β} :
    ¬ Covered profile s ↔
      ∃ w ∈ profile s.flag, s.store w.1 ≠ w.2 ∧ ¬ ∃ t, w ∈ s.pending t := by
  simp only [Covered, not_forall, not_or, exists_prop]

end Covered

section Step

variable {profile : β → List (κ × ν)}

/-- Thread `t` sets the flag and takes on the writes of its profile. -/
def State.enter [DecidableEq θ] (profile : β → List (κ × ν))
    (s : State θ κ ν β) (t : θ) (b : β) : State θ κ ν β where
  flag := b
  store := s.store
  pending := Function.update s.pending t (profile b)

/-- Somebody who is not one of the threads writes to the key `k`, which no profile
names. -/
def State.foreign [DecidableEq κ] (s : State θ κ ν β) (k : κ) (v : ν) :
    State θ κ ν β :=
  { s with store := Function.update s.store k v }

/-- Thread `t` makes the write `w` and has `ws` left. -/
def State.write [DecidableEq θ] [DecidableEq κ] (s : State θ κ ν β) (t : θ)
    (w : κ × ν) (ws : List (κ × ν)) : State θ κ ν β where
  flag := s.flag
  store := Function.update s.store w.1 w.2
  pending := Function.update s.pending t ws

theorem covered_enter [DecidableEq θ] (s : State θ κ ν β) (t : θ) (b : β) :
    Covered profile (s.enter profile t b) := by
  intro w hw
  exact Or.inr ⟨t, by simpa [State.enter] using hw⟩

theorem Covered.foreign [DecidableEq κ] {s : State θ κ ν β} {k : κ} {v : ν}
    (h : Covered profile s) (hk : ∀ b, ∀ w ∈ profile b, w.1 ≠ k) :
    Covered profile (s.foreign k v) := by
  intro w hw
  rcases h w hw with hs | hs
  · exact Or.inl (by simpa [State.foreign, hk _ w hw] using hs)
  · exact Or.inr hs

variable [DecidableEq θ] [DecidableEq κ]

/-- The writes that are pending after a write are those that were pending
before, but for the one that was made. -/
theorem State.pending_write_iff {s : State θ κ ν β} {t : θ} {w w' : κ × ν}
    {ws : List (κ × ν)} (hp : s.pending t = w :: ws) (hne : w' ≠ w) :
    (∃ u, w' ∈ (s.write t w ws).pending u) ↔ ∃ u, w' ∈ s.pending u := by
  refine exists_congr fun u => ?_
  by_cases hut : u = t
  · subst hut
    simp [State.write, hp, hne]
  · simp [State.write, hut]

theorem Covered.write {s : State θ κ ν β} {t : θ} {w : κ × ν} {ws : List (κ × ν)}
    (h : Covered profile s) (hp : s.pending t = w :: ws)
    (hw : Harmless profile s w.1) : Covered profile (s.write t w ws) := by
  intro w' hw'
  by_cases heq : w' = w
  · subst heq
    exact Or.inl (by simp [State.write])
  · rw [State.pending_write_iff hp heq]
    by_cases hk : w'.1 = w.1
    · exact Or.inr (hw w' hw' hk)
    · refine (h w' hw').imp_left fun hs => ?_
      simpa [State.write, hk] using hs

/-- A write to the key of a profile write that nobody has pending any more
leaves the wrong value there. -/
theorem State.store_write_ne {s : State θ κ ν β} {t : θ} {w w' : κ × ν}
    {ws : List (κ × ν)} (hp : s.pending t = w :: ws)
    (hnone : ¬ ∃ u, w' ∈ s.pending u) (hk : w'.1 = w.1) :
    (s.write t w ws).store w'.1 ≠ w'.2 := by
  intro hv
  have heq : w' = w := Prod.ext hk (by simpa [State.write, hk] using hv.symm)
  exact hnone ⟨t, by simp [hp, heq]⟩

/-- A write that is not harmless uncovers the store. -/
theorem not_covered_write {s : State θ κ ν β} {t : θ} {w : κ × ν}
    {ws : List (κ × ν)} (hp : s.pending t = w :: ws)
    (hw : ¬ Harmless profile s w.1) : ¬ Covered profile (s.write t w ws) := by
  simp only [Harmless, not_forall] at hw
  obtain ⟨w', hw', hk, hnone⟩ := hw
  have hne : w' ≠ w := by
    rintro rfl
    exact hnone ⟨t, by simp [hp]⟩
  refine not_covered_iff.2 ⟨w', hw', State.store_write_ne hp hnone hk, ?_⟩
  rwa [State.pending_write_iff hp hne]

/-- No write covers the store again. -/
theorem not_covered_write_of_not_covered {s : State θ κ ν β} {t : θ} {w : κ × ν}
    {ws : List (κ × ν)} (h : ¬ Covered profile s) (hp : s.pending t = w :: ws) :
    ¬ Covered profile (s.write t w ws) := by
  obtain ⟨w', hw', hs, hnone⟩ := not_covered_iff.1 h
  have hne : w' ≠ w := by
    rintro rfl
    exact hnone ⟨t, by simp [hp]⟩
  refine not_covered_iff.2 ⟨w', hw', ?_, ?_⟩
  · by_cases hk : w'.1 = w.1
    · exact State.store_write_ne hp hnone hk
    · simpa [State.write, hk] using hs
  · rwa [State.pending_write_iff hp hne]

end Step

end DeferredWrite
