import Mathlib.Data.List.Nodup
import Mathlib.Data.List.Range
import Mathlib.Data.Nat.ModEq
import Mathlib.Logic.Function.Basic

/-!
# Windows of a circular memory

A circular memory of `cap` slots is read from a start slot onwards, and wraps
around after the last slot. `window mem cap start n` lists the `n` records that
are met. A window splits at every point, losing its first record moves the start
by one slot, and a write outside the window is not seen in it.

`slots` is the window of the slots themselves: a full turn meets every slot once.
-/

namespace Ring

variable {ε : Type*}

/-- The `n` records that are read from the slot `start` onwards. -/
def window (mem : ℕ → ε) (cap start n : ℕ) : List ε :=
  (List.range n).map fun j => mem ((start + j) % cap)

@[simp] theorem window_zero (mem : ℕ → ε) (cap start : ℕ) :
    window mem cap start 0 = [] := rfl

@[simp] theorem length_window (mem : ℕ → ε) (cap start n : ℕ) :
    (window mem cap start n).length = n := by
  simp [window]

/-- A window only depends on its start slot modulo the capacity. -/
theorem window_mod (mem : ℕ → ε) (cap start n : ℕ) :
    window mem cap (start % cap) n = window mem cap start n := by
  simp [window]

theorem window_add (mem : ℕ → ε) (cap start m n : ℕ) :
    window mem cap start (m + n) =
      window mem cap start m ++ window mem cap (start + m) n := by
  simp [window, List.range_add, Nat.add_assoc]

/-- The first record of a window, split off. -/
theorem window_succ (mem : ℕ → ε) (cap start n : ℕ) :
    window mem cap start (n + 1) =
      mem (start % cap) :: window mem cap ((start + 1) % cap) n := by
  rw [Nat.add_comm, window_add, window_mod]
  rfl

theorem window_congr {mem mem' : ℕ → ε} {cap start n : ℕ}
    (h : ∀ j < n, mem ((start + j) % cap) = mem' ((start + j) % cap)) :
    window mem cap start n = window mem' cap start n :=
  List.map_congr_left fun j hj => h j (List.mem_range.1 hj)

/-- A write to a slot outside the window is not seen in it. -/
theorem window_update {mem : ℕ → ε} {cap start n k : ℕ} (e : ε)
    (hk : ∀ j < n, (start + j) % cap ≠ k) :
    window (Function.update mem k e) cap start n = window mem cap start n :=
  window_congr fun j hj => by simp [hk j hj]

/-- Two slots less than a full turn apart are different. -/
theorem slot_ne {cap start i j : ℕ} (hij : i < j) (hj : j < i + cap) :
    (start + i) % cap ≠ (start + j) % cap := by
  intro h
  have hmod : i ≡ j [MOD cap] := Nat.ModEq.add_left_cancel' start h
  have hdvd : cap ∣ j - i := (Nat.modEq_iff_dvd' hij.le).1 hmod
  have hle := Nat.le_of_dvd (by omega) hdvd
  omega

/-- Slots before the end of the memory are met in order. -/
theorem slot_add {cap start n j : ℕ} (h : start % cap + n ≤ cap) (hj : j < n) :
    (start + j) % cap = start % cap + j := by
  rw [← Nat.mod_add_mod, Nat.mod_eq_of_lt (by omega)]

/-- A full turn from anywhere meets every slot. -/
theorem exists_slot {cap slot : ℕ} (start : ℕ) (h : slot < cap) :
    ∃ j < cap, (start + j) % cap = slot := by
  have hstart : start % cap < cap := Nat.mod_lt _ (by omega)
  refine ⟨(slot + cap - start % cap) % cap, Nat.mod_lt _ (by omega), ?_⟩
  have hturn : start % cap + (slot + cap - start % cap) = slot + cap := by omega
  rw [Nat.add_mod_mod, ← Nat.mod_add_mod, hturn, Nat.add_mod_right, Nat.mod_eq_of_lt h]

/-! ### The slots that are met -/

/-- The `n` slots from `start` onwards. -/
def slots (cap start n : ℕ) : List ℕ := window id cap start n

@[simp] theorem slots_zero (cap start : ℕ) : slots cap start 0 = [] := rfl

theorem slots_add (cap start m n : ℕ) :
    slots cap start (m + n) = slots cap start m ++ slots cap (start + m) n :=
  window_add id cap start m n

theorem slots_succ (cap start n : ℕ) :
    slots cap start (n + 1) = slots cap start n ++ [(start + n) % cap] := slots_add cap start n 1

/-- A turn meets every slot once. -/
theorem count_slots_turn {cap slot : ℕ} (start : ℕ) (h : slot < cap) :
    (slots cap start cap).count slot = 1 := by
  refine List.count_eq_one_of_mem (List.Nodup.map_on ?_ List.nodup_range) ?_
  · intro i hi j hj heq
    have hi := List.mem_range.1 hi
    have hj := List.mem_range.1 hj
    rcases Nat.lt_trichotomy i j with hlt | rfl | hlt
    · exact absurd heq (slot_ne hlt (by omega))
    · rfl
    · exact absurd heq.symm (slot_ne hlt (by omega))
  · obtain ⟨j, hj, hslot⟩ := exists_slot start h
    exact List.mem_map.2 ⟨j, List.mem_range.2 hj, hslot⟩

/-- Between two visits to a slot, the turn meets every other slot once. -/
theorem count_slots_between {cap slot slot' : ℕ} (h : slot < cap) (h' : slot' < cap)
    (hne : slot' ≠ slot) : (slots cap (slot + 1) (cap - 1)).count slot' = 1 := by
  have hturn := count_slots_turn (slot + 1) h'
  have hlast : (slot + 1 + (cap - 1)) % cap = slot := by
    rw [Nat.add_assoc, Nat.add_sub_cancel' (by omega), Nat.add_mod_right, Nat.mod_eq_of_lt h]
  have hcap : cap = cap - 1 + 1 := by omega
  rw [hcap, slots_succ, ← hcap, hlast, List.count_append] at hturn
  simpa [List.count_singleton, hne.symm] using hturn

end Ring
