import MozartLineage.Sensors.Multihal

/-!
# Fairness of `poll`

Every turn of `poll` looks at one queue, removes its first record if there is one, and goes
on to the next queue. `nextReadIndex` is shared by all calls, so it goes round the queues
whatever is found in them and wherever a call stops. Between two records of one queue the
turns therefore meet every other queue, and just once if the queue was never found empty.
-/

namespace MozartLineage.Sensors

open Transition

variable {π : Type*}

/-- The queue that a record is removed from. -/
def Event.queue : Event π → Option ℕ
  | .dequeued _ i _ => some i
  | _ => none

/-- The queues that records are removed from, in this order. -/
def dequeues (os : List (Event π)) : List ℕ := os.filterMap Event.queue

@[simp] theorem dequeues_append (os os' : List (Event π)) :
    dequeues (os ++ os') = dequeues os ++ dequeues os' := List.filterMap_append

/-- Queue `i` is not empty. -/
def State.HasData (i : ℕ) (s : State π) : Prop := (s.queues i).mSize ≠ 0

instance (i : ℕ) (s : State π) : Decidable (s.HasData i) := inferInstanceAs (Decidable (_ ≠ _))

/-- A turn of the inner loop of `poll`: the step moves `nextReadIndex`, with a division by the
number of queues. -/
structure Turn (s t : State π) (os : List (Event π)) : Prop where
  next : t.nextReadIndex = (s.nextReadIndex + 1) % s.queueCount
  queueCount_pos : 0 < s.queueCount
  dequeued : s.HasData s.nextReadIndex → dequeues os = [s.nextReadIndex]
  empty : ¬ s.HasData s.nextReadIndex → dequeues os = []

/-- A turn does with a queue that has data what the rotation does. -/
theorem Turn.count {s t : State π} {os : List (Event π)} {j : ℕ} (h : Turn s t os)
    (hdata : s.nextReadIndex = j → s.HasData j) :
    (dequeues os).count j = [s.nextReadIndex].count j := by
  by_cases hs : s.HasData s.nextReadIndex
  · rw [h.dequeued hs]
  · have hne : s.nextReadIndex ≠ j := by
      rintro rfl
      exact hs (hdata rfl)
    rw [h.empty hs, List.count_nil, List.count_singleton, if_neg (by simpa using hne)]

variable [DecidableEq π] {m : HandleMaps} {s t u : State π} {a : Action π}
  {as : List (Action π)} {os : List (Event π)} {i j : ℕ}

/-- A caller is at a turn, so that its next step divides by the number of queues. -/
def State.AtTurn (s : State π) (p : π) : Prop :=
  ∃ maxReads data eventsRead empties,
    s.pollers p = .scanning maxReads data eventsRead empties ∧
      empties < s.queueCount ∧ eventsRead < maxReads

theorem peek_eq_none_iff {q : SensorEventQueue SensorsEvent} :
    q.peek = none ↔ q.mSize = 0 := by
  unfold SensorEventQueue.peek
  split_ifs with h <;> simp [h]

/-- What a step does to the rotation. -/
theorem step_turn (h : step m s a = some (t, os)) :
    t.queueCount = s.queueCount ∧
      (Turn s t os ∨ t.nextReadIndex = s.nextReadIndex ∧ dequeues os = []) := by
  have hspec := step_spec h
  generalize hp : (t, os) = r at hspec
  cases hspec with
  | scan _ hr =>
      cases hr with
      | empty hturn hpeek =>
          cases hp
          refine ⟨rfl, Or.inl ⟨rfl, Nat.zero_lt_of_lt hturn.1, fun hdata => ?_, fun _ => rfl⟩⟩
          exact absurd (peek_eq_none_iff.1 hpeek) hdata
      | read hturn event dest hpeek hdest =>
          cases hp
          have hdata : s.HasData s.nextReadIndex := fun hzero => by
            simp [peek_eq_none_iff.2 hzero] at hpeek
          refine ⟨by simp [State.advance, State.setPoller], Or.inl ⟨?_, ?_, fun _ => rfl, ?_⟩⟩
          · simp [State.advance, State.setPoller]
          · exact Nat.zero_lt_of_lt hturn.1
          · exact fun hempty => absurd hdata hempty
      | wait hstop hread =>
          cases hp
          exact ⟨rfl, Or.inr ⟨rfl, rfl⟩⟩
      | finish hstop hread =>
          cases hp
          exact ⟨rfl, Or.inr ⟨rfl, rfl⟩⟩
  | mark hw hmutex ht =>
      subst ht
      cases hp
      split_ifs <;> exact ⟨rfl, Or.inr ⟨rfl, rfl⟩⟩
  | _ =>
      cases hp
      exact ⟨rfl, Or.inr ⟨rfl, rfl⟩⟩

/-! ### The index -/

/-- The index stays in bounds; without a queue it stays where it is. -/
theorem run_nextReadIndex {n : ℕ} {memory : ℕ → ℕ → SensorsEvent}
    (hrun : (step m).run (init π n memory) as = some (t, os)) :
    t.queueCount = n ∧ (t.nextReadIndex < n ∨ n = 0 ∧ t.nextReadIndex = 0) := by
  refine Machine.run_invariant (P := fun s _ => s.queueCount = n ∧
    (s.nextReadIndex < n ∨ n = 0 ∧ s.nextReadIndex = 0)) ?_ ⟨rfl, ?_⟩ hrun
  · rintro s _ a t os ⟨hcount, hindex⟩ h
    obtain ⟨hqueues, hturn | ⟨hnext, -⟩⟩ := step_turn h
    · refine ⟨hqueues.trans hcount, Or.inl ?_⟩
      rw [hturn.next, ← hcount]
      exact Nat.mod_lt _ hturn.queueCount_pos
    · rw [hqueues, hnext]
      exact ⟨hcount, hindex⟩
  · rcases Nat.eq_zero_or_pos n with hzero | hpos
    · exact Or.inr ⟨hzero, rfl⟩
    · exact Or.inl hpos

/-- Some number of turns is taken, and as many records are removed from a queue that always
has data as the rotation meets it. -/
theorem run_rotates (h₀ : s.nextReadIndex = (i + 1) % s.queueCount)
    (hrun : (step m).run s as = some (t, os)) :
    t.queueCount = s.queueCount ∧ ∃ k, t.nextReadIndex = (i + 1 + k) % s.queueCount ∧
      ∀ j, (step m).Throughout (State.HasData j) s as →
        (dequeues os).count j = (Ring.slots s.queueCount (i + 1) k).count j := by
  induction as using List.reverseRecOn generalizing t os with
  | nil =>
      simp only [Machine.run_nil, Option.some.injEq, Prod.mk.injEq] at hrun
      obtain ⟨rfl, rfl⟩ := hrun
      exact ⟨rfl, 0, h₀, fun _ _ => rfl⟩
  | append_singleton as a ih =>
      obtain ⟨u, o, o', hu, ht, rfl⟩ := Machine.run_concat_eq_some.1 hrun
      obtain ⟨hcount, k, hindex, hrotates⟩ := ih hu
      obtain ⟨hqueues, hturn | ⟨hnext, hnone⟩⟩ := step_turn ht
      · refine ⟨hqueues.trans hcount, k + 1, ?_, fun j hdata => ?_⟩
        · rw [hturn.next, hindex, hcount, Nat.mod_add_mod, Nat.add_assoc]
        · have hhead := hturn.count fun _ => hdata.of_append.last hu
          rw [dequeues_append, List.count_append, hrotates j hdata.of_append, hhead, hindex,
            Ring.slots_succ, List.count_append]
      · refine ⟨hqueues.trans hcount, k, hnext.trans hindex, fun j hdata => ?_⟩
        rw [dequeues_append, hnone, List.append_nil, hrotates j hdata.of_append]

/-! ### Fairness -/

/-- The stretch of a run from one record of queue `i` to the next one: the step from `s₀` to
`s` removes the first one, and the next step from `t` the second one. -/
structure Interval (m : HandleMaps) (i : ℕ) (s₀ s : State π) (as : List (Action π))
    (t : State π) (os : List (Event π)) : Prop where
  first : ∃ a o, step m s₀ a = some (s, o) ∧ dequeues o = [i]
  run : (step m).run s as = some (t, os)
  between : i ∉ dequeues os
  next : ∃ a u o, step m t a = some (u, o) ∧ dequeues o = [i]

/-- The step that removes a record of a queue is the turn of this queue. -/
theorem turn_of_dequeues (h : step m s a = some (t, os)) (hi : dequeues os = [i]) :
    t.queueCount = s.queueCount ∧ s.nextReadIndex = i ∧ Turn s t os := by
  obtain ⟨hqueues, hturn | ⟨-, hnone⟩⟩ := step_turn h
  · refine ⟨hqueues, ?_, hturn⟩
    by_cases hdata : s.HasData s.nextReadIndex
    · exact List.singleton_inj.1 ((hturn.dequeued hdata).symm.trans hi)
    · simp [hturn.empty hdata] at hi
  · simp [hnone] at hi

/-- Between two records of queue `i` every other queue that always has data is read, and is
read once if queue `i` always has data too. -/
theorem Interval.count {s₀ : State π} (h : Interval m i s₀ s as t os) (hi : i < s.queueCount)
    (hj : j < s.queueCount) (hji : j ≠ i)
    (hdata : (step m).Throughout (State.HasData j) s as) :
    1 ≤ (dequeues os).count j ∧
      ((step m).Throughout (State.HasData i) s as → (dequeues os).count j = 1) := by
  obtain ⟨⟨a, o, hfirst, ho⟩, hrun, hbetween, ⟨a', u, o', hnext, ho'⟩⟩ := h
  obtain ⟨hqueues, hindex, hturn⟩ := turn_of_dequeues hfirst ho
  obtain ⟨-, hindex', -⟩ := turn_of_dequeues hnext ho'
  have h₀ : s.nextReadIndex = (i + 1) % s.queueCount := by
    rw [hturn.next, hindex, hqueues]
  obtain ⟨-, k, hk, hrotates⟩ := run_rotates h₀ hrun
  have honce := Ring.count_slots_between hi hj hji
  -- The index is back at `i`, so the turn has been completed.
  have hle : s.queueCount - 1 ≤ k := by
    by_contra hlt
    have hne : (i + 0) % s.queueCount ≠ (i + (1 + k)) % s.queueCount :=
      Ring.slot_ne (by omega) (by omega)
    rw [Nat.add_zero, Nat.mod_eq_of_lt hi, ← Nat.add_assoc, ← hk, hindex'] at hne
    exact hne rfl
  obtain ⟨l, rfl⟩ := Nat.exists_eq_add_of_le hle
  rw [hrotates j hdata, Ring.slots_add, List.count_append, honce]
  refine ⟨Nat.le_add_right 1 _, fun hdata' => ?_⟩
  have hnone : (Ring.slots s.queueCount (i + 1) (s.queueCount - 1 + l)).count i = 0 := by
    rw [← hrotates i hdata', List.count_eq_zero]
    exact hbetween
  -- One more turn would have met queue `i`.
  cases l with
  | zero => rfl
  | succ l =>
      have hlast : i + 1 + (s.queueCount - 1) = i + s.queueCount := by omega
      have hmeets : i ∈ Ring.slots s.queueCount (i + 1) (s.queueCount - 1 + (l + 1)) := by
        rw [Ring.slots_add, Nat.add_comm l 1, Ring.slots_add, hlast]
        simp [Ring.slots, Ring.window, Nat.mod_eq_of_lt hi]
      exact absurd hmeets (List.count_eq_zero.1 hnone)

/-- In every state that is reached the index is that of a queue, if there is one, a caller
only takes a turn when there is one, and from there on the queues are read in turn. -/
theorem run_fair {n : ℕ} {memory : ℕ → ℕ → SensorsEvent} {s₀ : State π}
    (hrun : (step m).run (init π n memory) as = some (s₀, os)) :
    (s₀.nextReadIndex < n ∨ n = 0 ∧ s₀.nextReadIndex = 0) ∧
      (∀ p, s₀.AtTurn p → 0 < n ∧ s₀.nextReadIndex < n) ∧
      ∀ i s as t os, Interval m i s₀ s as t os → ∀ j < n, j ≠ i →
        (step m).Throughout (State.HasData j) s as →
        1 ≤ (dequeues os).count j ∧
          ((step m).Throughout (State.HasData i) s as → (dequeues os).count j = 1) := by
  obtain ⟨hcount, hindex⟩ := run_nextReadIndex hrun
  refine ⟨hindex, ?_, fun i s as t os h j hj hji hdata => ?_⟩
  · rintro p ⟨maxReads, data, eventsRead, empties, -, hturn, -⟩
    have hpos : 0 < n := hcount ▸ Nat.zero_lt_of_lt hturn
    exact ⟨hpos, by omega⟩
  · obtain ⟨a, o, hfirst, ho⟩ := h.first
    obtain ⟨hqueues, hi, -⟩ := turn_of_dequeues hfirst ho
    rw [hcount] at hqueues
    exact h.count (by omega) (by omega) hji hdata

/-- Two queues that hold two records each, when a caller comes. -/
def twoQueues : List (Action Unit) :=
  [.requestRegion 0, .subPollReturns 0 2, .markAsWritten 0, .requestRegion 1,
    .subPollReturns 1 2, .markAsWritten 1, .poll () 5 fun _ => ⟨1, 0, 0, 0⟩]

theorem run_fair_twoQueues :
    ∃ s₀ s t os, Interval (π := Unit) .empty 0 s₀ s [.scan ()] t os ∧
      (dequeues os).count 1 = 1 := by
  have hsome : ((step .empty).run (init Unit 2 fun _ _ => ⟨1, 0, 0, 0⟩) twoQueues).isSome := by
    decide
  obtain ⟨⟨s₀, os₀⟩, hrun⟩ := Option.isSome_iff_exists.1 hsome
  obtain ⟨⟨s, o⟩, hs⟩ : ∃ p, step .empty s₀ (.scan ()) = some p := by
    cases hrun
    exact ⟨_, rfl⟩
  obtain ⟨⟨t, os⟩, ht⟩ : ∃ p, (step .empty).run s [.scan ()] = some p := by
    cases hrun
    cases hs
    exact ⟨_, rfl⟩
  have h : Interval .empty 0 s₀ s [.scan ()] t os := by
    cases hrun
    cases hs
    cases ht
    exact ⟨⟨.scan (), _, rfl, rfl⟩, rfl, by decide, ⟨.scan (), _, _, rfl, rfl⟩⟩
  have hdata : ∀ i < 2, (step .empty).Throughout (State.HasData i) s [.scan ()] := by
    intro i hi
    refine Machine.throughout_cons.2 ⟨?_, fun u o hu => Machine.throughout_nil.2 ?_⟩
    · cases hrun
      cases hs
      revert i
      decide
    · cases hrun
      cases hs
      cases hu
      revert i
      decide
  have hfair := (run_fair hrun).2.2 0 s [.scan ()] t os h 1 (by decide) (by decide)
  exact ⟨s₀, s, t, os, h, (hfair (hdata 1 (by decide))).2 (hdata 0 (by decide))⟩

end MozartLineage.Sensors
