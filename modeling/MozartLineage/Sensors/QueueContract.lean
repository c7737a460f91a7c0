import MozartLineage.Sensors.SensorEventQueue
import MozartLineage.Transition.Monitor
import Mathlib.Order.Bounds.Defs

/-!
# The contract of the event queue

A client of `SensorEventQueue` obtains regions, fills them, marks what it has filled and
reads, in any order, as long as it marks no more than the last region has and obtains a new
one before it marks again. `Use` keeps the regions that were obtained since the last marking.

`fifo` is what the queue is for: a list that grows at its end and is read at its head.
-/

namespace MozartLineage.Sensors

open Transition

variable {ε : Type*}

namespace SensorEventQueue

/-- The slots that hold the readable records. -/
def Readable (q : SensorEventQueue ε) (slot : ℕ) : Prop :=
  ∃ i < q.mSize, (q.mStart + i) % q.mCapacity = slot

/-- A run of slots inside the array of which none is readable. -/
def FreeRun (q : SensorEventQueue ε) (first length : ℕ) : Prop :=
  first + length ≤ q.mCapacity ∧ ∀ j < length, ¬ q.Readable (first + j)

/-- What a request for `n` slots may be given: nothing if the queue is full, and otherwise
the longest free run after the last readable record that is not longer than `n`. -/
def Grants (q : SensorEventQueue ε) (n : ℕ) : Option (ℕ × ℕ) → Prop
  | none => q.mSize = q.mCapacity
  | some (first, length) =>
      q.mSize < q.mCapacity ∧ 0 < length ∧ first = (q.mStart + q.mSize) % q.mCapacity ∧
        IsGreatest {l | l ≤ n ∧ q.FreeRun first l} length

variable {q : SensorEventQueue ε} {first length n : ℕ}

theorem Region.freeRun (h : q.Region first length) : q.FreeRun first length := by
  refine ⟨h.inside, fun j hj => ?_⟩
  rintro ⟨i, hi, hslot⟩
  have hfree := h.free
  rw [← h.slot hj] at hslot
  exact Ring.slot_ne (by omega) (by omega) hslot

/-- A free run after the last readable record does not come round to the first one. -/
theorem FreeRun.region (h : q.FreeRun ((q.mStart + q.mSize) % q.mCapacity) length)
    (hsize : q.mSize ≤ q.mCapacity) :
    q.Region ((q.mStart + q.mSize) % q.mCapacity) length := by
  refine ⟨rfl, h.1, ?_⟩
  by_contra hfree
  rcases Nat.eq_zero_or_pos q.mSize with hzero | hpos
  · have hinside := h.1
    omega
  · refine h.2 (q.mCapacity - q.mSize) (by omega) ⟨0, hpos, ?_⟩
    rw [← Ring.slot_add h.1 (by omega), Nat.add_assoc, Nat.add_sub_cancel' hsize,
      Nat.add_zero, Nat.add_mod_right]

theorem freeRun_iff (hsize : q.mSize ≤ q.mCapacity) :
    q.FreeRun ((q.mStart + q.mSize) % q.mCapacity) length ↔
      (q.mStart + q.mSize) % q.mCapacity + length ≤ q.mCapacity ∧
        q.mSize + length ≤ q.mCapacity := by
  constructor
  · intro h
    exact ⟨h.1, (h.region hsize).free⟩
  · rintro ⟨hinside, hfree⟩
    exact Region.freeRun ⟨rfl, hinside, hfree⟩

/-- The length of a region is limited by the request, the array's end and the free slots. -/
theorem getWritableRegion_eq (hn : 0 < n) (hsize : q.mSize < q.mCapacity) :
    q.getWritableRegion n = some ((q.mStart + q.mSize) % q.mCapacity,
      min n (min (q.mCapacity - (q.mStart + q.mSize) % q.mCapacity)
        (q.mCapacity - q.mSize))) := by
  have hlt := q.mStart_lt
  have hmod : (q.mStart + q.mSize) % q.mCapacity < q.mCapacity := Nat.mod_lt _ (by omega)
  have hfirst : (q.mStart + q.mSize) % q.mCapacity =
      if q.mStart + q.mSize < q.mCapacity then q.mStart + q.mSize
      else q.mStart + q.mSize - q.mCapacity := by
    split_ifs with hs
    · exact Nat.mod_eq_of_lt hs
    · rw [Nat.mod_eq_sub_mod (not_lt.1 hs), Nat.mod_eq_of_lt (by omega)]
  rw [getWritableRegion, if_neg (by omega)]
  generalize (q.mStart + q.mSize) % q.mCapacity = first at hmod hfirst ⊢
  simp only [Option.some.injEq, Prod.mk.injEq, true_and]
  split_ifs at hfirst ⊢ <;> omega

theorem grants_getWritableRegion (hn : 0 < n) (hsize : q.mSize ≤ q.mCapacity) :
    q.Grants n (q.getWritableRegion n) := by
  rcases hsize.lt_or_eq with hlt | heq
  · have hmod : (q.mStart + q.mSize) % q.mCapacity < q.mCapacity := Nat.mod_lt _ (by omega)
    rw [getWritableRegion_eq hn hlt]
    refine ⟨hlt, by omega, rfl, ⟨by omega, ?_⟩, ?_⟩
    · exact (freeRun_iff hsize).2 ⟨by omega, by omega⟩
    · rintro l ⟨hl, hrun⟩
      obtain ⟨hinside, hfree⟩ := (freeRun_iff hsize).1 hrun
      omega
  · rw [(q.getWritableRegion_eq_none_iff hn).2 heq]
    exact heq

@[simp] theorem dequeue_mCapacity (q : SensorEventQueue ε) :
    q.dequeue.mCapacity = q.mCapacity := by
  unfold dequeue
  split_ifs <;> rfl

@[simp] theorem dequeue_mSize (q : SensorEventQueue ε) : q.dequeue.mSize = q.mSize - 1 := by
  unfold dequeue
  split_ifs with h
  · rw [h]
  · rfl

end SensorEventQueue

/-! ### The client -/

/-- The queue with the regions that were obtained since the last marking, the last one
first; `none` is the empty region of a full queue. -/
structure Use (ε : Type*) where
  queue : SensorEventQueue ε
  regions : List (Option (ℕ × ℕ))

inductive QueueAction (ε : Type*) where
  | getWritableRegion (requestedLength : ℕ)
  /-- a write to the slot `j` of a region -/
  | store (first length j : ℕ) (e : ε)
  | markAsWritten (count : ℕ)
  | peek
  | dequeue

inductive QueueEvent (ε : Type*) where
  /-- with the records in the slots that are marked -/
  | marked (events : List ε)
  | peeked (event : Option ε)
  | dequeued

/-- A list that grows at its end and is read at its head. -/
def fifo (ε : Type*) : Monitor (QueueEvent ε) (List ε) where
  next
    | xs, .marked events => xs ++ events
    | xs, .peeked _ => xs
    | xs, .dequeued => xs.tail
  Allowed
    | xs, .peeked event => event = xs.head?
    | _, _ => True

namespace Use

def init (capacity : ℕ) (hcapacity : 0 < capacity) (mData : ℕ → ε) : Use ε where
  queue := .new capacity hcapacity mData
  regions := []

/-- The records in the first slots of a region. -/
def records (q : SensorEventQueue ε) : Option (ℕ × ℕ) → ℕ → List ε
  | none, _ => []
  | some (first, _), count => (List.range count).map fun j => q.mData (first + j)

def lengthOf : Option (ℕ × ℕ) → ℕ
  | none => 0
  | some (_, length) => length

def step : Machine (Use ε) (QueueAction ε) (QueueEvent ε)
  | s, .getWritableRegion n =>
      if 0 < n then
        some ({ s with regions := s.queue.getWritableRegion n :: s.regions }, [])
      else none
  | s, .store first length j e =>
      if some (first, length) ∈ s.regions ∧ j < length then
        some ({ s with queue := s.queue.store (first + j) e }, [])
      else none
  | s, .markAsWritten count =>
      match s.regions with
      | [] => none
      | region :: _ =>
          if count ≤ lengthOf region then
            some (⟨s.queue.markAsWritten count, []⟩, [.marked (records s.queue region count)])
          else none
  | s, .peek => some (s, [.peeked s.queue.peek])
  | s, .dequeue => some ({ s with queue := s.queue.dequeue }, [.dequeued])

/-- The regions that are waiting to be marked are free. -/
structure Sound (capacity : ℕ) (s : Use ε) : Prop where
  capacity_eq : s.queue.mCapacity = capacity
  size_le : s.queue.mSize ≤ s.queue.mCapacity
  regions : ∀ first length, some (first, length) ∈ s.regions → s.queue.Region first length

variable {capacity : ℕ} {s t : Use ε} {a : QueueAction ε} {os : List (QueueEvent ε)}

theorem sound_init (hcapacity : 0 < capacity) (mData : ℕ → ε) :
    Sound capacity (init capacity hcapacity mData) :=
  ⟨rfl, Nat.zero_le _, fun _ _ h => absurd h List.not_mem_nil⟩

namespace Sound

theorem getWritableRegion (h : Sound capacity s) (n : ℕ) :
    Sound capacity { s with regions := s.queue.getWritableRegion n :: s.regions } := by
  refine ⟨h.capacity_eq, h.size_le, fun first length hmem => ?_⟩
  rcases List.mem_cons.1 hmem with heq | hmem
  · exact (SensorEventQueue.region_getWritableRegion h.size_le heq.symm).1
  · exact h.regions first length hmem

theorem store (h : Sound capacity s) (slot : ℕ) (e : ε) :
    Sound capacity { s with queue := s.queue.store slot e } :=
  ⟨h.capacity_eq, h.size_le, fun first length hmem => (h.regions first length hmem).store slot e⟩

/-- What is marked lies in the last region, and is appended to the queue. -/
theorem markAsWritten (h : Sound capacity s) {region : Option (ℕ × ℕ)}
    (hmem : region ∈ s.regions) {count : ℕ} (hcount : count ≤ lengthOf region) :
    Sound capacity ⟨s.queue.markAsWritten count, []⟩ ∧
      (s.queue.markAsWritten count).contents =
        s.queue.contents ++ records s.queue region count := by
  cases region with
  | none =>
      obtain rfl := Nat.le_zero.1 hcount
      exact ⟨⟨h.capacity_eq, h.size_le, by simp⟩, by simp [records]; rfl⟩
  | some region =>
      have hregion := (h.regions region.1 region.2 hmem).mono hcount
      exact ⟨⟨h.capacity_eq, hregion.free, by simp⟩, hregion.contents_markAsWritten⟩

theorem dequeue (h : Sound capacity s) :
    Sound capacity { s with queue := s.queue.dequeue } := by
  refine ⟨?_, ?_, fun first length hmem => (h.regions first length hmem).dequeue⟩
  · rw [SensorEventQueue.dequeue_mCapacity, h.capacity_eq]
  · rw [SensorEventQueue.dequeue_mSize, SensorEventQueue.dequeue_mCapacity]
    exact (Nat.sub_le _ 1).trans h.size_le

end Sound

/-- Every operation keeps the regions free, and does to the contents what it does to the
list. -/
theorem step_sound {p : Use ε × List (QueueEvent ε)} (hs : Sound capacity s)
    (h : step s a = some p) :
    Sound capacity p.1 ∧ (fifo ε).after s.queue.contents p.2 = p.1.queue.contents ∧
      (fifo ε).Accepts s.queue.contents p.2 := by
  cases a with
  | getWritableRegion n =>
      simp only [step] at h
      split_ifs at h
      cases h
      exact ⟨hs.getWritableRegion n, rfl, trivial⟩
  | store first length j e =>
      simp only [step] at h
      split_ifs at h with hj
      cases h
      have hregion := hs.regions first length hj.1
      exact ⟨hs.store _ e, (hregion.contents_store hj.2 e).symm, trivial⟩
  | markAsWritten count =>
      simp only [step] at h
      split at h
      · cases h
      · next region rest hregions =>
        split_ifs at h with hcount
        cases h
        obtain ⟨hsound, hcontents⟩ := hs.markAsWritten (hregions ▸ List.mem_cons_self) hcount
        exact ⟨hsound, hcontents.symm, trivial, trivial⟩
  | peek =>
      cases h
      exact ⟨hs, rfl, s.queue.peek_eq_head?, trivial⟩
  | dequeue =>
      cases h
      exact ⟨hs.dequeue, s.queue.contents_dequeue.symm, trivial, trivial⟩

/-- In every state that a client can bring the queue to: the indices are in bounds, the
regions that have not been marked are free, a request is granted the longest region there
is, and what has been seen of the queue is what a list would have shown. -/
theorem run_contract (hcapacity : 0 < capacity) (mData : ℕ → ε) {as : List (QueueAction ε)}
    (hrun : step.run (init capacity hcapacity mData) as = some (t, os)) :
    (t.queue.mCapacity = capacity ∧ t.queue.mStart < capacity ∧ t.queue.mSize ≤ capacity) ∧
      (∀ first length, some (first, length) ∈ t.regions → t.queue.FreeRun first length) ∧
      (∀ n, 0 < n → t.queue.Grants n (t.queue.getWritableRegion n)) ∧
      (fifo ε).Accepts [] os ∧ (fifo ε).after [] os = t.queue.contents := by
  have hstep : ∀ s a p, Sound capacity s → step s a = some p →
      Sound capacity p.1 ∧ (fifo ε).after s.queue.contents p.2 = p.1.queue.contents ∧
        ((fifo ε).Accepts s.queue.contents p.2 ↔ True) := by
    intro s a p hs h
    obtain ⟨hsound, hafter, haccepts⟩ := step_sound hs h
    exact ⟨hsound, hafter, iff_true_intro haccepts⟩
  obtain ⟨hsound, hafter, haccepts⟩ := Monitor.run_accepts_iff (G := fun _ _ => True)
    (fun s : Use ε => s.queue.contents) hstep (sound_init hcapacity mData) hrun
  refine ⟨⟨hsound.capacity_eq, ?_, ?_⟩, fun first length hmem => ?_, fun n hn => ?_, ?_, hafter⟩
  · rw [← hsound.capacity_eq]
    exact t.queue.mStart_lt
  · rw [← hsound.capacity_eq]
    exact hsound.size_le
  · exact (hsound.regions first length hmem).freeRun
  · exact SensorEventQueue.grants_getWritableRegion hn hsound.size_le
  · exact haccepts.2 (Machine.meets_of_forall (fun _ _ _ => trivial) _)

/-- A queue of two slots is read while a region is out, and wraps around. -/
def readWhileOut : List (QueueAction ℕ) :=
  [.getWritableRegion 5, .store 0 2 0 7, .store 0 2 1 8, .markAsWritten 2, .dequeue,
    .getWritableRegion 5, .dequeue, .store 0 1 0 9, .markAsWritten 1, .peek]

theorem run_contract_wraps :
    ∃ p, step.run (init 2 (by decide) fun _ => 0) readWhileOut = some p ∧
      (fifo ℕ).Accepts [] p.2 ∧ p.1.queue.mSize ≤ 2 := by
  have hsome : (step.run (init 2 (by decide) fun _ => 0) readWhileOut).isSome := by decide
  obtain ⟨p, hrun⟩ := Option.isSome_iff_exists.1 hsome
  have h := run_contract (by decide) (fun _ => 0) hrun
  exact ⟨p, hrun, h.2.2.2.1, h.1.2.2⟩

end Use

end MozartLineage.Sensors
