import MozartLineage.Container.Ring

/-!
# The event queue of a sub-HAL

`SensorEventQueue` is a circular queue whose free slots are handed out for
somebody else to fill: `getWritableRegion` gives a contiguous run of free slots,
and `markAsWritten` makes the first slots of that run readable. The slots in
between may be filled while the queue is read, without the lock.

`contents` is the list that a queue stands for. `Region` says what holds of a
run that was handed out and has not been marked yet; it survives every `dequeue`
and every write into the run.
-/

namespace MozartLineage.Sensors

/-- A circular queue over the array `mData`, of which only the first `mCapacity`
slots are used. -/
structure SensorEventQueue (ε : Type*) where
  mCapacity : ℕ
  /-- start of the readable region -/
  mStart : ℕ
  /-- number of readable items -/
  mSize : ℕ
  mData : ℕ → ε
  mStart_lt : mStart < mCapacity

namespace SensorEventQueue

variable {ε : Type*}

/-- A new queue, over memory that holds anything. -/
def new (capacity : ℕ) (hcapacity : 0 < capacity) (mData : ℕ → ε) :
    SensorEventQueue ε where
  mCapacity := capacity
  mStart := 0
  mSize := 0
  mData := mData
  mStart_lt := hcapacity

/-- The first slot and the length of a run of free slots, `none` for a null
pointer and length zero. -/
def getWritableRegion (q : SensorEventQueue ε) (requestedLength : ℕ) :
    Option (ℕ × ℕ) :=
  if q.mSize = q.mCapacity ∨ requestedLength = 0 then none
  else
    -- Start writing after the last readable record.
    let firstWritable := (q.mStart + q.mSize) % q.mCapacity
    let lastWritable := firstWritable + requestedLength - 1
    -- Don't go past the end of the data array.
    let lastWritable :=
      if lastWritable > q.mCapacity - 1 then q.mCapacity - 1 else lastWritable
    -- Don't go into the readable region.
    let lastWritable :=
      if firstWritable < q.mStart ∧ lastWritable ≥ q.mStart then q.mStart - 1
      else lastWritable
    some (firstWritable, lastWritable - firstWritable + 1)

def markAsWritten (q : SensorEventQueue ε) (count : ℕ) : SensorEventQueue ε :=
  { q with mSize := q.mSize + count }

def peek (q : SensorEventQueue ε) : Option ε :=
  if q.mSize = 0 then none else some (q.mData q.mStart)

def dequeue (q : SensorEventQueue ε) : SensorEventQueue ε :=
  if q.mSize = 0 then q
  else
    { q with
      mSize := q.mSize - 1
      mStart := (q.mStart + 1) % q.mCapacity
      mStart_lt := Nat.mod_lt _ (Nat.zero_lt_of_lt q.mStart_lt) }

/-- A write into the array by whoever holds a pointer into it. -/
def store (q : SensorEventQueue ε) (slot : ℕ) (e : ε) : SensorEventQueue ε :=
  { q with mData := Function.update q.mData slot e }

/-- The readable records, in order. -/
def contents (q : SensorEventQueue ε) : List ε :=
  Ring.window q.mData q.mCapacity q.mStart q.mSize

/-- The run of `length` slots from `first` is free and follows the last readable
record without a break. -/
structure Region (q : SensorEventQueue ε) (first length : ℕ) : Prop where
  first_eq : first = (q.mStart + q.mSize) % q.mCapacity
  inside : first + length ≤ q.mCapacity
  free : q.mSize + length ≤ q.mCapacity

@[simp] theorem length_contents (q : SensorEventQueue ε) :
    q.contents.length = q.mSize := by
  simp [contents]

@[simp] theorem contents_new (capacity : ℕ) (hcapacity : 0 < capacity)
    (mData : ℕ → ε) : (new capacity hcapacity mData).contents = [] := rfl

/-- What is handed out is a non-empty run of free slots. -/
theorem region_getWritableRegion {q : SensorEventQueue ε} {n first length : ℕ}
    (hsize : q.mSize ≤ q.mCapacity)
    (h : q.getWritableRegion n = some (first, length)) :
    q.Region first length ∧ 0 < length := by
  have hlt := q.mStart_lt
  unfold getWritableRegion at h
  split at h
  · cases h
  · next hne =>
    simp only [Option.some.injEq, Prod.mk.injEq] at h
    obtain ⟨rfl, hlength⟩ := h
    have hmod : (q.mStart + q.mSize) % q.mCapacity < q.mCapacity :=
      Nat.mod_lt _ (by omega)
    -- The free slots end at the array's end, or just before the readable ones.
    rcases Nat.lt_or_ge (q.mStart + q.mSize) q.mCapacity with hs | hs
    · have hfirst := Nat.mod_eq_of_lt hs
      rw [hfirst] at hlength
      refine ⟨⟨rfl, ?_, ?_⟩, ?_⟩ <;> split_ifs at hlength <;> omega
    · have hfirst : (q.mStart + q.mSize) % q.mCapacity =
          q.mStart + q.mSize - q.mCapacity := by
        rw [Nat.mod_eq_sub_mod hs, Nat.mod_eq_of_lt (by omega)]
      rw [hfirst] at hlength
      refine ⟨⟨rfl, ?_, ?_⟩, ?_⟩ <;> split_ifs at hlength <;> omega

theorem getWritableRegion_eq_none_iff (q : SensorEventQueue ε) {n : ℕ}
    (hn : 0 < n) : q.getWritableRegion n = none ↔ q.mSize = q.mCapacity := by
  simp [getWritableRegion, Nat.ne_of_gt hn]

/-- The slots of a free run carry on where the readable ones stop. -/
theorem Region.slot {q : SensorEventQueue ε} {first length j : ℕ}
    (h : q.Region first length) (hj : j < length) :
    (q.mStart + (q.mSize + j)) % q.mCapacity = first + j := by
  obtain ⟨rfl, hinside, -⟩ := h
  rw [← Nat.add_assoc]
  exact Ring.slot_add hinside hj

/-- A write into a free run leaves the readable records alone. -/
theorem Region.contents_store {q : SensorEventQueue ε} {first length j : ℕ}
    (h : q.Region first length) (hj : j < length) (e : ε) :
    (q.store (first + j) e).contents = q.contents := by
  refine Ring.window_update e fun i (hi : i < q.mSize) => ?_
  have hfree := h.free
  rw [← h.slot hj]
  exact Ring.slot_ne (by omega) (show q.mSize + j < i + q.mCapacity by omega)

theorem Region.store {q : SensorEventQueue ε} {first length : ℕ}
    (h : q.Region first length) (slot : ℕ) (e : ε) :
    (q.store slot e).Region first length := ⟨h.first_eq, h.inside, h.free⟩

theorem Region.mono {q : SensorEventQueue ε} {first length k : ℕ}
    (h : q.Region first length) (hk : k ≤ length) : q.Region first k :=
  ⟨h.first_eq, by have := h.inside; omega, by have := h.free; omega⟩

/-- Marking a free run appends its records. -/
theorem Region.contents_markAsWritten {q : SensorEventQueue ε} {first k : ℕ}
    (h : q.Region first k) :
    (q.markAsWritten k).contents =
      q.contents ++ (List.range k).map fun j => q.mData (first + j) := by
  refine (Ring.window_add _ _ _ _ _).trans (congrArg (q.contents ++ ·) ?_)
  refine List.map_congr_left fun j hj => ?_
  rw [← h.slot (List.mem_range.1 hj), ← Nat.add_assoc]
  rfl

/-- The head of the queue is what `peek` gives. -/
theorem peek_eq_head? (q : SensorEventQueue ε) : q.peek = q.contents.head? := by
  unfold peek contents
  cases hs : q.mSize with
  | zero => rfl
  | succ n => simp [Ring.window_succ, Nat.mod_eq_of_lt q.mStart_lt]

theorem contents_dequeue (q : SensorEventQueue ε) :
    q.dequeue.contents = q.contents.tail := by
  unfold dequeue
  cases hs : q.mSize with
  | zero => simp [contents, hs]
  | succ n => simp [contents, hs, Ring.window_succ]

theorem contents_eq_cons {q : SensorEventQueue ε} {e : ε} (h : q.peek = some e) :
    q.contents = e :: q.dequeue.contents := by
  rw [peek_eq_head?] at h
  rw [contents_dequeue]
  exact List.eq_cons_of_mem_head? h

/-- A free run stays free, and stays where it is, when the queue is read. -/
theorem Region.dequeue {q : SensorEventQueue ε} {first length : ℕ}
    (h : q.Region first length) : q.dequeue.Region first length := by
  unfold SensorEventQueue.dequeue
  split
  · exact h
  · next hs =>
    obtain ⟨hfirst, hinside, hfree⟩ := h
    refine ⟨?_, hinside, ?_⟩
    · rw [hfirst, Nat.mod_add_mod]
      congr 1
      show q.mStart + q.mSize = q.mStart + 1 + (q.mSize - 1)
      omega
    · show q.mSize - 1 + length ≤ q.mCapacity
      omega

end SensorEventQueue

end MozartLineage.Sensors
