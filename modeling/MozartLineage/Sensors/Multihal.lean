import MozartLineage.Sensors.Handle
import MozartLineage.Sensors.SensorEventQueue
import MozartLineage.Transition.Run

/-!
# The writer threads and `poll`

Every sub-HAL has a queue and a writer thread. The writer asks for a free run of
its queue under `queueMutex`, lets the sub-HAL fill it without the lock, and
marks what was written under the lock again. `poll` copies records out of the
queues in turn, and waits when it has found all of them empty.

The sections of a writer under the lock are one step each. `poll` holds the lock
over many steps, one for each turn of its inner loop, and gives it up only while
it waits; `queueMutex` says which caller holds it. The sub-HAL may write to its
run, in any order, whatever the others do meanwhile.

A condition variable may wake up at any time; `signalled` records that a wake-up
is due.
-/

namespace MozartLineage.Sensors

open Transition

def sensorEventQueueCapacity : ℕ := 36

/-- Where a writer thread stands. -/
inductive Writer where
  /-- before the section that requests a region -/
  | requesting
  /-- in `waitForSpace` -/
  | blocked (signalled : Bool)
  /-- in the poll of the sub-HAL, with the region it was given -/
  | polling (first length : ℕ)
  /-- before the section that marks what the sub-HAL has returned: its first
  records in the region, of which the thread only knows the number -/
  | polled (events : List SensorsEvent)

/-- Where a caller of `poll` stands. `data` is its buffer. -/
inductive Poller where
  | idle
  /-- in the inner loop, with the lock -/
  | scanning (maxReads : ℕ) (data : ℕ → SensorsEvent) (eventsRead empties : ℕ)
  /-- in the wait for data -/
  | waiting (maxReads : ℕ) (data : ℕ → SensorsEvent) (signalled : Bool)

structure State (π : Type*) where
  queueCount : ℕ
  queues : ℕ → SensorEventQueue SensorsEvent
  nextReadIndex : ℕ
  waitingForData : Bool
  queueMutex : Option π
  writers : ℕ → Writer
  pollers : π → Poller

inductive Action (π : Type*) where
  /-- writer `i` takes the lock to request a region, or wakes up with it -/
  | requestRegion (i : ℕ)
  /-- sub-HAL `i` writes to slot `j` of its region -/
  | store (i j : ℕ) (e : SensorsEvent)
  /-- the poll of sub-HAL `i` returns `k` events; `0` stands for an error too -/
  | subPollReturns (i k : ℕ)
  /-- writer `i` takes the lock to mark its events -/
  | markAsWritten (i : ℕ)
  /-- `p` calls `poll` with its buffer and takes the lock -/
  | poll (p : π) (maxReads : ℕ) (data : ℕ → SensorsEvent)
  /-- one turn of the loops of `poll` in `p` -/
  | scan (p : π)
  /-- the wait of `p` ends, with the lock -/
  | wake (p : π)

inductive Event (π : Type*) where
  /-- the records that writer `i` has made readable -/
  | published (i : ℕ) (events : List SensorsEvent)
  /-- `p` has copied a record of queue `i` and removed it -/
  | dequeued (p : π) (i : ℕ) (e : SensorsEvent)
  /-- `poll` returns the first records of its buffer to `p` -/
  | returned (p : π) (maxReads : ℕ) (events : List SensorsEvent)

/-- The first `n` records of a buffer. -/
def firstReads (data : ℕ → SensorsEvent) (n : ℕ) : List SensorsEvent :=
  (List.range n).map data

namespace State

variable {π : Type*}

def setQueue (s : State π) (i : ℕ) (q : SensorEventQueue SensorsEvent) : State π :=
  { s with queues := Function.update s.queues i q }

def setWriter (s : State π) (i : ℕ) (w : Writer) : State π :=
  { s with writers := Function.update s.writers i w }

def setPoller [DecidableEq π] (s : State π) (p : π) (c : Poller) : State π :=
  { s with pollers := Function.update s.pollers p c }

/-- A broadcast on the space condition of queue `i`. -/
def broadcastSpace (s : State π) (i : ℕ) : State π :=
  match s.writers i with
  | .blocked _ => s.setWriter i (.blocked true)
  | _ => s

/-- `dequeue` on queue `i`, which tells its writer when the queue was full. -/
def dequeueFrom (s : State π) (i : ℕ) : State π :=
  (if (s.queues i).mSize = (s.queues i).mCapacity then s.broadcastSpace i
    else s).setQueue i (s.queues i).dequeue

/-- `poll` goes on to the next queue. -/
def advance (s : State π) : State π :=
  { s with nextReadIndex := (s.nextReadIndex + 1) % s.queueCount }

/-- A broadcast on `data_available_cond`. -/
def broadcastData (s : State π) : State π :=
  { s with pollers := fun p =>
      match s.pollers p with
      | .waiting maxReads data _ => .waiting maxReads data true
      | c => c }

@[simp] theorem dequeueFrom_queues (s : State π) (i : ℕ) :
    (s.dequeueFrom i).queues = Function.update s.queues i (s.queues i).dequeue := by
  unfold dequeueFrom broadcastSpace
  split_ifs <;> [split; skip] <;> rfl

@[simp] theorem dequeueFrom_pollers (s : State π) (i : ℕ) :
    (s.dequeueFrom i).pollers = s.pollers := by
  unfold dequeueFrom broadcastSpace
  split_ifs <;> [split; skip] <;> rfl

@[simp] theorem dequeueFrom_queueCount (s : State π) (i : ℕ) :
    (s.dequeueFrom i).queueCount = s.queueCount := by
  unfold dequeueFrom broadcastSpace
  split_ifs <;> [split; skip] <;> rfl

@[simp] theorem dequeueFrom_nextReadIndex (s : State π) (i : ℕ) :
    (s.dequeueFrom i).nextReadIndex = s.nextReadIndex := by
  unfold dequeueFrom broadcastSpace
  split_ifs <;> [split; skip] <;> rfl

@[simp] theorem dequeueFrom_queueMutex (s : State π) (i : ℕ) :
    (s.dequeueFrom i).queueMutex = s.queueMutex := by
  unfold dequeueFrom broadcastSpace
  split_ifs <;> [split; skip] <;> rfl

/-- A dequeue does at most signal a writer that is blocked. -/
theorem dequeueFrom_writers (s : State π) (i j : ℕ) :
    (s.dequeueFrom i).writers j = s.writers j ∨
      ∃ signalled, s.writers j = .blocked signalled ∧
        (s.dequeueFrom i).writers j = .blocked true := by
  unfold dequeueFrom broadcastSpace
  split_ifs
  · split
    · next signalled hi =>
      by_cases hj : j = i
      · subst hj
        exact Or.inr ⟨signalled, hi, by simp [setQueue, setWriter]⟩
      · exact Or.inl (by simp [setQueue, setWriter, hj])
    · exact Or.inl rfl
  · exact Or.inl rfl

end State

section Step

variable {π : Type*}

/-- The section of `writerTask` that requests a region, waiting for space where
there is none. -/
def requestRegion (s : State π) (i : ℕ) : Option (State π × List (Event π)) :=
  let q := s.queues i
  if q.mSize = q.mCapacity then some (s.setWriter i (.blocked false), [])
  else
    (q.getWritableRegion sensorEventQueueCapacity).map fun r =>
      (s.setWriter i (.polling r.1 r.2), [])

/-- One turn of the loops of `poll`. -/
def scan [DecidableEq π] (m : HandleMaps) (s : State π) (p : π) (maxReads : ℕ)
    (data : ℕ → SensorsEvent) (eventsRead empties : ℕ) :
    State π × List (Event π) :=
  if empties < s.queueCount ∧ eventsRead < maxReads then
    match (s.queues s.nextReadIndex).peek with
    | none =>
        (s.advance.setPoller p
          (.scanning maxReads data eventsRead (empties + 1)), [])
    | some event =>
        let dest := copyEventRemapHandle m event s.nextReadIndex
        -- Bad handle, do not pass corrupted event upstream!
        let read := if dest.sensor = -1 then eventsRead else eventsRead + 1
        ((s.dequeueFrom s.nextReadIndex).advance.setPoller p
          (.scanning maxReads (Function.update data eventsRead dest) read 0),
          [.dequeued p s.nextReadIndex event])
  else if eventsRead = 0 then
    -- The queues have been scanned and none contain data, so wait.
    ({ s with waitingForData := true, queueMutex := none }.setPoller p
      (.waiting maxReads data false), [])
  else
    ({ s with queueMutex := none }.setPoller p .idle,
      [.returned p maxReads (firstReads data eventsRead)])

/-- The four ways in which a turn of `poll` goes: it finds the queue empty, it
reads a record, it goes to wait, or it returns. -/
inductive Scan [DecidableEq π] (m : HandleMaps) (s : State π) (p : π)
    (maxReads : ℕ) (data : ℕ → SensorsEvent) (eventsRead empties : ℕ) :
    State π × List (Event π) → Prop where
  | empty (hturn : empties < s.queueCount ∧ eventsRead < maxReads)
      (hpeek : (s.queues s.nextReadIndex).peek = none) :
      Scan m s p maxReads data eventsRead empties
        (s.advance.setPoller p
          (.scanning maxReads data eventsRead (empties + 1)), [])
  | read (hturn : empties < s.queueCount ∧ eventsRead < maxReads)
      (event dest : SensorsEvent)
      (hpeek : (s.queues s.nextReadIndex).peek = some event)
      (hdest : dest = copyEventRemapHandle m event s.nextReadIndex) :
      Scan m s p maxReads data eventsRead empties
        ((s.dequeueFrom s.nextReadIndex).advance.setPoller p
          (.scanning maxReads (Function.update data eventsRead dest)
            (if dest.sensor = -1 then eventsRead else eventsRead + 1) 0),
          [.dequeued p s.nextReadIndex event])
  | wait (hstop : ¬ (empties < s.queueCount ∧ eventsRead < maxReads))
      (hread : eventsRead = 0) :
      Scan m s p maxReads data eventsRead empties
        ({ s with waitingForData := true, queueMutex := none }.setPoller p
          (.waiting maxReads data false), [])
  | finish (hstop : ¬ (empties < s.queueCount ∧ eventsRead < maxReads))
      (hread : eventsRead ≠ 0) :
      Scan m s p maxReads data eventsRead empties
        ({ s with queueMutex := none }.setPoller p .idle,
          [.returned p maxReads (firstReads data eventsRead)])

theorem scan_spec [DecidableEq π] (m : HandleMaps) (s : State π) (p : π)
    (maxReads : ℕ) (data : ℕ → SensorsEvent) (eventsRead empties : ℕ) :
    Scan m s p maxReads data eventsRead empties
      (scan m s p maxReads data eventsRead empties) := by
  unfold scan
  by_cases hturn : empties < s.queueCount ∧ eventsRead < maxReads
  · rw [if_pos hturn]
    cases hpeek : (s.queues s.nextReadIndex).peek with
    | none => exact .empty hturn hpeek
    | some event => exact .read hturn event _ hpeek rfl
  · rw [if_neg hturn]
    by_cases hread : eventsRead = 0
    · rw [if_pos hread]
      exact .wait hturn hread
    · rw [if_neg hread]
      exact .finish hturn hread

/-- One step of the proxy, with the handle maps `m`. -/
def step [DecidableEq π] (m : HandleMaps) : Machine (State π) (Action π) (Event π)
  | s, .requestRegion i =>
      if i < s.queueCount ∧ s.queueMutex.isNone then
        match s.writers i with
        | .requesting => requestRegion s i
        | .blocked _ => requestRegion s i
        | _ => none
      else none
  | s, .store i j e =>
      match s.writers i with
      | .polling first length =>
          if j < length then
            some (s.setQueue i ((s.queues i).store (first + j) e), [])
          else none
      | _ => none
  | s, .subPollReturns i k =>
      match s.writers i with
      | .polling first length =>
          if k = 0 then some (s.setWriter i .requesting, [])
          else if k ≤ length then
            some (s.setWriter i (.polled ((List.range k).map fun j =>
              (s.queues i).mData (first + j))), [])
          else none
      | _ => none
  | s, .markAsWritten i =>
      match s.writers i with
      | .polled events =>
          if s.queueMutex.isNone then
            let s' := (s.setQueue i
              ((s.queues i).markAsWritten events.length)).setWriter i .requesting
            some (if s.waitingForData then s'.broadcastData else s',
              [.published i events])
          else none
      | _ => none
  | s, .poll p maxReads data =>
      match s.pollers p with
      | .idle =>
          if s.queueMutex.isNone then
            some ({ s with queueMutex := some p }.setPoller p
              (.scanning maxReads data 0 0), [])
          else none
      | _ => none
  | s, .scan p =>
      match s.pollers p with
      | .scanning maxReads data eventsRead empties =>
          some (scan m s p maxReads data eventsRead empties)
      | _ => none
  | s, .wake p =>
      match s.pollers p with
      | .waiting maxReads data _ =>
          if s.queueMutex.isNone then
            some ({ s with waitingForData := false, queueMutex := some p }.setPoller
              p (.scanning maxReads data 0 0), [])
          else none
      | _ => none

/-- Everything that a step can be. -/
inductive Step [DecidableEq π] (m : HandleMaps) (s : State π) :
    Action π → State π × List (Event π) → Prop where
  | block {i : ℕ} (hi : i < s.queueCount) (hmutex : s.queueMutex = none)
      (hw : s.writers i = .requesting ∨ ∃ b, s.writers i = .blocked b)
      (hfull : (s.queues i).mSize = (s.queues i).mCapacity) :
      Step m s (.requestRegion i) (s.setWriter i (.blocked false), [])
  | request {i first length : ℕ} (hi : i < s.queueCount) (hmutex : s.queueMutex = none)
      (hw : s.writers i = .requesting ∨ ∃ b, s.writers i = .blocked b)
      (hr : (s.queues i).getWritableRegion sensorEventQueueCapacity =
        some (first, length)) :
      Step m s (.requestRegion i) (s.setWriter i (.polling first length), [])
  | store {i j first length : ℕ} {e : SensorsEvent}
      (hw : s.writers i = .polling first length) (hj : j < length) :
      Step m s (.store i j e) (s.setQueue i ((s.queues i).store (first + j) e), [])
  | nothing {i first length : ℕ} (hw : s.writers i = .polling first length) :
      Step m s (.subPollReturns i 0) (s.setWriter i .requesting, [])
  | returns {i k first length : ℕ} (hw : s.writers i = .polling first length)
      (hk : 0 < k) (hle : k ≤ length) :
      Step m s (.subPollReturns i k) (s.setWriter i (.polled
        ((List.range k).map fun j => (s.queues i).mData (first + j))), [])
  | mark {i : ℕ} {events : List SensorsEvent} {t : State π}
      (hw : s.writers i = .polled events) (hmutex : s.queueMutex = none)
      (ht : t = (s.setQueue i ((s.queues i).markAsWritten
        events.length)).setWriter i .requesting) :
      Step m s (.markAsWritten i)
        (if s.waitingForData then t.broadcastData else t, [.published i events])
  | poll {p : π} {maxReads : ℕ} {data : ℕ → SensorsEvent}
      (hp : s.pollers p = .idle) (hmutex : s.queueMutex = none) :
      Step m s (.poll p maxReads data)
        ({ s with queueMutex := some p }.setPoller p
          (.scanning maxReads data 0 0), [])
  | scan {p : π} {maxReads : ℕ} {data : ℕ → SensorsEvent} {eventsRead empties : ℕ}
      {r : State π × List (Event π)}
      (hp : s.pollers p = .scanning maxReads data eventsRead empties)
      (hr : Scan m s p maxReads data eventsRead empties r) :
      Step m s (.scan p) r
  | wake {p : π} {maxReads : ℕ} {data : ℕ → SensorsEvent} {signalled : Bool}
      (hp : s.pollers p = .waiting maxReads data signalled)
      (hmutex : s.queueMutex = none) :
      Step m s (.wake p)
        ({ s with waitingForData := false, queueMutex := some p }.setPoller p
          (.scanning maxReads data 0 0), [])

theorem requestRegion_spec [DecidableEq π] {m : HandleMaps} {s : State π} {i : ℕ}
    {r : State π × List (Event π)} (hi : i < s.queueCount)
    (hmutex : s.queueMutex = none)
    (hw : s.writers i = .requesting ∨ ∃ b, s.writers i = .blocked b)
    (h : requestRegion s i = some r) : Step m s (.requestRegion i) r := by
  simp only [requestRegion] at h
  split at h
  · next hfull =>
    cases h
    exact .block hi hmutex hw hfull
  · obtain ⟨⟨first, length⟩, hr, h⟩ := Option.map_eq_some_iff.1 h
    cases h
    exact .request hi hmutex hw hr

theorem step_spec [DecidableEq π] {m : HandleMaps} {s : State π} {a : Action π}
    {r : State π × List (Event π)} (h : step m s a = some r) : Step m s a r := by
  cases a with
  | requestRegion i =>
      simp only [step, Option.isNone_iff_eq_none] at h
      split at h
      · next hi =>
        split at h
        · next hw => exact requestRegion_spec hi.1 hi.2 (.inl hw) h
        · next b hw => exact requestRegion_spec hi.1 hi.2 (.inr ⟨b, hw⟩) h
        · cases h
      · cases h
  | store i j e =>
      simp only [step] at h
      split at h
      · next hw =>
        split_ifs at h with hj
        cases h
        exact .store hw hj
      · cases h
  | subPollReturns i k =>
      simp only [step] at h
      split at h
      · next hw =>
        split_ifs at h with hk hle
        · cases h
          subst hk
          exact .nothing hw
        · cases h
          exact .returns hw (Nat.pos_of_ne_zero hk) hle
      · cases h
  | markAsWritten i =>
      simp only [step, Option.isNone_iff_eq_none] at h
      split at h
      · next hw =>
        split_ifs at h with hmutex hwait <;> cases h
        · simpa [hwait] using Step.mark hw hmutex rfl
        · simpa [hwait] using Step.mark hw hmutex rfl
      · cases h
  | poll p maxReads data =>
      simp only [step, Option.isNone_iff_eq_none] at h
      split at h
      · next hp =>
        split_ifs at h with hmutex
        cases h
        exact .poll hp hmutex
      · cases h
  | scan p =>
      simp only [step] at h
      split at h
      · next maxReads data eventsRead empties hp =>
        cases h
        exact .scan hp (scan_spec m s p maxReads data eventsRead empties)
      · cases h
  | wake p =>
      simp only [step, Option.isNone_iff_eq_none] at h
      split at h
      · next hp =>
        split_ifs at h with hmutex
        cases h
        exact .wake hp hmutex
      · cases h

/-- The state after the devices have been opened: the queues are new, over
memory that holds anything, and nobody has started. -/
def init (π : Type*) (queueCount : ℕ) (memory : ℕ → ℕ → SensorsEvent) :
    State π where
  queueCount := queueCount
  queues i := .new sensorEventQueueCapacity (by decide) (memory i)
  nextReadIndex := 0
  waitingForData := false
  queueMutex := none
  writers _ := .requesting
  pollers _ := .idle

end Step

end MozartLineage.Sensors
