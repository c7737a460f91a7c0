import Mathlib.Algebra.BigOperators.Group.Finset.Basic
import MozartLineage.Sensors.Multihal

/-!
# Wake-ups of `poll` and of the writers

With one caller of `poll` no wake-up is lost. A writer tells the caller of new records
only if it is waiting, and the caller tells a writer of new space only if the queue was
full; `Awake` is the invariant by which that is enough. The caller waits only when it
has found all queues empty in a row, and between two waits it takes a bounded number of
turns.
-/

namespace MozartLineage.Sensors

open Transition

variable {π : Type*}

/-- The state after the devices have been opened, with queues of any capacities. -/
def start (π : Type*) (queueCount : ℕ) (capacity : ℕ → ℕ) (hcapacity : ∀ i, 0 < capacity i)
    (memory : ℕ → ℕ → SensorsEvent) : State π :=
  { init π queueCount memory with
    queues := fun i => .new (capacity i) (hcapacity i) (memory i) }

theorem init_eq_start (queueCount : ℕ) (memory : ℕ → ℕ → SensorsEvent) :
    init π queueCount memory =
      start π queueCount (fun _ => sensorEventQueueCapacity) (fun _ => by decide) memory := rfl

/-- A call of `poll` asks for one record at least. -/
def Action.Reads : Action π → Prop
  | .poll _ maxReads _ => 0 < maxReads
  | _ => True

def Action.isScan : Action π → Bool
  | .scan _ => true
  | _ => false

namespace State

/-- All queues are empty. -/
def Drained (s : State π) : Prop := ∀ i < s.queueCount, (s.queues i).mSize = 0

/-- The last queues that `poll` has passed are empty. -/
def Scanned (s : State π) (empties : ℕ) : Prop :=
  ∃ first, s.nextReadIndex = (first + empties) % s.queueCount ∧
    ∀ k < empties, (s.queues ((first + k) % s.queueCount)).mSize = 0

/-- When as many queues as there are were found empty in a row, all are. -/
theorem Scanned.drained {s : State π} {empties : ℕ} (h : s.Scanned empties)
    (hall : s.queueCount ≤ empties) : s.Drained := by
  obtain ⟨first, -, hempty⟩ := h
  intro i hi
  obtain ⟨k, hk, rfl⟩ := Ring.exists_slot first hi
  exact hempty k (by omega)

/-- The queue at hand is empty too. -/
theorem Scanned.advance {s : State π} {empties : ℕ} (h : s.Scanned empties)
    (hnext : (s.queues s.nextReadIndex).mSize = 0) : s.advance.Scanned (empties + 1) := by
  obtain ⟨first, hindex, hempty⟩ := h
  refine ⟨first, ?_, fun k hk => ?_⟩
  · show (s.nextReadIndex + 1) % s.queueCount = (first + (empties + 1)) % s.queueCount
    rw [hindex, Nat.mod_add_mod, Nat.add_assoc]
  · rcases Nat.lt_succ_iff_lt_or_eq.1 hk with hk | rfl
    · exact hempty k hk
    · rw [hindex] at hnext
      exact hnext

/-- The only caller of `poll` and the writers are told of what they wait for. -/
structure Awake (s : State Unit) : Prop where
  index : s.nextReadIndex % s.queueCount = s.nextReadIndex
  scanning : ∀ maxReads data eventsRead empties,
    s.pollers () = .scanning maxReads data eventsRead empties →
      s.queueMutex = some () ∧ 0 < maxReads ∧ s.Scanned empties
  waiting : ∀ maxReads data signalled, s.pollers () = .waiting maxReads data signalled →
    0 < maxReads ∧ s.waitingForData = true ∧ (signalled = false → s.Drained)
  blocked : ∀ i, s.writers i = .blocked false → (s.queues i).mSize = (s.queues i).mCapacity

/-- A dequeue tells a blocked writer, if the queue was full. -/
theorem blocked_of_dequeueFrom {s : State π} {i j : ℕ}
    (h : (s.dequeueFrom i).writers j = .blocked false) :
    s.writers j = .blocked false ∧
      (j = i → (s.queues i).mSize ≠ (s.queues i).mCapacity) := by
  unfold dequeueFrom at h
  split_ifs at h with hfull
  · unfold broadcastSpace at h
    split at h
    · next signalled hw =>
      by_cases hj : j = i
      · subst hj
        simp [setQueue, setWriter] at h
      · exact ⟨by simpa [setQueue, setWriter, hj] using h, fun hji => absurd hji hj⟩
    · next hw =>
      have hw' : s.writers j = .blocked false := h
      refine ⟨hw', ?_⟩
      rintro rfl
      exact absurd hw' (hw false)
  · exact ⟨h, fun _ => hfull⟩

theorem mSize_dequeue {ε : Type*} (q : SensorEventQueue ε) :
    q.dequeue.mSize = q.mSize - 1 := by
  unfold SensorEventQueue.dequeue
  split_ifs with hq
  · simp [hq]
  · rfl

theorem mSize_of_peek {ε : Type*} {q : SensorEventQueue ε} :
    q.peek = none ↔ q.mSize = 0 := by
  simp [SensorEventQueue.peek]

end State

/-! ### Steps -/

theorem scan_awake {m : HandleMaps} {s : State Unit} {maxReads : ℕ}
    {data : ℕ → SensorsEvent} {eventsRead empties : ℕ} {r : State Unit × List (Event Unit)}
    (hs : s.Awake) (hp : s.pollers () = .scanning maxReads data eventsRead empties)
    (h : Scan m s () maxReads data eventsRead empties r) : r.1.Awake := by
  obtain ⟨hmutex, hmax, hscanned⟩ := hs.scanning _ _ _ _ hp
  cases h with
  | empty hturn hpeek =>
      refine ⟨Nat.mod_mod _ _, ?_, by simp [State.setPoller], hs.blocked⟩
      intro maxReads' data' eventsRead' empties' hp'
      obtain ⟨rfl, rfl, rfl, rfl⟩ := by simpa [State.setPoller] using hp'
      exact ⟨hmutex, hmax, hscanned.advance (State.mSize_of_peek.1 hpeek)⟩
  | read hturn event dest hpeek hdest =>
      refine ⟨Nat.mod_mod _ _, ?_, by simp [State.setPoller], fun i hi => ?_⟩
      · intro maxReads' data' eventsRead' empties' hp'
        obtain ⟨rfl, rfl, rfl, rfl⟩ := by simpa [State.setPoller] using hp'
        refine ⟨by simpa [State.setPoller, State.advance] using hmutex, hmax, ?_⟩
        exact ⟨_, (Nat.mod_mod _ _).symm, fun k hk => absurd hk (Nat.not_lt_zero k)⟩
      · obtain ⟨hblocked, hself⟩ := State.blocked_of_dequeueFrom hi
        have hne : i ≠ s.nextReadIndex := fun heq =>
          hself heq (heq ▸ hs.blocked i hblocked)
        simpa [State.setPoller, State.advance, hne] using hs.blocked i hblocked
  | wait hstop hread =>
      have hdrained : s.Drained := hscanned.drained (by omega)
      refine ⟨hs.index, by simp [State.setPoller], ?_, hs.blocked⟩
      intro maxReads' data' signalled hp'
      obtain ⟨rfl, -, -⟩ := by simpa [State.setPoller] using hp'
      exact ⟨hmax, rfl, fun _ => hdrained⟩
  | finish hstop hread =>
      exact ⟨hs.index, by simp [State.setPoller], by simp [State.setPoller], hs.blocked⟩

/-- A writer that is not blocked for good leaves everyone else awake. -/
theorem State.Awake.setWriter {s : State Unit} (hs : s.Awake) {i : ℕ} {w : Writer}
    (hw : w = .blocked false → (s.queues i).mSize = (s.queues i).mCapacity) :
    (s.setWriter i w).Awake := by
  refine ⟨hs.index, hs.scanning, hs.waiting, fun j hj => ?_⟩
  by_cases hji : j = i
  · subst hji
    exact hw (by simpa [State.setWriter] using hj)
  · exact hs.blocked j (by simpa [State.setWriter, hji] using hj)

/-- The records of a queue do not matter, only their number. -/
theorem State.Awake.setQueue {s : State Unit} (hs : s.Awake) {i : ℕ}
    {q : SensorEventQueue SensorsEvent} (hsize : q.mSize = (s.queues i).mSize)
    (hcapacity : q.mCapacity = (s.queues i).mCapacity) : (s.setQueue i q).Awake := by
  have hsizes : ∀ j, ((s.setQueue i q).queues j).mSize = (s.queues j).mSize := by
    intro j
    by_cases hj : j = i
    · subst hj
      simpa [State.setQueue] using hsize
    · simp [State.setQueue, hj]
  refine ⟨hs.index, ?_, ?_, fun j hj => ?_⟩
  · intro maxReads data eventsRead empties hp
    obtain ⟨hmutex, hmax, first, hindex, hempty⟩ := hs.scanning _ _ _ _ hp
    exact ⟨hmutex, hmax, first, hindex, fun k hk => (hsizes _).trans (hempty k hk)⟩
  · intro maxReads data signalled hp
    obtain ⟨hmax, hwaiting, hdrained⟩ := hs.waiting _ _ _ hp
    exact ⟨hmax, hwaiting, fun h i hi => (hsizes _).trans (hdrained h i hi)⟩
  · rw [hsizes, hs.blocked j hj]
    by_cases hji : j = i
    · subst hji
      simpa [State.setQueue] using hcapacity.symm
    · simp [State.setQueue, hji]

/-- A writer that adds records tells the caller of `poll`, if it is waiting. -/
theorem mark_awake {s t : State Unit} {i : ℕ} {events : List SensorsEvent} (hs : s.Awake)
    (hmutex : s.queueMutex = none)
    (ht : t = (s.setQueue i ((s.queues i).markAsWritten events.length)).setWriter i
      .requesting) :
    (if s.waitingForData then t.broadcastData else t).Awake := by
  have hblocked : ∀ j, t.writers j = .blocked false →
      (t.queues j).mSize = (t.queues j).mCapacity := by
    subst ht
    intro j hj
    have hji : j ≠ i := by
      rintro rfl
      simp [State.setWriter] at hj
    simpa [State.setWriter, State.setQueue, hji] using
      hs.blocked j (by simpa [State.setWriter, State.setQueue, hji] using hj)
  have hidle : ∀ maxReads data eventsRead empties,
      s.pollers () ≠ .scanning maxReads data eventsRead empties := by
    intro maxReads data eventsRead empties hp
    simpa [hmutex] using (hs.scanning _ _ _ _ hp).1
  have hpollers : t.pollers = s.pollers := by rw [ht]; rfl
  have hindex : t.nextReadIndex % t.queueCount = t.nextReadIndex := by
    rw [ht]
    exact hs.index
  split_ifs with hwaiting
  · have hwaiting' : t.waitingForData = true := by rw [ht]; exact hwaiting
    refine ⟨hindex, ?_, ?_, hblocked⟩
    · intro maxReads data eventsRead empties hp
      simp only [State.broadcastData, hpollers] at hp
      split at hp
      · cases hp
      · exact absurd hp (hidle _ _ _ _)
    · intro maxReads data signalled hp
      simp only [State.broadcastData, hpollers] at hp
      split at hp
      · next hw =>
        cases hp
        exact ⟨(hs.waiting _ _ _ hw).1, hwaiting', by simp⟩
      · next hw => exact absurd hp (hw _ _ _)
  · refine ⟨hindex, ?_, ?_, hblocked⟩
    · intro maxReads data eventsRead empties hp
      exact absurd (hpollers ▸ hp) (hidle _ _ _ _)
    · intro maxReads data signalled hp
      exact absurd (hs.waiting _ _ _ (hpollers ▸ hp)).2.1 hwaiting

/-- The caller starts to scan, with the lock. -/
theorem State.Awake.startScan {s : State Unit} (hs : s.Awake) {waitingForData : Bool}
    {maxReads : ℕ} (hmax : 0 < maxReads) (data : ℕ → SensorsEvent) :
    ({ s with waitingForData := waitingForData, queueMutex := some () }.setPoller ()
      (.scanning maxReads data 0 0)).Awake := by
  refine ⟨hs.index, ?_, by simp [State.setPoller], hs.blocked⟩
  intro maxReads' data' eventsRead' empties' hp
  obtain ⟨rfl, rfl, rfl, rfl⟩ := by simpa [State.setPoller] using hp
  exact ⟨rfl, hmax, s.nextReadIndex, hs.index.symm, fun k hk => absurd hk (Nat.not_lt_zero k)⟩

theorem step_awake {m : HandleMaps} {s : State Unit} {a : Action Unit}
    {p : State Unit × List (Event Unit)} (hs : s.Awake) (ha : a.Reads)
    (h : step m s a = some p) : p.1.Awake := by
  cases step_spec h with
  | block hi hmutex hw hfull => exact hs.setWriter fun _ => hfull
  | request hi hmutex hw hr => exact hs.setWriter fun hblocked => by cases hblocked
  | store hw hj => exact hs.setQueue rfl rfl
  | nothing hw => exact hs.setWriter fun hblocked => by cases hblocked
  | returns hw hk hle => exact hs.setWriter fun hblocked => by cases hblocked
  | mark hw hmutex ht => exact mark_awake hs hmutex ht
  | poll hp hmutex => exact hs.startScan ha _
  | scan hp hr => exact scan_awake hs hp hr
  | wake hp hmutex => exact hs.startScan (hs.waiting _ _ _ hp).1 _

/-! ### Turns -/

/-- The caller of `poll` is in its inner loop. -/
def State.Scans (s : State Unit) : Prop :=
  ∃ maxReads data eventsRead empties,
    s.pollers () = .scanning maxReads data eventsRead empties

/-- The number of turns that the caller of `poll` can still take before it waits or
returns: it goes round all queues once for every record, and once more. -/
def State.turnsLeft (s : State Unit) : ℕ :=
  match s.pollers () with
  | .scanning _ _ _ empties =>
      (∑ i ∈ Finset.range s.queueCount, (s.queues i).mSize) * (s.queueCount + 1) +
        (s.queueCount - empties) + 1
  | _ => 0

theorem setPoller_self [DecidableEq π] (s : State π) (p : π) (c : Poller) :
    (s.setPoller p c).pollers p = c := Function.update_self ..

theorem turnsLeft_of_scanning {s : State Unit} {maxReads : ℕ} {data : ℕ → SensorsEvent}
    {eventsRead empties : ℕ} (hp : s.pollers () = .scanning maxReads data eventsRead empties) :
    s.turnsLeft = (∑ i ∈ Finset.range s.queueCount, (s.queues i).mSize) *
      (s.queueCount + 1) + (s.queueCount - empties) + 1 := by
  simp [State.turnsLeft, hp]

/-- A dequeue takes one record away from all that there are. -/
theorem sum_mSize_dequeueFrom {s : State π} {i : ℕ} (hi : i < s.queueCount)
    (hne : (s.queues i).mSize ≠ 0) :
    ∑ j ∈ Finset.range s.queueCount, (s.queues j).mSize =
      (∑ j ∈ Finset.range s.queueCount, ((s.dequeueFrom i).queues j).mSize) + 1 := by
  have hmem : i ∈ Finset.range s.queueCount := Finset.mem_range.2 hi
  rw [← Finset.add_sum_erase _ _ hmem, ← Finset.add_sum_erase _ _ hmem]
  have hothers : ∑ j ∈ (Finset.range s.queueCount).erase i,
      ((s.dequeueFrom i).queues j).mSize =
      ∑ j ∈ (Finset.range s.queueCount).erase i, (s.queues j).mSize :=
    Finset.sum_congr rfl fun j hj => by simp [Finset.ne_of_mem_erase hj]
  rw [hothers, State.dequeueFrom_queues, Function.update_self, State.mSize_dequeue]
  omega

theorem scan_turnsLeft {m : HandleMaps} {s : State Unit} {maxReads : ℕ}
    {data : ℕ → SensorsEvent} {eventsRead empties : ℕ} {r : State Unit × List (Event Unit)}
    (hs : s.Awake) (hp : s.pollers () = .scanning maxReads data eventsRead empties)
    (h : Scan m s () maxReads data eventsRead empties r) : r.1.turnsLeft < s.turnsLeft := by
  rw [turnsLeft_of_scanning hp]
  cases h with
  | empty hturn hpeek =>
      rw [turnsLeft_of_scanning (setPoller_self s.advance _ _)]
      simp only [State.setPoller, State.advance]
      omega
  | read hturn event dest hpeek hdest =>
      have hindex : s.nextReadIndex < s.queueCount := by
        rw [← hs.index]
        exact Nat.mod_lt _ (by omega)
      have hne : (s.queues s.nextReadIndex).mSize ≠ 0 := fun hzero => by
        simp [State.mSize_of_peek.2 hzero] at hpeek
      rw [turnsLeft_of_scanning (setPoller_self (s.dequeueFrom _).advance _ _),
        sum_mSize_dequeueFrom hindex hne]
      simp only [State.setPoller, State.advance, State.dequeueFrom_queueCount, Nat.add_mul,
        Nat.one_mul]
      omega
  | wait hstop hread => simp [State.turnsLeft, State.setPoller]
  | finish hstop hread => simp [State.turnsLeft, State.setPoller]

/-- A turn brings the caller of `poll` closer to the end of its loop, and nobody else
takes it away from there. -/
theorem step_turnsLeft {m : HandleMaps} {s : State Unit} {a : Action Unit}
    {p : State Unit × List (Event Unit)} (hs : s.Awake) (hscans : s.Scans)
    (h : step m s a = some p) :
    p.1.turnsLeft + (if a.isScan then 1 else 0) ≤ s.turnsLeft := by
  obtain ⟨maxReads, data, eventsRead, empties, hscanning⟩ := hscans
  cases step_spec h with
  | block hi hmutex hw hfull => exact Nat.le_refl s.turnsLeft
  | request hi hmutex hw hr => exact Nat.le_refl s.turnsLeft
  | @store i j first length e hw hj =>
      have hsizes : ∀ k, ((s.setQueue i ((s.queues i).store (first + j) e)).queues k).mSize =
          (s.queues k).mSize := by
        intro k
        by_cases hk : k = i
        · subst hk
          simp [State.setQueue, SensorEventQueue.store]
        · simp [State.setQueue, hk]
      have hturns : (s.setQueue i ((s.queues i).store (first + j) e)).turnsLeft =
          s.turnsLeft := by
        simp only [State.turnsLeft, hsizes]
        rfl
      exact hturns.le
  | nothing hw => exact Nat.le_refl s.turnsLeft
  | returns hw hk hle => exact Nat.le_refl s.turnsLeft
  | mark hw hmutex ht =>
      have hheld := (hs.scanning _ _ _ _ hscanning).1
      simp [hmutex] at hheld
  | poll hp hmutex => simp [hscanning] at hp
  | scan hp hr => exact scan_turnsLeft hs hp hr
  | wake hp hmutex => simp [hscanning] at hp

/-- What the others do meanwhile does not give the caller of `poll` more turns. -/
theorem countP_isScan_le {m : HandleMaps} {s t : State Unit} {as : List (Action Unit)}
    {os : List (Event Unit)} (hs : s.Awake) (hreads : ∀ a ∈ as, a.Reads)
    (hscans : (step m).Meets (fun u _ => u.Scans) s as)
    (hrun : (step m).run s as = some (t, os)) : as.countP Action.isScan ≤ s.turnsLeft := by
  induction as generalizing s os with
  | nil => exact Nat.zero_le _
  | cons a as ih =>
      obtain ⟨u, o, os', hu, htail, rfl⟩ := Machine.run_cons_eq_some.1 hrun
      obtain ⟨hscan, hscans⟩ := Machine.meets_cons.1 hscans
      have hawake : u.Awake := step_awake (p := (u, o)) hs (hreads a (by simp)) hu
      have hturn := step_turnsLeft hs hscan hu
      have htail := ih hawake (fun b hb => hreads b (by simp [hb])) (hscans u o hu) htail
      rw [List.countP_cons]
      exact Nat.le_trans (Nat.add_le_add_right htail _) hturn

theorem start_awake {queueCount : ℕ} {capacity : ℕ → ℕ} {hcapacity : ∀ i, 0 < capacity i}
    {memory : ℕ → ℕ → SensorsEvent} :
    (start Unit queueCount capacity hcapacity memory).Awake :=
  ⟨Nat.zero_mod _, by simp [start, init], by simp [start, init], by simp [start, init]⟩

/-- The caller of `poll` has given up the lock to wait for data. -/
def State.Waits (s : State Unit) : Prop :=
  ∃ maxReads data signalled, s.pollers () = .waiting maxReads data signalled

/-- To begin to wait, the caller must have found all queues empty. -/
theorem drained_of_waits {m : HandleMaps} {s : State Unit} {a : Action Unit}
    {p : State Unit × List (Event Unit)} (hs : s.Awake) (h : step m s a = some p)
    (hbefore : ¬ s.Waits) (hafter : p.1.Waits) : s.Drained := by
  obtain ⟨maxReads', data', signalled, hwaiting⟩ := hafter
  cases step_spec h with
  | mark hw hmutex ht =>
      subst ht
      refine absurd ?_ hbefore
      split_ifs at hwaiting
      · simp only [State.broadcastData] at hwaiting
        split at hwaiting
        · next hp => exact ⟨_, _, _, hp⟩
        · exact ⟨_, _, _, hwaiting⟩
      · exact ⟨_, _, _, hwaiting⟩
  | poll hp hmutex => simp [State.setPoller] at hwaiting
  | @scan _ maxReads data eventsRead empties r hp hr =>
      obtain ⟨hmutex, hmax, hscanned⟩ := hs.scanning _ _ _ _ hp
      cases hr with
      | empty hturn hpeek => simp [State.setPoller] at hwaiting
      | read hturn event dest hpeek hdest => simp [State.setPoller] at hwaiting
      | wait hstop hread => exact hscanned.drained (by omega)
      | finish hstop hread => simp [State.setPoller] at hwaiting
  | wake hp hmutex => simp [State.setPoller] at hwaiting
  | _ => exact absurd ⟨_, _, _, hwaiting⟩ hbefore

theorem run_awake {m : HandleMaps} {queueCount : ℕ} {capacity : ℕ → ℕ}
    {hcapacity : ∀ i, 0 < capacity i} {memory : ℕ → ℕ → SensorsEvent} {s : State Unit}
    {as : List (Action Unit)} {os : List (Event Unit)} (hreads : ∀ a ∈ as, a.Reads)
    (hrun : (step m).run (start Unit queueCount capacity hcapacity memory) as =
      some (s, os)) : s.Awake :=
  Machine.run_invariant_of_meets (P := fun s _ => s.Awake)
    (fun _ _ _ _ _ hs ha h => step_awake hs ha h) start_awake
    (Machine.meets_of_forall (G := fun _ a => a.Reads) (fun a ha _ => hreads a ha) _) hrun

/-- Whatever the capacities of the queues and the order of the sections, nobody waits
without a reason and a wake-up to come. While the caller of `poll` waits and has not been
signalled, all queues are empty and the writers know that it waits. While a writer waits
for space and has not been signalled, its queue is full. The caller begins to wait only
when all queues are empty. In its inner loop it can always take a turn, and takes a
bounded number of them, whatever the others do in between. -/
theorem run_wakeups {m : HandleMaps} {queueCount : ℕ} {capacity : ℕ → ℕ}
    {hcapacity : ∀ i, 0 < capacity i} {memory : ℕ → ℕ → SensorsEvent} {s : State Unit}
    {as : List (Action Unit)} {os : List (Event Unit)} (hreads : ∀ a ∈ as, a.Reads)
    (hrun : (step m).run (start Unit queueCount capacity hcapacity memory) as =
      some (s, os)) :
    (∀ maxReads data, s.pollers () = .waiting maxReads data false →
      s.Drained ∧ s.waitingForData = true) ∧
    (∀ i, s.writers i = .blocked false → (s.queues i).mSize = (s.queues i).mCapacity) ∧
    (∀ a t o, step m s a = some (t, o) → ¬ s.Waits → t.Waits → s.Drained) ∧
    (s.Scans → (step m s (.scan ())).isSome) ∧
    ∀ as' t os', (∀ a ∈ as', a.Reads) → (step m).Meets (fun u _ => u.Scans) s as' →
      (step m).run s as' = some (t, os') → as'.countP Action.isScan ≤ s.turnsLeft := by
  have hs : s.Awake := run_awake hreads hrun
  refine ⟨fun maxReads data hp => ?_, hs.blocked, fun a t o h => ?_, ?_, ?_⟩
  · obtain ⟨-, hwaiting, hdrained⟩ := hs.waiting _ _ _ hp
    exact ⟨hdrained rfl, hwaiting⟩
  · exact drained_of_waits (p := (t, o)) hs h
  · rintro ⟨maxReads, data, eventsRead, empties, hp⟩
    simp [step, hp]
  · exact fun as' t os' => countP_isScan_le hs

/-- Two queues of one record each. The caller of `poll` finds them empty and waits; a
writer fills its queue and waits too. -/
def fillsWhileWaiting : List (Action Unit) :=
  [.poll () 1 fun _ => ⟨0, 0, 0, 0⟩, .scan (), .scan (), .scan (), .requestRegion 1,
    .store 1 0 ⟨1, 7, 0, 10⟩, .subPollReturns 1 1, .markAsWritten 1, .requestRegion 1]

theorem wakeups_fillsWhileWaiting :
    ∃ s os, (step (.registered [⟨1, 7⟩])).run
        (start Unit 2 (fun _ => 1) (fun _ => by decide) fun _ _ => ⟨0, 0, 0, 0⟩)
        fillsWhileWaiting = some (s, os) ∧
      s.writers 1 = .blocked false ∧ (s.queues 1).mSize = (s.queues 1).mCapacity := by
  have hrun : ∃ s os, (step (.registered [⟨1, 7⟩])).run
      (start Unit 2 (fun _ => 1) (fun _ => by decide) fun _ _ => ⟨0, 0, 0, 0⟩)
      fillsWhileWaiting = some (s, os) ∧ s.writers 1 = .blocked false := ⟨_, _, rfl, rfl⟩
  obtain ⟨s, os, hrun, hblocked⟩ := hrun
  have hreads : ∀ a ∈ fillsWhileWaiting, a.Reads := by
    simp [fillsWhileWaiting, Action.Reads]
  exact ⟨s, os, hrun, hblocked, (run_wakeups hreads hrun).2.1 1 hblocked⟩

end MozartLineage.Sensors
