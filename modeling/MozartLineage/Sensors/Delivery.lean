import MozartLineage.Sensors.Multihal

/-!
# Delivery of sensor events

What a run of the proxy emits is read off in four histories: the records that
were published by sub-HAL `i`, those that were dequeued from queue `i`, those
that caller `p` has dequeued, with their queues, and those that `poll` has
returned to `p`.

`Channel` ties the first two to the queue and its writer: it says that the queue
holds exactly what was published and not yet dequeued, and what the writer's
region is good for. `Reader` ties the last two to the buffer of a caller. Both
are kept by every step.
-/

namespace MozartLineage.Sensors

open Transition

variable {π : Type*}

namespace Event

def publishedBy (i : ℕ) : Event π → List SensorsEvent
  | .published j events => if j = i then events else []
  | _ => []

def dequeuedFrom (i : ℕ) : Event π → List SensorsEvent
  | .dequeued _ j e => if j = i then [e] else []
  | _ => []

variable [DecidableEq π]

def dequeuedBy (p : π) : Event π → List (ℕ × SensorsEvent)
  | .dequeued q j e => if q = p then [(j, e)] else []
  | _ => []

def returnedTo (p : π) : Event π → List SensorsEvent
  | .returned q _ events => if q = p then events else []
  | _ => []

end Event

/-- What a caller gets for a record of a queue: nothing, when its rewritten
sensor field is `-1`. -/
def delivered (m : HandleMaps) (r : ℕ × SensorsEvent) : Option SensorsEvent :=
  let dest := copyEventRemapHandle m r.2 r.1
  if dest.sensor = -1 then none else some dest

/-! ### One queue and its writer -/

/-- What the writer may rely on: its region is free, and holds what its sub-HAL
has returned. -/
def Writer.Holds (q : SensorEventQueue SensorsEvent) : Writer → Prop
  | .polling first length => q.Region first length
  | .polled events => ∃ first, q.Region first events.length ∧
      events = (List.range events.length).map fun j => q.mData (first + j)
  | _ => True

structure Channel (q : SensorEventQueue SensorsEvent) (w : Writer)
    (dequeued published : List SensorsEvent) : Prop where
  size_le : q.mSize ≤ q.mCapacity
  writer : w.Holds q
  history : dequeued ++ q.contents = published

namespace Channel

variable {q : SensorEventQueue SensorsEvent} {w : Writer}
  {dequeued published : List SensorsEvent}

theorem request (h : Channel q w dequeued published) {n first length : ℕ}
    (hr : q.getWritableRegion n = some (first, length)) :
    Channel q (.polling first length) dequeued published :=
  ⟨h.size_le, (SensorEventQueue.region_getWritableRegion h.size_le hr).1, h.history⟩

theorem store {first length j : ℕ}
    (h : Channel q (.polling first length) dequeued published) (hj : j < length)
    (e : SensorsEvent) :
    Channel (q.store (first + j) e) (.polling first length) dequeued published :=
  ⟨h.size_le, SensorEventQueue.Region.store h.writer _ e,
    (h.writer.contents_store hj e).symm ▸ h.history⟩

theorem polled {first length k : ℕ}
    (h : Channel q (.polling first length) dequeued published) (hk : k ≤ length) :
    Channel q (.polled ((List.range k).map fun j => q.mData (first + j)))
      dequeued published := by
  refine ⟨h.size_le, ⟨first, ?_, ?_⟩, h.history⟩
  · simpa using SensorEventQueue.Region.mono h.writer hk
  · simp

theorem mark {events : List SensorsEvent}
    (h : Channel q (.polled events) dequeued published) :
    Channel (q.markAsWritten events.length) .requesting dequeued
      (published ++ events) := by
  obtain ⟨first, hregion, hevents⟩ := h.writer
  refine ⟨hregion.free, trivial, ?_⟩
  rw [hregion.contents_markAsWritten, ← hevents, ← List.append_assoc, h.history]

/-- Reading the queue does not disturb the writer. -/
theorem dequeue (h : Channel q w dequeued published) {e : SensorsEvent}
    (he : q.peek = some e) :
    Channel q.dequeue w (dequeued ++ [e]) published := by
  refine ⟨?_, ?_, ?_⟩
  · have hle := h.size_le
    unfold SensorEventQueue.dequeue
    split
    · exact hle
    · exact (Nat.sub_le _ _).trans hle
  · have hdata : q.dequeue.mData = q.mData := by
      unfold SensorEventQueue.dequeue
      split <;> rfl
    cases w with
    | requesting => trivial
    | blocked signalled => trivial
    | polling first length => exact SensorEventQueue.Region.dequeue h.writer
    | polled events =>
        obtain ⟨first, hregion, hevents⟩ := h.writer
        exact ⟨first, hregion.dequeue, hdata ▸ hevents⟩
  · rw [List.append_assoc, List.singleton_append,
      ← SensorEventQueue.contents_eq_cons he]
    exact h.history

theorem setWriter (h : Channel q w dequeued published) {w' : Writer}
    (hw : w'.Holds q) : Channel q w' dequeued published :=
  ⟨h.size_le, hw, h.history⟩

end Channel

/-! ### One caller of `poll` -/

theorem firstReads_succ (data : ℕ → SensorsEvent) (n : ℕ) :
    firstReads data (n + 1) = firstReads data n ++ [data n] := by
  simp [firstReads, List.range_succ]

/-- A write behind the first `n` records is not seen among them. -/
theorem firstReads_update (data : ℕ → SensorsEvent) (n : ℕ) (e : SensorsEvent) :
    firstReads (Function.update data n e) n = firstReads data n := by
  refine List.map_congr_left fun j hj => ?_
  exact Function.update_of_ne (List.mem_range.1 hj).ne e data

/-- The records that a caller has copied and not returned yet. -/
def Poller.inHand : Poller → List SensorsEvent
  | .scanning _ data eventsRead _ => firstReads data eventsRead
  | _ => []

/-- A caller has never copied more records than it may. -/
def Poller.Bounded : Poller → Prop
  | .scanning maxReads _ eventsRead _ => eventsRead ≤ maxReads
  | _ => True

structure Reader (m : HandleMaps) (c : Poller)
    (dequeued : List (ℕ × SensorsEvent)) (returned : List SensorsEvent) : Prop where
  bounded : c.Bounded
  history : returned ++ c.inHand = dequeued.filterMap (delivered m)

namespace Reader

variable {m : HandleMaps} {maxReads eventsRead empties : ℕ}
  {data : ℕ → SensorsEvent} {dequeued : List (ℕ × SensorsEvent)}
  {returned : List SensorsEvent}

/-- A caller with nothing in hand may go wherever it has nothing in hand. -/
theorem move {c c' : Poller} (h : Reader m c dequeued returned)
    (hc : c.inHand = []) (hc' : c'.inHand = []) (hb : c'.Bounded) :
    Reader m c' dequeued returned :=
  ⟨hb, by rw [hc', ← hc]; exact h.history⟩

theorem recount (h : Reader m (.scanning maxReads data eventsRead empties)
    dequeued returned) (empties' : ℕ) :
    Reader m (.scanning maxReads data eventsRead empties') dequeued returned :=
  ⟨h.bounded, h.history⟩

/-- One record is copied: it is kept unless its handle is bad. -/
theorem read (h : Reader m (.scanning maxReads data eventsRead empties)
    dequeued returned) (hlt : eventsRead < maxReads) {i : ℕ}
    {event dest : SensorsEvent} (hdest : dest = copyEventRemapHandle m event i) :
    Reader m (.scanning maxReads (Function.update data eventsRead dest)
      (if dest.sensor = -1 then eventsRead else eventsRead + 1) 0)
      (dequeued ++ [(i, event)]) returned := by
  have hhistory : returned ++ firstReads data eventsRead =
      dequeued.filterMap (delivered m) := h.history
  subst hdest
  by_cases hbad : (copyEventRemapHandle m event i).sensor = -1
  · rw [if_pos hbad]
    refine ⟨h.bounded, ?_⟩
    have hnone : delivered m (i, event) = none := by simp [delivered, hbad]
    simp [Poller.inHand, firstReads_update, hhistory, hnone]
  · rw [if_neg hbad]
    refine ⟨hlt, ?_⟩
    have hsome : delivered m (i, event) = some (copyEventRemapHandle m event i) := by
      simp [delivered, hbad]
    simp [Poller.inHand, firstReads_succ, firstReads_update, hsome, ← hhistory]

theorem finish (h : Reader m (.scanning maxReads data eventsRead empties)
    dequeued returned) :
    Reader m .idle dequeued (returned ++ firstReads data eventsRead) :=
  ⟨trivial, by simpa [Poller.inHand] using h.history⟩

end Reader

theorem State.broadcastData_pollers (s : State π) (p : π) :
    s.broadcastData.pollers p = s.pollers p ∨
      ((s.pollers p).inHand = [] ∧ (s.broadcastData.pollers p).inHand = [] ∧
        (s.broadcastData.pollers p).Bounded) := by
  cases hp : s.pollers p with
  | idle => simp [broadcastData, hp]
  | scanning maxReads data eventsRead empties => simp [broadcastData, hp]
  | waiting maxReads data signalled =>
      exact Or.inr (by simp [broadcastData, hp, Poller.inHand, Poller.Bounded])

/-! ### Steps -/

/-- Every queue with its writer is a channel for the histories `os`. -/
def State.Channels (s : State π) (os : List (Event π)) : Prop :=
  ∀ i, Channel (s.queues i) (s.writers i) (os.flatMap (Event.dequeuedFrom i))
    (os.flatMap (Event.publishedBy i))

theorem State.Channels.setWriter {s : State π} {os : List (Event π)}
    (h : s.Channels os) {i : ℕ} {w : Writer} (hw : w.Holds (s.queues i)) :
    (s.setWriter i w).Channels os := by
  intro j
  by_cases hj : j = i
  · subst hj
    simpa [State.setWriter] using (h j).setWriter hw
  · simpa [State.setWriter, hj] using h j

/-- The callers and the lock do not matter to the channels. -/
theorem State.Channels.congr {s t : State π} {os o : List (Event π)}
    (h : s.Channels os) (hqueues : t.queues = s.queues)
    (hwriters : t.writers = s.writers)
    (hdequeued : ∀ i, o.flatMap (Event.dequeuedFrom i) = [])
    (hpublished : ∀ i, o.flatMap (Event.publishedBy i) = []) :
    t.Channels (os ++ o) := by
  intro i
  rw [List.flatMap_append, List.flatMap_append, hdequeued, hpublished, hqueues,
    hwriters, List.append_nil, List.append_nil]
  exact h i

variable [DecidableEq π]

theorem scan_channels {m : HandleMaps} {s : State π} {os : List (Event π)} {p : π}
    {maxReads : ℕ} {data : ℕ → SensorsEvent} {eventsRead empties : ℕ}
    {r : State π × List (Event π)}
    (hs : s.Channels os) (h : Scan m s p maxReads data eventsRead empties r) :
    r.1.Channels (os ++ r.2) := by
  cases h with
  | empty hturn hpeek => exact hs.congr rfl rfl (fun _ => rfl) fun _ => rfl
  | read hturn event dest hpeek hdest =>
      intro j
      have hw : ((s.dequeueFrom s.nextReadIndex).writers j).Holds (s.queues j) := by
        rcases s.dequeueFrom_writers s.nextReadIndex j with hw | ⟨_, _, hw⟩
        · exact hw ▸ (hs j).writer
        · exact hw ▸ trivial
      have hj := (hs j).setWriter hw
      by_cases hi : j = s.nextReadIndex
      · subst hi
        simpa [State.setPoller, State.advance, Event.dequeuedFrom,
          Event.publishedBy] using hj.dequeue hpeek
      · simpa [State.setPoller, State.advance, Event.dequeuedFrom,
          Event.publishedBy, hi, Ne.symm hi] using hj
  | wait hstop hread => exact hs.congr rfl rfl (fun _ => rfl) fun _ => rfl
  | finish hstop hread => exact hs.congr rfl rfl (fun _ => rfl) fun _ => rfl

theorem step_channels {m : HandleMaps} {s t : State π} {os o : List (Event π)}
    {a : Action π} (hs : s.Channels os) (h : step m s a = some (t, o)) :
    t.Channels (os ++ o) := by
  cases step_spec h with
  | block hi hmutex hw hfull =>
      simpa using hs.setWriter (w := .blocked false) trivial
  | request hi hmutex hw hr => simpa using hs.setWriter ((hs _).request hr).writer
  | @store i j first length e hw hj =>
      intro k
      by_cases hk : k = i
      · subst hk
        have hc := hs k
        rw [hw] at hc
        simpa [State.setQueue, hw] using hc.store hj e
      · simpa [State.setQueue, hk] using hs k
  | nothing hw =>
      simpa using hs.setWriter (w := .requesting) trivial
  | @returns i k first length hw hk hle =>
      have hc := hs i
      rw [hw] at hc
      simpa using hs.setWriter (hc.polled hle).writer
  | @mark i events t hw hmutex ht =>
      have hmark : t.Channels (os ++ [.published i events]) := by
        intro k
        subst ht
        by_cases hk : k = i
        · subst hk
          have hc := hs k
          rw [hw] at hc
          simpa [State.setQueue, State.setWriter, Event.dequeuedFrom,
            Event.publishedBy] using hc.mark
        · simpa [State.setQueue, State.setWriter, Event.dequeuedFrom,
            Event.publishedBy, hk, Ne.symm hk] using hs k
      split_ifs
      · exact hmark
      · exact hmark
  | poll hp hmutex => exact hs.congr rfl rfl (fun _ => rfl) fun _ => rfl
  | scan hp hr => exact scan_channels hs hr
  | wake hp hmutex => exact hs.congr rfl rfl (fun _ => rfl) fun _ => rfl

/-- Every caller is a reader for the histories `os`. -/
def State.Readers (m : HandleMaps) (s : State π) (os : List (Event π)) : Prop :=
  ∀ p, Reader m (s.pollers p) (os.flatMap (Event.dequeuedBy p))
    (os.flatMap (Event.returnedTo p))

/-- A step that concerns the caller `p` alone. -/
theorem State.Readers.setPoller {m : HandleMaps} {s t : State π} {p : π}
    {os o : List (Event π)} (h : s.Readers m os)
    (ht : ∀ q ≠ p, t.pollers q = s.pollers q)
    (hp : Reader m (t.pollers p) (os.flatMap (Event.dequeuedBy p) ++
      o.flatMap (Event.dequeuedBy p))
      (os.flatMap (Event.returnedTo p) ++ o.flatMap (Event.returnedTo p)))
    (ho : ∀ q ≠ p, o.flatMap (Event.dequeuedBy q) = [] ∧
      o.flatMap (Event.returnedTo q) = []) :
    t.Readers m (os ++ o) := by
  intro q
  rw [List.flatMap_append, List.flatMap_append]
  by_cases hq : q = p
  · subst hq
    exact hp
  · rw [ht q hq, (ho q hq).1, (ho q hq).2, List.append_nil, List.append_nil]
    exact h q

/-- A step of a writer does at most wake some callers. -/
theorem State.Readers.congr {m : HandleMaps} {s t : State π}
    {os o : List (Event π)} (h : s.Readers m os)
    (ht : ∀ p, t.pollers p = s.pollers p ∨
      ((s.pollers p).inHand = [] ∧ (t.pollers p).inHand = [] ∧
        (t.pollers p).Bounded))
    (ho : ∀ q, o.flatMap (Event.dequeuedBy q) = [] ∧
      o.flatMap (Event.returnedTo q) = []) :
    t.Readers m (os ++ o) := by
  intro q
  rw [List.flatMap_append, List.flatMap_append, (ho q).1, (ho q).2,
    List.append_nil, List.append_nil]
  rcases ht q with heq | ⟨hs, hq, hb⟩
  · exact heq ▸ h q
  · exact (h q).move hs hq hb

theorem scan_readers {m : HandleMaps} {s : State π} {os : List (Event π)} {p : π}
    {maxReads : ℕ} {data : ℕ → SensorsEvent} {eventsRead empties : ℕ}
    {r : State π × List (Event π)} (hs : s.Readers m os)
    (hp : s.pollers p = .scanning maxReads data eventsRead empties)
    (h : Scan m s p maxReads data eventsRead empties r) :
    r.1.Readers m (os ++ r.2) := by
  have hr := hs p
  rw [hp] at hr
  have hother (c : Poller) (q : π) (hq : q ≠ p) :
      Function.update s.pollers p c q = s.pollers q := by simp [hq]
  cases h with
  | empty hturn hpeek =>
      refine hs.setPoller (hother _) ?_ fun q hq => ⟨rfl, rfl⟩
      simpa [State.setPoller] using hr.recount (empties + 1)
  | read hturn event dest hpeek hdest =>
      refine hs.setPoller (p := p) ?_ ?_ fun q hq => ?_
      · simpa [State.setPoller, State.advance] using hother _
      · simpa [State.setPoller, State.advance, Event.dequeuedBy, Event.returnedTo]
          using hr.read hturn.2 hdest
      · simp [Event.dequeuedBy, Event.returnedTo, Ne.symm hq]
  | wait hstop hread =>
      subst hread
      have hwait : Reader m (.waiting maxReads data false) _ _ :=
        hr.move rfl rfl trivial
      refine hs.setPoller (hother _) ?_ fun q hq => ⟨rfl, rfl⟩
      simpa [State.setPoller] using hwait
  | finish hstop hread =>
      refine hs.setPoller (hother _) ?_ fun q hq => ?_
      · simpa [State.setPoller, Event.dequeuedBy, Event.returnedTo] using hr.finish
      · simp [Event.dequeuedBy, Event.returnedTo, Ne.symm hq]

theorem step_readers {m : HandleMaps} {s t : State π} {os o : List (Event π)}
    {a : Action π} (hs : s.Readers m os) (h : step m s a = some (t, o)) :
    t.Readers m (os ++ o) := by
  have hstart {p : π} (hp : (s.pollers p).inHand = []) (maxReads : ℕ)
      (data : ℕ → SensorsEvent) : Reader m (.scanning maxReads data 0 0)
        (os.flatMap (Event.dequeuedBy p)) (os.flatMap (Event.returnedTo p)) :=
    (hs p).move hp rfl (Nat.zero_le maxReads)
  cases step_spec h with
  | block hi hmutex hw hfull => exact hs.congr (fun _ => .inl rfl) fun _ => ⟨rfl, rfl⟩
  | request hi hmutex hw hr => exact hs.congr (fun _ => .inl rfl) fun _ => ⟨rfl, rfl⟩
  | store hw hj => exact hs.congr (fun _ => .inl rfl) fun _ => ⟨rfl, rfl⟩
  | nothing hw => exact hs.congr (fun _ => .inl rfl) fun _ => ⟨rfl, rfl⟩
  | returns hw hk hle => exact hs.congr (fun _ => .inl rfl) fun _ => ⟨rfl, rfl⟩
  | @mark i events t hw hmutex ht =>
      subst ht
      refine hs.congr (fun p => ?_) fun _ => ⟨rfl, rfl⟩
      split_ifs
      · exact State.broadcastData_pollers _ p
      · exact .inl rfl
  | @poll p maxReads data hp hmutex =>
      refine hs.setPoller (fun q hq => Function.update_of_ne hq _ _) ?_
        fun q hq => ⟨rfl, rfl⟩
      simpa [State.setPoller] using hstart (by rw [hp]; rfl) maxReads data
  | scan hp hr => exact scan_readers hs hp hr
  | @wake p maxReads data signalled hp hmutex =>
      refine hs.setPoller (fun q hq => Function.update_of_ne hq _ _) ?_
        fun q hq => ⟨rfl, rfl⟩
      simpa [State.setPoller] using hstart (by rw [hp]; rfl) maxReads data

/-- `poll` returns some records, and never more than it was asked for. -/
theorem step_returned {m : HandleMaps} {s t : State π} {os o : List (Event π)}
    {a : Action π} (hs : s.Readers m os) (h : step m s a = some (t, o)) {p : π}
    {maxReads : ℕ} {events : List SensorsEvent}
    (he : .returned p maxReads events ∈ o) :
    1 ≤ events.length ∧ events.length ≤ maxReads := by
  cases step_spec h with
  | scan hp hr =>
      cases hr with
      | finish hstop hread =>
          simp only [List.mem_singleton, Event.returned.injEq] at he
          obtain ⟨rfl, rfl, rfl⟩ := he
          have hb := (hs p).bounded
          rw [hp] at hb
          simpa [firstReads] using ⟨Nat.one_le_iff_ne_zero.2 hread, hb⟩
      | _ => simp at he
  | _ => simp at he

/-! ### Whole runs -/

/-- For any number of sub-HALs, in every order of the steps of their writers, of
the sub-HALs and of any number of callers: what has been dequeued from a queue,
followed by what it holds, is what its sub-HAL has published; what `poll` has
returned to a caller, followed by what the caller has in hand, is what it has
dequeued, each record once, with its handle rewritten, without those whose
handle is bad; and `poll` returns at least one and at most `maxReads` records. -/
theorem run_delivers {n : ℕ} {m : HandleMaps}
    {memory : ℕ → ℕ → SensorsEvent} {as : List (Action π)} {s : State π}
    {os : List (Event π)}
    (hrun : Machine.run (step m) (init π n memory) as = some (s, os)) :
    (∀ i, os.flatMap (Event.dequeuedFrom i) ++ (s.queues i).contents =
        os.flatMap (Event.publishedBy i)) ∧
      (∀ p, os.flatMap (Event.returnedTo p) ++ (s.pollers p).inHand =
        (os.flatMap (Event.dequeuedBy p)).filterMap (delivered m)) ∧
      ∀ p maxReads events, .returned p maxReads events ∈ os →
        1 ≤ events.length ∧ events.length ≤ maxReads := by
  have hinv : s.Channels os ∧ s.Readers m os ∧
      ∀ p maxReads events, .returned p maxReads events ∈ os →
        1 ≤ events.length ∧ events.length ≤ maxReads := by
    refine Machine.run_invariant (P := fun s os => s.Channels os ∧ s.Readers m os ∧
      ∀ p maxReads events, .returned p maxReads events ∈ os →
        1 ≤ events.length ∧ events.length ≤ maxReads) ?_ ?_ hrun
    · rintro s os a t o ⟨hc, hr, he⟩ h
      refine ⟨step_channels hc h, step_readers hr h, fun p maxReads events hmem => ?_⟩
      rcases List.mem_append.1 hmem with hmem | hmem
      · exact he p maxReads events hmem
      · exact step_returned hr h hmem
    · exact ⟨fun i => ⟨Nat.zero_le _, trivial, rfl⟩, fun p => ⟨trivial, rfl⟩, by simp⟩
  exact ⟨fun i => (hinv.1 i).history, fun p => (hinv.2.1 p).history, hinv.2.2⟩

/-- The only sub-HAL emits an event of a sensor that was never listed, and one of
a sensor that was; `p` asks for up to four. -/
def emitTwo (p : π) : List (Action π) :=
  [.requestRegion 0, .store 0 0 ⟨1, 6, 0, 10⟩, .store 0 1 ⟨1, 5, 0, 20⟩,
    .subPollReturns 0 2, .markAsWritten 0, .poll p 4 fun _ => ⟨0, 0, 0, 0⟩,
    .scan p, .scan p, .scan p, .scan p]

theorem run_delivers_emitTwo :
    ∃ s os, Machine.run (step (HandleMaps.empty.assignGlobalHandle 0 5).1)
        (init (Fin 1) 1 fun _ _ => ⟨0, 0, 0, 0⟩) (emitTwo 0) = some (s, os) ∧
      os.flatMap (Event.returnedTo 0) = [⟨1, 1, 0, 20⟩] ∧
      (∀ i, os.flatMap (Event.dequeuedFrom i) ++ (s.queues i).contents =
        os.flatMap (Event.publishedBy i)) ∧
      ∀ p maxReads events, .returned p maxReads events ∈ os →
        1 ≤ events.length ∧ events.length ≤ maxReads := by
  have h : (Machine.run (step (HandleMaps.empty.assignGlobalHandle 0 5).1)
      (init (Fin 1) 1 fun _ _ => ⟨0, 0, 0, 0⟩) (emitTwo 0)).map
        (fun r => r.2.flatMap (Event.returnedTo 0)) = some [⟨1, 1, 0, 20⟩] := by
    decide
  obtain ⟨⟨s, os⟩, hrun, hs⟩ := Option.map_eq_some_iff.1 h
  obtain ⟨hqueues, -, hreturned⟩ := run_delivers hrun
  exact ⟨s, os, hrun, hs, hqueues, hreturned⟩

end MozartLineage.Sensors
