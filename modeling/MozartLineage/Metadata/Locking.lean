import MozartLineage.Metadata.Multimap
import MozartLineage.Metadata.StaleReads

/-!
# The lock of the metadata object

While the object is locked its buffer stays where it is and as it is, and the object
shows none of its entries. Every function tests the lock for itself.

With it the life of a buffer is complete: what holds over every run of calls on one
object, and the one way in which the object may read what it has freed.
-/

namespace MozartLineage.Metadata

open Transition

variable {β : Type*} {lib : Library β} {s t : State β} {as : List (Action β)}
  {os : List Event}

/-- The object has been locked in the state `s`, and has kept its buffer since. -/
structure State.Kept (s t : State β) (os : List Event) : Prop where
  alive : t.alive
  locked : t.locked
  buffer : t.buffer = s.buffer
  heap : ∀ b, s.buffer = some b → t.heap b = s.heap b
  finds : ∀ entry, .returned (.entry entry) ∈ os → entry = .empty

/-- A call on a locked object changes nothing, unless it unlocks it. -/
theorem call_of_locked (hlocked : s.locked) {c : Call} (hc : c ≠ .unlock s.buffer) :
    (s.call lib c).1 = s ∧
      ∀ entry, .returned (.entry entry) ∈ (s.call lib c).2 → entry = .empty := by
  cases c with
  | clear => simp [State.call, Outcome.returns, State.clear, hlocked]
  | release => simp [State.call, Outcome.returns, State.release, hlocked]
  | acquire buffer => simp [State.call, Outcome.returns, State.acquire, hlocked]
  | getAndLock => simp [State.call, Outcome.returns, State.getAndLock, ← hlocked]
  | unlock buffer =>
      have hne : buffer ≠ s.buffer := fun h => hc (h ▸ rfl)
      simp [State.call, Outcome.returns, State.unlock, hlocked, hne]
  | find tag => simp [State.call, Outcome.returns, State.find, hlocked]
  | update _ tag data count bytes fresh =>
      simp [State.call, Outcome.returns, State.updateImpl, hlocked]

/-- What callers do with other buffers. -/
theorem State.Kept.set (ht : s.Kept t os) {b : Address} (hb : t.buffer ≠ some b)
    (c : Option β) : s.Kept (t.set b c) (os ++ []) := by
  refine ⟨ht.alive, ht.locked, ht.buffer, fun b' hb' => ?_, by simpa using ht.finds⟩
  have hne : b' ≠ b := by
    rintro rfl
    exact hb (ht.buffer.trans hb')
  rw [← ht.heap b' hb']
  simp [State.set, hne]

theorem step_kept (hs : s.Allocated) {a : Action β} {p : State β × List Event}
    (ht : s.Kept t os)
    (hdtor : a ≠ .dtor) (hunlock : a ≠ .call (.unlock s.buffer))
    (h : step lib t a = some p) : s.Kept p.1 (os ++ p.2) := by
  cases step_spec h with
  | ctor hdead => exact absurd ht.alive (by simp [hdead])
  | dtor => exact absurd rfl hdtor
  | @call c =>
      have hne : c ≠ .unlock t.buffer := fun hc => hunlock (by rw [hc, ht.buffer])
      have hcall : (t.call lib c).1 = t ∧ _ := call_of_locked ht.locked hne
      rw [hcall.1]
      refine ⟨ht.alive, ht.locked, ht.buffer, ht.heap, fun entry hentry => ?_⟩
      rcases List.mem_append.1 hentry with hentry | hentry
      · exact ht.finds entry hentry
      · exact hcall.2 entry hentry
  | allocate hnone =>
      refine ht.set (fun hb => ?_) _
      have hb := ht.buffer.symm.trans hb
      simpa [← ht.heap _ hb, hnone] using hs _ hb
  | free hforeign | write hforeign => exact ht.set hforeign.1 _

/-- From `getAndLock` on, up to the end of the lock. -/
theorem run_kept (hs : s.Allocated)
    (hrun : (step lib).run s (.call .getAndLock :: as) = some (t, os)) (hdtor : .dtor ∉ as)
    (hunlock : .call (.unlock s.buffer) ∉ as) :
    os.head? = some (.returned (.buffer s.buffer)) ∧ s.Kept t os := by
  obtain ⟨u, o, os', hlock, hrest, rfl⟩ := Machine.run_cons_eq_some.1 hrun
  cases step_spec hlock with
  | call halive =>
      have hguard := Machine.meets_of_forall (m := step lib)
        (G := fun _ a => a ≠ .dtor ∧ a ≠ .call (.unlock s.buffer))
        (fun a ha _ => ⟨fun heq => hdtor (heq ▸ ha), fun heq => hunlock (heq ▸ ha)⟩)
      have hlocked : s.Kept s.getAndLock.state [.returned (.buffer s.buffer)] :=
        ⟨halive, rfl, rfl, fun _ _ => rfl, by simp⟩
      refine ⟨rfl, Machine.run_invariant_of_meets
        (P := fun t os => s.Kept t (.returned (.buffer s.buffer) :: os)) ?_ hlocked (hguard _)
        hrest⟩
      intro t os a u o ht ha h
      exact step_kept (p := (u, o)) hs ht ha.1 ha.2 h

theorem unlock_of_ne_ok {buffer : Option Address} {status : ℤ} {p : State β × List Event}
    (h : step lib s (.call (.unlock buffer)) = some p)
    (hstatus : .returned (.status status) ∈ p.2) (hne : status ≠ ok) : p.1 = s := by
  cases step_spec h with
  | call halive =>
      simp only [State.call, Outcome.returns, State.unlock] at hstatus ⊢
      split_ifs at hstatus ⊢
      · rfl
      · rfl
      · exact absurd (by simpa using hstatus) hne

/-- Every run of calls on an object, with any library and any actions of callers. From
`getAndLock` to the destructor or the unlock with the pointer handed out, that buffer
exists with the same content, and no entry is found. A failing `unlock` changes nothing.
The object uses a buffer only while it owns it, ends what it owns by freeing it or by
handing it back, never ends it twice, and owns nothing when it is destroyed. And it reads
no data from what it has freed, if and only if every update of the run that replaces
the buffer has its data elsewhere. -/
theorem run_bufferOwnership (hrun : (step lib).run init as = some (s, os)) :
    (∀ as' t os', (step lib).run s (.call .getAndLock :: as') = some (t, os') →
      .dtor ∉ as' → .call (.unlock s.buffer) ∉ as' →
        os'.head? = some (.returned (.buffer s.buffer)) ∧ t.buffer = s.buffer ∧
        (∀ b, s.buffer = some b → (t.heap b).isSome ∧ t.heap b = s.heap b) ∧
        ∀ entry, .returned (.entry entry) ∈ os' → entry = .empty) ∧
    (∀ buffer t o status, step lib s (.call (.unlock buffer)) = some (t, o) →
      .returned (.status status) ∈ o → status ≠ ok → t = s) ∧
    ((ownership Event.use).Accepts ∅ os ∧
      (s.alive = false → (ownership Event.use).after ∅ os = ∅)) ∧
    (staleReads.Accepts [] os ↔ (step lib).Meets (Safe lib) init as) := by
  have hinit : (init : State β).WellFormed :=
    ⟨fun b hb => by simp [init] at hb, fun _ => rfl⟩
  have hholds : (init : State β).holds = ∅ := State.holds_of_none rfl
  obtain ⟨hs, hafter, haccepts⟩ := Monitor.run_accepts_iff (G := fun _ _ => True)
    State.holds (fun s a p hs h => step_sound hs h) hinit hrun
  obtain ⟨-, -, hreads⟩ := Monitor.run_accepts_iff (P := State.WellFormed) (fun _ => [])
    (fun s a p hs h => ⟨(step_sound hs h).1, step_staleReads hs h⟩) hinit hrun
  rw [hholds] at hafter haccepts
  refine ⟨fun as' t os' hrun' hdtor hunlock => ?_, fun buffer t o status h => ?_,
    ⟨haccepts.2 (Machine.meets_of_forall (fun _ _ _ => trivial) _), fun hdead => ?_⟩, hreads⟩
  · obtain ⟨hhead, hkept⟩ := run_kept hs.allocated hrun' hdtor hunlock
    refine ⟨hhead, hkept.buffer, fun b hb => ?_, hkept.finds⟩
    rw [hkept.heap b hb]
    exact ⟨hs.allocated b hb, rfl⟩
  · exact unlock_of_ne_ok h
  · rw [hafter]
    exact State.holds_of_none (hs.none_of_dead hdead)

/-! ### An update that needs a larger buffer -/

def byteTags : Library Multimap := multimap fun _ => 0

/-- The object gets a buffer that is full and adds an entry of four bytes from `data`. -/
def growingUpdate (data : Address) : List (Action Multimap) :=
  [.allocate 0x1000 ⟨1, 0, [⟨0, 7, 0, 1, [42]⟩]⟩, .ctor, .call (.acquire (some 0x1000)),
    .call (.update .u8 8 data 4 [1, 2, 3, 4] (some 0x2000)), .dtor]

def growingUpdateEvents (data : Address) : List Event :=
  [.returned .void, .owned 0x1000, .returned .void, .used 0x1000, .used 0x1000,
    .owned 0x2000, .used 0x2000, .used 0x1000, .freed 0x1000 64, .used 0x2000,
    .used 0x2000, .read data 4, .returned (.status ok), .freed 0x2000 112, .returned .void]

theorem bufferOwnership_growingUpdate :
    ∃ s, (step byteTags).run init (growingUpdate 0x5000) =
        some (s, growingUpdateEvents 0x5000) ∧
      (ownership Event.use).Accepts ∅ (growingUpdateEvents 0x5000) ∧
      (ownership Event.use).after ∅ (growingUpdateEvents 0x5000) = ∅ ∧
      staleReads.Accepts [] (growingUpdateEvents 0x5000) := by
  have hrun : ∃ s, (step byteTags).run init (growingUpdate 0x5000) =
      some (s, growingUpdateEvents 0x5000) ∧ s.alive = false := ⟨_, rfl, rfl⟩
  obtain ⟨s, hrun, hdead⟩ := hrun
  obtain ⟨-, -, howns, hreads⟩ := run_bufferOwnership hrun
  exact ⟨s, hrun, howns.1, howns.2 hdead, hreads.2 (by decide)⟩

/-- With the data at the very beginning of the buffer it is read after it was freed. -/
theorem not_bufferOwnership_growingUpdate :
    ¬ ∀ (lib : Library Multimap) (as : List (Action Multimap)) (s : State Multimap)
      (os : List Event), (step lib).run init as = some (s, os) → staleReads.Accepts [] os := by
  intro hall
  have hrun : ∃ s, (step byteTags).run init (growingUpdate 0x1000) =
      some (s, growingUpdateEvents 0x1000) := ⟨_, rfl⟩
  obtain ⟨s, hrun⟩ := hrun
  have haccepts : staleReads.Accepts [] ((growingUpdateEvents 0x1000).take 11 ++
      (growingUpdateEvents 0x1000).drop 11) := hall byteTags _ s _ hrun
  have hread := (Monitor.accepts_append.1 haccepts).2.1
  exact absurd (hread (0x1000, 64) (by decide)) (by decide)

end MozartLineage.Metadata
