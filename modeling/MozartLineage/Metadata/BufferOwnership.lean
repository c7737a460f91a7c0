import MozartLineage.Metadata.LegacyCameraMetadata
import MozartLineage.Transition.Monitor

/-!
# Who owns a metadata buffer

The object owns the buffer that it points to, and nothing else. It gives it up once, by
freeing it or by handing it back, and does not use it afterwards.
-/

namespace MozartLineage.Metadata

open Transition

/-- What an event does with a buffer of the object. -/
def Event.use : Event → Option (Use Address)
  | .owned b => some (.take b)
  | .freed b _ | .released b => some (.give b)
  | .used b => some (.touch b)
  | _ => none

variable {β : Type*}

namespace State

/-- What the object owns. -/
def holds (s : State β) : Set Address := {b | s.buffer = some b}

/-- The buffer of the object exists. -/
def Allocated (s : State β) : Prop := ∀ b, s.buffer = some b → (s.heap b).isSome

theorem holds_of_none {s : State β} (h : s.buffer = none) : s.holds = ∅ := by
  simp [holds, h]

theorem holds_of_some {s : State β} {b : Address} (h : s.buffer = some b) :
    s.holds = {b} := by
  ext b'
  simp [holds, h, eq_comm]

end State

/-- A function of the object keeps to what is owned, in a state in which the object's
buffer exists. -/
structure Outcome.Sound {τ : Type*} (s : State β) (o : Outcome β τ) : Prop where
  accepts : (ownership Event.use).Accepts s.holds o.events
  after : (ownership Event.use).after s.holds o.events = o.state.holds
  allocated : o.state.Allocated
  alive : o.state.alive = s.alive

variable {lib : Library β} {s t : State β}

theorem sound_refl {τ : Type*} (hs : s.Allocated) (result : τ) :
    Outcome.Sound s ⟨result, s, []⟩ := ⟨trivial, rfl, hs, rfl⟩

/-- One function after the other. -/
theorem Outcome.Sound.trans {τ υ : Type*} {o : Outcome β τ} {o' : Outcome β υ}
    (h : o.Sound s) (h' : o'.Sound o.state) {result : υ} :
    Outcome.Sound s ⟨result, o'.state, o.events ++ o'.events⟩ := by
  refine ⟨Monitor.accepts_append.2 ⟨h.accepts, ?_⟩, ?_, h'.allocated, h'.alive.trans h.alive⟩
  · rw [h.after]
    exact h'.accepts
  · rw [Monitor.after_append, h.after]
    exact h'.after

/-- The library works on the object's buffer. -/
theorem sound_used {τ : Type*} (hs : s.Allocated) {b : Address} (hb : s.buffer = some b)
    (result : τ) : Outcome.Sound s ⟨result, s, [.used b]⟩ := by
  refine ⟨?_, rfl, hs, rfl⟩
  simp [ownership, Event.use, Use.Allowed, State.holds, hb]

theorem sound_looks {τ : Type*} (hs : s.Allocated) (result : τ) :
    Outcome.Sound s ⟨result, s, s.looks⟩ := by
  unfold State.looks
  cases hb : s.buffer with
  | none => exact sound_refl hs result
  | some b => exact sound_used hs hb result

theorem clear_sound (hs : s.Allocated) : (s.clear lib).Sound s := by
  unfold State.clear
  split
  · rename_i b hlocked hb
    refine ⟨?_, ?_, fun b' hb' => by simp at hb', rfl⟩
    · simp [ownership, Event.use, Use.Allowed, State.holds, hb]
    · rw [State.holds_of_some hb, State.holds_of_none rfl]
      exact sdiff_self
  · exact sound_refl hs ()

theorem buffer_clear (h : s.locked = false) : (s.clear lib).state.buffer = none := by
  unfold State.clear
  cases hb : s.buffer <;> simp [h, hb]

theorem heap_clear {b : Address} (hne : s.buffer ≠ some b) :
    (s.clear lib).state.heap b = s.heap b := by
  unfold State.clear
  split
  · rename_i b' hlocked hb
    have hb' : b ≠ b' := by
      rintro rfl
      exact hne hb
    simp [State.set, hb']
  · rfl

theorem release_sound (hs : s.Allocated) : s.release.Sound s := by
  unfold State.release
  split
  · exact sound_refl hs none
  · cases hb : s.buffer with
    | none =>
        refine ⟨trivial, ?_, fun b' hb' => by simp at hb', rfl⟩
        rw [State.holds_of_none hb, State.holds_of_none rfl]
        rfl
    | some b =>
        refine ⟨?_, ?_, fun b' hb' => by simp at hb', rfl⟩
        · simp [ownership, Event.use, Use.Allowed, State.holds, hb]
        · rw [State.holds_of_some hb, State.holds_of_none rfl]
          exact sdiff_self

theorem acquire_sound (hs : s.Allocated) {buffer : Option Address}
    (hbuffer : ∀ b ∈ buffer, s.Foreign b) : (s.acquire lib buffer).Sound s := by
  unfold State.acquire
  split
  · exact sound_refl hs ()
  · rename_i hlocked
    have hclear : (s.clear lib).Sound s := clear_sound hs
    have hnone : (s.clear lib).state.buffer = none := buffer_clear (by simpa using hlocked)
    have hempty := State.holds_of_none hnone
    have hafter := hclear.after
    cases buffer with
    | none =>
        refine ⟨?_, ?_, fun b' hb' => by simp at hb', hclear.alive⟩
        · simpa using hclear.accepts
        · rw [Monitor.after_append, hafter, hempty]
          exact (State.holds_of_none rfl).symm
    | some b =>
        obtain ⟨hne, hb⟩ := hbuffer b rfl
        refine ⟨?_, ?_, ?_, hclear.alive⟩
        · rw [Monitor.accepts_append, hafter, hempty]
          exact ⟨hclear.accepts, by simp [ownership, Event.use, Use.Allowed]⟩
        · rw [Monitor.after_append, hafter, hempty, State.holds_of_some rfl]
          simp [ownership, Event.use, Use.next]
        · rintro b' hb'
          obtain rfl := Option.some.inj hb'
          exact (congrArg Option.isSome (heap_clear hne)).trans hb

/-- A new buffer is not the object's. -/
theorem ne_of_fresh (hs : s.Allocated) {b r : Address} (hb : s.buffer = some b)
    (hr : s.heap r = none) : r ≠ b := by
  rintro rfl
  simpa [hr] using hs r hb

theorem resizeIfNeeded_sound (hs : s.Allocated) {fresh : Option Address}
    (hfresh : ∀ r ∈ fresh, s.heap r = none) (extraEntries extraData : UInt32) :
    (s.resizeIfNeeded lib extraEntries extraData fresh).Sound s := by
  have hspec := resizeIfNeeded_spec lib s extraEntries extraData fresh
  generalize s.resizeIfNeeded lib extraEntries extraData fresh = o at hspec
  cases hspec with
  | notAllocated hb => exact sound_refl hs _
  | @allocated r hb =>
      refine ⟨?_, ?_, ?_, rfl⟩
      · simp [ownership, Event.use, Use.Allowed, State.holds, hb]
      · rw [State.holds_of_none hb, State.holds_of_some rfl]
        simp [ownership, Event.use, Use.next]
      · rintro b' hb'
        obtain rfl := Option.some.inj hb'
        simp [State.set]
  | fits hb => exact sound_used hs hb _
  | notReplaced hb => exact sound_used hs hb _
  | @appendFails r b grown hb =>
      have hne := ne_of_fresh hs hb (hfresh r rfl)
      refine ⟨?_, ?_, hs, rfl⟩
      · simp [ownership, Event.use, Use.Allowed, Use.next, State.holds_of_some hb, hne]
      · rw [State.holds_of_some hb]
        exact Set.pair_sdiff_left hne
  | @replaced r b grown hb =>
      have hne := ne_of_fresh hs hb (hfresh r rfl)
      refine ⟨?_, ?_, ?_, rfl⟩
      · simp [ownership, Event.use, Use.Allowed, Use.next, State.holds_of_some hb, hne]
      · rw [State.holds_of_some hb, State.holds_of_some rfl]
        exact Set.pair_sdiff_right hne
      · rintro b' hb'
        obtain rfl := Option.some.inj hb'
        simp [State.set, hne]

theorem store_sound (hs : s.Allocated) {b : Address} (hb : s.buffer = some b)
    (tag : UInt32) (type : ℤ) (data : Address) (count : UInt32) (bytes : List UInt8) :
    (s.store lib b tag type data count bytes).Sound s := by
  have hstored : ∀ (status : ℤ) (c : β) (size : ℕ), Outcome.Sound s
      ⟨status, s.set b (some c), [.used b, .used b, .read data size]⟩ := by
    refine fun status c size => ⟨?_, rfl, fun b' hb' => ?_, rfl⟩
    · simp [ownership, Event.use, Use.Allowed, Use.next, State.holds, hb]
    · obtain rfl := Option.some.inj (hb.symm.trans hb')
      simp [State.set]
  unfold State.store
  dsimp only
  split
  · exact hstored _ _ _
  · split
    · exact hstored _ _ _
    · exact sound_used hs hb _

theorem updateImpl_sound (hs : s.Allocated) {fresh : Option Address}
    (hfresh : ∀ r ∈ fresh, s.heap r = none) (tag : UInt32) (data : Address)
    (count : UInt32) (bytes : List UInt8) :
    (s.updateImpl lib tag data count bytes fresh).Sound s := by
  have hresized : ∀ (extraData : UInt32) (status : ℤ), Outcome.Sound s
      ⟨status, (s.resizeIfNeeded lib 1 extraData fresh).state,
        s.looks ++ (s.resizeIfNeeded lib 1 extraData fresh).events⟩ := fun extraData _ =>
    (sound_looks hs ok).trans (resizeIfNeeded_sound hs hfresh 1 extraData)
  unfold State.updateImpl
  dsimp only
  generalize s.typeOf lib tag = type
  split_ifs
  · exact sound_refl hs _
  · exact sound_looks hs _
  · exact sound_looks hs _
  · exact hresized _ _
  · split
    · exact hresized _ _
    · rename_i b hb
      have hresized := hresized (lib.entryDataSize type count) ok
      exact hresized.trans (store_sound hresized.allocated hb _ _ _ _ _)

theorem unlock_sound (hs : s.Allocated) (buffer : Option Address) :
    (s.unlock buffer).Sound s := by
  unfold State.unlock
  split_ifs
  · exact sound_refl hs _
  · exact sound_refl hs _
  · exact ⟨trivial, rfl, hs, rfl⟩

theorem getAndLock_sound (hs : s.Allocated) : s.getAndLock.Sound s :=
  ⟨trivial, rfl, hs, rfl⟩

theorem find_sound (hs : s.Allocated) (tag : UInt32) : (s.find lib tag).Sound s := by
  unfold State.find
  split
  · exact sound_used hs ‹_› _
  · exact sound_refl hs _

/-- The object exists only while it is alive, and its buffer with it. -/
structure State.WellFormed (s : State β) : Prop where
  allocated : s.Allocated
  none_of_dead : s.alive = false → s.buffer = none

theorem Outcome.Sound.returns {τ : Type*} {o : Outcome β τ} (h : o.Sound s)
    (halive : s.alive) (result : τ → Result) :
    (o.returns result).1.WellFormed ∧
      (ownership Event.use).after s.holds (o.returns result).2 = (o.returns result).1.holds ∧
        ((ownership Event.use).Accepts s.holds (o.returns result).2 ↔ True) := by
  refine ⟨⟨h.allocated, fun hdead => ?_⟩, ?_, iff_true_intro ?_⟩
  · simp [Outcome.returns, h.alive, halive] at hdead
  · rw [Outcome.returns, Monitor.after_append, h.after]
    rfl
  · rw [Outcome.returns, Monitor.accepts_append]
    exact ⟨h.accepts, by simp [ownership, Event.use]⟩

theorem set_allocated (hs : s.Allocated) {b : Address} {c : Option β}
    (h : s.buffer = some b → c.isSome) : (s.set b c).Allocated := by
  intro b' hb'
  by_cases heq : b' = b
  · subst heq
    simpa [State.set] using h hb'
  · simpa [State.set, heq] using hs b' hb'

theorem step_sound {a : Action β} {p : State β × List Event} (hs : s.WellFormed)
    (h : step lib s a = some p) :
    p.1.WellFormed ∧ (ownership Event.use).after s.holds p.2 = p.1.holds ∧
      ((ownership Event.use).Accepts s.holds p.2 ↔ True) := by
  cases step_spec h with
  | ctor hdead =>
      refine ⟨⟨fun b hb => by simp [State.ctor] at hb, fun _ => rfl⟩, ?_, ?_⟩
      · have hctor : s.ctor.holds = ∅ := State.holds_of_none rfl
        rw [State.holds_of_none (hs.none_of_dead hdead), hctor]
        rfl
      · simp [ownership, Event.use]
  | dtor halive =>
      let u : State β := { s with locked := false }
      have hclear : (u.clear lib).Sound u := clear_sound hs.allocated
      refine ⟨⟨hclear.allocated, fun _ => buffer_clear rfl⟩, ?_, iff_true_intro ?_⟩
      · rw [State.dtor, Monitor.after_append]
        exact congrArg (fun held => (ownership Event.use).after held _) hclear.after
      · rw [State.dtor, Monitor.accepts_append]
        exact ⟨hclear.accepts, by simp [ownership, Event.use]⟩
  | @call c halive hc =>
      cases c with
      | clear => exact (clear_sound hs.allocated).returns halive _
      | release => exact (release_sound hs.allocated).returns halive _
      | acquire buffer => exact (acquire_sound hs.allocated hc).returns halive _
      | getAndLock => exact (getAndLock_sound hs.allocated).returns halive _
      | unlock buffer => exact (unlock_sound hs.allocated buffer).returns halive _
      | find tag => exact (find_sound hs.allocated tag).returns halive _
      | update _ tag data count bytes fresh =>
          exact (updateImpl_sound hs.allocated hc tag data count bytes).returns halive _
  | allocate hb =>
      exact ⟨⟨set_allocated hs.allocated fun _ => rfl, hs.none_of_dead⟩, rfl,
        iff_true_intro trivial⟩
  | free hforeign =>
      exact ⟨⟨set_allocated hs.allocated fun hb => absurd hb hforeign.1, hs.none_of_dead⟩,
        rfl, iff_true_intro trivial⟩
  | write hforeign =>
      exact ⟨⟨set_allocated hs.allocated fun _ => rfl, hs.none_of_dead⟩, rfl,
        iff_true_intro trivial⟩

end MozartLineage.Metadata
