import MozartLineage.Metadata.BufferOwnership

/-!
# Data in the buffer that an update replaces

The data of an update is the caller's, but the caller may have it in the very buffer
that the update replaces by a larger one. `updateImpl` refuses some pointers into the
buffer, and not all of them: where it goes on, it reads the data from a buffer that it
has freed.
-/

namespace MozartLineage.Metadata

open Transition

/-- The `size` bytes from `data` on are not in a buffer of `bufferSize` bytes at `b`. -/
def Apart (data : Address) (size : ℕ) (b : Address) (bufferSize : UInt32) : Prop :=
  size = 0 ∨ data.toNat + size ≤ b.toNat ∨ b.toNat + bufferSize.toNat ≤ data.toNat

instance (data : Address) (size : ℕ) (b : Address) (bufferSize : UInt32) :
    Decidable (Apart data size b bufferSize) := inferInstanceAs (Decidable (_ ∨ _))

/-- The monitor of what a call has freed so far: no data is read there. -/
def staleReads : Monitor Event (List (Address × UInt32)) where
  next freed
    | .freed b size => (b, size) :: freed
    | .returned _ => []
    | _ => freed
  Allowed freed
    | .read data size => ∀ p ∈ freed, Apart data size p.1 p.2
    | _ => True

variable {β : Type*}

/-- A buffer for the update can be had, `b` is too small for it, and what `b` holds can
be copied. -/
def State.Grows (lib : Library β) (s : State β) (b : Address)
    (extraEntries extraData : UInt32) (fresh : Option Address) : Prop :=
  fresh.isSome ∧ ¬ lib.Fits (s.content lib b) extraEntries extraData ∧
    (lib.grow (s.content lib b) extraEntries extraData).1 = ok

instance (lib : Library β) (s : State β) (b : Address) (extraEntries extraData : UInt32)
    (fresh : Option Address) : Decidable (s.Grows lib b extraEntries extraData fresh) :=
  inferInstanceAs (Decidable (_ ∧ _))

/-- The update gets as far as to free the buffer `b` for a larger one. -/
def State.Replaces (lib : Library β) (s : State β) (tag data count : UInt32)
    (fresh : Option Address) (b : Address) : Prop :=
  s.locked = false ∧ 0 ≤ s.typeOf lib tag ∧ ¬ s.Aliases lib data ∧
    s.Grows lib b 1 (lib.entryDataSize (s.typeOf lib tag) count) fresh

instance (lib : Library β) (s : State β) (tag data count : UInt32) (fresh : Option Address)
    (b : Address) : Decidable (s.Replaces lib tag data count fresh b) :=
  inferInstanceAs (Decidable (_ ∧ _))

/-- What the update reads of its data when it has replaced `b`. -/
def State.rereadSize (lib : Library β) (s : State β) (tag count : UInt32) (b : Address) : ℕ :=
  lib.readSize
    (lib.grow (s.content lib b) 1 (lib.entryDataSize (s.typeOf lib tag) count)).2
    tag (s.typeOf lib tag) count

/-- An update that replaces the buffer has its data elsewhere. -/
def Safe (lib : Library β) (s : State β) : Action β → Prop
  | .call (.update _ tag data count _ fresh) =>
      ∀ b ∈ s.buffer, s.Replaces lib tag data count fresh b →
        Apart data (s.rereadSize lib tag count b) b (lib.size (s.content lib b))
  | _ => True

instance (lib : Library β) (s : State β) (a : Action β) : Decidable (Safe lib s a) :=
  match a with
  | .call (.update _ _ _ _ _ _) => Option.decidableForallMem s.buffer
  | .call .clear | .call .release | .call (.acquire _) | .call .getAndLock
  | .call (.unlock _) | .call (.find _) | .ctor | .dtor | .allocate _ _ | .free _
  | .write _ _ => isTrue trivial

variable {lib : Library β} {s t : State β} {os : List Event} {freed : List (Address × UInt32)}

/-- A history without reads is accepted. -/
theorem accepts_of_forall_ne (h : ∀ e ∈ os, ∀ data size, e ≠ .read data size) :
    staleReads.Accepts freed os := by
  induction os generalizing freed with
  | nil => trivial
  | cons e os ih =>
      refine Monitor.accepts_cons.2 ⟨?_, ih fun e' he' => h e' (by simp [he'])⟩
      cases e with
      | read data size => exact absurd rfl (h _ (by simp) data size)
      | _ => trivial

theorem looks_staleReads : staleReads.Accepts freed s.looks ∧
    staleReads.after freed s.looks = freed := by
  unfold State.looks
  cases s.buffer <;> simp [staleReads]

/-- Either the object's buffer is replaced, or nothing that holds data is freed before
the data is read. -/
theorem resizeIfNeeded_staleReads (hs : s.Allocated) {fresh : Option Address}
    (hfresh : ∀ r ∈ fresh, s.heap r = none) {extraEntries extraData : UInt32}
    {o : Outcome β ℤ} (h : Resized lib s extraEntries extraData fresh o) :
    staleReads.Accepts [] o.events ∧
      ((∃ b r, s.buffer = some b ∧ s.Grows lib b extraEntries extraData fresh ∧
        o.result = ok ∧ o.state.buffer = some r ∧
        o.state.content lib r = (lib.grow (s.content lib b) extraEntries extraData).2 ∧
        staleReads.after [] o.events = [(b, lib.size (s.content lib b))]) ∨
      (∀ b ∈ s.buffer, ¬ s.Grows lib b extraEntries extraData fresh) ∧
        (o.result = ok → staleReads.after [] o.events = [])) := by
  refine ⟨accepts_of_forall_ne ?_, ?_⟩
  · cases h <;> simp
  cases h with
  | notAllocated hb | allocated hb =>
      exact Or.inr ⟨by simp [hb], by simp [staleReads]⟩
  | fits hb hfits =>
      exact Or.inr ⟨by simp [hb, State.Grows, hfits], by simp [staleReads]⟩
  | notReplaced hb => exact Or.inr ⟨by simp [State.Grows], by simp [staleReads]⟩
  | appendFails hb hfits hgrown hfails =>
      refine Or.inr ⟨?_, fun hok => absurd hok hfails⟩
      subst hgrown
      simp [hb, State.Grows, hfails]
  | @replaced r b grown hb hfits hgrown hok =>
      have hne := ne_of_fresh hs hb (hfresh r rfl)
      subst hgrown
      refine Or.inl ⟨b, r, hb, ⟨rfl, hfits, hok⟩, rfl, rfl, ?_, by simp [staleReads]⟩
      simp [State.content, State.set, hne]

theorem store_staleReads {b : Address} {tag : UInt32} {type : ℤ} {data : Address}
    {count : UInt32} {bytes : List UInt8} :
    staleReads.Accepts freed (s.store lib b tag type data count bytes).events ↔
      ∀ p ∈ freed, Apart data (lib.readSize (s.content lib b) tag type count) p.1 p.2 := by
  unfold State.store
  dsimp only
  split
  · simp [staleReads]
  · rename_i hnew
    split
    · simp [staleReads]
    · rename_i hfound
      have hsize : lib.readSize (s.content lib b) tag type count = 0 := by
        simp [Library.readSize, hnew, hfound]
      simp [staleReads, hsize, Apart]

/-- An update reads nothing that it has freed if and only if it is safe. -/
theorem updateImpl_staleReads (hs : s.Allocated) {fresh : Option Address}
    (hfresh : ∀ r ∈ fresh, s.heap r = none) (element : Element) (tag : UInt32)
    (data : Address) (count : UInt32) (bytes : List UInt8) :
    staleReads.Accepts [] (s.updateImpl lib tag data count bytes fresh).events ↔
      Safe lib s (.call (.update element tag data count bytes fresh)) := by
  obtain ⟨haccepts, hresized⟩ := resizeIfNeeded_staleReads hs hfresh
    (resizeIfNeeded_spec lib s 1 (lib.entryDataSize (s.typeOf lib tag) count) fresh)
  have hlooks : staleReads.Accepts [] s.looks ∧ staleReads.after [] s.looks = [] :=
    looks_staleReads
  have hbefore : staleReads.Accepts [] (s.looks ++ (s.resizeIfNeeded lib 1
      (lib.entryDataSize (s.typeOf lib tag) count) fresh).events) := by
    rw [Monitor.accepts_append, hlooks.2]
    exact ⟨hlooks.1, haccepts⟩
  unfold State.updateImpl
  dsimp only
  split_ifs with hlocked htype halias hfails
  · exact iff_of_true trivial fun b _ h => absurd (hlocked.symm.trans h.1) (by decide)
  · exact iff_of_true hlooks.1 fun b _ h => absurd h.2.1 (not_le.2 htype)
  · exact iff_of_true hlooks.1 fun b _ h => absurd halias h.2.2.1
  · refine iff_of_true hbefore fun b hb h => ?_
    rcases hresized with ⟨-, -, -, -, hok, -⟩ | ⟨hno, -⟩
    · exact absurd hok hfails
    · exact absurd h.2.2.2 (hno b hb)
  · have hok := not_not.1 hfails
    rcases hresized with ⟨b, r, hb, hgrows, -, hbuffer, hcontent, hafter⟩ | ⟨hno, hafter⟩
    · rw [hbuffer]
      dsimp only
      rw [Monitor.accepts_append, Monitor.after_append, hlooks.2, hafter, store_staleReads,
        hcontent, and_iff_right hbefore]
      constructor
      · intro hapart b' hb' _
        obtain rfl := Option.some.inj (hb.symm.trans hb')
        exact hapart _ (List.mem_singleton_self _)
      · intro hsafe p hp
        obtain rfl := List.mem_singleton.1 hp
        exact hsafe b hb ⟨by simpa using hlocked, not_lt.1 htype, halias, hgrows⟩
    · refine iff_of_true ?_ fun b hb h => absurd h.2.2.2 (hno b hb)
      split
      · exact hbefore
      · dsimp only
        rw [Monitor.accepts_append, Monitor.after_append, hlooks.2, hafter hok, store_staleReads]
        exact ⟨hbefore, by simp⟩

/-- With the end of a call what it has freed is forgotten. -/
theorem returns_staleReads {τ : Type*} (o : Outcome β τ) (result : τ → Result) :
    staleReads.after [] (o.returns result).2 = [] ∧
      (staleReads.Accepts [] (o.returns result).2 ↔ staleReads.Accepts [] o.events) := by
  rw [Outcome.returns, Monitor.after_append, Monitor.accepts_append]
  exact ⟨rfl, and_iff_left ⟨trivial, trivial⟩⟩

theorem clear_accepts : staleReads.Accepts [] (s.clear lib).events := by
  unfold State.clear
  split <;> simp [staleReads]

/-- Only updates read data. -/
theorem call_staleReads (hs : s.Allocated) {c : Call} (hc : s.Permits c) :
    staleReads.after [] (s.call lib c).2 = [] ∧
      (staleReads.Accepts [] (s.call lib c).2 ↔ Safe lib s (.call c)) := by
  cases c with
  | clear =>
      have h := returns_staleReads (s.clear lib) fun _ => .void
      exact ⟨h.1, h.2.trans (iff_of_true clear_accepts trivial)⟩
  | release =>
      have h := returns_staleReads s.release .buffer
      refine ⟨h.1, h.2.trans (iff_of_true (accepts_of_forall_ne ?_) trivial)⟩
      unfold State.release
      split_ifs <;> simp
  | acquire buffer =>
      have h := returns_staleReads (s.acquire lib buffer) fun _ => .void
      refine ⟨h.1, h.2.trans (iff_of_true ?_ trivial)⟩
      unfold State.acquire
      split_ifs
      · trivial
      · rw [Monitor.accepts_append]
        exact ⟨clear_accepts, accepts_of_forall_ne (by simp)⟩
  | getAndLock =>
      have h := returns_staleReads s.getAndLock .buffer
      exact ⟨h.1, h.2.trans (iff_of_true trivial trivial)⟩
  | unlock buffer =>
      have h := returns_staleReads (s.unlock buffer) .status
      refine ⟨h.1, h.2.trans (iff_of_true ?_ trivial)⟩
      unfold State.unlock
      split_ifs <;> trivial
  | find tag =>
      have h := returns_staleReads (s.find lib tag) .entry
      refine ⟨h.1, h.2.trans (iff_of_true (accepts_of_forall_ne ?_) trivial)⟩
      unfold State.find
      split <;> simp
  | update element tag data count bytes fresh =>
      have h := returns_staleReads (s.updateImpl lib tag data count bytes fresh) .status
      exact ⟨h.1, h.2.trans (updateImpl_staleReads hs hc element tag data count bytes)⟩

theorem step_staleReads {a : Action β} {p : State β × List Event} (hs : s.WellFormed)
    (h : step lib s a = some p) :
    staleReads.after [] p.2 = [] ∧ (staleReads.Accepts [] p.2 ↔ Safe lib s a) := by
  cases step_spec h with
  | ctor => exact ⟨rfl, iff_of_true ⟨trivial, trivial⟩ trivial⟩
  | dtor =>
      have h := returns_staleReads (({ s with locked := false } : State β).clear lib)
        fun _ => .void
      exact ⟨h.1, h.2.trans (iff_of_true clear_accepts trivial)⟩
  | call halive hc => exact call_staleReads hs.allocated hc
  | allocate | free | write => exact ⟨rfl, iff_of_true trivial trivial⟩

end MozartLineage.Metadata
