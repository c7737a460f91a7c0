import MozartLineage.Metadata.Update

/-!
# The entry points for updates and the types of tags

An entry point has an element type of its own and passes on a pointer and a count. How
many bytes are copied comes from the type of the tag, and nobody compares the two.
-/

namespace MozartLineage.Metadata

/-- The type that the library has for the elements of an entry point. -/
def Element.type : Element → ℤ
  | .u8 => 0
  | .i32 => 1
  | .float => 2
  | .i64 => 3

/-- How many bytes are read of the caller's data. -/
def readTotal : List Event → ℕ
  | [] => 0
  | .read _ size :: os => size + readTotal os
  | _ :: os => readTotal os

/-- The call has returned without an error. -/
def succeeds (os : List Event) : Prop := os.getLast? = some (.returned (.status ok))

instance (os : List Event) : Decidable (succeeds os) := inferInstanceAs (Decidable (_ = _))

/-- What an update copies: the library looks for room before it touches the data. -/
def copied (os : List Event) : ℕ := if succeeds os then readTotal os else 0

variable {β : Type*}

/-- A call of an entry point, with the state and the events that it leaves, reads no more
than the elements it is given, and is rejected unless the tag has their type. -/
structure State.KeepsType (lib : Library β) (entries : β → List Entry) (s : State β)
    (element : Element) (tag count : UInt32) (p : State β × List Event) : Prop where
  copied_le : copied p.2 ≤ count.toNat * typeSize element.type
  rejects : element.type ≠ s.typeOf lib tag →
    ¬ succeeds p.2 ∧ p.1.stored lib entries = s.stored lib entries

variable {lib : Library β} {entries : β → List Entry} {s : State β} {tag data count : UInt32}
  {bytes : List UInt8} {fresh : Option Address}

theorem readTotal_append (os os' : List Event) :
    readTotal (os ++ os') = readTotal os + readTotal os' := by
  induction os with
  | nil => simp [readTotal]
  | cons e os ih => cases e <;> simp [readTotal, ih, Nat.add_assoc]

theorem readTotal_looks : readTotal s.looks = 0 := by
  unfold State.looks
  cases s.buffer <;> rfl

theorem readTotal_resized {extraEntries extraData : UInt32} {o : Outcome β ℤ}
    (h : Resized lib s extraEntries extraData fresh o) : readTotal o.events = 0 := by
  cases h <;> rfl

theorem readTotal_store {b : Address} {type : ℤ}
    (hok : (s.store lib b tag type data count bytes).result = ok) :
    readTotal (s.store lib b tag type data count bytes).events =
      lib.readSize (s.content lib b) tag type count := by
  unfold State.store at hok ⊢
  dsimp only at hok ⊢
  split_ifs at hok ⊢ with hnew hfound
  · rfl
  · rfl
  · exact absurd hok hfound

section Contract

variable (hlib : lib.IsMultimap entries)

include hlib

theorem readSize_eq {c : β} {type : ℤ} (htype : type = lib.tagType tag (some c)) :
    lib.readSize c tag type count = lib.payloadSize type count := by
  have hne : ok ≠ nameNotFound := by decide
  cases h : (entries c).findIdx? fun e => e.tag = tag with
  | none => simp [Library.readSize, hlib.find, findEntry_of_none h]
  | some i =>
      obtain ⟨e, he, htag⟩ := exists_of_findIdx? h
      have htypes := hlib.type_eq _ e (List.mem_of_getElem? he)
      rw [htag] at htypes
      simp [Library.readSize, hlib.find, findEntry_of_some h he, hne, htypes, htype]

/-- An update that succeeds reads its data once. -/
theorem readTotal_updateImpl (hs : s.Allocated) (hfresh : ∀ r ∈ fresh, s.heap r = none)
    (hok : (s.updateImpl lib tag data count bytes fresh).result = ok) :
    readTotal (s.updateImpl lib tag data count bytes fresh).events =
      lib.payloadSize (s.typeOf lib tag) count := by
  by_cases h : s.locked = false ∧ 0 ≤ s.typeOf lib tag ∧ ¬ s.Aliases lib data
  · obtain ⟨hlocked, hknown, houtside⟩ := h
    obtain ⟨hfails, hresult, -⟩ | ⟨-, b, hb, hresult, -, hevents⟩ :=
      updateImpl_of_resized hlib hs hfresh hlocked hknown houtside
    · exact absurd (hresult ▸ hok) hfails
    · rw [hevents, readTotal_append, readTotal_append, readTotal_looks,
        readTotal_resized (resizeIfNeeded_spec lib s 1 _ fresh),
        readTotal_store (hresult ▸ hok), readSize_eq hlib (hb.tagType tag).symm]
      omega
  · exact absurd hok (updateImpl_of_refused h).1

omit hlib in
theorem succeeds_update (element : Element) :
    succeeds (s.call lib (.update element tag data count bytes fresh)).2 ↔
      (s.updateImpl lib tag data count bytes fresh).result = ok := by
  simp [succeeds, State.call, Outcome.returns]

theorem copied_update (hs : s.Allocated) (hfresh : ∀ r ∈ fresh, s.heap r = none)
    (element : Element) :
    copied (s.call lib (.update element tag data count bytes fresh)).2 =
      if (s.updateImpl lib tag data count bytes fresh).result = ok then
        lib.payloadSize (s.typeOf lib tag) count
      else 0 := by
  unfold copied
  simp only [succeeds_update]
  split_ifs with hok
  · simp [State.call, Outcome.returns, readTotal_append, readTotal,
      readTotal_updateImpl hlib hs hfresh hok]
  · rfl

/-- For any library that keeps its contract, any object, any entry point, tag and count: a
call keeps to the elements it is given, and is rejected for a tag of another type, if and
only if the tag has the type of the entry point or the update is not accepted at all. -/
theorem update_keepsType_iff (hs : s.Allocated) (hfresh : ∀ r ∈ fresh, s.heap r = none)
    (hbytes : lib.payloadSize (s.typeOf lib tag) count ≤ bytes.length) (element : Element) :
    s.KeepsType lib entries element tag count
        (s.call lib (.update element tag data count bytes fresh)) ↔
      element.type = s.typeOf lib tag ∨ ¬ s.Accepts lib entries tag data count fresh := by
  have hok : (s.updateImpl lib tag data count bytes fresh).result = ok ↔ _ :=
    (updateImpl_ok_iff hlib hs hfresh hbytes).1
  constructor
  · intro h
    by_contra hcon
    obtain ⟨hne, haccepts⟩ := not_or.1 hcon
    exact (h.rejects hne).1 ((succeeds_update element).2 (hok.2 (not_not.1 haccepts)))
  rintro (htype | hrejected)
  · refine ⟨?_, fun hne => absurd htype hne⟩
    rw [copied_update hlib hs hfresh]
    split_ifs with hresult
    · have hknown := (hok.1 hresult).2.1
      rw [hlib.payloadSize _ _ hknown, htype]
      exact Nat.mod_le _ _
    · exact Nat.zero_le _
  · have hfails := fun hresult => hrejected (hok.1 hresult)
    refine ⟨?_, fun _ => ⟨fun h => hfails ((succeeds_update element).1 h), ?_⟩⟩
    · rw [copied_update hlib hs hfresh, if_neg hfails]
      exact Nat.zero_le _
    · exact updateImpl_of_ne_ok hlib hs hfresh hfails

end Contract

/-- The tag has elements of four bytes, and the entry point gives them. -/
theorem keepsType_int32s :
    noBuffer.KeepsType (buffers fun _ => 1) Buffer.entries .i32 7 1
      (noBuffer.call (buffers fun _ => 1)
        (.update .i32 7 0x5000 1 [1, 2, 3, 4] (some 0x2000))) :=
  (update_keepsType_iff (buffers_isMultimap _) (fun b hb => by cases hb) (fun _ _ => rfl)
    (by decide) .i32).2 (Or.inl rfl)

/-- One byte is passed, and four are copied from there. -/
theorem not_keepsType_byte :
    ¬ noBuffer.KeepsType (buffers fun _ => 1) Buffer.entries .u8 7 1
      (noBuffer.call (buffers fun _ => 1)
        (.update .u8 7 0x5000 1 [1, 2, 3, 4] (some 0x2000))) := fun h =>
  absurd h.copied_le (by decide)

end MozartLineage.Metadata
