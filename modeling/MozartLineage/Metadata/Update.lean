import MozartLineage.Metadata.Growth

/-!
# What an update leaves

The entry is put among the others if the buffer that `resizeIfNeeded` leaves has room for
it. An update that fails leaves the entries alone, wherever it fails.
-/

namespace MozartLineage.Metadata

variable {β : Type*}

namespace State

variable (lib : Library β) (entries : β → List Entry) (s : State β)

/-- None of the bytes is in the buffer of the object. -/
def Outside (data : Address) (size : ℕ) : Prop :=
  ∀ b ∈ s.buffer, data.toNat + size ≤ b.toNat ∨
    b.toNat + (lib.size (s.content lib b)).toNat ≤ data.toNat

/-- The update `o` succeeds, its data is found, and the other entries are as before. -/
def Completes (tag count : UInt32) (bytes : List UInt8) (o : Outcome β ℤ) : Prop :=
  o.result = ok ∧
    (∃ index, (o.state.find lib tag).result = ⟨index, tag, s.typeOf lib tag, count,
      bytes.take (count.toNat * typeSize (s.typeOf lib tag))⟩) ∧
    (∀ tag', tag' ≠ tag → (o.state.find lib tag').result = (s.find lib tag').result) ∧
    (o.state.stored lib entries).filter (fun e => e.tag ≠ tag) =
      (s.stored lib entries).filter fun e => e.tag ≠ tag

/-- The update is not refused at once, a larger buffer can be had if one is needed, and
there is room for the entry. -/
def Accepts (tag data count : UInt32) (fresh : Option Address) : Prop :=
  s.locked = false ∧ 0 ≤ s.typeOf lib tag ∧ ¬ s.Aliases lib data ∧
    (fresh.isSome ∨ ∃ b ∈ s.buffer,
      lib.Fits (s.content lib b) 1 (lib.entryDataSize (s.typeOf lib tag) count)) ∧
    s.HasRoomFor lib entries tag count

end State

variable {lib : Library β} {entries : β → List Entry} {s t : State β} {tag data count : UInt32}
  {bytes : List UInt8} {fresh : Option Address}

variable (hlib : lib.IsMultimap entries)

include hlib

/-! ### The entry that is stored -/

theorem store_of_none {b : Address} {type : ℤ}
    (h : (entries (s.content lib b)).findIdx? (fun e => e.tag = tag) = none) :
    s.store lib b tag type data count bytes =
      let size := lib.payloadSize type count
      let added := lib.add (s.content lib b) tag (bytes.take size) count
      ⟨added.1, s.set b (some added.2), [.used b, .used b, .read data size]⟩ := by
  have hfind : lib.find (s.content lib b) tag = _ :=
    (hlib.find _ _).trans (findEntry_of_none h)
  simp [State.store, Library.readSize, hfind]

theorem store_of_some {b : Address} {type : ℤ} {i : ℕ}
    (h : (entries (s.content lib b)).findIdx? (fun e => e.tag = tag) = some i)
    (htype : type = lib.tagType tag (some (s.content lib b))) :
    ∃ e index, (entries (s.content lib b))[i]? = some e ∧ e.type = type ∧ index.toNat = i ∧
      s.store lib b tag type data count bytes =
        let size := lib.payloadSize type count
        let updated := lib.update (s.content lib b) index (bytes.take size) count
        ⟨updated.1, s.set b (some updated.2), [.used b, .used b, .read data size]⟩ := by
  obtain ⟨e, he, htag⟩ := exists_of_findIdx? h
  have hfind : lib.find (s.content lib b) tag = _ :=
    (hlib.find _ _).trans (findEntry_of_some h he)
  have htypes : e.type = type := by
    rw [hlib.type_eq _ e (List.mem_of_getElem? he), htag, htype]
  have hlt : i < (lib.entryCapacity (s.content lib b)).toNat :=
    (List.getElem?_eq_some_iff.1 he).1.trans_le (hlib.room _).1
  refine ⟨e, UInt32.ofNat i, he, htypes, toNat_ofNat_of_le hlt.le, ?_⟩
  have hne : ok ≠ nameNotFound := by decide
  simp [State.store, Library.readSize, hfind, htypes, hne]

omit hlib in
theorem locked_store {b : Address} {type : ℤ} :
    (s.store lib b tag type data count bytes).state.locked = s.locked := by
  unfold State.store
  dsimp only
  split_ifs <;> rfl

theorem store_of_ne_ok {b : Address} {type : ℤ} (hb : s.buffer = some b)
    (htype : type = lib.tagType tag (some (s.content lib b)))
    (hne : (s.store lib b tag type data count bytes).result ≠ ok) :
    (s.store lib b tag type data count bytes).state.stored lib entries =
      s.stored lib entries := by
  cases h : (entries (s.content lib b)).findIdx? fun e => e.tag = tag with
  | none =>
      rw [store_of_none hlib h] at hne ⊢
      rw [stored_set hb, stored_of_some hb]
      exact hlib.add_of_ne_ok _ _ _ _ hne
  | some i =>
      obtain ⟨e, index, -, -, -, hstore⟩ := store_of_some hlib h htype
      rw [hstore] at hne ⊢
      rw [stored_set hb, stored_of_some hb]
      exact hlib.update_of_ne_ok _ _ _ _ hne

/-- With the data at hand the entry is put among the others, if there is room. -/
theorem store_attempt (data : Address) {b : Address} {type : ℤ} (hb : s.buffer = some b)
    (htype : type = lib.tagType tag (some (s.content lib b))) (hknown : 0 ≤ type)
    (hbytes : lib.payloadSize type count ≤ bytes.length) :
    let o := s.store lib b tag type data count bytes
    let es := putEntry (s.stored lib entries) tag type count
      (bytes.take (lib.payloadSize type count))
    (o.result = ok ↔ lib.HasRoom (s.content lib b) es) ∧
      (o.result = ok → o.state.stored lib entries = es) := by
  have hlength : (bytes.take (lib.payloadSize type count)).length =
      lib.payloadSize type count := List.length_take_of_le hbytes
  dsimp only
  rw [stored_of_some hb]
  cases h : (entries (s.content lib b)).findIdx? fun e => e.tag = tag with
  | none =>
      subst htype
      have hadd := hlib.add _ tag _ count hknown hlength
      rw [store_of_none hlib h, putEntry_of_none h]
      exact ⟨hadd.ok_iff, fun hok => (stored_set hb _).trans (hadd.entries_eq hok)⟩
  | some i =>
      obtain ⟨e, index, he, htypes, rfl, hstore⟩ := store_of_some hlib h htype
      subst htypes
      have hupdate := hlib.update _ index e _ count he hlength
      rw [hstore, putEntry_of_some h]
      exact ⟨hupdate.ok_iff, fun hok => (stored_set hb _).trans (hupdate.entries_eq hok)⟩

/-! ### The whole update -/

/-- What `updateImpl` does once it has refused nothing and has resized the buffer. -/
theorem updateImpl_of_resized (hs : s.Allocated) (hfresh : ∀ r ∈ fresh, s.heap r = none)
    (hlocked : s.locked = false) (hknown : 0 ≤ s.typeOf lib tag)
    (houtside : ¬ s.Aliases lib data) :
    let extraData := lib.entryDataSize (s.typeOf lib tag) count
    let resized := s.resizeIfNeeded lib 1 extraData fresh
    let o := s.updateImpl lib tag data count bytes fresh
    (resized.result ≠ ok ∧ o.result = resized.result ∧ o.state = s) ∨
      resized.result = ok ∧ ∃ b, s.Resizes lib entries 1 extraData resized.state b ∧
        let stored := resized.state.store lib b tag (s.typeOf lib tag) data count bytes
        o.result = stored.result ∧ o.state = stored.state ∧
          o.events = s.looks ++ resized.events ++ stored.events := by
  dsimp only
  have hresized := resizeIfNeeded_spec lib s 1 (lib.entryDataSize (s.typeOf lib tag) count) fresh
  by_cases hok : (s.resizeIfNeeded lib 1
      (lib.entryDataSize (s.typeOf lib tag) count) fresh).result = ok
  · obtain ⟨b, hb⟩ := resized_of_ok hlib hs hfresh hresized hok
    refine Or.inr ⟨hok, b, hb, ?_⟩
    simp [State.updateImpl, hlocked, hknown.not_gt, houtside, hok, hb.buffer]
  · refine Or.inl ⟨hok, ?_, ?_⟩
    · simp [State.updateImpl, hlocked, hknown.not_gt, houtside, hok]
    · simp [State.updateImpl, hlocked, hknown.not_gt, houtside, hok,
        resized_of_ne_ok hresized hok]

omit hlib in
/-- A refusal changes nothing. -/
theorem updateImpl_of_refused
    (h : ¬ (s.locked = false ∧ 0 ≤ s.typeOf lib tag ∧ ¬ s.Aliases lib data)) :
    (s.updateImpl lib tag data count bytes fresh).result ≠ ok ∧
      (s.updateImpl lib tag data count bytes fresh).state = s := by
  have hinvalid : invalidOperation ≠ ok := by decide
  have hbad : badValue ≠ ok := by decide
  unfold State.updateImpl
  dsimp only
  split_ifs with hlocked hunknown haliases hresized
  · exact ⟨hinvalid, rfl⟩
  · exact ⟨hbad, rfl⟩
  · exact ⟨hinvalid, rfl⟩
  all_goals exact absurd ⟨by simpa using hlocked, not_lt.1 hunknown, haliases⟩ h

theorem updateImpl_of_ne_ok (hs : s.Allocated) (hfresh : ∀ r ∈ fresh, s.heap r = none)
    (hne : (s.updateImpl lib tag data count bytes fresh).result ≠ ok) :
    (s.updateImpl lib tag data count bytes fresh).state.stored lib entries =
      s.stored lib entries := by
  by_cases h : s.locked = false ∧ 0 ≤ s.typeOf lib tag ∧ ¬ s.Aliases lib data
  · obtain ⟨hlocked, hknown, houtside⟩ := h
    obtain ⟨-, -, hstate⟩ | ⟨hok, b, hb, hresult, hstate, -⟩ :=
      updateImpl_of_resized hlib hs hfresh hlocked hknown houtside
    · rw [hstate]
    · rw [hstate, store_of_ne_ok hlib hb.buffer (hb.tagType tag).symm (hresult ▸ hne),
        stored_of_some hb.buffer, hb.entries_eq]
  · rw [(updateImpl_of_refused h).2]

/-- When an update succeeds, and what it leaves. -/
theorem updateImpl_ok_iff (hs : s.Allocated) (hfresh : ∀ r ∈ fresh, s.heap r = none)
    (hbytes : lib.payloadSize (s.typeOf lib tag) count ≤ bytes.length) :
    let o := s.updateImpl lib tag data count bytes fresh
    (o.result = ok ↔ s.Accepts lib entries tag data count fresh) ∧
      (o.result = ok → o.state.locked = false ∧
        o.state.stored lib entries = s.updated lib entries tag count bytes) := by
  dsimp only
  by_cases h : s.locked = false ∧ 0 ≤ s.typeOf lib tag ∧ ¬ s.Aliases lib data
  · obtain ⟨hlocked, hknown, houtside⟩ := h
    have hresized := resized_ok_iff hlib (resizeIfNeeded_spec lib s 1
      (lib.entryDataSize (s.typeOf lib tag) count) fresh)
    have haccepts : s.Accepts lib entries tag data count fresh ↔
        (fresh.isSome ∨ ∃ b ∈ s.buffer,
          lib.Fits (s.content lib b) 1 (lib.entryDataSize (s.typeOf lib tag) count)) ∧
        s.HasRoomFor lib entries tag count :=
      ⟨fun h => h.2.2.2, fun h => ⟨hlocked, hknown, houtside, h⟩⟩
    rw [haccepts, hasRoomFor_iff hlib bytes]
    obtain ⟨hfails, hresult, -⟩ | ⟨hok, b, hb, hresult, hstate, -⟩ :=
      updateImpl_of_resized hlib hs hfresh hlocked hknown houtside
    · rw [hresult]
      exact ⟨iff_of_false hfails fun ⟨hfresh, hentries, hdata⟩ =>
          hfails (hresized.2 ⟨hfresh, hentries.1, hdata.1⟩),
        fun hok => absurd hok hfails⟩
    · obtain ⟨hfits, hentries, hdata⟩ := hresized.1 hok
      have hstored := store_attempt hlib data hb.buffer (hb.tagType tag).symm hknown hbytes
      rw [stored_of_some hb.buffer, hb.entries_eq] at hstored
      rw [hresult, hstate]
      refine ⟨?_, fun hok => ⟨?_, hstored.2 hok⟩⟩
      · rw [hstored.1, Library.HasRoom, hb.entryCapacity, hb.dataCapacity]
        exact ⟨fun h => ⟨hfits, ⟨hentries, h.1⟩, hdata, h.2⟩, fun h => ⟨h.2.1.2, h.2.2.2⟩⟩
      · rw [locked_store, hb.locked, hlocked]
  · have hrefused : (s.updateImpl lib tag data count bytes fresh).result ≠ ok ∧ _ :=
      updateImpl_of_refused h
    exact ⟨iff_of_false hrefused.1 fun ha => h ⟨ha.1, ha.2.1, ha.2.2.1⟩,
      fun hok => absurd hok hrefused.1⟩

omit hlib in
theorem not_aliases_of_outside {size : ℕ} (h : s.Outside lib data size) :
    ¬ s.Aliases lib data := by
  rintro ⟨b, hb, hgt, hlt⟩
  rw [gt_iff_lt, UInt32.lt_iff_toNat_lt] at hgt
  rw [UInt32.lt_iff_toNat_lt, UInt32.toNat_add] at hlt
  have := h b hb
  have := data.toNat_lt
  omega

theorem find_eq_findEntry (hlocked : s.locked = false) :
    (s.find lib tag).result = (findEntry (s.stored lib entries) tag).2 := by
  unfold State.find State.stored
  cases s.buffer with
  | none =>
      rw [findEntry_of_none (by simp)]
      simp [hlocked]
  | some b => simp [hlocked, hlib.find]

/-- A larger buffer can be had: the update is complete if and only if the capacities that
it asks for suffice. -/
theorem completes_iff (hs : s.Allocated) (hfresh : ∀ r ∈ fresh, s.heap r = none)
    (hlocked : s.locked = false) (hknown : 0 ≤ s.typeOf lib tag)
    (houtside : s.Outside lib data (count.toNat * typeSize (s.typeOf lib tag)))
    (hwrap : count.toNat * typeSize (s.typeOf lib tag) < 2 ^ 32)
    (hbytes : count.toNat * typeSize (s.typeOf lib tag) ≤ bytes.length)
    (hsome : fresh.isSome) :
    s.Completes lib entries tag count bytes (s.updateImpl lib tag data count bytes fresh) ↔
      s.HasRoomFor lib entries tag count := by
  have hsize : lib.payloadSize (s.typeOf lib tag) count =
      count.toNat * typeSize (s.typeOf lib tag) := by
    rw [hlib.payloadSize _ _ hknown, Nat.mod_eq_of_lt hwrap]
  have hupdate := @updateImpl_ok_iff _ lib entries s tag data count bytes fresh hlib hs hfresh
    (hsize ▸ hbytes)
  obtain ⟨hok, hleaves⟩ := hupdate
  have haccepts : s.Accepts lib entries tag data count fresh ↔
      s.HasRoomFor lib entries tag count :=
    ⟨fun h => h.2.2.2.2,
      fun h => ⟨hlocked, hknown, not_aliases_of_outside houtside, Or.inl hsome, h⟩⟩
  rw [← haccepts, ← hok]
  refine and_iff_left_of_imp fun hresult => ?_
  obtain ⟨hunlocked, hstored⟩ := hleaves hresult
  rw [hstored, State.updated, hsize]
  refine ⟨?_, fun tag' hne => ?_, filter_putEntry⟩
  · obtain ⟨index, hfind⟩ := findEntry_putEntry_self (type_eq_of_mem_stored hlib)
    refine ⟨index, ?_⟩
    rw [find_eq_findEntry hlib hunlocked, hstored, State.updated, hsize, hfind]
  · rw [find_eq_findEntry hlib hunlocked, find_eq_findEntry hlib hlocked, hstored,
      State.updated, findEntry_putEntry_of_ne hne]

/-- For any library that keeps its contract, any object and any update: when it fails, the
entries are what they were. And where the object is unlocked, the tag known, the data
outside the object's buffer and its size below 2^32, and a larger buffer can be had, the
update is complete if and only if the capacities that it asks for suffice. -/
theorem updateImpl_completes_iff (hs : s.Allocated) (hfresh : ∀ r ∈ fresh, s.heap r = none) :
    ((s.updateImpl lib tag data count bytes fresh).result ≠ ok →
      (s.updateImpl lib tag data count bytes fresh).state.stored lib entries =
        s.stored lib entries) ∧
    (s.locked = false → 0 ≤ s.typeOf lib tag →
      s.Outside lib data (count.toNat * typeSize (s.typeOf lib tag)) →
      count.toNat * typeSize (s.typeOf lib tag) < 2 ^ 32 →
      count.toNat * typeSize (s.typeOf lib tag) ≤ bytes.length → fresh.isSome →
      (s.Completes lib entries tag count bytes
          (s.updateImpl lib tag data count bytes fresh) ↔
        s.HasRoomFor lib entries tag count)) :=
  ⟨updateImpl_of_ne_ok hlib hs hfresh, completes_iff hlib hs hfresh⟩

omit hlib

/-! ### An object with one entry, and one without -/

def bytesAt7 : Buffer fun _ => 0 := ⟨1, 0, [⟨0, 7, 0, 1, [42]⟩], by decide, by simp⟩

/-- The object has a buffer that is full. -/
def oneEntry : State (Buffer fun _ => 0) :=
  { (init.ctor).set 0x1000 (some bytesAt7) with buffer := some 0x1000 }

theorem completes_oneEntry :
    oneEntry.Completes (buffers fun _ => 0) Buffer.entries 7 5 [1, 2, 3, 4, 5]
      (oneEntry.updateImpl (buffers fun _ => 0) 7 0x5000 5 [1, 2, 3, 4, 5] (some 0x2000)) :=
  ((updateImpl_completes_iff (buffers_isMultimap _)
    (fun b hb => by obtain rfl := Option.some.inj hb; rfl)
    (fun r hr => by obtain rfl := Option.some.inj hr; rfl)).2 rfl (by decide)
    (fun b hb => by obtain rfl := Option.some.inj hb; decide) (by decide) (by decide)
    rfl).2 (by decide)

/-- An object without a buffer, for tags of four bytes an element. -/
def noBuffer : State (Buffer fun _ => 1) := init.ctor

/-- Twice 2^31 bytes is nothing on 32 bits. -/
theorem not_completes_noBuffer :
    noBuffer.Outside (buffers fun _ => 1) 0x10000000 (2 ^ 31) ∧
      ¬ noBuffer.Completes (buffers fun _ => 1) Buffer.entries 7 0x20000000
        (List.replicate (2 ^ 31) 0)
        (noBuffer.updateImpl (buffers fun _ => 1) 7 0x10000000 0x20000000
          (List.replicate (2 ^ 31) 0) (some 0x2000)) := by
  have houtside : noBuffer.Outside (buffers fun _ => 1) 0x10000000 (2 ^ 31) :=
    fun b hb => by simp [noBuffer, init, State.ctor] at hb
  refine ⟨houtside, fun h => ?_⟩
  have hroom := (completes_iff (buffers_isMultimap _) (fun b hb => by
    simp [noBuffer, init, State.ctor] at hb) (fun r _ => rfl) rfl (by decide) houtside
    (by decide) (by rw [List.length_replicate]; decide) rfl).1 h
  exact absurd hroom (by decide)

end MozartLineage.Metadata
