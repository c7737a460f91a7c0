import Mathlib.Algebra.Group.Nat.Defs
import MozartLineage.Metadata.Multimap

/-!
# What the metadata library is taken for

`IsMultimap` says of a library that its buffers are lists of entries within two
capacities, in which the first entry of a tag is the one that is found. An operation
succeeds if and only if there is room for what it comes to, and otherwise leaves the
entries alone. `buffers` is such a library, on buffers that carry the proof that they
have room for their entries.
-/

namespace MozartLineage.Metadata

/-! ### Lists of entries -/

/-- The entries when the first one of the tag has this data, or a new one. -/
def putEntry (es : List Entry) (tag : UInt32) (type : ℤ) (count : UInt32)
    (data : List UInt8) : List Entry :=
  match es.findIdx? fun e => e.tag = tag with
  | some i => es.modify i fun e => { e with count := count, data := data }
  | none => es ++ [⟨0, tag, type, count, data⟩]

/-- The status and the entry that a search gives. -/
def findEntry (es : List Entry) (tag : UInt32) : ℤ × Entry := (Multimap.mk 0 0 es).find tag

section Entries

variable {es : List Entry} {tag tag' : UInt32} {type : ℤ} {count : UInt32}
  {data : List UInt8}

theorem findEntry_of_none (h : es.findIdx? (fun e => e.tag = tag) = none) :
    findEntry es tag = (nameNotFound, .empty) := by
  simp [findEntry, Multimap.find, h]

theorem findEntry_of_some {i : ℕ} {e : Entry}
    (h : es.findIdx? (fun e => e.tag = tag) = some i) (he : es[i]? = some e) :
    findEntry es tag = (ok, { e with index := UInt32.ofNat i }) := by
  simp [findEntry, Multimap.find, h, he]

/-- The entry that is found has the tag. -/
theorem exists_of_findIdx? {i : ℕ} (h : es.findIdx? (fun e => e.tag = tag) = some i) :
    ∃ e, es[i]? = some e ∧ e.tag = tag := by
  obtain ⟨hlt, he, -⟩ := List.findIdx?_eq_some_iff_getElem.1 h
  exact ⟨es[i], List.getElem?_eq_getElem hlt, by simpa using he⟩

/-- A change that does not touch the tags does not change where they are. -/
theorem findIdx?_modify (f : Entry → Entry) (hf : ∀ e, (f e).tag = e.tag) (i : ℕ) :
    (es.modify i f).findIdx? (fun e => e.tag = tag) = es.findIdx? fun e => e.tag = tag := by
  induction es generalizing i with
  | nil => simp
  | cons e es ih =>
      cases i with
      | zero => simp [List.findIdx?_cons, hf]
      | succ i => simp [List.findIdx?_cons, ih]

theorem putEntry_of_none (h : es.findIdx? (fun e => e.tag = tag) = none) :
    putEntry es tag type count data = es ++ [⟨0, tag, type, count, data⟩] := by
  simp only [putEntry, h]

theorem putEntry_of_some {i : ℕ} (h : es.findIdx? (fun e => e.tag = tag) = some i) :
    putEntry es tag type count data =
      es.modify i fun e => { e with count := count, data := data } := by
  simp only [putEntry, h]

theorem findEntry_putEntry_self (htype : ∀ e ∈ es, e.tag = tag → e.type = type) :
    ∃ i, findEntry (putEntry es tag type count data) tag =
      (ok, ⟨i, tag, type, count, data⟩) := by
  cases h : es.findIdx? fun e => e.tag = tag with
  | some i =>
      obtain ⟨e, he, htag⟩ := exists_of_findIdx? h
      have hfound := (findIdx?_modify (fun e => { e with count := count, data := data })
        (fun _ => rfl) i).trans h
      have hget : (es.modify i fun e => { e with count := count, data := data })[i]? =
          some { e with count := count, data := data } := by
        simp [he]
      refine ⟨UInt32.ofNat i, ?_⟩
      rw [putEntry_of_some h, findEntry_of_some hfound hget]
      simp [htag, htype e (List.mem_of_getElem? he) htag]
  | none =>
      let new : Entry := ⟨0, tag, type, count, data⟩
      have hfound : (es ++ [new]).findIdx? (fun e => e.tag = tag) = some es.length := by
        simp [List.findIdx?_append, h, new]
      have hget : (es ++ [new])[es.length]? = some new := by simp
      exact ⟨_, by rw [putEntry_of_none h, findEntry_of_some hfound hget]⟩

theorem findEntry_putEntry_of_ne (hne : tag' ≠ tag) :
    findEntry (putEntry es tag type count data) tag' = findEntry es tag' := by
  cases h : es.findIdx? fun e => e.tag = tag with
  | some i =>
      obtain ⟨e, he, htag⟩ := exists_of_findIdx? h
      have hfound : (es.modify i fun e => { e with count := count, data := data }).findIdx?
          (fun e => e.tag = tag') = es.findIdx? fun e => e.tag = tag' :=
        findIdx?_modify (fun e => { e with count := count, data := data }) (fun _ => rfl) i
      rw [putEntry_of_some h]
      cases h' : es.findIdx? fun e => e.tag = tag' with
      | none => rw [findEntry_of_none (hfound.trans h'), findEntry_of_none h']
      | some j =>
          obtain ⟨e', he', htag'⟩ := exists_of_findIdx? h'
          have hij : i ≠ j := by
            rintro rfl
            obtain rfl := Option.some.inj (he.symm.trans he')
            exact hne (htag'.symm.trans htag)
          have hget : (es.modify i fun e => { e with count := count, data := data })[j]? =
              some e' := by
            simp [hij, he']
          rw [findEntry_of_some (hfound.trans h') hget, findEntry_of_some h' he']
  | none =>
      let new : Entry := ⟨0, tag, type, count, data⟩
      have hfound : (es ++ [new]).findIdx? (fun e => e.tag = tag') =
          es.findIdx? fun e => e.tag = tag' := by
        simp [List.findIdx?_append, new, hne.symm]
      rw [putEntry_of_none h]
      cases h' : es.findIdx? fun e => e.tag = tag' with
      | none => rw [findEntry_of_none (hfound.trans h'), findEntry_of_none h']
      | some j =>
          obtain ⟨e', he', -⟩ := exists_of_findIdx? h'
          obtain ⟨hlt, -⟩ := List.getElem?_eq_some_iff.1 he'
          rw [findEntry_of_some (hfound.trans h')
            ((List.getElem?_append_left hlt).trans he'), findEntry_of_some h' he']

/-- The entries of other tags stay as they are, and in their order. -/
theorem filter_putEntry :
    (putEntry es tag type count data).filter (fun e => e.tag ≠ tag) =
      es.filter fun e => e.tag ≠ tag := by
  induction es with
  | nil => simp [putEntry]
  | cons e es ih =>
      by_cases htag : e.tag = tag
      · have h : (e :: es).findIdx? (fun e => e.tag = tag) = some 0 := by
          simp [List.findIdx?_cons, htag]
        simp [putEntry_of_some h, htag]
      · have hcons : putEntry (e :: es) tag type count data =
            e :: putEntry es tag type count data := by
          cases h : es.findIdx? fun e => e.tag = tag with
          | none => simp [putEntry, List.findIdx?_cons, htag, h]
          | some i => simp [putEntry, List.findIdx?_cons, htag, h]
        rw [hcons, List.filter_cons, List.filter_cons, ih]

end Entries

/-! ### The contract -/

section Contract

variable {β : Type*}

namespace Library

variable (lib : Library β)

/-- The data of these entries in a buffer. -/
def dataSize (es : List Entry) : ℕ :=
  es.foldr (fun e size => (lib.entryDataSize e.type e.count).toNat + size) 0

/-- The buffer has room for these entries. -/
def HasRoom (c : β) (es : List Entry) : Prop :=
  es.length ≤ (lib.entryCapacity c).toNat ∧ lib.dataSize es ≤ (lib.dataCapacity c).toNat

instance (c : β) (es : List Entry) : Decidable (lib.HasRoom c es) :=
  inferInstanceAs (Decidable (_ ∧ _))

end Library

/-- An attempt to leave the buffer `c` with the entries `es` succeeds if and only if there
is room for them. -/
structure Attempt (lib : Library β) (entries : β → List Entry) (c : β) (es : List Entry)
    (r : ℤ × β) : Prop where
  ok_iff : r.1 = ok ↔ lib.HasRoom c es
  entries_eq : r.1 = ok → entries r.2 = es

/-- The library keeps lists of entries within the capacities of the buffers. -/
structure Library.IsMultimap (lib : Library β) (entries : β → List Entry) : Prop where
  entryCount : ∀ c, (lib.entryCount c).toNat = (entries c).length
  dataCount : ∀ c, (lib.dataCount c).toNat = lib.dataSize (entries c)
  room : ∀ c, lib.HasRoom c (entries c)
  type_eq : ∀ c, ∀ e ∈ entries c, e.type = lib.tagType e.tag (some c)
  payloadSize : ∀ type count, 0 ≤ type →
    lib.payloadSize type count = count.toNat * typeSize type % 2 ^ 32
  allocate_entries : ∀ n m, entries (lib.allocate n m) = []
  allocate_entryCapacity : ∀ n m, lib.entryCapacity (lib.allocate n m) = n
  allocate_dataCapacity : ∀ n m, lib.dataCapacity (lib.allocate n m) = m
  allocate_tagType : ∀ n m tag, lib.tagType tag (some (lib.allocate n m)) = lib.tagType tag none
  append : ∀ n m c,
    Attempt lib entries (lib.allocate n m) (entries c) (lib.append (lib.allocate n m) c)
  append_entryCapacity : ∀ n m c, (lib.append (lib.allocate n m) c).1 = ok →
    lib.entryCapacity (lib.append (lib.allocate n m) c).2 = n
  append_dataCapacity : ∀ n m c, (lib.append (lib.allocate n m) c).1 = ok →
    lib.dataCapacity (lib.append (lib.allocate n m) c).2 = m
  append_tagType : ∀ n m c tag, (lib.append (lib.allocate n m) c).1 = ok →
    lib.tagType tag (some (lib.append (lib.allocate n m) c).2) = lib.tagType tag (some c)
  find : ∀ c tag, lib.find c tag = findEntry (entries c) tag
  /-- when the tag is known and the data is there -/
  add : ∀ c tag data count, 0 ≤ lib.tagType tag (some c) →
    data.length = lib.payloadSize (lib.tagType tag (some c)) count →
    Attempt lib entries c (entries c ++ [⟨0, tag, lib.tagType tag (some c), count, data⟩])
      (lib.add c tag data count)
  add_of_ne_ok : ∀ c tag data count, (lib.add c tag data count).1 ≠ ok →
    entries (lib.add c tag data count).2 = entries c
  /-- when there is such an entry and the data is there -/
  update : ∀ c (index : UInt32) e data count, (entries c)[index.toNat]? = some e →
    data.length = lib.payloadSize e.type count →
    Attempt lib entries c
      ((entries c).modify index.toNat fun e => { e with count := count, data := data })
      (lib.update c index data count)
  update_of_ne_ok : ∀ c index data count, (lib.update c index data count).1 ≠ ok →
    entries (lib.update c index data count).2 = entries c

end Contract

/-! ### A library that keeps the contract -/

/-- The size of the data on 32 bits, as the library computes it. -/
def wrappedDataSize (type : ℤ) (count : UInt32) : UInt32 :=
  let size := count * UInt32.ofNat (typeSize type)
  if size ≤ 4 then 0 else (size + 7) / 8 * 8

def roomFor (entryCapacity dataCapacity : UInt32) (es : List Entry) : Prop :=
  es.length ≤ entryCapacity.toNat ∧
    es.foldr (fun e size => (wrappedDataSize e.type e.count).toNat + size) 0 ≤
      dataCapacity.toNat

instance (entryCapacity dataCapacity : UInt32) (es : List Entry) :
    Decidable (roomFor entryCapacity dataCapacity es) := inferInstanceAs (Decidable (_ ∧ _))

/-- A buffer for tags of the given types, with room for its entries. -/
structure Buffer (types : UInt32 → ℤ) where
  entryCapacity : UInt32
  dataCapacity : UInt32
  entries : List Entry
  room : roomFor entryCapacity dataCapacity entries
  type_eq : ∀ e ∈ entries, e.type = types e.tag

namespace Buffer

variable {types : UInt32 → ℤ}

def empty (entryCapacity dataCapacity : UInt32) : Buffer types :=
  ⟨entryCapacity, dataCapacity, [], ⟨Nat.zero_le _, Nat.zero_le _⟩, by simp⟩

/-- The buffer with other entries, or an error if they do not fit. -/
def withEntries (c : Buffer types) (es : List Entry) (htype : ∀ e ∈ es, e.type = types e.tag) :
    ℤ × Buffer types :=
  if hroom : roomFor c.entryCapacity c.dataCapacity es then
    (ok, ⟨c.entryCapacity, c.dataCapacity, es, hroom, htype⟩)
  else (1, c)

theorem type_eq_append (c c' : Buffer types) :
    ∀ e ∈ c.entries ++ c'.entries, e.type = types e.tag := fun e he =>
  (List.mem_append.1 he).elim (c.type_eq e) (c'.type_eq e)

theorem type_eq_add (c : Buffer types) (tag : UInt32) (count : UInt32) (data : List UInt8) :
    ∀ e ∈ c.entries ++ [⟨0, tag, types tag, count, data⟩], e.type = types e.tag := by
  intro e he
  rcases List.mem_append.1 he with he | he
  · exact c.type_eq e he
  · obtain rfl := List.mem_singleton.1 he
    rfl

theorem type_eq_modify (c : Buffer types) (i : ℕ) (count : UInt32) (data : List UInt8) :
    ∀ e ∈ c.entries.modify i fun e => { e with count := count, data := data },
      e.type = types e.tag := by
  intro e he
  obtain ⟨j, hj⟩ := List.mem_iff_getElem?.1 he
  rw [List.getElem?_modify] at hj
  obtain ⟨e', he', rfl⟩ := Option.map_eq_some_iff.1 hj
  have htype := c.type_eq e' (List.mem_of_getElem? he')
  split_ifs <;> exact htype

end Buffer

/-- The library for tags of the given types. -/
def buffers (types : UInt32 → ℤ) : Library (Buffer types) where
  tagType tag _ := types tag
  entryCount c := UInt32.ofNat c.entries.length
  entryCapacity c := c.entryCapacity
  dataCount c := UInt32.ofNat
    (c.entries.foldr (fun e size => (wrappedDataSize e.type e.count).toNat + size) 0)
  dataCapacity c := c.dataCapacity
  size c := 48 + c.entryCapacity * 16 + c.dataCapacity
  allocate entryCapacity dataCapacity := .empty entryCapacity dataCapacity
  entryDataSize type count := wrappedDataSize type count
  payloadSize type count := count.toNat * typeSize type % 2 ^ 32
  append dst src := dst.withEntries (dst.entries ++ src.entries) (dst.type_eq_append src)
  find c tag := findEntry c.entries tag
  add c tag data count := c.withEntries _ (c.type_eq_add tag count data)
  update c index data count := c.withEntries _ (c.type_eq_modify index.toNat count data)
  garbage := .empty 0 0

section Buffers

variable {types : UInt32 → ℤ} {c : Buffer types} {es : List Entry}
  {htype : ∀ e ∈ es, e.type = types e.tag}

theorem withEntries_attempt :
    Attempt (buffers types) Buffer.entries c es (c.withEntries es htype) := by
  unfold Buffer.withEntries
  constructor
  · split
    · exact iff_of_true rfl ‹_›
    · exact iff_of_false (by simp [ok]) ‹_›
  · split <;> simp [ok]

theorem withEntries_of_ne_ok (h : (c.withEntries es htype).1 ≠ ok) :
    (c.withEntries es htype).2 = c := by
  unfold Buffer.withEntries at h ⊢
  split
  · simp [*] at h
  · rfl

theorem entryCapacity_withEntries :
    (c.withEntries es htype).2.entryCapacity = c.entryCapacity := by
  unfold Buffer.withEntries
  split <;> rfl

theorem dataCapacity_withEntries :
    (c.withEntries es htype).2.dataCapacity = c.dataCapacity := by
  unfold Buffer.withEntries
  split <;> rfl

theorem toNat_ofNat_of_le {n : ℕ} {m : UInt32} (h : n ≤ m.toNat) :
    (UInt32.ofNat n).toNat = n :=
  UInt32.toNat_ofNat_of_lt (Nat.lt_of_le_of_lt h m.toNat_lt)

theorem buffers_isMultimap (types : UInt32 → ℤ) :
    (buffers types).IsMultimap Buffer.entries where
  entryCount c := toNat_ofNat_of_le c.room.1
  dataCount c := toNat_ofNat_of_le c.room.2
  room c := c.room
  type_eq c := c.type_eq
  payloadSize _ _ _ := rfl
  allocate_entries _ _ := rfl
  allocate_entryCapacity _ _ := rfl
  allocate_dataCapacity _ _ := rfl
  allocate_tagType _ _ _ := rfl
  append _ _ _ := withEntries_attempt
  append_entryCapacity _ _ _ _ := entryCapacity_withEntries
  append_dataCapacity _ _ _ _ := dataCapacity_withEntries
  append_tagType _ _ _ _ _ := rfl
  find _ _ := rfl
  add _ _ _ _ _ _ := withEntries_attempt
  add_of_ne_ok _ _ _ _ h := congrArg Buffer.entries (withEntries_of_ne_ok h)
  update _ _ _ _ _ _ _ := withEntries_attempt
  update_of_ne_ok _ _ _ _ h := congrArg Buffer.entries (withEntries_of_ne_ok h)

end Buffers

end MozartLineage.Metadata
