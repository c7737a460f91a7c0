import MozartLineage.Metadata.BufferOwnership
import MozartLineage.Metadata.Contract

/-!
# How a metadata buffer grows

`resizeIfNeeded` doubles what it needs, and the doubling is done on 32 bits. As long as
it does not wrap there is room for the entry, whether it is new or takes the place of
another one.
-/

namespace MozartLineage.Metadata

/-! ### Growing -/

/-- The capacity that is there, or twice the new amount on 32 bits. -/
def grownCapacity (capacity amount extra : ℕ) : ℕ :=
  if (amount + extra) % 2 ^ 32 ≤ capacity then capacity else 2 * (amount + extra) % 2 ^ 32

/-- There is enough for both amounts when `extra` is asked for in addition to `before`:
either in the capacity that is there, or in twice the sum on 32 bits. -/
def Suffices (capacity before extra after : ℕ) : Prop :=
  if (before + extra) % 2 ^ 32 ≤ capacity then after ≤ capacity
  else before ≤ 2 * (before + extra) % 2 ^ 32 ∧ after ≤ 2 * (before + extra) % 2 ^ 32

instance (capacity before extra after : ℕ) : Decidable (Suffices capacity before extra after) :=
  inferInstanceAs (Decidable (ite _ _ _))

section Amounts

variable {capacity before extra after : ℕ}

theorem suffices_iff (h : before ≤ capacity) :
    Suffices capacity before extra after ↔
      before ≤ grownCapacity capacity before extra ∧
        after ≤ grownCapacity capacity before extra := by
  unfold Suffices grownCapacity
  split
  · simp [h]
  · rfl

/-- Without a wrap there is always enough. -/
theorem suffices_of_lt (hafter : after ≤ before + extra) (hlt : before + extra < 2 ^ 31) :
    Suffices capacity before extra after := by
  unfold Suffices
  split <;> omega

theorem toNat_grown (amount extra capacity : UInt32) :
    (if amount + extra > capacity then (amount + extra) * 2 else capacity).toNat =
      grownCapacity capacity.toNat amount.toNat extra.toNat := by
  have hlt : amount + extra > capacity ↔
      capacity.toNat < (amount.toNat + extra.toNat) % 2 ^ 32 := by
    rw [gt_iff_lt, UInt32.lt_iff_toNat_lt, UInt32.toNat_add]
  unfold grownCapacity
  split_ifs with hgrow hle hle
  · have := hlt.1 hgrow
    omega
  · rw [UInt32.toNat_mul, UInt32.toNat_add, show (2 : UInt32).toNat = 2 from rfl]
    omega
  · rfl
  · exact absurd (hlt.2 (by omega)) hgrow

/-- Twice the extra amount is what is asked for where there is no capacity yet. -/
theorem toNat_mul_two (extra : UInt32) : (extra * 2).toNat = grownCapacity 0 0 extra.toNat := by
  have hgrown := toNat_grown 0 extra 0
  rw [UInt32.zero_add] at hgrown
  rw [← show (0 : UInt32).toNat = 0 from rfl, ← hgrown]
  split_ifs with hpos
  · rfl
  · have : extra = 0 := by simpa using hpos
    simp [this]

end Amounts

theorem noMemory_ne_ok : noMemory ≠ ok := by decide

/-! ### The entries of the object -/

variable {β : Type*}

namespace State

variable (lib : Library β) (entries : β → List Entry) (s : State β)

/-- The entries that the object stores. -/
def stored : List Entry :=
  match s.buffer with
  | some b => entries (s.content lib b)
  | none => []

def entryCapacity : ℕ :=
  match s.buffer with
  | some b => (lib.entryCapacity (s.content lib b)).toNat
  | none => 0

def dataCapacity : ℕ :=
  match s.buffer with
  | some b => (lib.dataCapacity (s.content lib b)).toNat
  | none => 0

/-- The entries with the update that is asked for. -/
def updated (tag : UInt32) (count : UInt32) (bytes : List UInt8) : List Entry :=
  putEntry (s.stored lib entries) tag (s.typeOf lib tag) count
    (bytes.take (lib.payloadSize (s.typeOf lib tag) count))

/-- The capacities suffice for the entries before and after the update. -/
def HasRoomFor (tag : UInt32) (count : UInt32) : Prop :=
  Suffices (s.entryCapacity lib) (s.stored lib entries).length 1
      (s.updated lib entries tag count []).length ∧
    Suffices (s.dataCapacity lib) (lib.dataSize (s.stored lib entries))
      (lib.entryDataSize (s.typeOf lib tag) count).toNat
      (lib.dataSize (s.updated lib entries tag count []))

instance (tag : UInt32) (count : UInt32) : Decidable (s.HasRoomFor lib entries tag count) :=
  inferInstanceAs (Decidable (_ ∧ _))

end State

variable {lib : Library β} {entries : β → List Entry} {s t : State β} {tag data count : UInt32}
  {bytes : List UInt8} {fresh : Option Address}

theorem stored_of_some {b : Address} (hb : s.buffer = some b) :
    s.stored lib entries = entries (s.content lib b) := by
  simp only [State.stored, hb]

theorem stored_set {b : Address} (hb : s.buffer = some b) (c : β) :
    (s.set b (some c)).stored lib entries = entries c := by
  simp [State.stored, State.set, State.content, hb]

/-! ### What there has to be room for -/

/-- The bytes do not count, but how many elements there are. -/
theorem map_putEntry (es : List Entry) (type : ℤ) (data data' : List UInt8) :
    (putEntry es tag type count data).map (fun e => (e.type, e.count)) =
      (putEntry es tag type count data').map fun e => (e.type, e.count) := by
  unfold putEntry
  split
  · apply List.ext_getElem?
    intro i
    rw [List.getElem?_map, List.getElem?_map, List.getElem?_modify, List.getElem?_modify]
    cases es[i]? with
    | none => rfl
    | some e =>
        dsimp only [Option.map_some, Functor.map]
        split_ifs <;> rfl
  · simp

theorem dataSize_eq_foldr_map (es : List Entry) :
    lib.dataSize es = (es.map fun e => (e.type, e.count)).foldr
      (fun p size => (lib.entryDataSize p.1 p.2).toNat + size) 0 := by
  rw [List.foldr_map, Library.dataSize]

theorem length_updated (bytes : List UInt8) :
    (s.updated lib entries tag count bytes).length =
      (s.updated lib entries tag count []).length := by
  unfold State.updated
  simpa only [List.length_map] using congrArg List.length (map_putEntry _ _ _ _)

theorem dataSize_updated (bytes : List UInt8) :
    lib.dataSize (s.updated lib entries tag count bytes) =
      lib.dataSize (s.updated lib entries tag count []) := by
  rw [dataSize_eq_foldr_map, dataSize_eq_foldr_map]
  exact congrArg _ (map_putEntry _ _ _ _)

theorem dataSize_append (es es' : List Entry) :
    lib.dataSize (es ++ es') = lib.dataSize es + lib.dataSize es' := by
  induction es with
  | nil => simp [Library.dataSize]
  | cons e es ih =>
      simp only [Library.dataSize, List.cons_append, List.foldr_cons] at ih ⊢
      rw [ih, Nat.add_assoc]

theorem dataSize_modify_le {es : List Entry} {i : ℕ} {e : Entry} (f : Entry → Entry)
    (he : es[i]? = some e) :
    lib.dataSize (es.modify i f) ≤
      lib.dataSize es + (lib.entryDataSize (f e).type (f e).count).toNat := by
  induction es generalizing i with
  | nil => simp at he
  | cons e' es ih =>
      cases i with
      | zero =>
          obtain rfl := Option.some.inj he
          simp only [Library.dataSize, List.modify_zero_cons, List.foldr_cons]
          omega
      | succ i =>
          have := ih he
          simp only [Library.dataSize, List.modify_succ_cons, List.foldr_cons] at this ⊢
          omega

/-! ### The resized buffer -/

/-- The object has the buffer `b`, with the entries it has in the state `s` and with the
capacities that `resizeIfNeeded` is out for. -/
structure State.Resizes (lib : Library β) (entries : β → List Entry) (s : State β)
    (extraEntries extraData : UInt32) (t : State β) (b : Address) : Prop where
  buffer : t.buffer = some b
  locked : t.locked = s.locked
  entries_eq : entries (t.content lib b) = s.stored lib entries
  entryCapacity : (lib.entryCapacity (t.content lib b)).toNat =
    grownCapacity (s.entryCapacity lib) (s.stored lib entries).length extraEntries.toNat
  dataCapacity : (lib.dataCapacity (t.content lib b)).toNat =
    grownCapacity (s.dataCapacity lib) (lib.dataSize (s.stored lib entries)) extraData.toNat
  tagType : ∀ tag, lib.tagType tag (some (t.content lib b)) = s.typeOf lib tag

/-- A resize that fails has changed nothing. -/
theorem resized_of_ne_ok {extraEntries extraData : UInt32} {o : Outcome β ℤ}
    (h : Resized lib s extraEntries extraData fresh o) (hne : o.result ≠ ok) : o.state = s := by
  cases h with
  | allocated | fits | replaced => exact absurd rfl hne
  | notAllocated | notReplaced | appendFails => rfl

variable (hlib : lib.IsMultimap entries)

include hlib

theorem stored_le_entryCapacity :
    (s.stored lib entries).length ≤ s.entryCapacity lib := by
  unfold State.stored State.entryCapacity
  split
  · exact (hlib.room _).1
  · exact le_rfl

theorem stored_le_dataCapacity :
    lib.dataSize (s.stored lib entries) ≤ s.dataCapacity lib := by
  unfold State.stored State.dataCapacity
  split
  · exact (hlib.room _).2
  · exact le_rfl

theorem toNat_newEntryCapacity {b : Address} (hb : s.buffer = some b) (extra : UInt32) :
    (lib.newEntryCapacity (s.content lib b) extra).toNat =
      grownCapacity (s.entryCapacity lib) (s.stored lib entries).length extra.toNat := by
  simp only [Library.newEntryCapacity, toNat_grown, hlib.entryCount, State.entryCapacity,
    State.stored, hb]

theorem toNat_newDataCapacity {b : Address} (hb : s.buffer = some b) (extra : UInt32) :
    (lib.newDataCapacity (s.content lib b) extra).toNat =
      grownCapacity (s.dataCapacity lib) (lib.dataSize (s.stored lib entries)) extra.toNat := by
  simp only [Library.newDataCapacity, toNat_grown, hlib.dataCount, State.dataCapacity,
    State.stored, hb]

/-- Whether what the buffer holds can be copied into the larger one. -/
theorem grow_ok_iff {b : Address} (hb : s.buffer = some b) {extraData : UInt32} :
    (lib.grow (s.content lib b) 1 extraData).1 = ok ↔
      (s.stored lib entries).length ≤
        grownCapacity (s.entryCapacity lib) (s.stored lib entries).length 1 ∧
      lib.dataSize (s.stored lib entries) ≤
        grownCapacity (s.dataCapacity lib) (lib.dataSize (s.stored lib entries))
          extraData.toNat := by
  rw [Library.grow, (hlib.append _ _ _).ok_iff, Library.HasRoom, hlib.allocate_entryCapacity,
    hlib.allocate_dataCapacity, toNat_newEntryCapacity hlib hb, toNat_newDataCapacity hlib hb,
    stored_of_some hb]
  rfl

theorem resized_of_ok (hs : s.Allocated) (hfresh : ∀ r ∈ fresh, s.heap r = none)
    {extraData : UInt32} {o : Outcome β ℤ} (h : Resized lib s 1 extraData fresh o)
    (hok : o.result = ok) : ∃ b, s.Resizes lib entries 1 extraData o.state b := by
  cases h with
  | notAllocated | notReplaced => exact absurd hok noMemory_ne_ok
  | @allocated r hb =>
      refine ⟨r, rfl, rfl, ?_, ?_, ?_, ?_⟩
      · simp [State.content, State.set, State.stored, hb, hlib.allocate_entries]
      · simp [State.content, State.set, State.stored, State.entryCapacity, hb,
          hlib.allocate_entryCapacity, grownCapacity]
      · simp [State.content, State.set, State.stored, State.dataCapacity, hb,
          hlib.allocate_dataCapacity, toNat_mul_two, Library.dataSize, -UInt32.toNat_mul]
      · intro tag
        simp [State.content, State.set, State.typeOf, hb, hlib.allocate_tagType]
  | @fits _ b hb hfits =>
      refine ⟨b, hb, rfl, (stored_of_some hb).symm, ?_, ?_, ?_⟩
      · rw [← toNat_newEntryCapacity hlib hb, hfits.1]
      · rw [← toNat_newDataCapacity hlib hb, hfits.2]
      · intro tag
        simp [State.typeOf, hb]
  | appendFails hb hfits hgrown hfails => exact absurd hok hfails
  | @replaced r b grown hb hfits hgrown hgrow =>
      have hne := ne_of_fresh hs hb (hfresh r rfl)
      subst hgrown
      have hcontent : ({ (s.set r (some (lib.grow (s.content lib b) 1 extraData).2)).set b none
          with buffer := some r } : State β).content lib r =
            (lib.grow (s.content lib b) 1 extraData).2 := by
        simp [State.content, State.set, hne]
      refine ⟨r, rfl, rfl, ?_, ?_, ?_, ?_⟩
      · rw [hcontent, stored_of_some hb]
        exact (hlib.append _ _ _).entries_eq hgrow
      · rw [hcontent, ← toNat_newEntryCapacity hlib hb]
        exact congrArg _ (hlib.append_entryCapacity _ _ _ hgrow)
      · rw [hcontent, ← toNat_newDataCapacity hlib hb]
        exact congrArg _ (hlib.append_dataCapacity _ _ _ hgrow)
      · intro tag
        rw [hcontent, State.typeOf, hb]
        exact hlib.append_tagType _ _ _ _ hgrow

/-- Whether a resize succeeds. -/
theorem resized_ok_iff {extraData : UInt32} {o : Outcome β ℤ}
    (h : Resized lib s 1 extraData fresh o) :
    o.result = ok ↔
      (fresh.isSome ∨ ∃ b ∈ s.buffer, lib.Fits (s.content lib b) 1 extraData) ∧
      (s.stored lib entries).length ≤
        grownCapacity (s.entryCapacity lib) (s.stored lib entries).length 1 ∧
      lib.dataSize (s.stored lib entries) ≤
        grownCapacity (s.dataCapacity lib) (lib.dataSize (s.stored lib entries))
          extraData.toNat := by
  cases h with
  | notAllocated hb => exact iff_of_false noMemory_ne_ok (by simp [hb])
  | allocated hb =>
      exact iff_of_true rfl ⟨Or.inl rfl, by simp [State.stored, hb, Library.dataSize]⟩
  | @fits _ b hb hfits =>
      refine iff_of_true rfl ⟨Or.inr ⟨b, hb, hfits⟩, ?_, ?_⟩
      · have hcapacity := toNat_newEntryCapacity hlib hb 1
        rw [hfits.1] at hcapacity
        rw [← show (1 : UInt32).toNat = 1 from rfl, ← hcapacity, stored_of_some hb]
        exact (hlib.room _).1
      · have hcapacity := toNat_newDataCapacity hlib hb extraData
        rw [hfits.2] at hcapacity
        rw [← hcapacity, stored_of_some hb]
        exact (hlib.room _).2
  | @notReplaced b hb hfits => exact iff_of_false noMemory_ne_ok (by simp [hb, hfits])
  | appendFails hb hfits hgrown hfails =>
      subst hgrown
      exact iff_of_false hfails fun h => hfails ((grow_ok_iff hlib hb).2 h.2)
  | replaced hb hfits hgrown hgrow =>
      subst hgrown
      exact iff_of_true rfl ⟨Or.inl rfl, (grow_ok_iff hlib hb).1 hgrow⟩

/-! ### Enough room -/

theorem hasRoomFor_iff (bytes : List UInt8) :
    s.HasRoomFor lib entries tag count ↔
      ((s.stored lib entries).length ≤
          grownCapacity (s.entryCapacity lib) (s.stored lib entries).length 1 ∧
        (s.updated lib entries tag count bytes).length ≤
          grownCapacity (s.entryCapacity lib) (s.stored lib entries).length 1) ∧
      lib.dataSize (s.stored lib entries) ≤
          grownCapacity (s.dataCapacity lib) (lib.dataSize (s.stored lib entries))
            (lib.entryDataSize (s.typeOf lib tag) count).toNat ∧
        lib.dataSize (s.updated lib entries tag count bytes) ≤
          grownCapacity (s.dataCapacity lib) (lib.dataSize (s.stored lib entries))
            (lib.entryDataSize (s.typeOf lib tag) count).toNat := by
  rw [State.HasRoomFor, suffices_iff (stored_le_entryCapacity hlib),
    suffices_iff (stored_le_dataCapacity hlib), length_updated bytes, dataSize_updated bytes]

theorem type_eq_of_mem_stored :
    ∀ e ∈ s.stored lib entries, e.tag = tag → e.type = s.typeOf lib tag := by
  rintro e he rfl
  cases hb : s.buffer with
  | none => simp [State.stored, hb] at he
  | some b =>
      rw [stored_of_some hb] at he
      rw [hlib.type_eq _ e he, State.typeOf, hb]
      rfl

/-- As long as the doubled amounts do not wrap, the capacities suffice. -/
theorem hasRoomFor_of_lt (hentries : (s.stored lib entries).length + 1 < 2 ^ 31)
    (hdata : lib.dataSize (s.stored lib entries) +
      (lib.entryDataSize (s.typeOf lib tag) count).toNat < 2 ^ 31) :
    s.HasRoomFor lib entries tag count := by
  refine ⟨suffices_of_lt ?_ hentries, suffices_of_lt ?_ hdata⟩
  · unfold State.updated putEntry
    split <;> simp
  · unfold State.updated
    cases h : (s.stored lib entries).findIdx? fun e => e.tag = tag with
    | none =>
        rw [putEntry_of_none h, dataSize_append]
        simp [Library.dataSize]
    | some i =>
        obtain ⟨e, he, htag⟩ := exists_of_findIdx? h
        rw [putEntry_of_some h, ← type_eq_of_mem_stored hlib e (List.mem_of_getElem? he) htag]
        exact dataSize_modify_le _ he

end MozartLineage.Metadata
