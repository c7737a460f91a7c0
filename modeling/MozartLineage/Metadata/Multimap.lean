import MozartLineage.Metadata.LegacyCameraMetadata

/-!
# The metadata library

A buffer holds a list of entries, within two capacities: one for the number of entries,
and one for the data that does not fit into the entries themselves.
-/

namespace MozartLineage.Metadata

structure Multimap where
  entryCapacity : UInt32
  dataCapacity : UInt32
  entries : List Entry
  deriving DecidableEq

/-- The size of an element of a type. -/
def typeSize (type : ℤ) : ℕ :=
  if type = 0 then 1 else if type = 1 ∨ type = 2 then 4 else 8

/-- Up to four bytes fit into the entry. -/
def entryDataSize (type : ℤ) (count : UInt32) : ℕ :=
  let size := count.toNat * typeSize type
  if size ≤ 4 then 0 else (size + 7) / 8 * 8

namespace Multimap

def dataCount (c : Multimap) : ℕ :=
  c.entries.foldr (fun e size => entryDataSize e.type e.count + size) 0

/-- There is room for these entries. -/
def HasRoom (c : Multimap) (entries : List Entry) : Prop :=
  entries.length ≤ c.entryCapacity.toNat ∧
    (Multimap.mk 0 0 entries).dataCount ≤ c.dataCapacity.toNat

instance (c : Multimap) (entries : List Entry) : Decidable (c.HasRoom entries) :=
  inferInstanceAs (Decidable (_ ∧ _))

/-- The buffer with other entries, or an error if they do not fit. -/
def withEntries (c : Multimap) (entries : List Entry) : ℤ × Multimap :=
  if c.HasRoom entries then (ok, { c with entries := entries }) else (1, c)

def find (c : Multimap) (tag : UInt32) : ℤ × Entry :=
  match c.entries.findIdx? fun e => e.tag = tag with
  | some i =>
      match c.entries[i]? with
      | some e => (ok, { e with index := UInt32.ofNat i })
      | none => (nameNotFound, .empty)
  | none => (nameNotFound, .empty)

end Multimap

/-- The library for tags of the given types. -/
def multimap (types : UInt32 → ℤ) : Library Multimap where
  tagType tag _ := types tag
  entryCount c := UInt32.ofNat c.entries.length
  entryCapacity c := c.entryCapacity
  dataCount c := UInt32.ofNat c.dataCount
  dataCapacity c := c.dataCapacity
  size c := 48 + c.entryCapacity * 16 + c.dataCapacity
  allocate entryCapacity dataCapacity := ⟨entryCapacity, dataCapacity, []⟩
  entryDataSize type count := UInt32.ofNat (entryDataSize type count)
  payloadSize type count := count.toNat * typeSize type
  append dst src := dst.withEntries (dst.entries ++ src.entries)
  find := Multimap.find
  add c tag data count := c.withEntries (c.entries ++ [⟨0, tag, types tag, count, data⟩])
  update c index data count :=
    c.withEntries (c.entries.modify index.toNat fun e => { e with count := count, data := data })
  garbage := ⟨0, 0, []⟩

end MozartLineage.Metadata
