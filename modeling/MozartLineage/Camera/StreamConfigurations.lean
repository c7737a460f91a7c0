import MozartLineage.Camera.Session
import Mathlib.Data.List.Range
import Mathlib.Tactic.Common
import Mathlib.Tactic.SplitIfs

/-!
# Stream configurations from the tags before Android 6

The vendor's metadata has the formats and three lists of sizes. From these the stream
configurations are derived, in three flat tables with four numbers a row, and further tags
are set that later versions require. Where there are stream configurations already the
function returns at once.
-/

namespace MozartLineage.Camera

/-- The tags that are looked up or set, and the others. -/
inductive MetadataTag
  | scalerAvailableStreamConfigurations
  | scalerAvailableFormats
  | scalerAvailableProcessedSizes
  | scalerAvailableJpegSizes
  | scalerAvailableRawSizes
  | scalerAvailableMinFrameDurations
  | scalerAvailableStallDurations
  | sensorInfoActiveArraySize
  | sensorInfoPreCorrectionActiveArraySize
  | infoSupportedHardwareLevel
  | sensorInfoTimestampSource
  | scalerCroppingType
  | requestMaxNumOutputStreams
  | requestMaxNumInputStreams
  | requestPartialResultCount
  | syncMaxLatency
  | requestPipelineMaxDepth
  | other (tag : UInt32)
  deriving DecidableEq

/-- The class `CameraMetadata`: the elements of an entry, of whatever width, and its
replacement. -/
structure CameraMetadata (M : Type*) where
  entry? : M → MetadataTag → Option (List ℤ)
  update : M → MetadataTag → List ℤ → M

namespace CameraMetadata

variable {M : Type*} (lib : CameraMetadata M)

/-- An entry that is missing counts no elements. -/
def find (chars : M) (tag : MetadataTag) : List ℤ := (lib.entry? chars tag).getD []

/-- An update stores its data under its own tag and under no other. -/
structure IsLawful : Prop where
  entry?_update_self : ∀ chars tag data, lib.entry? (lib.update chars tag data) tag = some data
  entry?_update_of_ne : ∀ chars {tag tag'} data, tag' ≠ tag →
    lib.entry? (lib.update chars tag data) tag' = lib.entry? chars tag'

end CameraMetadata

def halPixelFormatRaw16 : ℤ := 0x20
def halPixelFormatRawOpaque : ℤ := 0x24
def halPixelFormatRaw10 : ℤ := 0x25
def halPixelFormatRaw12 : ℤ := 0x26

def kFrameDurationNs : ℤ := 33333333
def kJpegStallNs : ℤ := 100000000

def streamConfigurationsOutput : ℤ := 0
def supportedHardwareLevelLegacy : ℤ := 2
def timestampSourceUnknown : ℤ := 0
def croppingTypeCenterOnly : ℤ := 0
def syncMaxLatencyUnknown : ℤ := -1

/-- The three tables, while they are being filled. -/
structure Tables where
  configurations : List ℤ
  minDurations : List ℤ
  stallDurations : List ℤ

/-- The body of the loop in `appendSizes`. -/
def Tables.push (t : Tables) (format width height : ℤ) : Tables where
  configurations := t.configurations ++ [format, width, height, streamConfigurationsOutput]
  minDurations := t.minDurations ++ [format, width, height, kFrameDurationNs]
  stallDurations := t.stallDurations ++
    [format, width, height, if format = halPixelFormatBlob then kJpegStallNs else 0]

/-- The index advances by two while there are two more elements. -/
def appendSizes (format : ℤ) : List ℤ → Tables → Tables
  | width :: height :: sizes, t => appendSizes format sizes (t.push format width height)
  | _, t => t

/-- The sizes of the class that a format belongs to. -/
def sizesOf (jpegSizes rawSizes processedSizes : List ℤ) (format : ℤ) : List ℤ :=
  if format = halPixelFormatBlob then jpegSizes
  else if format = halPixelFormatRaw16 ∨ format = halPixelFormatRaw10 ∨
      format = halPixelFormatRaw12 ∨ format = halPixelFormatRawOpaque then rawSizes
  else processedSizes

/-- The loop over the formats. -/
def appendFormats (jpegSizes rawSizes processedSizes : List ℤ) : List ℤ → Tables → Tables
  | [], t => t
  | format :: formats, t =>
      appendFormats jpegSizes rawSizes processedSizes formats
        (appendSizes format (sizesOf jpegSizes rawSizes processedSizes format) t)

section Derive

variable {M : Type*} (lib : CameraMetadata M)

/-- An update together with the push of its tag. -/
def put (tag : MetadataTag) (data : List ℤ) (s : M × List MetadataTag) : M × List MetadataTag :=
  (lib.update s.1 tag data, s.2 ++ [tag])

def expandArrayRect (tag : MetadataTag) (s : M × List MetadataTag) : M × List MetadataTag :=
  match lib.find s.1 tag with
  | [width, height] => put lib tag [0, 0, width, height] s
  | _ => s

def deriveHuaweiLegacyStreamConfigurations (chars : M) (derivedCharKeys : List MetadataTag) :
    M × List MetadataTag :=
  let streamConfigs := lib.find chars .scalerAvailableStreamConfigurations
  let formats := lib.find chars .scalerAvailableFormats
  let processedSizes := lib.find chars .scalerAvailableProcessedSizes
  let jpegSizes := lib.find chars .scalerAvailableJpegSizes
  let rawSizes := lib.find chars .scalerAvailableRawSizes
  if streamConfigs.length ≠ 0 ∨ formats.length = 0 ∨ processedSizes.length = 0 then
    (chars, derivedCharKeys)
  else
    let t := appendFormats jpegSizes rawSizes processedSizes formats ⟨[], [], []⟩
    (chars, derivedCharKeys)
      |> put lib .scalerAvailableStreamConfigurations t.configurations
      |> put lib .scalerAvailableMinFrameDurations t.minDurations
      |> put lib .scalerAvailableStallDurations t.stallDurations
      |> expandArrayRect lib .sensorInfoActiveArraySize
      |> expandArrayRect lib .sensorInfoPreCorrectionActiveArraySize
      |> put lib .infoSupportedHardwareLevel [supportedHardwareLevelLegacy]
      |> put lib .sensorInfoTimestampSource [timestampSourceUnknown]
      |> put lib .scalerCroppingType [croppingTypeCenterOnly]
      |> put lib .requestMaxNumOutputStreams [1, 3, 1]
      |> put lib .requestMaxNumInputStreams [0]
      |> put lib .requestPartialResultCount [1]
      |> put lib .syncMaxLatency [syncMaxLatencyUnknown]
      |> put lib .requestPipelineMaxDepth [4]

end Derive

/-! ### The tables -/

/-- A format with a width and a height. -/
abbrev Triple := ℤ × ℤ × ℤ

/-- The complete pairs of a list of sizes. -/
def sizePairs (sizes : List ℤ) : List (ℤ × ℤ) :=
  (List.range (sizes.length / 2)).map fun k => (sizes.getD (2 * k) 0, sizes.getD (2 * k + 1) 0)

/-- Four numbers a row: a triple, and what the table says about it. -/
def table (value : Triple → ℤ) (triples : List Triple) : List ℤ :=
  triples.flatMap fun t => [t.1, t.2.1, t.2.2, value t]

def stallNs (t : Triple) : ℤ := if t.1 = halPixelFormatBlob then kJpegStallNs else 0

theorem table_append (value : Triple → ℤ) (ts us : List Triple) :
    table value (ts ++ us) = table value ts ++ table value us := by
  simp [table]

theorem stallNs_ne_zero (t : Triple) : stallNs t ≠ 0 ↔ t.1 = halPixelFormatBlob := by
  unfold stallNs
  split_ifs with h <;> simp [h, kJpegStallNs]

theorem sizePairs_of_length_lt {sizes : List ℤ} (h : sizes.length < 2) : sizePairs sizes = [] := by
  simp [sizePairs, Nat.div_eq_of_lt h]

theorem sizePairs_cons_cons (width height : ℤ) (sizes : List ℤ) :
    sizePairs (width :: height :: sizes) = (width, height) :: sizePairs sizes := by
  have hlen : (width :: height :: sizes).length / 2 = sizes.length / 2 + 1 := by
    rw [List.length_cons, List.length_cons, Nat.add_assoc, Nat.add_div_right _ (by decide)]
  rw [sizePairs, hlen, List.range_succ_eq_map, List.map_cons, List.map_map]
  rfl

/-- The tables list the triples, in order. -/
structure Tables.Lists (t : Tables) (triples : List Triple) : Prop where
  configurations : t.configurations = table (fun _ => streamConfigurationsOutput) triples
  minDurations : t.minDurations = table (fun _ => kFrameDurationNs) triples
  stallDurations : t.stallDurations = table stallNs triples

namespace Tables.Lists

variable {t : Tables} {triples : List Triple}

theorem nil : Tables.Lists ⟨[], [], []⟩ [] := ⟨rfl, rfl, rfl⟩

theorem push (h : t.Lists triples) (format width height : ℤ) :
    (t.push format width height).Lists (triples ++ [(format, width, height)]) where
  configurations := by
    rw [table_append, ← h.configurations]
    rfl
  minDurations := by
    rw [table_append, ← h.minDurations]
    rfl
  stallDurations := by
    rw [table_append, ← h.stallDurations]
    rfl

theorem appendSizes (h : t.Lists triples) (format : ℤ) (sizes : List ℤ) :
    (appendSizes format sizes t).Lists (triples ++ (sizePairs sizes).map (format, ·)) := by
  fun_induction Camera.appendSizes format sizes t generalizing triples with
  | case1 width height sizes t ih =>
      rw [sizePairs_cons_cons, List.map_cons, List.append_cons]
      exact ih (h.push format width height)
  | case2 sizes t hshort =>
      have hlen : sizes.length < 2 := by
        match sizes, hshort with
        | [], _ => simp
        | [_], _ => simp
        | width :: height :: sizes, hshort => exact (hshort width height sizes rfl).elim
      rw [sizePairs_of_length_lt hlen, List.map_nil, List.append_nil]
      exact h

theorem appendFormats {jpegSizes rawSizes processedSizes : List ℤ} (h : t.Lists triples)
    (formats : List ℤ) :
    (appendFormats jpegSizes rawSizes processedSizes formats t).Lists
      (triples ++ formats.flatMap fun format =>
        (sizePairs (sizesOf jpegSizes rawSizes processedSizes format)).map (format, ·)) := by
  induction formats generalizing t triples with
  | nil =>
      rw [List.flatMap_nil, List.append_nil]
      exact h
  | cons format formats ih =>
      rw [List.flatMap_cons, ← List.append_assoc]
      apply ih
      exact h.appendSizes format _

end Tables.Lists

/-! ### The metadata -/

section Metadata

variable {M : Type*} (lib : CameraMetadata M)

/-- The triples that the tags before Android 6 stand for: every format with the complete
pairs of its sizes. -/
def triples (chars : M) : List Triple :=
  (lib.find chars .scalerAvailableFormats).flatMap fun format =>
    (sizePairs (sizesOf (lib.find chars .scalerAvailableJpegSizes)
      (lib.find chars .scalerAvailableRawSizes)
      (lib.find chars .scalerAvailableProcessedSizes) format)).map (format, ·)

/-- There are formats and processed sizes, but no stream configurations. -/
def LacksConfigurations (chars : M) : Prop :=
  lib.find chars .scalerAvailableStreamConfigurations = [] ∧
    lib.find chars .scalerAvailableFormats ≠ [] ∧
    lib.find chars .scalerAvailableProcessedSizes ≠ []

instance (chars : M) : Decidable (LacksConfigurations lib chars) :=
  inferInstanceAs (Decidable (_ ∧ _))

/-- All three tables list the same triples, and the others hold what is given. -/
structure ListsStreams (chars : M) (ts : List Triple) : Prop where
  configurations : lib.entry? chars .scalerAvailableStreamConfigurations =
    some (table (fun _ => streamConfigurationsOutput) ts)
  minDurations : lib.entry? chars .scalerAvailableMinFrameDurations =
    some (table (fun _ => kFrameDurationNs) ts)
  stallDurations : ∃ stall : Triple → ℤ, (∀ t ∈ ts, stall t ≠ 0 ↔ t.1 = halPixelFormatBlob) ∧
    lib.entry? chars .scalerAvailableStallDurations = some (table stall ts)

def arrayRect : List ℤ → List ℤ
  | [width, height] => [0, 0, width, height]
  | rect => rect

@[simp] theorem arrayRect_arrayRect (rect : List ℤ) :
    arrayRect (arrayRect rect) = arrayRect rect := by
  fun_cases arrayRect rect <;> simp_all [arrayRect]

theorem arrayRect_of_ne {rect : List ℤ} (h : ∀ width height, rect ≠ [width, height]) :
    arrayRect rect = rect := by
  fun_cases arrayRect rect with
  | case1 width height => exact (h width height rfl).elim
  | case2 => rfl

/-- What a tag holds after metadata has been derived. -/
def derivedEntry (chars : M) : MetadataTag → Option (List ℤ)
  | .scalerAvailableStreamConfigurations =>
      some (table (fun _ => streamConfigurationsOutput) (triples lib chars))
  | .scalerAvailableMinFrameDurations =>
      some (table (fun _ => kFrameDurationNs) (triples lib chars))
  | .scalerAvailableStallDurations => some (table stallNs (triples lib chars))
  | .sensorInfoActiveArraySize =>
      (lib.entry? chars .sensorInfoActiveArraySize).map arrayRect
  | .sensorInfoPreCorrectionActiveArraySize =>
      (lib.entry? chars .sensorInfoPreCorrectionActiveArraySize).map arrayRect
  | .infoSupportedHardwareLevel => some [supportedHardwareLevelLegacy]
  | .sensorInfoTimestampSource => some [timestampSourceUnknown]
  | .scalerCroppingType => some [croppingTypeCenterOnly]
  | .requestMaxNumOutputStreams => some [1, 3, 1]
  | .requestMaxNumInputStreams => some [0]
  | .requestPartialResultCount => some [1]
  | .syncMaxLatency => some [syncMaxLatencyUnknown]
  | .requestPipelineMaxDepth => some [4]
  | tag => lib.entry? chars tag

variable {lib} {chars : M} {derivedCharKeys : List MetadataTag}

theorem derive_of_not_lacksConfigurations (h : ¬ LacksConfigurations lib chars) :
    deriveHuaweiLegacyStreamConfigurations lib chars derivedCharKeys =
      (chars, derivedCharKeys) := by
  unfold deriveHuaweiLegacyStreamConfigurations
  apply if_pos
  simp only [LacksConfigurations, not_and_or, not_not] at h
  simpa [or_assoc] using h

/-- Metadata whose entries are derived ones derives the same entries. -/
theorem derivedEntry_of_derived {chars' : M} {tag : MetadataTag}
    (h : ∀ tag, lib.entry? chars' tag = derivedEntry lib chars tag) :
    derivedEntry lib chars' tag = derivedEntry lib chars tag := by
  have htriples : triples lib chars' = triples lib chars := by
    simp [triples, CameraMetadata.find, h, derivedEntry]
  cases tag <;> simp [derivedEntry, htriples, h, Function.comp_def]

section Lawful

variable (hlib : lib.IsLawful) {s : M × List MetadataTag} {tag tag' : MetadataTag}

include hlib

theorem entry?_put (data : List ℤ) :
    lib.entry? (put lib tag data s).1 tag' =
      if tag' = tag then some data else lib.entry? s.1 tag' := by
  split_ifs with h
  · rw [h]
    exact hlib.entry?_update_self _ _ _
  · exact hlib.entry?_update_of_ne _ _ h

theorem entry?_expandArrayRect :
    lib.entry? (expandArrayRect lib tag s).1 tag' =
      if tag' = tag then (lib.entry? s.1 tag).map arrayRect else lib.entry? s.1 tag' := by
  unfold expandArrayRect
  split
  case h_1 width height hrect =>
    have hentry : lib.entry? s.1 tag = some [width, height] := by
      cases hfind : lib.entry? s.1 tag with
      | none => simp [CameraMetadata.find, hfind] at hrect
      | some rect => simpa [CameraMetadata.find, hfind] using hrect
    rw [entry?_put hlib, hentry]
    rfl
  case h_2 hrect =>
    split_ifs with h
    · subst h
      cases hfind : lib.entry? s.1 tag' with
      | none => rfl
      | some rect =>
          have hne : ∀ width height, rect ≠ [width, height] := by
            simpa [CameraMetadata.find, hfind] using hrect
          rw [Option.map_some, arrayRect_of_ne hne]
    · rfl

/-- What one derivation does to every tag. -/
theorem entry?_derive (h : LacksConfigurations lib chars) :
    lib.entry? (deriveHuaweiLegacyStreamConfigurations lib chars derivedCharKeys).1 tag =
      derivedEntry lib chars tag := by
  have hlists : (appendFormats (lib.find chars .scalerAvailableJpegSizes)
      (lib.find chars .scalerAvailableRawSizes) (lib.find chars .scalerAvailableProcessedSizes)
      (lib.find chars .scalerAvailableFormats) ⟨[], [], []⟩).Lists (triples lib chars) :=
    Tables.Lists.nil.appendFormats _
  obtain ⟨hstreams, hformats, hsizes⟩ := h
  have hguard : ¬ ((lib.find chars .scalerAvailableStreamConfigurations).length ≠ 0 ∨
      (lib.find chars .scalerAvailableFormats).length = 0 ∨
      (lib.find chars .scalerAvailableProcessedSizes).length = 0) := by
    simp [hstreams, hformats, hsizes]
  unfold deriveHuaweiLegacyStreamConfigurations
  simp only [if_neg hguard, entry?_put hlib, entry?_expandArrayRect hlib,
    hlists.configurations, hlists.minDurations, hlists.stallDurations]
  cases tag <;> rfl

/-- To derive again changes no entry. -/
theorem entry?_derive_derive (keys : List MetadataTag) :
    lib.entry? (deriveHuaweiLegacyStreamConfigurations lib
        (deriveHuaweiLegacyStreamConfigurations lib chars derivedCharKeys).1 keys).1 tag =
      lib.entry? (deriveHuaweiLegacyStreamConfigurations lib chars derivedCharKeys).1 tag := by
  by_cases h : LacksConfigurations lib chars
  · have hderived : ∀ tag, lib.entry?
        (deriveHuaweiLegacyStreamConfigurations lib chars derivedCharKeys).1 tag =
          derivedEntry lib chars tag := fun tag => entry?_derive hlib h
    -- without a complete pair the tables are empty, and they are derived once more
    by_cases h' : LacksConfigurations lib
        (deriveHuaweiLegacyStreamConfigurations lib chars derivedCharKeys).1
    · rw [entry?_derive hlib h', hderived]
      exact derivedEntry_of_derived hderived
    · rw [derive_of_not_lacksConfigurations h']
  · rw [derive_of_not_lacksConfigurations h, derive_of_not_lacksConfigurations h]

/-- From metadata without stream configurations, and with formats and processed sizes,
all three tables list the complete pairs of every format, and only a BLOB stalls. A second
time nothing changes, and metadata with stream configurations is returned as it is. -/
theorem deriveHuaweiLegacyStreamConfigurations_lists (chars : M)
    (derivedCharKeys : List MetadataTag) :
    (LacksConfigurations lib chars →
      ListsStreams lib (deriveHuaweiLegacyStreamConfigurations lib chars derivedCharKeys).1
        (triples lib chars)) ∧
    (∀ keys tag,
      lib.entry? (deriveHuaweiLegacyStreamConfigurations lib
          (deriveHuaweiLegacyStreamConfigurations lib chars derivedCharKeys).1 keys).1 tag =
        lib.entry? (deriveHuaweiLegacyStreamConfigurations lib chars derivedCharKeys).1 tag) ∧
    (lib.find chars .scalerAvailableStreamConfigurations ≠ [] →
      deriveHuaweiLegacyStreamConfigurations lib chars derivedCharKeys =
        (chars, derivedCharKeys)) := by
  refine ⟨fun h => ?_, fun keys tag => entry?_derive_derive hlib keys, fun h => ?_⟩
  · exact {
      configurations := entry?_derive hlib h
      minDurations := entry?_derive hlib h
      stallDurations := ⟨stallNs, fun t _ => stallNs_ne_zero t, entry?_derive hlib h⟩ }
  · apply derive_of_not_lacksConfigurations
    rintro ⟨hstreams, -⟩
    exact h hstreams

end Lawful

end Metadata

/-! ### Entries in a map -/

/-- Metadata as a map from tags. -/
def tagMap : CameraMetadata (MetadataTag → Option (List ℤ)) where
  entry? chars tag := chars tag
  update chars tag data := Function.update chars tag (some data)

theorem tagMap_isLawful : tagMap.IsLawful where
  entry?_update_self _ _ _ := Function.update_self _ _ _
  entry?_update_of_ne _ _ _ _ h := Function.update_of_ne h _ _

/-- A JPEG format, a raw one whose sizes are missing, and another one; the last of the
processed sizes has no height. -/
def legacyChars : MetadataTag → Option (List ℤ)
  | .scalerAvailableFormats => some [halPixelFormatBlob, halPixelFormatRaw10, 0x22]
  | .scalerAvailableProcessedSizes => some [1920, 1080, 1280]
  | .scalerAvailableJpegSizes => some [3968, 2976]
  | .sensorInfoActiveArraySize => some [3968, 2976]
  | _ => none

theorem legacyChars_lists :
    triples tagMap legacyChars = [(halPixelFormatBlob, 3968, 2976), (0x22, 1920, 1080)] ∧
      ListsStreams tagMap (deriveHuaweiLegacyStreamConfigurations tagMap legacyChars []).1
        (triples tagMap legacyChars) :=
  ⟨by decide, (deriveHuaweiLegacyStreamConfigurations_lists tagMap_isLawful legacyChars []).1
    (by decide)⟩

end MozartLineage.Camera
