import Mathlib.Algebra.Group.Nat.Defs
import Mathlib.Data.Nat.Find
import Mathlib.Tactic.Common

/-!
# The size of a JPEG without a transport footer

On hi3635 a BLOB buffer may hold a JPEG without the footer that gives its size. The size
is then inferred: a scan from the end of the buffer looks for an end-of-image marker.
The scan starts a footer's length before the end, on 32 bits, although there is no footer.
-/

namespace MozartLineage.Camera

/-- The size of `struct camera3_jpeg_blob`. -/
def jpegBlobSize : UInt32 := 8

/-- The size that is inferred, 0 for none, the indices into the buffer that are read,
and how often the loop has been entered. -/
structure Inferred where
  size : UInt32
  reads : List ℕ
  iterations : ℕ

/-- Memory from the beginning of the buffer on, within the buffer and beyond. -/
abbrev JpegBuffer := ℕ → UInt8

namespace Inferred

def none (size : UInt32) : Inferred := ⟨size, [], 0⟩

/-- One more iteration before. -/
def iterate (reads : List ℕ) (o : Inferred) : Inferred :=
  { o with reads := reads ++ o.reads, iterations := o.iterations + 1 }

end Inferred

/-- The loop, with what `end` is. The second byte is read only after a first one that
fits. -/
def scan (jpegBuffer : JpegBuffer) : ℕ → Inferred
  | n + 2 =>
      if jpegBuffer n = 0xff then
        if jpegBuffer (n + 1) = 0xd9 then ⟨UInt32.ofNat (n + 2), [n, n + 1], 1⟩
        else (scan jpegBuffer (n + 1)).iterate [n, n + 1]
      else (scan jpegBuffer (n + 1)).iterate [n]
  | _ => .none 0

/-- What the test of the first two bytes reads. -/
def headerReads (size width : UInt32) (jpegBuffer : JpegBuffer) : List ℕ :=
  if size = 0 ∧ width ≥ 2 then
    if jpegBuffer 0 = 0xff then [0, 1] else [0]
  else []

/-- The buffer begins as a JPEG does, and the platform is the one that the scan is for. -/
def Scans (size width : UInt32) (jpegBuffer : JpegBuffer) (platform : String) : Prop :=
  (size = 0 ∧ width ≥ 2 ∧ jpegBuffer 0 = 0xff ∧ jpegBuffer 1 = 0xd8) ∧ platform = "hi3635"

instance (size width : UInt32) (jpegBuffer : JpegBuffer) (platform : String) :
    Decidable (Scans size width jpegBuffer platform) := inferInstanceAs (Decidable (_ ∧ _))

/-- What is added to both functions: `size` is what the footer gives. -/
def inferSize (size width : UInt32) (jpegBuffer : JpegBuffer) (platform : String) : Inferred :=
  let scanned :=
    if Scans size width jpegBuffer platform then
      scan jpegBuffer (width - jpegBlobSize).toNat
    else .none size
  { scanned with reads := headerReads size width jpegBuffer ++ scanned.reads }

def imageGetJpegSize : UInt32 → UInt32 → JpegBuffer → String → Inferred := inferSize

def aImageGetJpegSize : UInt32 → UInt32 → JpegBuffer → String → Inferred := inferSize

/-- An end-of-image marker ends here. -/
def EndsAt (jpegBuffer : JpegBuffer) (i : ℕ) : Prop :=
  2 ≤ i ∧ jpegBuffer (i - 2) = 0xff ∧ jpegBuffer (i - 1) = 0xd9

instance (jpegBuffer : JpegBuffer) : DecidablePred (EndsAt jpegBuffer) := fun _ =>
  inferInstanceAs (Decidable (_ ∧ _))

variable {jpegBuffer : JpegBuffer} {size width : UInt32} {platform : String}

/-! ### The scan -/

/-- The scan finds the last marker before its start. -/
theorem size_scan {n : ℕ} (hn : n < 2 ^ 32) :
    (scan jpegBuffer n).size.toNat = Nat.findGreatest (EndsAt jpegBuffer) n := by
  fun_induction scan jpegBuffer n with
  | case1 n hff hd9 =>
      rw [Nat.findGreatest_eq ⟨by omega, hff, hd9⟩]
      exact UInt32.toNat_ofNat_of_lt hn
  | case2 n hff hd9 ih =>
      rw [Nat.findGreatest_of_not fun h => hd9 h.2.2]
      exact ih (by omega)
  | case3 n hff ih =>
      rw [Nat.findGreatest_of_not fun h => hff h.2.1]
      exact ih (by omega)
  | case4 n hn' =>
      symm
      rw [Inferred.none, UInt32.toNat_zero, Nat.findGreatest_eq_zero_iff]
      rintro i hi hle ⟨htwo, -⟩
      exact hn' (n - 2) (by omega)

/-- The scan reads below its start, and ends. -/
theorem scan_bounds (n : ℕ) :
    (∀ i ∈ (scan jpegBuffer n).reads, i < n) ∧ (scan jpegBuffer n).iterations ≤ n := by
  fun_induction scan jpegBuffer n with
  | case1 n hff hd9 => simp [Nat.lt_add_one_of_lt]
  | case2 n hff hd9 ih =>
      refine ⟨fun i hi => ?_, Nat.succ_le_succ ih.2⟩
      rcases List.mem_append.1 hi with hi | hi
      · simp only [List.mem_cons, List.not_mem_nil, or_false] at hi
        omega
      · exact Nat.lt_succ_of_lt (ih.1 i hi)
  | case3 n hff ih =>
      refine ⟨fun i hi => ?_, Nat.succ_le_succ ih.2⟩
      rcases List.mem_append.1 hi with hi | hi
      · obtain rfl := List.mem_singleton.1 hi
        omega
      · exact Nat.lt_succ_of_lt (ih.1 i hi)
  | case4 n hn => simp [Inferred.none]

/-- A scan reads right below its start first. -/
theorem mem_reads_scan (n : ℕ) : n ∈ (scan jpegBuffer (n + 2)).reads := by
  rw [scan]
  split_ifs <;> simp [Inferred.iterate]

theorem scans_iff : Scans size width jpegBuffer platform ↔
    size = 0 ∧ 2 ≤ width.toNat ∧ jpegBuffer 0 = 0xff ∧ jpegBuffer 1 = 0xd8 ∧
      platform = "hi3635" := by
  simp only [Scans, ge_iff_le, UInt32.le_iff_toNat_le, and_assoc]
  rfl

/-- Where the scan starts: right below the footer that is not there, unless the buffer is
too small for one. -/
theorem toNat_start : (width - jpegBlobSize).toNat =
    if 8 ≤ width.toNat then width.toNat - 8 else 2 ^ 32 - 8 + width.toNat := by
  have hlt := width.toNat_lt
  rw [UInt32.toNat_sub, show jpegBlobSize.toNat = 8 from rfl]
  split_ifs <;> omega

/-! ### The final marker -/

/-- The size that is inferred is where the last marker of the buffer ends, if there is
one. -/
def IsFinal (width : UInt32) (jpegBuffer : JpegBuffer) (o : Inferred) : Prop :=
  ∀ i, EndsAt jpegBuffer i → i ≤ width.toNat →
    (∀ j, EndsAt jpegBuffer j → j ≤ width.toNat → j ≤ i) → o.size.toNat = i

/-- No marker ends in the last bytes, where the footer would be. -/
def NoneAtEnd (width : UInt32) (jpegBuffer : JpegBuffer) : Prop :=
  ∀ i, EndsAt jpegBuffer i → i ≤ width.toNat → i ≤ width.toNat - jpegBlobSize.toNat

theorem isFinal_inferSize_iff (hwidth : 10 ≤ width) (hsoi : jpegBuffer 0 = 0xff)
    (hsoi' : jpegBuffer 1 = 0xd8) :
    IsFinal width jpegBuffer (inferSize 0 width jpegBuffer "hi3635") ↔
      NoneAtEnd width jpegBuffer := by
  have hten : 10 ≤ width.toNat := UInt32.le_iff_toNat_le.1 hwidth
  have hlt := width.toNat_lt
  have hscans : Scans 0 width jpegBuffer "hi3635" :=
    scans_iff.2 ⟨rfl, by omega, hsoi, hsoi', rfl⟩
  have hstart : (width - jpegBlobSize).toNat = width.toNat - 8 := by
    rw [toNat_start, if_pos (by omega)]
  have hsize : (inferSize 0 width jpegBuffer "hi3635").size.toNat =
      Nat.findGreatest (EndsAt jpegBuffer) (width.toNat - 8) := by
    rw [inferSize, if_pos hscans, ← hstart]
    exact size_scan (UInt32.toNat_lt _)
  rw [IsFinal, hsize]
  constructor
  · intro hfinal i hi hle
    -- the last marker of the buffer is the one that the scan has found
    have hlast : EndsAt jpegBuffer (Nat.findGreatest (EndsAt jpegBuffer) width.toNat) :=
      Nat.findGreatest_spec hle hi
    have heq := hfinal _ hlast (Nat.findGreatest_le _) fun j hj hle => Nat.le_findGreatest hle hj
    calc i ≤ Nat.findGreatest (EndsAt jpegBuffer) width.toNat := Nat.le_findGreatest hle hi
      _ = Nat.findGreatest (EndsAt jpegBuffer) (width.toNat - 8) := heq.symm
      _ ≤ width.toNat - jpegBlobSize.toNat := Nat.findGreatest_le _
  · intro hnone i hi hle hlast
    refine Nat.findGreatest_eq_iff.2 ⟨hnone i hi hle, fun _ => hi, fun j hij hj hends => ?_⟩
    exact absurd (hlast j hends (by omega)) (by omega)

/-- The bytes of a buffer, and zeros beyond. -/
def bytesAt (bytes : List UInt8) : JpegBuffer := fun i => bytes.getD i 0

/-- A thumbnail's marker, the image's own one and eight bytes of padding. -/
def padded : JpegBuffer :=
  bytesAt [0xff, 0xd8, 0xff, 0xd9, 0xff, 0xd9, 0, 0, 0, 0, 0, 0, 0, 0]

/-- The image fills its buffer. -/
def full : JpegBuffer := bytesAt [0xff, 0xd8, 0, 0, 0, 0, 0, 0, 0xff, 0xd9]

/-- Every index that is read is in the buffer, and so is what is inferred from it; the
loop is entered no more often than there are bytes. -/
structure InBounds (size width : UInt32) (o : Inferred) : Prop where
  reads : ∀ i ∈ o.reads, i < width.toNat
  iterations : o.iterations ≤ width.toNat
  size : size = 0 → o.size ≤ width

theorem lt_of_mem_headerReads {i : ℕ} (hi : i ∈ headerReads size width jpegBuffer) :
    i < width.toNat := by
  unfold headerReads at hi
  split_ifs at hi with h hff
  · have htwo : 2 ≤ width.toNat := UInt32.le_iff_toNat_le.1 h.2
    simp only [List.mem_cons, List.not_mem_nil, or_false] at hi
    omega
  · have htwo : 2 ≤ width.toNat := UInt32.le_iff_toNat_le.1 h.2
    obtain rfl := List.mem_singleton.1 hi
    omega
  · simp at hi

theorem inBounds_inferSize_iff :
    InBounds size width (inferSize size width jpegBuffer platform) ↔
      ¬ (Scans size width jpegBuffer platform ∧ width < jpegBlobSize) := by
  have hlt := width.toNat_lt
  rw [UInt32.lt_iff_toNat_lt, show jpegBlobSize.toNat = 8 from rfl]
  unfold inferSize
  split_ifs with hscans
  · have htwo := (scans_iff.1 hscans).2.1
    have hbounds : _ ∧ _ := @scan_bounds jpegBuffer (width - jpegBlobSize).toNat
    rw [toNat_start] at hbounds ⊢
    constructor
    · rintro ⟨hreads, -⟩ ⟨-, hsmall⟩
      rw [if_neg (by omega)] at hreads
      obtain ⟨n, hn⟩ : ∃ n, 2 ^ 32 - 8 + width.toNat = n + 2 := ⟨2 ^ 32 - 10 + width.toNat, by omega⟩
      rw [hn] at hreads
      have := hreads n (List.mem_append_right _ (mem_reads_scan n))
      omega
    · intro hlarge
      have hle : 8 ≤ width.toNat := not_lt.1 fun h => hlarge ⟨hscans, h⟩
      rw [if_pos hle] at hbounds ⊢
      refine ⟨fun i hi => ?_, Nat.le_trans hbounds.2 (by omega), fun _ => ?_⟩
      · rcases List.mem_append.1 hi with hi | hi
        · exact lt_of_mem_headerReads hi
        · exact Nat.lt_of_lt_of_le (hbounds.1 i hi) (by omega)
      · rw [UInt32.le_iff_toNat_le]
        dsimp only
        rw [size_scan (by omega)]
        exact Nat.le_trans (Nat.findGreatest_le _) (by omega)
  · refine iff_of_true ⟨fun i hi => ?_, Nat.zero_le _, ?_⟩ fun h => hscans h.1
    · exact lt_of_mem_headerReads (by simpa [Inferred.none] using hi)
    · rintro rfl
      exact UInt32.zero_le

/-- For every buffer, every size that a footer gives and every platform, both functions
read within the buffer, end within as many iterations as it has bytes and infer no more
than its size, if and only if they do not scan a buffer that is smaller than a footer. -/
theorem getJpegSize_inBounds_iff (size width : UInt32) (jpegBuffer : JpegBuffer)
    (platform : String) :
    (InBounds size width (imageGetJpegSize size width jpegBuffer platform) ↔
      ¬ (Scans size width jpegBuffer platform ∧ width < jpegBlobSize)) ∧
    (InBounds size width (aImageGetJpegSize size width jpegBuffer platform) ↔
      ¬ (Scans size width jpegBuffer platform ∧ width < jpegBlobSize)) :=
  ⟨inBounds_inferSize_iff, inBounds_inferSize_iff⟩

/-- Two bytes that begin as a JPEG does. -/
def header : JpegBuffer := bytesAt [0xff, 0xd8]

/-- The scan of two bytes starts far above them. -/
theorem not_inBounds_header :
    ¬ InBounds 0 2 (imageGetJpegSize 0 2 header "hi3635") ∧
      ¬ InBounds 0 2 (aImageGetJpegSize 0 2 header "hi3635") := by
  have hscans : Scans 0 2 header "hi3635" ∧ (2 : UInt32) < jpegBlobSize := by decide
  exact ⟨fun h => inBounds_inferSize_iff.1 h hscans, fun h => inBounds_inferSize_iff.1 h hscans⟩

end MozartLineage.Camera
