import Mathlib.Algebra.Order.Round
import MozartLineage.Composer.Dss

/-!
# The source rectangle

`fillDssLayer` checks the crop as it is, and then rounds its corner and its extent on
their own. The rectangle that comes out may be empty, or one pixel too long: that is so
for an extent below half a pixel, and for a crop that begins in the middle of a pixel
and goes up to the edge of the buffer.
-/

namespace MozartLineage.Composer

/-- The rectangle is not empty, and lies in the image. -/
def DssRect.Inside (r : DssRect) (img : DssImg) : Prop :=
  1 ≤ r.w ∧ 1 ≤ r.h ∧ r.x + r.w ≤ img.width ∧ r.y + r.h ≤ img.height

instance (r : DssRect) (img : DssImg) : Decidable (r.Inside img) :=
  inferInstanceAs (Decidable (_ ∧ _))

/-- Along one axis, what is left of the crop is half a pixel at least, and it does not
go from the middle of a pixel to the edge. -/
def RoundsInside (low high : ℚ) (size : ℕ) : Prop :=
  1 / 2 ≤ high - low ∧ ¬ (high = size ∧ Int.fract low = 1 / 2)

theorem roundNonNegative_eq {value : ℚ} (h : 0 ≤ value) :
    (roundNonNegative value : ℤ) = round value := by
  have hfloor : 0 ≤ ⌊value + 1 / 2⌋ := Int.floor_nonneg.2 (by linarith)
  rw [roundNonNegative, if_pos h, Int.toNat_of_nonneg hfloor, round_eq]

theorem one_le_roundNonNegative {value : ℚ} (h : 0 ≤ value) :
    1 ≤ roundNonNegative value ↔ 1 / 2 ≤ value := by
  have hround : 1 ≤ roundNonNegative value ↔ 1 ≤ round value := by
    rw [← roundNonNegative_eq h]
    omega
  rw [hround, round_eq, Int.le_floor]
  constructor
  · intro h
    push_cast at h
    linarith
  · intro h
    push_cast
    linarith

/-- A number in the middle between two integers is rounded up, by half. -/
theorem round_eq_add_half_iff {value : ℚ} :
    (round value : ℚ) = value + 1 / 2 ↔ Int.fract value = 1 / 2 := by
  constructor
  · intro h
    have hvalue : value = 1 / 2 + ((round value - 1 : ℤ) : ℚ) := by
      push_cast
      linarith
    rw [hvalue, Int.fract_add_intCast]
    norm_num
  · intro h
    have hsum : value + 1 / 2 = ((⌊value⌋ + 1 : ℤ) : ℚ) := by
      push_cast
      linarith [Int.floor_add_fract value]
    rw [round_eq, hsum, Int.floor_intCast]

/-- A corner and an extent that are rounded on their own come to more than the edge only
if both are rounded up by half. -/
theorem round_add_round_le_iff {low high : ℚ} {size : ℤ} (h : high ≤ size) :
    round low + round (high - low) ≤ size ↔ ¬ (high = size ∧ Int.fract low = 1 / 2) := by
  have hlow : (round low : ℚ) ≤ low + 1 / 2 := by
    rw [round_eq]
    exact Int.floor_le _
  have hextent : (round (high - low) : ℚ) ≤ high - low + 1 / 2 := by
    rw [round_eq]
    exact Int.floor_le _
  constructor
  · rintro hle ⟨rfl, hfract⟩
    have hlow := round_eq_add_half_iff.2 hfract
    have hhigh : round ((size : ℚ) - low) = size - round low + 1 := by
      rw [round_eq, Int.floor_eq_iff]
      push_cast
      constructor <;> linarith
    omega
  · intro hne
    by_contra hlt
    have hsum : ((size : ℚ) + 1) ≤ round low + round (high - low) := by
      exact_mod_cast Int.not_le.1 hlt
    exact hne ⟨by linarith, round_eq_add_half_iff.1 (by linarith)⟩

/-- One axis of the rectangle. -/
theorem roundNonNegative_inside_iff {low high : ℚ} {size : ℕ} (hlow : 0 ≤ low)
    (hhigh : low < high) (hsize : high ≤ size) :
    (1 ≤ roundNonNegative (high - low) ∧
      roundNonNegative low + roundNonNegative (high - low) ≤ size) ↔
        RoundsInside low high size := by
  have hextent : 0 ≤ high - low := by linarith
  have hedge := @round_add_round_le_iff low high size (by simpa using hsize)
  rw [← roundNonNegative_eq hlow, ← roundNonNegative_eq hextent] at hedge
  rw [one_le_roundNonNegative hextent, RoundsInside]
  refine and_congr_right fun _ => ?_
  rw [Int.cast_natCast] at hedge
  rw [← hedge]
  omega

theorem srcRect_of_fillDssLayer {buffer : BufferHandle} {g : LayerGeometry}
    {layer : DssLayer} (h : fillDssLayer buffer g = some layer) :
    layer.srcRect =
      ⟨roundNonNegative g.sourceCrop.left, roundNonNegative g.sourceCrop.top,
        roundNonNegative (g.sourceCrop.right - g.sourceCrop.left),
        roundNonNegative (g.sourceCrop.bottom - g.sourceCrop.top)⟩ := by
  unfold fillDssLayer at h
  split at h
  · cases h
  · split at h
    · cases h
    · dsimp only at h
      split at h
      · cases h
      · split at h <;> cases h
        rfl

/-- The source rectangle of a layer is not empty and lies in the buffer if and only if
the crop rounds so along both axes. -/
theorem srcRect_inside_iff {handle : NativeHandle} {g : LayerGeometry} {layer : DssLayer}
    (h : fillDssLayer (some handle) g = some layer) :
    layer.srcRect.Inside layer.src ↔
      RoundsInside g.sourceCrop.left g.sourceCrop.right
          (toUint32 (handleWord handle 88)) ∧
        RoundsInside g.sourceCrop.top g.sourceCrop.bottom
          (toUint32 (handleWord handle 92)) := by
  obtain ⟨_, format, bpp, ⟨⟩, -, -, hsrc, -, hcrop, hfits⟩ := fillDssLayer_spec h
  have hrect := srcRect_of_fillDssLayer h
  simp only [cropIsValid, decide_eq_true_eq, gt_iff_lt] at hcrop
  simp only [hsrc, fillDssImg, cropFitsBuffer, decide_eq_true_eq, not_or, not_lt] at hfits
  obtain ⟨-, -, hleft, htop, hright, hbottom⟩ := hfits
  rw [← roundNonNegative_inside_iff hleft hcrop.1 hright,
    ← roundNonNegative_inside_iff htop hcrop.2 hbottom, hrect, hsrc]
  simp only [DssRect.Inside, fillDssImg]
  tauto

/-- A buffer of 64 by 64 pixels. -/
def pixelBuffer : NativeHandle where
  numFds := 1
  numInts := 48
  data i :=
    if i = 1 then kHisiHandleMagic else if i = 2 then halPixelFormatRgba8888
    else if i = 19 ∨ i = 20 then 64 else 0

/-- It is shown from the column `left` on. -/
def shownFrom (left : ℚ) : LayerGeometry where
  sourceCrop := ⟨left, 0, 64, 64⟩
  displayFrame := ⟨0, 0, 64, 64⟩
  blendMode := hwc2BlendModeNone
  planeAlpha := 1
  transform := 0
  layerIndex := 0
  channel := 0
  needCap := 0

theorem srcRect_inside_shownFrom :
    ∃ layer, fillDssLayer (some pixelBuffer) (shownFrom 32) = some layer ∧
      layer.srcRect.Inside layer.src := by
  have hfill : fillDssLayer (some pixelBuffer) (shownFrom 32) = some _ := rfl
  refine ⟨_, hfill, (srcRect_inside_iff hfill).2 ?_⟩
  have hsize : toUint32 (handleWord pixelBuffer 88) = 64 ∧
      toUint32 (handleWord pixelBuffer 92) = 64 := by decide
  have hcolumn : Int.fract (32 : ℚ) = 0 := Int.fract_natCast 32
  rw [hsize.1, hsize.2]
  norm_num [RoundsInside, shownFrom, hcolumn]

/-- From the middle of the first column on, the rectangle is 65 columns long. -/
theorem not_srcRect_inside_shownFrom :
    ¬ ∀ (handle : NativeHandle) (g : LayerGeometry) (layer : DssLayer),
      fillDssLayer (some handle) g = some layer → layer.srcRect.Inside layer.src := by
  intro hall
  have houtside : ((fillDssLayer (some pixelBuffer) (shownFrom (1 / 2))).any fun layer =>
      ¬ layer.srcRect.Inside layer.src) = true := by decide +kernel
  obtain ⟨layer, hfill, hlayer⟩ := (Option.any_eq_true ..).1 houtside
  exact of_decide_eq_true hlayer (hall _ _ layer hfill)

end MozartLineage.Composer
