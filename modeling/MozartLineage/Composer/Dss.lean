import Mathlib.Algebra.Order.Floor.Ring
import Mathlib.Data.Rat.Floor

/-!
# Layers of the display subsystem

`fillDssLayer` turns a buffer handle and the geometry of a layer into a layer of
the hi3630 display subsystem, and refuses what that cannot show. Coordinates and
alphas are finite, and are taken as the rational numbers that they are; sizes and
offsets are 32-bit words.
-/

namespace MozartLineage.Composer

/-! ### Formats -/

inductive HisiPixelFormat where
  | rgb565
  | rgbx8888
  | rgba8888
  | bgrx8888
  | bgra8888
  | yuv422I
  | yCbCr422Sp
  | yCrCb422Sp
  | yCbCr420Sp
  | yCrCb420Sp
  | yCbCr422P
  | yCrCb422P
  | yCbCr420P
  | yCrCb420P
  deriving DecidableEq, Repr

def HisiPixelFormat.value : HisiPixelFormat → ℕ
  | .rgb565 => 0
  | .rgbx8888 => 5
  | .rgba8888 => 6
  | .bgrx8888 => 12
  | .bgra8888 => 13
  | .yuv422I => 14
  | .yCbCr422Sp => 15
  | .yCrCb422Sp => 16
  | .yCbCr420Sp => 17
  | .yCrCb420Sp => 18
  | .yCbCr422P => 19
  | .yCrCb422P => 20
  | .yCbCr420P => 21
  | .yCrCb420P => 22

def isYuvFormat (format : HisiPixelFormat) : Bool :=
  HisiPixelFormat.yuv422I.value ≤ format.value ∧
    format.value ≤ HisiPixelFormat.yCrCb420P.value

def halPixelFormatRgba8888 : ℤ := 1

def halPixelFormatRgbx8888 : ℤ := 2

def halPixelFormatRgb565 : ℤ := 4

def halPixelFormatBgra8888 : ℤ := 5

def halPixelFormatYCbCr422Sp : ℤ := 0x10

def halPixelFormatYCrCb420Sp : ℤ := 0x11

def halPixelFormatYv12 : ℤ := 0x32315659

/-- The format of the display subsystem for a HAL format, and its bytes per
pixel. -/
def convertHisiFormat (halFormat : ℤ) : Option (HisiPixelFormat × ℕ) :=
  if halFormat = halPixelFormatRgba8888 then some (.rgba8888, 4)
  else if halFormat = halPixelFormatRgbx8888 then some (.rgbx8888, 4)
  else if halFormat = halPixelFormatRgb565 then some (.rgb565, 2)
  else if halFormat = halPixelFormatBgra8888 then some (.bgra8888, 4)
  else if halFormat = halPixelFormatYCbCr422Sp then some (.yCbCr422Sp, 2)
  else if halFormat = halPixelFormatYCrCb420Sp then some (.yCrCb420Sp, 1)
  else if halFormat = 0x100 then some (.yCbCr420Sp, 1)
  else if halFormat = 0x101 then some (.yCbCr420P, 1)
  else if halFormat = halPixelFormatYv12 then some (.yCrCb420P, 1)
  else none

/-! ### Handles -/

/-- A native handle. `data` gives its words, the file descriptors first. -/
structure NativeHandle where
  numFds : ℤ
  numInts : ℤ
  data : ℕ → ℤ

/-- The buffer of a layer, `none` for a null handle. -/
abbrev BufferHandle := Option NativeHandle

def kHisiHandleMagic : ℕ := 0x03141592

/-- The value of a signed word as an unsigned one. -/
def toUint32 (word : ℤ) : ℕ := (word % 2 ^ 32).toNat

/-- The value of an unsigned word as a signed one. -/
def toInt32 (word : ℕ) : ℤ := (word : ℤ).bmod (2 ^ 32)

/-- The word at a byte offset; the words follow three others. -/
def handleWord (handle : NativeHandle) (byteOffset : ℕ) : ℤ :=
  handle.data ((byteOffset - 12) / 4)

def isHisiHandle (handle : NativeHandle) : Bool :=
  handle.numFds ≥ 1 ∧ handle.numInts ≥ 48 ∧
    toUint32 (handleWord handle 16) = kHisiHandleMagic

/-- The format of a Hisi handle, if there is one for it. -/
def getHisiFormat (buffer : BufferHandle) : Option HisiPixelFormat :=
  match buffer with
  | none => none
  | some handle =>
      if isHisiHandle handle then
        (convertHisiFormat (handleWord handle 20)).map Prod.fst
      else none

/-! ### Rectangles -/

structure Rect where
  left : ℤ
  top : ℤ
  right : ℤ
  bottom : ℤ
  deriving DecidableEq

structure FRect where
  left : ℚ
  top : ℚ
  right : ℚ
  bottom : ℚ
  deriving DecidableEq

structure DssRect where
  x : ℕ
  y : ℕ
  w : ℕ
  h : ℕ
  deriving DecidableEq

/-- The size of the display. -/
structure Info where
  width : ℕ
  height : ℕ
  deriving DecidableEq

def rectIsValid (rect : Rect) : Bool :=
  rect.right > rect.left ∧ rect.bottom > rect.top

def rectWidth (rect : Rect) : ℕ := toUint32 (rect.right - rect.left)

def rectHeight (rect : Rect) : ℕ := toUint32 (rect.bottom - rect.top)

def cropIsValid (crop : FRect) : Bool :=
  crop.right > crop.left ∧ crop.bottom > crop.top

def frameFitsDisplay (rect : Rect) (info : Info) : Bool :=
  rect.left ≥ 0 ∧ rect.top ≥ 0 ∧ rect.right ≤ toInt32 info.width ∧
    rect.bottom ≤ toInt32 info.height

def frameArea (rect : Rect) : ℕ :=
  if rectIsValid rect then rectWidth rect * rectHeight rect else 0

/-- Rounding to the nearest integer, halves away from zero, and never below
zero. -/
def roundNonNegative (value : ℚ) : ℕ :=
  if 0 ≤ value then ⌊value + 1 / 2⌋.toNat else 0

/-! ### Layers -/

def hwcTransformFlipH : ℤ := 1

def hwcTransformFlipV : ℤ := 2

def hwcTransformRot90 : ℤ := 4

def hwcTransformRot180 : ℤ := 3

def hwcTransformRot270 : ℤ := 7

def mapHwcTransform (transform : ℤ) : ℕ :=
  if transform = hwcTransformFlipH then 0x01
  else if transform = hwcTransformFlipV then 0x02
  else if transform = hwcTransformRot90 then 0x04
  else if transform = hwcTransformRot180 then 0x03
  else if transform = hwcTransformRot270 then 0x07
  else 0

def hwc2BlendModeNone : ℤ := 1

def hwc2BlendModePremultiplied : ℤ := 2

def hwc2BlendModeCoverage : ℤ := 3

def mapHwcBlendMode (blendMode : ℤ) : ℤ :=
  if blendMode = hwc2BlendModePremultiplied then 1
  else if blendMode = hwc2BlendModeCoverage then 2
  else 0

/-- The bits of `need_cap`. -/
def capFbPost : ℕ := 1 <<< 1

def capDma : ℕ := 1 <<< 5

def capCsc : ℕ := 1 <<< 6

def capScl : ℕ := 1 <<< 7

def dssScenePdpOnline : ℕ := 0x1

structure DssImg where
  format : HisiPixelFormat
  width : ℕ
  height : ℕ
  bpp : ℕ
  stride : ℕ
  uStride : ℕ
  vStride : ℕ
  bufSize : ℕ
  phyAddr : ℕ
  virAddr : ℕ
  uOffset : ℕ
  vOffset : ℕ
  ptba : ℕ
  ptva : ℕ
  isTile : ℕ
  mmuEnable : ℕ
  cscMode : ℕ
  secureMode : ℕ
  sharedFd : ℤ
  deriving DecidableEq

structure DssLayer where
  src : DssImg
  srcRect : DssRect
  dstRect : DssRect
  transform : ℕ
  blending : ℤ
  glbAlpha : ℕ
  layerIdx : ℕ
  chnIdx : ℕ
  needCap : ℕ
  flags : ℕ
  acquireFence : ℤ
  deriving DecidableEq

/-- What `fillDssLayer` is given apart from the buffer. -/
structure LayerGeometry where
  sourceCrop : FRect
  displayFrame : Rect
  blendMode : ℤ
  planeAlpha : ℚ
  transform : ℤ
  layerIndex : ℕ
  channel : ℕ
  needCap : ℕ

/-- The crop lies in a buffer that is not empty. -/
def cropFitsBuffer (crop : FRect) (width height : ℕ) : Bool :=
  ¬ (width = 0 ∨ height = 0 ∨ crop.left < 0 ∨ crop.top < 0 ∨
    crop.right > width ∨ crop.bottom > height)

def fillDssImg (handle : NativeHandle) (format : HisiPixelFormat) (bpp : ℕ) : DssImg :=
  let word (byteOffset : ℕ) : ℕ := toUint32 (handleWord handle byteOffset)
  { format := format
    width := word 88
    height := word 92
    bpp := bpp
    stride := word 32
    uStride := word 100
    vStride := word 104
    bufSize := word 120
    phyAddr := word 96
    virAddr := word 116
    uOffset := word 108
    vOffset := word 112
    ptba := word 124
    ptva := word 128
    isTile := if handleWord handle 132 = 1 then 1 else 0
    mmuEnable := if word 96 = 0 then 1 else 0
    cscMode := 0
    secureMode := 0
    sharedFd := handle.data 0 }

/-- The layer for a buffer, `none` where it cannot be shown. -/
def fillDssLayer (buffer : BufferHandle) (g : LayerGeometry) : Option DssLayer :=
  match buffer with
  | none => none
  | some handle =>
      if ¬ isHisiHandle handle ∨ ¬ cropIsValid g.sourceCrop ∨
          ¬ rectIsValid g.displayFrame then none
      else
        let width := toUint32 (handleWord handle 88)
        let height := toUint32 (handleWord handle 92)
        if ¬ cropFitsBuffer g.sourceCrop width height then none
        else
          match convertHisiFormat (handleWord handle 20) with
          | none => none
          | some (format, bpp) =>
              let srcRect : DssRect :=
                ⟨roundNonNegative g.sourceCrop.left, roundNonNegative g.sourceCrop.top,
                  roundNonNegative (g.sourceCrop.right - g.sourceCrop.left),
                  roundNonNegative (g.sourceCrop.bottom - g.sourceCrop.top)⟩
              let dstRect : DssRect :=
                ⟨toUint32 g.displayFrame.left, toUint32 g.displayFrame.top,
                  rectWidth g.displayFrame, rectHeight g.displayFrame⟩
              let needCap := if isYuvFormat format then g.needCap ||| capCsc else g.needCap
              some
                { src := fillDssImg handle format bpp
                  srcRect := srcRect
                  dstRect := dstRect
                  transform := mapHwcTransform g.transform
                  blending := mapHwcBlendMode g.blendMode
                  glbAlpha := ⌊max 0 (min 1 g.planeAlpha) * 255⌋.toNat
                  layerIdx := g.layerIndex
                  chnIdx := g.channel
                  needCap :=
                    if srcRect.w ≠ dstRect.w ∨ srcRect.h ≠ dstRect.h then
                      needCap ||| capScl
                    else needCap
                  flags := dssScenePdpOnline
                  acquireFence := -1 }

/-- What a buffer and a geometry that can be shown have in common. -/
theorem fillDssLayer_spec {buffer : BufferHandle} {g : LayerGeometry} {layer : DssLayer}
    (h : fillDssLayer buffer g = some layer) :
    ∃ handle format bpp, buffer = some handle ∧ isHisiHandle handle ∧
      convertHisiFormat (handleWord handle 20) = some (format, bpp) ∧
      layer.src = fillDssImg handle format bpp ∧
      rectIsValid g.displayFrame ∧ cropIsValid g.sourceCrop ∧
      cropFitsBuffer g.sourceCrop layer.src.width layer.src.height := by
  unfold fillDssLayer at h
  split at h
  · cases h
  · next handle =>
    split at h
    · cases h
    · next hvalid =>
      simp only [not_or, not_not] at hvalid
      obtain ⟨hhisi, hcrop, hframe⟩ := hvalid
      dsimp only at h
      split at h
      · cases h
      · next hfits =>
        split at h
        · cases h
        · next format bpp hformat =>
          cases h
          exact ⟨handle, format, bpp, rfl, hhisi, hformat, rfl, hframe, hcrop,
            not_not.1 hfits⟩

/-- Only a Hisi buffer with a format of the display subsystem can be shown. -/
theorem getHisiFormat_of_fillDssLayer {buffer : BufferHandle} {g : LayerGeometry}
    {layer : DssLayer} (h : fillDssLayer buffer g = some layer) :
    getHisiFormat buffer = some layer.src.format := by
  obtain ⟨handle, format, bpp, rfl, hhisi, hformat, hsrc, -⟩ := fillDssLayer_spec h
  simp [getHisiFormat, hhisi, hformat, hsrc, fillDssImg]

end MozartLineage.Composer
