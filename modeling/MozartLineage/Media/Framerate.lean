import Mathlib.Algebra.Order.Floor.Semiring
import Mathlib.Data.Rat.Floor
import Mathlib.Tactic.Linarith
import Mathlib.Tactic.NormNum

/-!
# Frame rates for the MSVDX decoder

The field `xFramerate` of a video port holds a rate as a multiple of 1/65536. The decoders
of IMG want it in units of a thousandth instead, and at most 60 frames per second. A rate
gets there in two ways: it is encoded for the decoder at once, or in the standard way, and
then converted when the format is sent to the port. The field does not say which of the two
units it is in; what is at most 60000 is taken for thousandths.

The rates are exact rationals here.
-/

namespace MozartLineage.Media

def isLegacyImgMsvdxDecoder (componentName : String) : Bool :=
  "OMX.IMG.MSVDX.Decoder.".toList.isPrefixOf componentName.toList

/-- A cast to `OMX_U32`. -/
def omxU32 (value : ℚ) : UInt32 := UInt32.ofNat ⌊value⌋₊

def makeVideoPortFramerate (componentName : String) (frameRate : ℚ) : UInt32 :=
  if ¬ isLegacyImgMsvdxDecoder componentName then omxU32 (frameRate * 65536)
  else if frameRate ≤ 0 then 0
  else
    let frameRate := if frameRate > 60 then 60 else frameRate
    omxU32 (frameRate * 1000 + 1 / 2)

def convertQ16FramerateToLegacyMillifps (xFramerate : UInt32) : UInt32 :=
  let frameRate := (xFramerate.toNat : ℚ) / 65536
  let frameRate := if frameRate > 60 then 60 else frameRate
  omxU32 (frameRate * 1000 + 1 / 2)

inductive PortIndex where
  | input
  | output
  deriving DecidableEq

/-- The rate in the format that `setVideoPortFormatType` sends, when the one that was found
has `xFramerate`. -/
def setVideoPortFormatType (componentName : String) (portIndex : PortIndex)
    (xFramerate : UInt32) : UInt32 :=
  if isLegacyImgMsvdxDecoder componentName ∧ portIndex = .input ∧ xFramerate > 60000 then
    convertQ16FramerateToLegacyMillifps xFramerate
  else xFramerate

/-- The rate in the definition that `setVideoFormatOnPort` sends, over the one that was
there. -/
def setVideoFormatOnPort (componentName : String) (frameRate : ℚ) (xFramerate : UInt32) :
    UInt32 :=
  if frameRate ≥ 0 then makeVideoPortFramerate componentName frameRate else xFramerate

/-- The standard encoding. -/
def q16 (frameRate : ℚ) : UInt32 := omxU32 (65536 * frameRate)

/-- The rate in thousandths, with the cap and rounded. -/
def millifps (frameRate : ℚ) : ℕ := ⌊min frameRate 60 * 1000 + 1 / 2⌋₊

/-- The values differ by at most one. -/
def Close (x y : UInt32) : Prop := x.toNat ≤ y.toNat + 1 ∧ y.toNat ≤ x.toNat + 1

instance (x y : UInt32) : Decidable (Close x y) := inferInstanceAs (Decidable (_ ∧ _))

variable {componentName : String} {r r' : ℚ} {x : UInt32}

/-! ### What the conversions come to -/

theorem toNat_omxU32 {value : ℚ} (h : value < 2 ^ 32) : (omxU32 value).toNat = ⌊value⌋₊ := by
  have hlt : ⌊value⌋₊ < 2 ^ 32 := by
    rw [Nat.floor_lt' (by decide)]
    exact_mod_cast h
  rw [omxU32, UInt32.toNat_ofNat_of_lt' hlt]

theorem toNat_q16 (hr : r < 65536) : (q16 r).toNat = ⌊65536 * r⌋₊ :=
  toNat_omxU32 (by norm_num; linarith)

/-- What both conversions do with a rate. -/
theorem toNat_omxU32_cap (r : ℚ) :
    (omxU32 ((if r > 60 then 60 else r) * 1000 + 1 / 2)).toNat = millifps r := by
  have hcap : (if r > 60 then 60 else r) = min r 60 := by
    split_ifs with h
    · exact (min_eq_right h.le).symm
    · exact (min_eq_left (not_lt.1 h)).symm
  have hle : min r 60 ≤ 60 := min_le_right r 60
  rw [hcap, toNat_omxU32 (by norm_num; linarith), millifps]

theorem toNat_makeVideoPortFramerate (hname : isLegacyImgMsvdxDecoder componentName)
    (h0 : 0 ≤ r) : (makeVideoPortFramerate componentName r).toNat = millifps r := by
  rw [makeVideoPortFramerate, if_neg (not_not.2 hname)]
  by_cases hr : r ≤ 0
  · obtain rfl := le_antisymm hr h0
    exact (Nat.floor_eq_zero.2 (by norm_num)).symm
  · rw [if_neg hr]
    exact toNat_omxU32_cap r

theorem toNat_convertQ16FramerateToLegacyMillifps :
    (convertQ16FramerateToLegacyMillifps x).toNat = millifps (x.toNat / 65536) :=
  toNat_omxU32_cap _

/-! ### Thousandths -/

theorem millifps_le (r : ℚ) : millifps r ≤ 60000 := by
  have hcap : min r 60 ≤ 60 := min_le_right r 60
  refine Nat.lt_succ_iff.1 ((Nat.floor_lt' (by decide)).2 ?_)
  push_cast
  linarith

theorem millifps_mono (h : r ≤ r') : millifps r ≤ millifps r' := by
  have hcap := min_le_min_right 60 h
  exact Nat.floor_le_floor (by linarith)

/-- A thousandth is more than 65 units of the standard encoding. -/
theorem millifps_le_add_one (h0 : 0 ≤ r') (h : r < r' + 1 / 65536) :
    millifps r ≤ millifps r' + 1 := by
  have hcap : min r 60 ≤ min r' 60 + 1 / 65536 := by
    rw [← min_add_add_right]
    exact le_min ((min_le_left r 60).trans h.le) ((min_le_right r 60).trans (by norm_num))
  have h0' : 0 ≤ min r' 60 := le_min h0 (by norm_num)
  rw [millifps, millifps, ← Nat.floor_add_one (by linarith)]
  exact Nat.floor_le_floor (by linarith)

/-- What the encoded rate stands for. -/
theorem floor_bounds (h0 : 0 ≤ r) :
    ((⌊65536 * r⌋₊ : ℕ) : ℚ) / 65536 ≤ r ∧ r < (⌊65536 * r⌋₊ : ℕ) / 65536 + 1 / 65536 := by
  have hle := Nat.floor_le (show 0 ≤ 65536 * r by linarith)
  have hlt := Nat.lt_floor_add_one (65536 * r)
  constructor <;> linarith

/-- The number of 1/65536 is close to that of thousandths for the smallest rates only. -/
theorem millifps_close_floor_iff (h0 : 0 ≤ r) (hr : r < 60) :
    (millifps r ≤ ⌊65536 * r⌋₊ + 1 ∧ ⌊65536 * r⌋₊ ≤ millifps r + 1) ↔ ⌊65536 * r⌋₊ ≤ 1 := by
  obtain ⟨hle, hlt⟩ := floor_bounds h0
  have hmillifps : millifps r = ⌊r * 1000 + 1 / 2⌋₊ := by rw [millifps, min_eq_left hr.le]
  have hfloor := Nat.floor_le (show 0 ≤ r * 1000 + 1 / 2 by linarith)
  rw [← hmillifps] at hfloor
  generalize ⌊65536 * r⌋₊ = n at hle hlt ⊢
  constructor
  · rintro ⟨-, hn⟩
    by_contra h
    have hn' : (n : ℚ) ≤ millifps r + 1 := by exact_mod_cast hn
    have h2 : (2 : ℚ) ≤ n := by exact_mod_cast not_le.1 h
    linarith
  · intro hn
    have hn' : (n : ℚ) ≤ 1 := by exact_mod_cast hn
    have hzero : millifps r = 0 := by
      rw [hmillifps, Nat.floor_eq_zero]
      linarith
    omega

/-! ### The two ways -/

theorem setVideoPortFormatType_input (hname : isLegacyImgMsvdxDecoder componentName) :
    setVideoPortFormatType componentName .input x =
      if 60000 < x.toNat then convertQ16FramerateToLegacyMillifps x else x := by
  have hguard : x > 60000 ↔ 60000 < x.toNat := UInt32.lt_iff_toNat_lt
  simp [setVideoPortFormatType, hname, hguard]

theorem toNat_setVideoPortFormatType_le (hname : isLegacyImgMsvdxDecoder componentName) :
    (setVideoPortFormatType componentName .input x).toNat ≤ 60000 := by
  rw [setVideoPortFormatType_input hname]
  split_ifs with h
  · rw [toNat_convertQ16FramerateToLegacyMillifps]
    exact millifps_le _
  · exact not_lt.1 h

/-- What is sent is sent as it is the next time. -/
theorem setVideoPortFormatType_idem (hname : isLegacyImgMsvdxDecoder componentName) :
    setVideoPortFormatType componentName .input
        (setVideoPortFormatType componentName .input x) =
      setVideoPortFormatType componentName .input x := by
  rw [setVideoPortFormatType_input hname (x := setVideoPortFormatType componentName .input x),
    if_neg (not_lt.2 (toNat_setVideoPortFormatType_le hname))]

theorem floor_le_iff (h0 : 0 ≤ r) (n : ℕ) : ⌊65536 * r⌋₊ ≤ n ↔ r < (n + 1) / 65536 := by
  rw [← Nat.lt_succ_iff, Nat.floor_lt (by linarith), Nat.cast_succ]
  constructor <;> intro h <;> linarith

/-- The two ways meet for a rate that is encoded as 0 or 1, or as more than 60000. -/
theorem close_iff (hname : isLegacyImgMsvdxDecoder componentName) (h0 : 0 ≤ r)
    (hr : r < 65536) :
    Close (makeVideoPortFramerate componentName r)
        (setVideoPortFormatType componentName .input (q16 r)) ↔
      r < 2 / 65536 ∨ 60001 / 65536 ≤ r := by
  rw [Close, toNat_makeVideoPortFramerate hname h0, setVideoPortFormatType_input hname,
    toNat_q16 hr]
  have hhigh := floor_le_iff h0 60000
  norm_num at hhigh
  by_cases h : 60000 < ⌊65536 * r⌋₊
  · obtain ⟨hle, hlt⟩ := floor_bounds h0
    rw [if_pos h, toNat_convertQ16FramerateToLegacyMillifps, toNat_q16 hr]
    refine iff_of_true ⟨millifps_le_add_one (by positivity) hlt, ?_⟩ (Or.inr ?_)
    · exact (millifps_mono hle).trans (Nat.le_succ _)
    · exact not_lt.1 fun hlow => absurd (hhigh.2 hlow) (not_le.2 h)
  · have hlow := hhigh.1 (not_lt.1 h)
    have hsmall := floor_le_iff h0 1
    norm_num at hsmall
    rw [if_neg h, toNat_q16 hr, millifps_close_floor_iff h0 (by linarith), hsmall]
    constructor
    · intro h2
      exact Or.inl (by linarith)
    · rintro (h2 | h2)
      · linarith
      · linarith

/-- Both ways stay within the cap, and what the second one sends is sent as it is the next
time. They give the same rate, up to one thousandth, unless the encoding is a number from 2
to 60000, which is taken for thousandths already. -/
theorem framerates_agree (hname : isLegacyImgMsvdxDecoder componentName) (h0 : 0 ≤ r)
    (hr : r < 65536) :
    (makeVideoPortFramerate componentName r).toNat ≤ 60000 ∧
      (setVideoPortFormatType componentName .input (q16 r)).toNat ≤ 60000 ∧
      setVideoPortFormatType componentName .input
          (setVideoPortFormatType componentName .input (q16 r)) =
        setVideoPortFormatType componentName .input (q16 r) ∧
      (Close (makeVideoPortFramerate componentName r)
          (setVideoPortFormatType componentName .input (q16 r)) ↔
        r < 2 / 65536 ∨ 60001 / 65536 ≤ r) ∧
      (r < 60001 / 65536 → setVideoPortFormatType componentName .input (q16 r) = q16 r) := by
  refine ⟨?_, toNat_setVideoPortFormatType_le hname, setVideoPortFormatType_idem hname,
    close_iff hname h0 hr, fun hlow => ?_⟩
  · rw [toNat_makeVideoPortFramerate hname h0]
    exact millifps_le r
  · have hhigh := floor_le_iff h0 60000
    norm_num at hhigh
    rw [setVideoPortFormatType_input hname, toNat_q16 hr, if_neg (not_lt.2 (hhigh.2 hlow))]

theorem framerates_agree_thirty :
    Close (makeVideoPortFramerate "OMX.IMG.MSVDX.Decoder.AVC" 30)
      (setVideoPortFormatType "OMX.IMG.MSVDX.Decoder.AVC" .input (q16 30)) :=
  (framerates_agree (by decide) (by norm_num) (by norm_num)).2.2.2.1.2 (by norm_num)

/-- Half a frame per second is 500 thousandths in one way, and 32768 in the other. -/
theorem not_close_half :
    ¬ Close (makeVideoPortFramerate "OMX.IMG.MSVDX.Decoder.AVC" (1 / 2))
      (setVideoPortFormatType "OMX.IMG.MSVDX.Decoder.AVC" .input (q16 (1 / 2))) := by
  rw [close_iff (by decide) (by norm_num) (by norm_num)]
  norm_num

end MozartLineage.Media
