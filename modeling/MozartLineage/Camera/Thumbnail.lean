import MozartLineage.Camera.StillCapture
import MozartLineage.Transition.History

/-!
# The thumbnail of a still

The thumbnail worker of the vendor faults, so the session takes the thumbnail out of
the settings of a still. A request without settings is executed with the last ones
that the HAL was given, and these may come from a request that was no still.

`Asked` is what the framework has asked for so far, read off the actions alone. As
long as the HAL accepts every request, what is in force there agrees with it.
-/

namespace MozartLineage.Camera

open Transition

/-- The formats of the streams, the last capture intent that was specified, and
whether the last settings are those of a still, or have no thumbnail anyway. -/
structure Asked where
  formats : ℤ → Option ℤ
  intent : ℤ
  thumbnailOff : Bool

/-- The capture intent that a request specifies. -/
def CaptureRequest.intent (r : CaptureRequest) : Option ℤ :=
  match r.settings.bind fun settings => settings .controlCaptureIntent with
  | some [intent] => some intent
  | _ => none

namespace Asked

def init : Asked where
  formats _ := none
  intent := controlCaptureIntentPreview
  thumbnailOff := false

/-- The request has a BLOB output, and the intent in force is a still. -/
def IsStill (x : Asked) (r : CaptureRequest) : Prop :=
  (∃ buffer ∈ r.outputBuffers, x.formats buffer.streamId = some halPixelFormatBlob) ∧
    x.intent = controlCaptureIntentStillCapture

instance (x : Asked) (r : CaptureRequest) : Decidable (x.IsStill r) :=
  inferInstanceAs (Decidable (_ ∧ _))

def request (d : Device) (x : Asked) (r : CaptureRequest) : Asked :=
  let y : Asked := { x with intent := r.intent.getD x.intent }
  match r.settings with
  | none => y
  | some settings =>
      { y with thumbnailOff :=
          y.IsStill r ∨ (d.aeOverride settings).getD settings .jpegThumbnailSize = some [0, 0] }

def next (d : Device) (x : Asked) : Action → Asked
  | .processOneCaptureRequest r => x.request d r
  | .configureStreams _ streamMap _ => { x with formats := streamMap }
  | _ => x

end Asked

/-- What the framework has asked for so far. -/
def asked (d : Device) (as : List Action) : Asked := as.foldl (Asked.next d) .init

theorem asked_concat (d : Device) (as : List Action) (a : Action) :
    asked d (as ++ [a]) = (asked d as).next d a := by
  simp [asked]

/-- The settings that an event puts in force. -/
def Event.handedSettings : Event → Option Settings
  | .handed _ settings => settings
  | _ => none

/-- The settings in force in the HAL: the last ones that it was handed. -/
def inForce (os : List Event) : Settings :=
  latest Event.handedSettings (fun _ => none) os

/-- Every request that was handed over has been accepted. -/
def AllAccepted (os : List Event) : Prop := ∀ frameNumber, .failed frameNumber ∉ os

/-- The HAL makes no thumbnail if and only if `x` says so. -/
def Agree (os : List Event) (x : Asked) : Prop :=
  inForce os .jpegThumbnailSize = some [0, 0] ↔ x.thumbnailOff

/-- The work on a request that came after `x` was asked for, up to where the HAL is
given its settings. -/
structure Underway (d : Device) (as : List Action) (os : List Event) (x : Asked)
    (r : CaptureRequest) : Prop where
  eq : asked d as = x.request d r
  agree : Agree os x

/-- The session follows what it was asked for. -/
def Session.Follows (d : Device) (as : List Action) (s : Session) (os : List Event) : Prop :=
  s.streamMap = (asked d as).formats ∧
    match s.requestThread with
    | .idle => s.legacyLastCaptureIntent = (asked d as).intent ∧ Agree os (asked d as)
    | .entered r => ∃ x, Underway d as os x r ∧ s.legacyLastCaptureIntent = x.intent
    | .admitting r intent still | .waiting r intent still =>
        ∃ x, Underway d as os x r ∧ intent = (asked d as).intent ∧
          still = decide ((asked d as).IsStill r)
    | .admitted r still | .imported r still | .registered r still =>
        ∃ x, Underway d as os x r ∧ s.legacyLastCaptureIntent = (asked d as).intent ∧
          still = decide ((asked d as).IsStill r)
    | .calling r _ => (∃ x : Asked, asked d as = x.request d r) ∧
        s.legacyLastCaptureIntent = (asked d as).intent ∧ Agree os (asked d as)
    | .failing _ _ => True

variable {d : Device} {s t : Session} {as : List Action} {os o : List Event} {x : Asked}
  {r : CaptureRequest}

theorem formats_request : (x.request d r).formats = x.formats := by
  unfold Asked.request
  cases r.settings <;> rfl

theorem intent_request : (x.request d r).intent = r.intent.getD x.intent := by
  unfold Asked.request
  cases r.settings <;> rfl

theorem captureIntent_eq (s : Session) (r : CaptureRequest) :
    s.captureIntent r = r.intent.getD s.legacyLastCaptureIntent := by
  unfold Session.captureIntent CaptureRequest.intent
  generalize r.settings.bind (fun settings => settings .controlCaptureIntent) = entry
  match entry with
  | none | some [] | some [_] | some (_ :: _ :: _) => rfl

theorem isLegacyStillRequest_eq (hformats : s.streamMap = x.formats)
    (hintent : s.captureIntent r = x.intent) :
    s.isLegacyStillRequest r = decide (x.IsStill r) := by
  have hblob : s.blobStreams r ≠ [] ↔ ∃ buffer ∈ r.outputBuffers,
      x.formats buffer.streamId = some halPixelFormatBlob := by
    rw [Session.blobStreams, hformats, Ne, List.filter_eq_nil_iff]
    simp
  rw [Session.isLegacyStillRequest, hintent]
  exact decide_eq_decide.2 (and_congr_left fun _ => hblob)

theorem inForce_append (h : ∀ e ∈ o, e.handedSettings = none) :
    inForce (os ++ o) = inForce os :=
  latest_append_of_forall_eq_none h _ _

theorem Agree.append (h : Agree os x) (ho : ∀ e ∈ o, e.handedSettings = none) :
    Agree (os ++ o) x := by
  rwa [Agree, inForce_append ho]

theorem Underway.append (h : Underway d as os x r) {a : Action}
    (ha : asked d (as ++ [a]) = asked d as) (ho : ∀ e ∈ o, e.handedSettings = none) :
    Underway d (as ++ [a]) (os ++ o) x r :=
  ⟨ha.trans h.eq, h.agree.append ho⟩

/-- A still is handed over without a thumbnail, any other request with its own. -/
theorem halSettings_thumbnail {settings : Settings} (hr : r.settings = some settings)
    (still : Bool) :
    ∃ handed, d.halSettings r still = some handed ∧ handed .jpegThumbnailSize =
      if still then some [0, 0] else (d.aeOverride settings).getD settings .jpegThumbnailSize := by
  refine ⟨_, by rw [Device.halSettings, hr, Option.map_some], ?_⟩
  split_ifs <;> simp

theorem thumbnailOff_request {settings : Settings} (hr : r.settings = some settings) :
    (x.request d r).thumbnailOff ↔ (x.request d r).IsStill r ∨
      (d.aeOverride settings).getD settings .jpegThumbnailSize = some [0, 0] := by
  simp only [Asked.request, hr, Asked.IsStill]
  exact decide_eq_true_iff

/-- What the HAL is handed decides over its thumbnails from then on. -/
theorem Underway.hand (h : Underway d as os x r) {still : Bool}
    (hstill : still = decide ((asked d as).IsStill r)) :
    Agree (os ++ [.handed r (d.halSettings r still)]) (asked d as) := by
  have hforce : inForce (os ++ [.handed r (d.halSettings r still)]) =
      (d.halSettings r still).getD (inForce os) := by
    rw [inForce, latest_append]
    rfl
  rw [Agree, hforce, h.eq]
  cases hr : r.settings with
  | none =>
      have hnone : d.halSettings r still = none := by rw [Device.halSettings, hr, Option.map_none]
      rw [hnone, Option.getD_none]
      simp only [Asked.request, hr]
      exact h.agree
  | some settings =>
      obtain ⟨handed, hhanded, hthumbnail⟩ := halSettings_thumbnail (d := d) hr still
      rw [hhanded, Option.getD_some, hthumbnail, thumbnailOff_request hr, ← h.eq]
      by_cases hs : (asked d as).IsStill r
      · simp [hstill, hs]
      · simp [hstill, hs]

/-- A step that leaves alone what the request thread goes by. -/
theorem Session.Follows.congr (h : s.Follows d as os) {a : Action}
    (ha : asked d (as ++ [a]) = asked d as) (ho : ∀ e ∈ o, e.handedSettings = none)
    (hformats : t.streamMap = s.streamMap)
    (hintent : t.legacyLastCaptureIntent = s.legacyLastCaptureIntent)
    (hthread : t.requestThread = s.requestThread) : t.Follows d (as ++ [a]) (os ++ o) := by
  obtain ⟨hmap, h⟩ := h
  refine ⟨by rw [hformats, hmap, ha], ?_⟩
  rw [hthread, hintent, ha]
  cases hs : s.requestThread with
  | idle =>
      rw [hs] at h
      exact ⟨h.1, h.2.append ho⟩
  | calling =>
      rw [hs] at h
      exact ⟨h.1, h.2.1, h.2.2.append ho⟩
  | failing => trivial
  | _ =>
      rw [hs] at h
      obtain ⟨x, hx, hrest⟩ := h
      exact ⟨x, hx.append ha ho, hrest⟩

theorem pass_follows (hmap : s.streamMap = (asked d as).formats) {a : Action}
    (ha : asked d (as ++ [a]) = asked d as) (hx : Underway d as os x r) {intent : ℤ}
    {still : Bool} (hintent : intent = (asked d as).intent)
    (hstill : still = decide ((asked d as).IsStill r)) :
    (s.pass r intent still).1.Follows d (as ++ [a]) (os ++ (s.pass r intent still).2) := by
  have ho : ∀ e ∈ (s.pass r intent still).2, e.handedSettings = none := by
    intro e he
    obtain ⟨frameNumber, blobStreams, rfl⟩ := pass_events r intent still e he
    rfl
  have hx' := hx.append ha ho
  rw [← ha] at hmap hintent hstill
  unfold Session.pass at hx' ⊢
  split_ifs with h
  · exact ⟨hmap, x, by simpa [h] using hx', hintent, hstill⟩
  · exact ⟨hmap, x, by simpa [h] using hx', hintent, hstill⟩

theorem tryPass_follows (hmap : s.streamMap = (asked d as).formats) {a : Action}
    (ha : asked d (as ++ [a]) = asked d as) (hx : Underway d as os x r) {intent : ℤ}
    {still : Bool} (hintent : intent = (asked d as).intent)
    (hstill : still = decide ((asked d as).IsStill r)) :
    (s.tryPass r intent still).1.Follows d (as ++ [a])
      (os ++ (s.tryPass r intent still).2) := by
  unfold Session.tryPass
  split_ifs
  · have hx' := hx.append ha (o := []) (by simp)
    rw [← ha] at hmap hintent hstill
    exact ⟨hmap, x, hx', hintent, hstill⟩
  · exact pass_follows hmap ha hx hintent hstill

theorem releaseFrame_follows {a : Action} {e : Event} (hs : s.Follows d as os)
    (ha : asked d (as ++ [a]) = asked d as) (he : e.handedSettings = none) (frameNumber : ℕ) :
    (s.releaseFrame frameNumber).Follows d (as ++ [a]) (os ++ [e]) := by
  unfold Session.releaseFrame
  split_ifs
  · exact hs.congr ha (by simpa using he) rfl rfl rfl
  · exact hs.congr ha (by simpa using he) rfl rfl rfl

/-- A step of the request thread within the work on `r`. -/
theorem Underway.step (hx : Underway d as os x r) {a : Action} {p : Session × List Event}
    (hmap : p.1.streamMap = (asked d as).formats) (ha : asked d (as ++ [a]) = asked d as)
    (ho : ∀ e ∈ p.2, e.handedSettings = none) {still : Bool}
    (hintent : p.1.legacyLastCaptureIntent = (asked d as).intent)
    (hstill : still = decide ((asked d as).IsStill r))
    (hthread : p.1.requestThread = .imported r still ∨
      p.1.requestThread = .registered r still ∨ p.1.requestThread = .failing r still) :
    p.1.Follows d (as ++ [a]) (os ++ p.2) := by
  have hx' := hx.append ha ho
  rw [← ha] at hmap hintent hstill
  refine ⟨hmap, ?_⟩
  rcases hthread with hthread | hthread | hthread
  · rw [hthread]
    exact ⟨x, hx', hintent, hstill⟩
  · rw [hthread]
    exact ⟨x, hx', hintent, hstill⟩
  · rw [hthread]
    trivial

theorem step_follows (hd : d.IsLegacy) {a : Action} {p : Session × List Event}
    (hs : s.Follows d as os) (hacc : AllAccepted p.2) (h : step d s a = some p) :
    p.1.Follows d (as ++ [a]) (os ++ p.2) := by
  have hmap := hs.1
  have hwork := hs.2
  cases step_spec h with
  | @enter r hp =>
      rw [hp] at hwork
      have hasked := asked_concat d as (.processOneCaptureRequest r)
      refine ⟨?_, asked d as, ⟨hasked, ?_⟩, hwork.1⟩
      · rw [hasked, hmap]
        exact formats_request.symm
      · exact hwork.2.append (by simp)
  | @readLegacy r hp _ =>
      rw [hp] at hwork
      obtain ⟨x, hx, hlast⟩ := hwork
      have ha : asked d (as ++ [.readIntent]) = asked d as := asked_concat d as _
      have hintent : s.captureIntent r = (asked d as).intent := by
        rw [captureIntent_eq, hlast, hx.eq, intent_request]
      refine ⟨by rw [ha]; exact hmap, x, hx.append ha (by simp), ?_, ?_⟩
      · rw [ha]
        exact hintent
      · rw [ha]
        exact isLegacyStillRequest_eq hmap hintent
  | readCurrent hp hd' => exact absurd hd hd'
  | lock hp =>
      rw [hp] at hwork
      obtain ⟨x, hx, hintent, hstill⟩ := hwork
      exact tryPass_follows hmap (asked_concat d as _) hx hintent hstill
  | wake hp =>
      rw [hp] at hwork
      obtain ⟨x, hx, hintent, hstill⟩ := hwork
      exact tryPass_follows hmap (asked_concat d as _) hx hintent hstill
  | timeOut hp =>
      rw [hp] at hwork
      obtain ⟨x, hx, hintent, hstill⟩ := hwork
      have ha : asked d (as ++ [.wake true]) = asked d as := asked_concat d as _
      have hagree := hx.agree.append (o := [.timedOut]) (by simp [Event.handedSettings])
      have hpass := pass_follows (s := s.release) hmap ha ⟨hx.eq, hagree⟩ hintent hstill
      rwa [List.append_assoc] at hpass
  | refuse hp hr => exact ⟨by rw [asked_concat]; exact hmap, trivial⟩
  | importBuffers hp hr =>
      rw [hp] at hwork
      obtain ⟨x, hx, hintent, hstill⟩ := hwork
      exact hx.step hmap (asked_concat d as _) (by simp) hintent hstill (Or.inl rfl)
  | register hp hr =>
      rw [hp] at hwork
      obtain ⟨x, hx, hintent, hstill⟩ := hwork
      refine hx.step hmap (asked_concat d as _) (fun e he => ?_) hintent hstill (Or.inr ?_)
      · rw [hr] at he
        obtain ⟨streamId, buffers, rfl⟩ := registerLegacyBuffers_events e he
        rfl
      · dsimp only
        split_ifs
        · exact Or.inl rfl
        · exact Or.inr rfl
  | hand hp =>
      rw [hp] at hwork
      obtain ⟨x, hx, hintent, hstill⟩ := hwork
      have ha : asked d (as ++ [.processCaptureRequest]) = asked d as := asked_concat d as _
      have hagree := hx.hand hstill
      rw [← ha] at hmap hintent hagree
      exact ⟨hmap, ⟨x, ha.trans hx.eq⟩, hintent, hagree⟩
  | @accept r _ hp =>
      rw [hp] at hwork
      have ha : asked d (as ++ [.halReturns true]) = asked d as := asked_concat d as _
      obtain ⟨-, hintent, hagree⟩ := hwork
      have hagree := hagree.append (o := [.accepted r.frameNumber])
        (by simp [Event.handedSettings])
      rw [← ha] at hmap hintent hagree
      exact ⟨hmap, hintent, hagree⟩
  | reject hp => exact ⟨by rw [asked_concat]; exact hmap, trivial⟩
  | failStill hp => exact absurd (List.mem_singleton_self _) (hacc _)
  | failOther hp => exact absurd (List.mem_singleton_self _) (hacc _)
  | blob => exact releaseFrame_follows hs (asked_concat d as _) rfl _
  | error => exact releaseFrame_follows hs (asked_concat d as _) rfl _
  | noBlob | shutter | unknown | flush | close =>
      exact hs.congr (asked_concat d as _) (by simp [Event.handedSettings]) rfl rfl rfl
  | configure hp ht =>
      subst ht
      rw [hp] at hwork
      refine ⟨by rw [asked_concat]; rfl, ?_⟩
      rw [hp, asked_concat]
      exact ⟨hwork.1, hwork.2.append (by simp [Event.handedSettings])⟩
  | configureFails hp =>
      rw [hp] at hwork
      refine ⟨by rw [asked_concat]; rfl, ?_⟩
      rw [hp, asked_concat]
      exact ⟨hwork.1, hwork.2.append (by simp)⟩

/-- In every run on a legacy device in which the HAL accepts all requests: while it
executes a request, a still is made without a thumbnail if and only if the request has
settings, or the last settings before are those of a still or have no thumbnail. -/
theorem run_thumbnail_iff (hd : d.IsLegacy)
    (hrun : (step d).run init as = some (s, os)) (hacc : AllAccepted os) {still : Bool}
    (hcalling : s.requestThread = .calling r still) :
    ((asked d as).IsStill r → inForce os .jpegThumbnailSize = some [0, 0]) ↔
      ((asked d as).IsStill r → r.settings = none → (asked d as).thumbnailOff) := by
  have hinit : init.Follows d [] [] :=
    ⟨rfl, rfl, by simp [Agree, inForce, asked, Asked.init]⟩
  have hs : AllAccepted os → s.Follows d as os := by
    refine Machine.run_induction (P := fun as s os => AllAccepted os → s.Follows d as os)
      (fun _ => hinit) ?_ hrun
    intro as u os a v o ih h hacc
    refine step_follows (p := (v, o)) hd (ih fun n hn => ?_) (fun n hn => ?_) h
    · exact hacc n (List.mem_append_left o hn)
    · exact hacc n (List.mem_append_right os hn)
  have hwork := (hs hacc).2
  rw [hcalling] at hwork
  obtain ⟨⟨x, hx⟩, -, hagree⟩ := hwork
  rw [Agree] at hagree
  rw [hagree]
  refine forall_congr' fun hstill => ⟨fun h _ => h, fun h => ?_⟩
  cases hr : r.settings with
  | none => exact h hr
  | some settings =>
      rw [hx] at hstill ⊢
      exact (thumbnailOff_request hr).2 (Or.inl hstill)

/-! ### Two shots with one set of settings -/

/-- The settings of a still with a thumbnail. -/
def stillSettings : Settings
  | .controlCaptureIntent => some [controlCaptureIntentStillCapture]
  | .jpegThumbnailSize => some [320, 240]
  | _ => none

/-- A request with a buffer of stream `streamId`. -/
def shot (frameNumber : ℕ) (settings : Option Settings) (streamId : ℤ) : CaptureRequest where
  frameNumber := frameNumber
  settings := settings
  inputBuffer := ⟨-1, 0⟩
  outputBuffers := [⟨streamId, 1⟩]

/-- The first shot goes to stream `streamId` and brings the settings with it; the second
one is a still without settings, and the HAL is busy with it. -/
def twoShots (streamId : ℤ) : List Action :=
  configureBlob :: submit (shot 1 (some stillSettings) streamId) ++
    .processCaptureResult 1 [some (if streamId = 7 then halPixelFormatBlob else 0x22)] ::
      (submit (shot 2 none 7)).dropLast

theorem thumbnail_twoShots :
    ∃ s os, (step legacyDevice).run init (twoShots 7) = some (s, os) ∧
      s.requestThread = .calling (shot 2 none 7) true ∧
        inForce os .jpegThumbnailSize = some [0, 0] := by
  have hrun : ∃ s, (step legacyDevice).run init (twoShots 7) = some (s,
      [.configured, .admitted 1 [7], .streamRegistered 7 [1],
        .handed (shot 1 (some stillSettings) 7)
          (legacyDevice.halSettings (shot 1 (some stillSettings) 7) true),
        .accepted 1, .captureResult 1 true, .admitted 2 [7], .handed (shot 2 none 7) none]) ∧
      s.requestThread = .calling (shot 2 none 7) true := ⟨_, rfl, rfl⟩
  obtain ⟨s, hrun, hcalling⟩ := hrun
  have hthumbnail := (run_thumbnail_iff (by decide) hrun (by simp [AllAccepted]) hcalling).2
  exact ⟨s, _, hrun, hcalling, hthumbnail (fun _ _ => by decide) (by decide)⟩

/-- After a preview frame with the settings of a still, the still is made with the
thumbnail of that frame. -/
theorem not_thumbnail_twoShots :
    ¬ ∀ (d : Device) (as : List Action) (s : Session) (os : List Event) (r : CaptureRequest)
      (still : Bool), d.IsLegacy → (step d).run init as = some (s, os) → AllAccepted os →
        s.requestThread = .calling r still → (asked d as).IsStill r →
          inForce os .jpegThumbnailSize = some [0, 0] := by
  intro hall
  have hrun : ∃ s, (step legacyDevice).run init (twoShots 3) = some (s,
      [.configured, .streamRegistered 3 [1],
        .handed (shot 1 (some stillSettings) 3)
          (legacyDevice.halSettings (shot 1 (some stillSettings) 3) false),
        .accepted 1, .captureResult 1 false, .admitted 2 [7], .streamRegistered 7 [1],
        .handed (shot 2 none 7) none]) ∧
      s.requestThread = .calling (shot 2 none 7) true := ⟨_, rfl, rfl⟩
  obtain ⟨s, hrun, hcalling⟩ := hrun
  have hthumbnail := hall _ _ s _ _ _ (by decide) hrun (by simp [AllAccepted]) hcalling
    (by decide)
  exact absurd hthumbnail (by decide)

end MozartLineage.Camera
