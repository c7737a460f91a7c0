import MozartLineage.Camera.Session

/-!
# Serialization behind a legacy still capture

`unreleased` reads off a history which stills have been admitted and not been
released since, and which of them the HAL has accepted. As long as the errors
that the HAL reports for a still do release it, the session has such a still in
flight, and no request is handed over after one that the HAL has accepted.
-/

namespace MozartLineage.Camera

open Transition

/-- A legacy still request that has been admitted. -/
structure Still where
  frameNumber : ℕ
  blobStreams : List ℤ
  accepted : Bool
  deriving DecidableEq

/-- The HAL does not hold the buffer of `f` any more, or nobody waits for it: a
BLOB buffer of the frame is back, the request or the device has failed, or the
BLOB buffer has; or the session was flushed or closed, or a wait timed out. -/
def Event.releases (f : Still) : Event → Bool
  | .captureResult frameNumber blobReturned =>
      blobReturned ∧ frameNumber = f.frameNumber
  | .error frameNumber errorCode streamId _ =>
      frameNumber = f.frameNumber ∧ (errorCode = .device ∨ errorCode = .request ∨
        errorCode = .buffer ∧ streamId ∈ f.blobStreams)
  | .flushed => true
  | .closed => true
  | .timedOut => true
  | _ => false

/-- The stills that are unreleased after one more event. -/
def track (fs : List Still) : Event → List Still
  | .admitted frameNumber blobStreams => ⟨frameNumber, blobStreams, false⟩ :: fs
  | .accepted frameNumber => fs.map fun f =>
      if f.frameNumber = frameNumber then { f with accepted := true } else f
  | .failed frameNumber => fs.filter fun f => f.accepted ∨ f.frameNumber ≠ frameNumber
  | e => fs.filter fun f => !e.releases f

/-- The stills that have been admitted and, since then, neither been released
nor failed. -/
def unreleased (os : List Event) : List Still := os.foldl track []

/-- Every error that is reported for a still while it is unreleased releases
it, unless it names an unknown stream. -/
def ErrorsRelease (os : List Event) : Prop :=
  ∀ pre frameNumber errorCode streamId post,
    os = pre ++ .error frameNumber errorCode streamId true :: post →
      ∀ f ∈ unreleased pre, f.frameNumber = frameNumber →
        (Event.error frameNumber errorCode streamId true).releases f

@[simp] theorem unreleased_concat (os : List Event) (e : Event) :
    unreleased (os ++ [e]) = track (unreleased os) e := by
  simp [unreleased]

theorem ErrorsRelease.left {os o : List Event} (h : ErrorsRelease (os ++ o)) :
    ErrorsRelease os := by
  rintro pre frameNumber errorCode streamId post rfl
  exact h pre frameNumber errorCode streamId (post ++ o) (by simp)

/-- The request that has passed the wait, and whether it is a still. -/
def RequestThread.current : RequestThread → Option (CaptureRequest × Bool)
  | .admitted r still => some (r, still)
  | .imported r still => some (r, still)
  | .registered r still => some (r, still)
  | .calling r still => some (r, still)
  | .failing r still => some (r, still)
  | _ => none

/-- The session has the still `f` in flight. While the HAL has not accepted it,
the request thread is busy with it; afterwards no request has passed the wait. -/
structure Session.Holds (s : Session) (f : Still) : Prop where
  inFlight : s.legacyStillCaptureInFlight = true
  frame : s.legacyStillCaptureFrame = f.frameNumber
  thread : if f.accepted then s.requestThread.current = none
    else ∃ r, s.requestThread.current = some (r, true) ∧ r.frameNumber = f.frameNumber

namespace Session.Holds

variable {s t : Session} {f : Still}

theorem congr (h : s.Holds f)
    (hflag : t.legacyStillCaptureInFlight = s.legacyStillCaptureInFlight)
    (hframe : t.legacyStillCaptureFrame = s.legacyStillCaptureFrame)
    (hcurrent : t.requestThread.current = s.requestThread.current) : t.Holds f :=
  ⟨hflag.trans h.inFlight, hframe.trans h.frame, by rw [hcurrent]; exact h.thread⟩

theorem not_accepted (h : s.Holds f) {r : CaptureRequest × Bool}
    (hr : s.requestThread.current = some r) : f.accepted = false := by
  by_contra hf
  have hthread := h.thread
  simp [hf, hr] at hthread

theorem frameNumber_eq (h : s.Holds f) {r : CaptureRequest} {still : Bool}
    (hr : s.requestThread.current = some (r, still)) :
    r.frameNumber = f.frameNumber ∧ still = true := by
  have hthread := h.thread
  rw [h.not_accepted hr, hr] at hthread
  obtain ⟨r', hr', hframe⟩ : ∃ r', some (r, still) = some (r', true) ∧
    r'.frameNumber = f.frameNumber := by simpa using hthread
  cases hr'
  exact ⟨hframe, rfl⟩

end Session.Holds

/-- Every unreleased still is in flight. -/
def Session.Serializes (s : Session) (os : List Event) : Prop :=
  ∀ f ∈ unreleased os, s.Holds f

section Steps

variable {s t : Session} {os : List Event}

/-- A step without events that neither begins nor ends the work on a request. -/
theorem Session.Serializes.silent (h : s.Serializes os)
    (hflag : t.legacyStillCaptureInFlight = s.legacyStillCaptureInFlight)
    (hframe : t.legacyStillCaptureFrame = s.legacyStillCaptureFrame)
    (hcurrent : t.requestThread.current = s.requestThread.current) :
    t.Serializes (os ++ []) := by
  intro f hf
  rw [List.append_nil] at hf
  exact (h f hf).congr hflag hframe hcurrent

/-- Without a still in flight none is unreleased. -/
theorem Session.Serializes.eq_nil (h : s.Serializes os)
    (hflag : s.legacyStillCaptureInFlight = false) : unreleased os = [] := by
  refine List.eq_nil_iff_forall_not_mem.2 fun f hf => ?_
  have hin := (h f hf).inFlight
  simp [hflag] at hin

theorem serializes_of_eq_nil (h : unreleased os = []) : s.Serializes os := by
  simp [Session.Serializes, h]

/-- Events that neither admit, accept nor fail a request keep some of the
stills. -/
theorem mem_of_mem_track {fs : List Still} {e : Event} {f : Still}
    (he : track fs e = fs.filter fun f => !e.releases f) (hf : f ∈ track fs e) :
    f ∈ fs ∧ e.releases f = false := by
  rw [he] at hf
  simpa using hf

/-- Once no still is unreleased, a request may pass the wait. -/
theorem pass_serializes (h : unreleased os = []) (r : CaptureRequest) (intent : ℤ)
    (still : Bool) : (s.pass r intent still).1.Serializes
      (os ++ (s.pass r intent still).2) := by
  unfold Session.pass
  cases still with
  | false => simpa using serializes_of_eq_nil h
  | true =>
      intro f hf
      obtain rfl : f = ⟨r.frameNumber, s.blobStreams r, false⟩ := by
        simpa [track, h] using hf
      exact ⟨rfl, rfl, r, rfl, rfl⟩

theorem tryPass_serializes (hs : s.Serializes os)
    (hcurrent : s.requestThread.current = none) (r : CaptureRequest) (intent : ℤ)
    (still : Bool) : (s.tryPass r intent still).1.Serializes
      (os ++ (s.tryPass r intent still).2) := by
  unfold Session.tryPass
  split_ifs with hflag
  · exact hs.silent rfl rfl hcurrent.symm
  · exact pass_serializes (hs.eq_nil (by simpa using hflag)) r intent still

/-- A callback for a frame does not lose a still that it does not release. -/
theorem releaseFrame_holds {f : Still} (h : s.Holds f) {frameNumber : ℕ}
    (hne : f.frameNumber ≠ frameNumber) : (s.releaseFrame frameNumber).Holds f := by
  have hframe : s.legacyStillCaptureFrame ≠ frameNumber := h.frame ▸ hne
  simpa [Session.releaseFrame, hframe] using h

theorem registerStreams_events {succeeds : ℤ → Bool} {ids registered : List ℤ} :
    ∀ e ∈ (registerStreams s succeeds ids registered).2.2,
      ∃ streamId buffers, e = .streamRegistered streamId buffers := by
  induction ids generalizing registered with
  | nil => simp [registerStreams]
  | cons streamId ids ih =>
      unfold registerStreams
      split_ifs
      · exact ih
      · simp
      · intro e he
        rcases List.mem_cons.1 he with rfl | he
        · exact ⟨_, _, rfl⟩
        · exact ih e he
      · simp

theorem unreleased_registered {o : List Event}
    (ho : ∀ e ∈ o, ∃ streamId buffers, e = Event.streamRegistered streamId buffers) :
    unreleased (os ++ o) = unreleased os := by
  induction o generalizing os with
  | nil => simp
  | cons e o ih =>
      obtain ⟨streamId, buffers, rfl⟩ := ho e (by simp)
      have htrack : unreleased (os ++ [.streamRegistered streamId buffers]) =
          unreleased os := by simp [track, Event.releases]
      rw [List.append_cons, ih fun e he => ho e (by simp [he]), htrack]

theorem registerLegacyBuffers_events {d : Device} {r : CaptureRequest}
    {succeeds : ℤ → Bool} : ∀ e ∈ (registerLegacyBuffers d s r succeeds).2.2,
      ∃ streamId buffers, e = .streamRegistered streamId buffers := by
  unfold registerLegacyBuffers
  split_ifs
  · exact registerStreams_events
  · simp
  · simp

/-- An event that releases at most stills which are still in flight afterwards. -/
theorem Session.Serializes.filter {e : Event} (h : s.Serializes os)
    (he : track (unreleased os) e = (unreleased os).filter fun f => !e.releases f)
    (ht : ∀ f ∈ unreleased os, e.releases f = false → s.Holds f → t.Holds f) :
    t.Serializes (os ++ [e]) := by
  intro f hf
  rw [unreleased_concat] at hf
  obtain ⟨hmem, hrel⟩ := mem_of_mem_track he hf
  exact ht f hmem hrel (h f hmem)

theorem unreleased_release {e : Event}
    (he : track (unreleased os) e = (unreleased os).filter fun f => !e.releases f)
    (hall : ∀ f, e.releases f = true) : unreleased (os ++ [e]) = [] := by
  rw [unreleased_concat, he]
  simp [hall]

/-- An error that is reported for a still releases it. -/
theorem ErrorsRelease.of_mem {frameNumber : ℕ} {errorCode : ErrorCode} {streamId : ℤ}
    (h : ErrorsRelease (os ++ [.error frameNumber errorCode streamId true])) {f : Still}
    (hf : f ∈ unreleased os)
    (hrel : (Event.error frameNumber errorCode streamId true).releases f = false) :
    f.frameNumber ≠ frameNumber := by
  intro heq
  simpa [hrel] using h os frameNumber errorCode streamId [] rfl f hf heq

theorem step_serializes {d : Device} (hd : d.IsLegacy) {a : Action}
    {p : Session × List Event} (hs : s.Serializes os)
    (herr : ErrorsRelease (os ++ p.2)) (h : step d s a = some p) :
    p.1.Serializes (os ++ p.2) := by
  cases step_spec h with
  | enter hp => exact hs.silent rfl rfl (by rw [hp]; rfl)
  | readLegacy hp _ => exact hs.silent rfl rfl (by rw [hp]; rfl)
  | readCurrent hp hd' => exact absurd hd hd'
  | lock hp => exact tryPass_serializes hs (by rw [hp]; rfl) _ _ _
  | wake hp => exact tryPass_serializes hs (by rw [hp]; rfl) _ _ _
  | timeOut hp =>
      rw [List.append_cons]
      exact pass_serializes (unreleased_release rfl fun _ => rfl) _ _ _
  | refuse hp hr => exact hs.silent rfl rfl (by rw [hp]; rfl)
  | importBuffers hp hr => exact hs.silent rfl rfl (by rw [hp]; rfl)
  | register hp hr =>
      intro f hf
      rw [hr, unreleased_registered registerLegacyBuffers_events] at hf
      refine (hs f hf).congr rfl rfl ?_
      rw [hp]
      dsimp only
      split_ifs <;> rfl
  | hand hp =>
      exact hs.filter rfl fun f _ _ hf => hf.congr rfl rfl (by rw [hp]; rfl)
  | @accept r still hp =>
      intro f hf
      simp only [unreleased_concat, track, List.mem_map] at hf
      obtain ⟨g, hg, rfl⟩ := hf
      have hholds := hs g hg
      obtain ⟨hframe, -⟩ := hholds.frameNumber_eq (by rw [hp]; rfl)
      rw [if_pos hframe.symm]
      exact ⟨hholds.inFlight, hholds.frame, rfl⟩
  | reject hp => exact hs.silent rfl rfl (by rw [hp]; rfl)
  | @failStill r hp =>
      refine serializes_of_eq_nil (List.eq_nil_iff_forall_not_mem.2 fun f hf => ?_)
      simp only [unreleased_concat, track, List.mem_filter] at hf
      have hcurrent : s.requestThread.current = some (r, true) := by rw [hp]; rfl
      have hframe := ((hs f hf.1).frameNumber_eq hcurrent).1
      have hacc := (hs f hf.1).not_accepted hcurrent
      simp [hacc, hframe] at hf
  | @failOther r hp =>
      refine serializes_of_eq_nil (List.eq_nil_iff_forall_not_mem.2 fun f hf => ?_)
      simp only [unreleased_concat, track, List.mem_filter] at hf
      have hcurrent : s.requestThread.current = some (r, false) := by rw [hp]; rfl
      cases ((hs f hf.1).frameNumber_eq hcurrent).2
  | blob hd hb =>
      refine hs.filter rfl fun f _ hrel hf => releaseFrame_holds hf ?_
      exact fun heq => by simp [Event.releases, heq] at hrel
  | noBlob hb => exact hs.filter rfl fun f _ _ hf => hf
  | shutter => simpa using hs
  | error =>
      exact hs.filter rfl fun f hmem hrel hf =>
        releaseFrame_holds hf (herr.of_mem hmem hrel)
  | unknown => exact hs.filter rfl fun f _ _ hf => hf
  | flush => exact serializes_of_eq_nil (unreleased_release rfl fun _ => rfl)
  | close => exact serializes_of_eq_nil (unreleased_release rfl fun _ => rfl)
  | configure hp ht =>
      subst ht
      exact hs.filter rfl fun f _ _ hf => hf.congr rfl rfl rfl
  | configureFails hp => exact hs.silent rfl rfl rfl

theorem pass_events (r : CaptureRequest) (intent : ℤ) (still : Bool) :
    ∀ e ∈ (s.pass r intent still).2,
      ∃ frameNumber blobStreams, e = .admitted frameNumber blobStreams := by
  unfold Session.pass
  cases still <;> simp

theorem tryPass_events (r : CaptureRequest) (intent : ℤ) (still : Bool) :
    ∀ e ∈ (s.tryPass r intent still).2,
      ∃ frameNumber blobStreams, e = .admitted frameNumber blobStreams := by
  unfold Session.tryPass
  split_ifs
  · simp
  · exact pass_events r intent still

/-- A request is handed over by itself, after its streams have been registered. -/
theorem step_handed {d : Device} {a : Action} {p : Session × List Event}
    (h : step d s a = some p) {r : CaptureRequest} {settings : Option Settings}
    (hr : .handed r settings ∈ p.2) :
    p.2 = [.handed r settings] ∧ ∃ still, s.requestThread = .registered r still := by
  cases step_spec h with
  | hand hp =>
      obtain ⟨rfl, rfl⟩ : r = _ ∧ settings = _ := by simpa using hr
      exact ⟨rfl, _, hp⟩
  | lock hp => simpa using tryPass_events _ _ _ _ hr
  | wake hp => simpa using tryPass_events _ _ _ _ hr
  | timeOut hp =>
      have hr := (List.mem_cons.1 hr).resolve_left (by simp)
      simpa using pass_events _ _ _ _ hr
  | register hp hreg =>
      rw [hreg] at hr
      simpa using registerLegacyBuffers_events _ hr
  | _ => simp at hr

/-- In every run on a legacy device in which the errors that are reported for an
unreleased still release it: when a request is handed over, every still that the
HAL has accepted before has been released since it was admitted. -/
theorem handed_after_release {d : Device} (hd : d.IsLegacy) {as : List Action}
    {s : Session} {os : List Event} (hrun : (step d).run init as = some (s, os))
    (herr : ErrorsRelease os) :
    ∀ pre r settings post, os = pre ++ .handed r settings :: post →
      ∀ f ∈ unreleased pre, f.accepted = false := by
  intro pre r settings post hos
  have hQ := Machine.run_events
    (P := fun s os => ErrorsRelease os → s.Serializes os)
    (Q := fun pre e => ErrorsRelease pre → ∀ r settings, e = .handed r settings →
      ∀ f ∈ unreleased pre, f.accepted = false)
    (fun s os a p hs h herr => step_serializes hd (hs herr.left) herr h)
    (fun s os a p hs h o₁ e o₂ ho herr r settings he f hf => by
      subst he
      have hmem : .handed r settings ∈ p.2 := by simp [ho]
      obtain ⟨hone, still, hthread⟩ := step_handed h hmem
      obtain ⟨rfl, -⟩ : o₁ = [] ∧ o₂ = [] := by
        simpa [hone, List.append_eq_cons_iff] using ho.symm
      rw [List.append_nil] at hf herr
      exact (hs herr f hf).not_accepted (by rw [hthread]; rfl))
    (fun _ => serializes_of_eq_nil rfl) hrun
  refine hQ pre _ post hos ?_ r settings rfl
  exact ErrorsRelease.left (o := .handed r settings :: post) (hos ▸ herr)

end Steps

/-! ### Two runs -/

def legacyDevice : Device where
  deviceVersion := 0x300
  afAvailableModes := []
  hasRegisterStreamBuffers := true
  aeOverride _ := none

/-- A still with a buffer of stream `7`. -/
def stillRequest (frameNumber : ℕ) : CaptureRequest where
  frameNumber := frameNumber
  settings := some fun tag =>
    if tag = .controlCaptureIntent then some [controlCaptureIntentStillCapture] else none
  inputBuffer := ⟨-1, 0⟩
  outputBuffers := [⟨7, 1⟩]

/-- The next frame of a preview on stream `3`. -/
def previewRequest (frameNumber : ℕ) : CaptureRequest where
  frameNumber := frameNumber
  settings := none
  inputBuffer := ⟨-1, 0⟩
  outputBuffers := [⟨3, 1⟩]

/-- Stream `7` is a BLOB stream, the others are not. -/
def configureBlob : Action :=
  .configureStreams true
    (fun streamId => if streamId = 7 then some halPixelFormatBlob else some 0x22)
    fun _ => []

/-- A request that goes through without a wait. -/
def submit (r : CaptureRequest) : List Action :=
  [.processOneCaptureRequest r, .readIntent, .lockCapture,
    .importRequest (some fun _ => [1]), .registerLegacyBuffers fun _ => true,
    .processCaptureRequest, .halReturns true]

/-- The HAL reports an error of the kind `errorCode` for a still that it has
accepted, and a preview request follows. -/
def previewAfterError (errorCode : ErrorCode) : List Action :=
  configureBlob :: submit (stillRequest 1) ++
    .notify (.error 1 errorCode (-1)) true :: submit (previewRequest 2)

def previewAfterErrorEvents (errorCode : ErrorCode) : List Event :=
  [.configured, .admitted 1 [7], .streamRegistered 7 [1],
    .handed (stillRequest 1) (legacyDevice.halSettings (stillRequest 1) true),
    .accepted 1, .error 1 errorCode (-1) true, .streamRegistered 3 [1],
    .handed (previewRequest 2) none, .accepted 2]

theorem handed_after_request_error :
    ∃ s, (step legacyDevice).run init (previewAfterError .request) =
        some (s, previewAfterErrorEvents .request) ∧
      ∀ pre r settings post,
        previewAfterErrorEvents .request = pre ++ .handed r settings :: post →
          ∀ f ∈ unreleased pre, f.accepted = false := by
  have hrun : ((step legacyDevice).run init (previewAfterError .request)).map Prod.snd =
      some (previewAfterErrorEvents .request) := rfl
  obtain ⟨⟨s, os⟩, hrun, rfl⟩ := Option.map_eq_some_iff.1 hrun
  refine ⟨s, hrun, handed_after_release (by decide) hrun ?_⟩
  intro pre frameNumber errorCode streamId post hsplit f hf hframe
  have hmem : .error frameNumber errorCode streamId true ∈
      previewAfterErrorEvents .request := by simp [hsplit]
  obtain ⟨rfl, rfl, rfl⟩ : frameNumber = 1 ∧ errorCode = .request ∧ streamId = -1 := by
    simpa [previewAfterErrorEvents] using hmem
  simp [Event.releases, hframe]

/-- A lost result releases a still whose buffer the HAL has yet to fill. -/
theorem handed_after_result_error :
    ¬ ∀ (d : Device) (as : List Action) (s : Session) (os : List Event), d.IsLegacy →
      (step d).run init as = some (s, os) →
        ∀ pre r settings post, os = pre ++ .handed r settings :: post →
          ∀ f ∈ unreleased pre, f.accepted = false := by
  intro hall
  have hrun : ((step legacyDevice).run init (previewAfterError .result)).map Prod.snd =
      some (previewAfterErrorEvents .result) := rfl
  obtain ⟨⟨s, os⟩, hrun, hos⟩ := Option.map_eq_some_iff.1 hrun
  have hf := hall _ _ s os (by decide) hrun
    ((previewAfterErrorEvents .result).take 7) (previewRequest 2) none [.accepted 2] hos
    ⟨1, [7], true⟩ (by decide)
  cases hf

end MozartLineage.Camera
