import MozartLineage.Transition.Run
import Mathlib.Data.Int.Notation
import Mathlib.Data.List.Sort

/-!
# The camera session over a legacy HAL

`processOneCaptureRequest` runs in one request thread; the result and notify
callbacks, `flush` and `close` run in other threads. A step is a section of the
request thread under `mLegacyCaptureLock`, or what it does from one call out of
the session to the next; or it is a whole callback, of which only the section
under the lock touches what is shared.

What importing the buffers of a request, configuring streams and cancelling the
precapture trigger do is not part of the session's own code: the first two may
leave any maps behind, and the third one is a field of the device.
-/

namespace MozartLineage.Camera

open Transition

/-- The metadata tags that the session reads or writes, and the others. -/
inductive Tag where
  | controlCaptureIntent
  | controlAfMode
  | controlAfTrigger
  | jpegThumbnailSize
  | other (tag : ℕ)
  deriving DecidableEq

abbrev Settings := Tag → Option (List ℤ)

def controlCaptureIntentPreview : ℤ := 1

def controlCaptureIntentStillCapture : ℤ := 2

def controlAfModeOff : ℤ := 0

def controlAfTriggerIdle : ℤ := 0

def halPixelFormatBlob : ℤ := 0x21

def cameraDeviceApiVersion31 : ℕ := 0x301

structure StreamBuffer where
  streamId : ℤ
  bufferId : ℕ
  deriving DecidableEq

/-- `settings` is `none` where the settings of the request before are kept. -/
structure CaptureRequest where
  frameNumber : ℕ
  settings : Option Settings
  inputBuffer : StreamBuffer
  outputBuffers : List StreamBuffer

/-- What does not change during a session. `aeOverride` gives the settings to use
when the precapture trigger has to be cancelled. -/
structure Device where
  deviceVersion : ℕ
  afAvailableModes : List ℤ
  hasRegisterStreamBuffers : Bool
  aeOverride : Settings → Option Settings

/-- Where the request thread stands. `still` is `legacyStillRequest`. -/
inductive RequestThread where
  | idle
  /-- before the last capture intent is read -/
  | entered (r : CaptureRequest)
  /-- before the section that waits for a still in flight -/
  | admitting (r : CaptureRequest) (captureIntent : ℤ) (still : Bool)
  /-- in the wait -/
  | waiting (r : CaptureRequest) (captureIntent : ℤ) (still : Bool)
  /-- after that section -/
  | admitted (r : CaptureRequest) (still : Bool)
  | imported (r : CaptureRequest) (still : Bool)
  | registered (r : CaptureRequest) (still : Bool)
  /-- in `process_capture_request` -/
  | calling (r : CaptureRequest) (still : Bool)
  /-- on the way out with an error -/
  | failing (r : CaptureRequest) (still : Bool)

/-- `streamMap` gives the formats of the streams; a stream without circulating
buffers has an empty list of them. -/
structure Session where
  streamMap : ℤ → Option ℤ
  circulatingBuffers : ℤ → List ℕ
  legacyRegisteredStreams : List ℤ
  legacyStillCaptureInFlight : Bool
  legacyStillCaptureFrame : ℕ
  legacyLastCaptureIntent : ℤ
  requestThread : RequestThread

inductive ErrorCode where
  | device
  | request
  | result
  | buffer
  deriving DecidableEq

/-- The messages of the HAL. `streamId` is `-1` where no stream is named. -/
inductive NotifyMsg where
  | shutter (frameNumber : ℕ)
  | error (frameNumber : ℕ) (errorCode : ErrorCode) (streamId : ℤ)

inductive Action where
  | processOneCaptureRequest (r : CaptureRequest)
  | readIntent
  | lockCapture
  /-- the wait ends, after five seconds or for any other reason -/
  | wake (timedOut : Bool)
  /-- the import of the buffers leaves these circulating buffers, or fails -/
  | importRequest (buffers : Option (ℤ → List ℕ))
  /-- the streams for which `register_stream_buffers` succeeds -/
  | registerLegacyBuffers (succeeds : ℤ → Bool)
  | processCaptureRequest
  | halReturns (ok : Bool)
  | fail
  /-- a capture result with the formats of its output buffers, `none` for a
  buffer without a stream -/
  | processCaptureResult (frameNumber : ℕ) (outputBuffers : List (Option ℤ))
  /-- a message; one that is not `known` names a stream that does not exist -/
  | notify (msg : NotifyMsg) (known : Bool)
  | flush
  | close
  /-- the configuration of streams leaves these maps, and has worked or not -/
  | configureStreams (ok : Bool) (streamMap : ℤ → Option ℤ)
      (buffers : ℤ → List ℕ)

inductive Event where
  /-- a legacy still request has passed the wait, with these BLOB streams -/
  | admitted (frameNumber : ℕ) (blobStreams : List ℤ)
  | streamRegistered (streamId : ℤ) (buffers : List ℕ)
  /-- a request is handed to the HAL, with the settings that go with it -/
  | handed (r : CaptureRequest) (settings : Option Settings)
  | accepted (frameNumber : ℕ)
  /-- `processOneCaptureRequest` returns an error after the wait -/
  | failed (frameNumber : ℕ)
  | captureResult (frameNumber : ℕ) (blobReturned : Bool)
  | error (frameNumber : ℕ) (errorCode : ErrorCode) (streamId : ℤ) (known : Bool)
  | flushed
  | closed
  | timedOut
  | configured

namespace Device

def IsLegacy (d : Device) : Prop := d.deviceVersion ≤ cameraDeviceApiVersion31

instance (d : Device) : Decidable d.IsLegacy := inferInstanceAs (Decidable (_ ≤ _))

def legacyFixedFocus (d : Device) : Bool :=
  d.IsLegacy ∧ d.afAvailableModes = [controlAfModeOff]

/-- The settings that a request is handed over with. -/
def halSettings (d : Device) (r : CaptureRequest) (still : Bool) : Option Settings :=
  r.settings.map fun settings =>
    let settings := (d.aeOverride settings).getD settings
    let settings :=
      if d.legacyFixedFocus then
        Function.update (Function.update settings .controlAfMode
          (some [controlAfModeOff])) .controlAfTrigger (some [controlAfTriggerIdle])
      else settings
    if still then Function.update settings .jpegThumbnailSize (some [0, 0])
    else settings

end Device

namespace Session

/-- The last intent, unless the settings of the request name one. -/
def captureIntent (s : Session) (r : CaptureRequest) : ℤ :=
  match r.settings.bind fun settings => settings .controlCaptureIntent with
  | some [intent] => intent
  | _ => s.legacyLastCaptureIntent

/-- The BLOB streams among the outputs of a request. -/
def blobStreams (s : Session) (r : CaptureRequest) : List ℤ :=
  (r.outputBuffers.map StreamBuffer.streamId).filter fun streamId =>
    s.streamMap streamId = some halPixelFormatBlob

/-- Serialize only the request which actually carries a JPEG buffer. -/
def isLegacyStillRequest (s : Session) (r : CaptureRequest) : Bool :=
  s.blobStreams r ≠ [] ∧ s.captureIntent r = controlCaptureIntentStillCapture

/-- The rest of the section when no still is in flight any more. -/
def pass (s : Session) (r : CaptureRequest) (captureIntent : ℤ) (still : Bool) :
    Session × List Event :=
  if still then
    ({ s with
        legacyLastCaptureIntent := captureIntent
        legacyStillCaptureInFlight := true
        legacyStillCaptureFrame := r.frameNumber
        requestThread := .admitted r still },
      [.admitted r.frameNumber (s.blobStreams r)])
  else
    ({ s with
        legacyLastCaptureIntent := captureIntent
        requestThread := .admitted r still }, [])

/-- The condition of the wait. -/
def tryPass (s : Session) (r : CaptureRequest) (captureIntent : ℤ) (still : Bool) :
    Session × List Event :=
  if s.legacyStillCaptureInFlight then
    ({ s with requestThread := .waiting r captureIntent still }, [])
  else s.pass r captureIntent still

/-- No still is in flight from here on. -/
def release (s : Session) : Session :=
  { s with legacyStillCaptureInFlight := false }

/-- The callbacks release the still in flight if it has the frame number. -/
def releaseFrame (s : Session) (frameNumber : ℕ) : Session :=
  if s.legacyStillCaptureInFlight ∧ s.legacyStillCaptureFrame = frameNumber then
    s.release
  else s

end Session

/-- The streams of the buffers of a request, in order. -/
def requestStreamIds (r : CaptureRequest) : List ℤ :=
  let outputs := r.outputBuffers.map StreamBuffer.streamId
  let ids :=
    if r.inputBuffer.streamId ≠ -1 ∧ r.inputBuffer.bufferId ≠ 0 then
      r.inputBuffer.streamId :: outputs
    else outputs
  ids.dedup.insertionSort (· ≤ ·)

/-- The loop of `registerLegacyBuffers`: whether it has succeeded, the streams
that are registered after it, and what it has registered. -/
def registerStreams (s : Session) (succeeds : ℤ → Bool) :
    List ℤ → List ℤ → Bool × List ℤ × List Event
  | [], registered => (true, registered, [])
  | streamId :: ids, registered =>
      if streamId ∈ registered then registerStreams s succeeds ids registered
      else if s.streamMap streamId = none ∨ s.circulatingBuffers streamId = [] then
        (false, registered, [])
      else if succeeds streamId then
        let rest := registerStreams s succeeds ids (streamId :: registered)
        (rest.1, rest.2.1,
          .streamRegistered streamId (s.circulatingBuffers streamId) :: rest.2.2)
      else (false, registered, [])

def registerLegacyBuffers (d : Device) (s : Session) (r : CaptureRequest)
    (succeeds : ℤ → Bool) : Bool × List ℤ × List Event :=
  if ¬ d.IsLegacy then (true, s.legacyRegisteredStreams, [])
  else if ¬ d.hasRegisterStreamBuffers then (false, s.legacyRegisteredStreams, [])
  else registerStreams s succeeds (requestStreamIds r) s.legacyRegisteredStreams

/-- One step of the session on the device `d`. -/
def step (d : Device) : Machine Session Action Event
  | s, .processOneCaptureRequest r =>
      match s.requestThread with
      | .idle => some ({ s with requestThread := .entered r }, [])
      | _ => none
  | s, .readIntent =>
      match s.requestThread with
      | .entered r =>
          some ({ s with
            requestThread :=
              if d.IsLegacy then
                .admitting r (s.captureIntent r) (s.isLegacyStillRequest r)
              else .admitted r false }, [])
      | _ => none
  | s, .lockCapture =>
      match s.requestThread with
      | .admitting r captureIntent still => some (s.tryPass r captureIntent still)
      | _ => none
  | s, .wake timedOut =>
      match s.requestThread with
      | .waiting r captureIntent still =>
          if timedOut then
            let passed := s.release.pass r captureIntent still
            some (passed.1, .timedOut :: passed.2)
          else some (s.tryPass r captureIntent still)
      | _ => none
  | s, .importRequest buffers =>
      match s.requestThread with
      | .admitted r still =>
          if r.outputBuffers = [] then
            some ({ s with requestThread := .failing r still }, [])
          else
            match buffers with
            | none => some ({ s with requestThread := .failing r still }, [])
            | some buffers =>
                some ({ s with
                  circulatingBuffers := buffers
                  requestThread := .imported r still }, [])
      | _ => none
  | s, .registerLegacyBuffers succeeds =>
      match s.requestThread with
      | .imported r still =>
          let result := registerLegacyBuffers d s r succeeds
          some ({ s with
            legacyRegisteredStreams := result.2.1
            requestThread :=
              if result.1 then .registered r still else .failing r still }, result.2.2)
      | _ => none
  | s, .processCaptureRequest =>
      match s.requestThread with
      | .registered r still =>
          some ({ s with requestThread := .calling r still },
            [.handed r (d.halSettings r still)])
      | _ => none
  | s, .halReturns ok =>
      match s.requestThread with
      | .calling r still =>
          if ok then some ({ s with requestThread := .idle }, [.accepted r.frameNumber])
          else some ({ s with requestThread := .failing r still }, [])
      | _ => none
  | s, .fail =>
      match s.requestThread with
      | .failing r still =>
          let s := if still then s.release else s
          some ({ s with requestThread := .idle }, [.failed r.frameNumber])
      | _ => none
  | s, .processCaptureResult frameNumber outputBuffers =>
      let blobReturned := some halPixelFormatBlob ∈ outputBuffers
      some (if d.IsLegacy ∧ blobReturned then s.releaseFrame frameNumber else s,
        [.captureResult frameNumber blobReturned])
  | s, .notify (.shutter _) _ => some (s, [])
  | s, .notify (.error frameNumber errorCode streamId) known =>
      some (if known then s.releaseFrame frameNumber else s,
        [.error frameNumber errorCode streamId known])
  | s, .flush => some (s.release, [.flushed])
  | s, .close => some (s.release, [.closed])
  | s, .configureStreams ok streamMap buffers =>
      match s.requestThread with
      | .idle =>
          let s := { s with streamMap := streamMap, circulatingBuffers := buffers }
          if ok then
            some (if d.IsLegacy then { s with legacyRegisteredStreams := [] } else s,
              [.configured])
          else some (s, [])
      | _ => none

/-- Everything that a step can be. -/
inductive Step (d : Device) (s : Session) : Action → Session × List Event → Prop where
  | enter {r} (hp : s.requestThread = .idle) :
      Step d s (.processOneCaptureRequest r)
        ({ s with requestThread := .entered r }, [])
  | readLegacy {r} (hp : s.requestThread = .entered r) (hd : d.IsLegacy) :
      Step d s .readIntent
        ({ s with
            requestThread :=
              .admitting r (s.captureIntent r) (s.isLegacyStillRequest r) }, [])
  | readCurrent {r} (hp : s.requestThread = .entered r) (hd : ¬ d.IsLegacy) :
      Step d s .readIntent ({ s with requestThread := .admitted r false }, [])
  | lock {r intent still} (hp : s.requestThread = .admitting r intent still) :
      Step d s .lockCapture (s.tryPass r intent still)
  | wake {r intent still} (hp : s.requestThread = .waiting r intent still) :
      Step d s (.wake false) (s.tryPass r intent still)
  | timeOut {r intent still} (hp : s.requestThread = .waiting r intent still) :
      Step d s (.wake true) ((s.release.pass r intent still).1,
        .timedOut :: (s.release.pass r intent still).2)
  | refuse {r still buffers} (hp : s.requestThread = .admitted r still)
      (hr : r.outputBuffers = [] ∨ buffers = none) :
      Step d s (.importRequest buffers)
        ({ s with requestThread := .failing r still }, [])
  | importBuffers {r still buffers} (hp : s.requestThread = .admitted r still)
      (hr : r.outputBuffers ≠ []) :
      Step d s (.importRequest (some buffers))
        ({ s with circulatingBuffers := buffers, requestThread := .imported r still }, [])
  | register {r still succeeds result} (hp : s.requestThread = .imported r still)
      (hr : result = registerLegacyBuffers d s r succeeds) :
      Step d s (.registerLegacyBuffers succeeds)
        ({ s with
            legacyRegisteredStreams := result.2.1
            requestThread :=
              if result.1 then .registered r still else .failing r still }, result.2.2)
  | hand {r still} (hp : s.requestThread = .registered r still) :
      Step d s .processCaptureRequest
        ({ s with requestThread := .calling r still },
          [.handed r (d.halSettings r still)])
  | accept {r still} (hp : s.requestThread = .calling r still) :
      Step d s (.halReturns true)
        ({ s with requestThread := .idle }, [.accepted r.frameNumber])
  | reject {r still} (hp : s.requestThread = .calling r still) :
      Step d s (.halReturns false) ({ s with requestThread := .failing r still }, [])
  | failStill {r} (hp : s.requestThread = .failing r true) :
      Step d s .fail ({ s.release with requestThread := .idle }, [.failed r.frameNumber])
  | failOther {r} (hp : s.requestThread = .failing r false) :
      Step d s .fail ({ s with requestThread := .idle }, [.failed r.frameNumber])
  | blob {frameNumber buffers} (hd : d.IsLegacy)
      (hb : some halPixelFormatBlob ∈ buffers) :
      Step d s (.processCaptureResult frameNumber buffers)
        (s.releaseFrame frameNumber, [.captureResult frameNumber true])
  | noBlob {frameNumber buffers b} (hb : d.IsLegacy → b = false) :
      Step d s (.processCaptureResult frameNumber buffers)
        (s, [.captureResult frameNumber b])
  | shutter {frameNumber known} : Step d s (.notify (.shutter frameNumber) known) (s, [])
  | error {frameNumber errorCode streamId} :
      Step d s (.notify (.error frameNumber errorCode streamId) true)
        (s.releaseFrame frameNumber, [.error frameNumber errorCode streamId true])
  | unknown {frameNumber errorCode streamId} :
      Step d s (.notify (.error frameNumber errorCode streamId) false)
        (s, [.error frameNumber errorCode streamId false])
  | flush : Step d s .flush (s.release, [.flushed])
  | close : Step d s .close (s.release, [.closed])
  | configure {streamMap buffers} {t : Session} (hp : s.requestThread = .idle)
      (ht : t = { s with
        streamMap := streamMap
        circulatingBuffers := buffers
        legacyRegisteredStreams :=
          if d.IsLegacy then [] else s.legacyRegisteredStreams }) :
      Step d s (.configureStreams true streamMap buffers) (t, [.configured])
  | configureFails {streamMap buffers} (hp : s.requestThread = .idle) :
      Step d s (.configureStreams false streamMap buffers)
        ({ s with streamMap := streamMap, circulatingBuffers := buffers }, [])

theorem step_spec {d : Device} {s : Session} {a : Action} {o : Session × List Event}
    (h : step d s a = some o) : Step d s a o := by
  cases a with
  | processOneCaptureRequest r =>
      simp only [step] at h
      split at h <;> cases h
      exact .enter ‹_›
  | readIntent =>
      simp only [step] at h
      split at h <;> cases h
      by_cases hd : d.IsLegacy
      · simpa [hd] using Step.readLegacy ‹_› hd
      · simpa [hd] using Step.readCurrent ‹_› hd
  | lockCapture =>
      simp only [step] at h
      split at h <;> cases h
      exact .lock ‹_›
  | wake timedOut =>
      simp only [step] at h
      split at h
      · cases timedOut <;> cases h
        · exact .wake ‹_›
        · exact .timeOut ‹_›
      · cases h
  | importRequest buffers =>
      simp only [step] at h
      split at h
      · split at h
        · cases h
          exact .refuse ‹_› (Or.inl ‹_›)
        · cases buffers <;> cases h
          · exact .refuse ‹_› (Or.inr rfl)
          · exact .importBuffers ‹_› ‹_›
      · cases h
  | registerLegacyBuffers succeeds =>
      simp only [step] at h
      split at h <;> cases h
      exact .register ‹_› rfl
  | processCaptureRequest =>
      simp only [step] at h
      split at h <;> cases h
      exact .hand ‹_›
  | halReturns ok =>
      simp only [step] at h
      split at h
      · cases ok <;> cases h
        · exact .reject ‹_›
        · exact .accept ‹_›
      · cases h
  | fail =>
      simp only [step] at h
      split at h
      · next still hp =>
        cases still <;> cases h
        · exact .failOther hp
        · exact .failStill hp
      · cases h
  | processCaptureResult frameNumber outputBuffers =>
      simp only [step] at h
      cases h
      by_cases hd : d.IsLegacy ∧ some halPixelFormatBlob ∈ outputBuffers
      · simpa [hd] using Step.blob hd.1 hd.2
      · simpa [hd] using Step.noBlob fun h => by simpa [h] using hd
  | notify msg known =>
      cases msg with
      | shutter frameNumber =>
          cases h
          exact .shutter
      | error frameNumber errorCode streamId =>
          cases known <;> cases h
          · exact .unknown
          · exact .error
  | flush =>
      cases h
      exact .flush
  | close =>
      cases h
      exact .close
  | configureStreams ok streamMap buffers =>
      simp only [step] at h
      split at h
      · cases ok <;> cases h
        · exact .configureFails ‹_›
        · refine .configure ‹_› ?_
          split_ifs <;> rfl
      · cases h

/-- A session before its first request. -/
def init : Session where
  streamMap _ := none
  circulatingBuffers _ := []
  legacyRegisteredStreams := []
  legacyStillCaptureInFlight := false
  legacyStillCaptureFrame := 0
  legacyLastCaptureIntent := controlCaptureIntentPreview
  requestThread := .idle

end MozartLineage.Camera
