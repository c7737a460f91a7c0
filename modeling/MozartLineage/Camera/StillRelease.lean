import MozartLineage.Camera.StillCapture

/-!
# The still in flight of an idle session

A request that comes while a still is in flight waits, so a still that is never
lowered again holds up every request for five seconds. What lowers it is a BLOB
buffer or an error of its frame, a flush, a close, a wait that times out, and each
way in which its own request fails.
-/

namespace MozartLineage.Camera

open Transition

/-- No still of that frame is in flight after the event. An error that names a stream
which does not exist is dropped before. -/
def Event.Lowers (frame : ℕ) : Event → Prop
  | .captureResult frameNumber blobReturned => blobReturned ∧ frameNumber = frame
  | .error frameNumber _ _ known => known ∧ frameNumber = frame
  | .flushed => True
  | .closed => True
  | .timedOut => True
  | _ => False

/-- The still of that frame has been admitted, and has not been lowered since. -/
def Raised (os : List Event) (frame : ℕ) (post : List Event) : Prop :=
  (∃ pre blobStreams, os = pre ++ .admitted frame blobStreams :: post) ∧
    ∀ e ∈ post, ¬ e.Lowers frame

theorem Raised.append {os post o : List Event} {frame : ℕ} (h : Raised os frame post)
    (ho : ∀ e ∈ o, ¬ e.Lowers frame) : Raised (os ++ o) frame (post ++ o) := by
  obtain ⟨⟨pre, blobStreams, rfl⟩, hpost⟩ := h
  refine ⟨⟨pre, blobStreams, by simp⟩, fun e he => ?_⟩
  exact (List.mem_append.1 he).elim (hpost e) (ho e)

/-- A still in flight has been raised; the request thread works on it, or the HAL has
accepted it. -/
def Session.InFlight (s : Session) (os : List Event) : Prop :=
  s.legacyStillCaptureInFlight → ∃ post, Raised os s.legacyStillCaptureFrame post ∧
    match s.requestThread.current with
    | some (r, still) => still ∧ r.frameNumber = s.legacyStillCaptureFrame
    | none => .accepted s.legacyStillCaptureFrame ∈ post

variable {d : Device} {s t : Session} {os o : List Event}

theorem inFlight_of_lowered (h : s.legacyStillCaptureInFlight = false) : s.InFlight os :=
  fun hflag => absurd hflag (by simp [h])

/-- A step that leaves the still in flight alone, and the work on it. -/
theorem Session.InFlight.congr (h : s.InFlight os)
    (ho : ∀ e ∈ o, ¬ e.Lowers s.legacyStillCaptureFrame)
    (hflag : t.legacyStillCaptureInFlight = s.legacyStillCaptureInFlight)
    (hframe : t.legacyStillCaptureFrame = s.legacyStillCaptureFrame)
    (hcurrent : t.requestThread.current = s.requestThread.current) :
    t.InFlight (os ++ o) := by
  intro hin
  rw [hflag] at hin
  obtain ⟨post, hraised, hthread⟩ := h hin
  rw [hframe, hcurrent]
  refine ⟨post ++ o, hraised.append ho, ?_⟩
  cases hc : s.requestThread.current with
  | none =>
      rw [hc] at hthread
      exact List.mem_append_left _ hthread
  | some c =>
      rw [hc] at hthread
      exact hthread

theorem pass_inFlight (hflag : s.legacyStillCaptureInFlight = false) (r : CaptureRequest)
    (intent : ℤ) (still : Bool) :
    (s.pass r intent still).1.InFlight (os ++ (s.pass r intent still).2) := by
  unfold Session.pass
  cases still with
  | false => exact inFlight_of_lowered hflag
  | true => exact fun _ => ⟨[], ⟨⟨os, _, rfl⟩, by simp⟩, rfl, rfl⟩

theorem tryPass_inFlight (h : s.InFlight os) (hcurrent : s.requestThread.current = none)
    (r : CaptureRequest) (intent : ℤ) (still : Bool) :
    (s.tryPass r intent still).1.InFlight (os ++ (s.tryPass r intent still).2) := by
  unfold Session.tryPass
  split_ifs with hflag
  · exact h.congr (by simp) rfl rfl hcurrent.symm
  · exact pass_inFlight (by simpa using hflag) r intent still

theorem releaseFrame_inFlight {e : Event} {frameNumber : ℕ} (h : s.InFlight os)
    (he : ∀ frame, e.Lowers frame → frameNumber = frame) :
    (s.releaseFrame frameNumber).InFlight (os ++ [e]) := by
  unfold Session.releaseFrame
  split_ifs with hframe
  · exact inFlight_of_lowered rfl
  · intro hin
    refine h.congr (fun e' he' hlowers => ?_) rfl rfl rfl hin
    obtain rfl : e' = e := by simpa using he'
    exact hframe ⟨hin, (he _ hlowers).symm⟩

theorem step_inFlight (hd : d.IsLegacy) {a : Action} {p : Session × List Event}
    (hs : s.InFlight os) (h : step d s a = some p) : p.1.InFlight (os ++ p.2) := by
  cases step_spec h with
  | enter hp | readLegacy hp | refuse hp | importBuffers hp | reject hp =>
      exact hs.congr (by simp) rfl rfl (by rw [hp]; rfl)
  | readCurrent hp hd' => exact absurd hd hd'
  | lock hp => exact tryPass_inFlight hs (by rw [hp]; rfl) _ _ _
  | wake hp => exact tryPass_inFlight hs (by rw [hp]; rfl) _ _ _
  | timeOut hp =>
      rw [List.append_cons]
      exact pass_inFlight rfl _ _ _
  | register hp hr =>
      refine hs.congr (fun e he => ?_) rfl rfl ?_
      · rw [hr] at he
        obtain ⟨streamId, buffers, rfl⟩ := registerLegacyBuffers_events e he
        exact not_false
      · rw [hp]
        dsimp only
        split_ifs <;> rfl
  | hand hp => exact hs.congr (by simp [Event.Lowers]) rfl rfl (by rw [hp]; rfl)
  | accept hp =>
      intro hin
      obtain ⟨post, hraised, hthread⟩ := hs hin
      rw [hp] at hthread
      obtain ⟨-, hframe⟩ := hthread
      refine ⟨_, hraised.append (o := [.accepted _]) (by simp [Event.Lowers]), ?_⟩
      exact List.mem_append_right _ (by simp [hframe])
  | failStill | flush | close => exact inFlight_of_lowered rfl
  | failOther hp =>
      refine inFlight_of_lowered (Bool.eq_false_iff.2 fun hin => ?_)
      obtain ⟨post, -, hthread⟩ := hs hin
      simp [hp, RequestThread.current] at hthread
  | blob => exact releaseFrame_inFlight hs fun _ hlowers => hlowers.2
  | noBlob hb =>
      exact hs.congr (by simp [Event.Lowers, hb hd]) rfl rfl rfl
  | error => exact releaseFrame_inFlight hs fun _ hlowers => hlowers.2
  | shutter | unknown | configureFails =>
      exact hs.congr (by simp [Event.Lowers]) rfl rfl rfl
  | configure hp ht =>
      subst ht
      exact hs.congr (by simp [Event.Lowers]) rfl rfl rfl

/-- In every run on a legacy device, when no request is being processed: a still in
flight has been accepted, and since it was admitted none of its BLOB buffers has come
back, no error was reported for it, and the session was neither flushed nor closed.
And a still whose request fails is not left in flight. -/
theorem run_inFlight (hd : d.IsLegacy) {as : List Action}
    (hrun : (step d).run init as = some (s, os)) :
    (s.requestThread = .idle → s.legacyStillCaptureInFlight →
      ∃ post, Raised os s.legacyStillCaptureFrame post ∧
        .accepted s.legacyStillCaptureFrame ∈ post) ∧
    ∀ r p, s.requestThread = .failing r true → step d s .fail = some p →
      p.1.legacyStillCaptureInFlight = false := by
  have hs : s.InFlight os := Machine.run_invariant (P := fun s os => s.InFlight os)
    (fun _ _ _ t o hs h => step_inFlight (p := (t, o)) hd hs h)
    (inFlight_of_lowered rfl) hrun
  refine ⟨fun hidle hin => ?_, fun r p hp h => ?_⟩
  · obtain ⟨post, hraised, hthread⟩ := hs hin
    rw [hidle] at hthread
    exact ⟨post, hraised, hthread⟩
  · simp only [step, hp, if_true] at h
    cases h
    rfl

/-! ### A still that waits for its buffer -/

def submitStill : List Action := configureBlob :: submit (stillRequest 1)

theorem run_submitStill :
    ∃ s, (step legacyDevice).run init submitStill =
        some (s, (previewAfterErrorEvents .request).take 5) ∧
      s.requestThread = .idle ∧ s.legacyStillCaptureInFlight ∧
        s.legacyStillCaptureFrame = 1 :=
  ⟨_, rfl, rfl, rfl, rfl⟩

theorem inFlight_submitStill :
    ∃ s os post, (step legacyDevice).run init submitStill = some (s, os) ∧
      Raised os 1 post ∧ .accepted 1 ∈ post := by
  obtain ⟨s, hrun, hidle, hin, hframe⟩ := run_submitStill
  obtain ⟨post, hraised, haccepted⟩ := (run_inFlight (by decide) hrun).1 hidle hin
  rw [hframe] at hraised haccepted
  exact ⟨s, _, post, hrun, hraised, haccepted⟩

/-- An error of its frame that names a stream which does not exist leaves the still in
flight. -/
theorem inFlight_after_unknown_error :
    ¬ ∀ (d : Device) (as : List Action) (s : Session) (os : List Event), d.IsLegacy →
      (step d).run init as = some (s, os) → s.requestThread = .idle →
        s.legacyStillCaptureInFlight →
          ∃ pre post, os = pre ++ .accepted s.legacyStillCaptureFrame :: post ∧
            ∀ errorCode streamId known,
              .error s.legacyStillCaptureFrame errorCode streamId known ∉ post := by
  intro hall
  obtain ⟨s, hrun, hidle, hin, hframe⟩ := run_submitStill
  have hnotify : (step legacyDevice).run s [.notify (.error 1 .buffer 99) false] =
      some (s, [.error 1 .buffer 99 false]) := rfl
  obtain ⟨pre, post, hsplit, hno⟩ := hall legacyDevice _ s _ (by decide)
    (Machine.run_append_eq_some.2 ⟨s, _, _, hrun, hnotify, rfl⟩) hidle hin
  rw [hframe] at hsplit hno
  have hlast : Event.error 1 .buffer 99 false ∈ post := by
    rcases List.eq_nil_or_concat post with rfl | ⟨post, e, rfl⟩
    · cases (List.append_singleton_inj.1 hsplit).2
    · rw [List.concat_eq_append, ← List.cons_append, ← List.append_assoc] at hsplit
      obtain rfl := (List.append_singleton_inj.1 hsplit).2
      simp
  exact hno _ _ _ hlast

end MozartLineage.Camera
