import MozartLineage.Camera.StillCapture
import Mathlib.Data.List.Dedup

/-!
# Registration of legacy streams

A legacy HAL has to be told the buffers of a stream before it is given a request
with it, and once. `registrations` reads off a history what has been registered
since the streams were configured last; the session remembers the same streams,
and registers those of a request before it hands the request over.
-/

namespace MozartLineage.Camera

open Transition

/-- The streams that are registered after one more event, with their buffers. -/
def register (rs : List (ℤ × List ℕ)) : Event → List (ℤ × List ℕ)
  | .streamRegistered streamId buffers => (streamId, buffers) :: rs
  | .configured => []
  | _ => rs

/-- What has been registered since the streams were configured last. -/
def registrations (os : List Event) : List (ℤ × List ℕ) := os.foldl register []

/-- The stream has been registered since, with some buffers. -/
def IsRegistered (os : List Event) (streamId : ℤ) : Prop :=
  ∃ buffers, buffers ≠ [] ∧ (streamId, buffers) ∈ registrations os

theorem registrations_append (os o : List Event) :
    registrations (os ++ o) = o.foldl register (registrations os) := by
  simp [registrations]

theorem registrations_append_cons (os o : List Event) (streamId : ℤ) (buffers : List ℕ) :
    registrations (os ++ .streamRegistered streamId buffers :: o) =
      o.foldl register ((streamId, buffers) :: registrations os) := by
  simp [registrations, register]

/-- Events that neither register nor configure. -/
theorem registrations_append_of_forall {os o : List Event}
    (h : ∀ e ∈ o, ∀ rs, register rs e = rs) :
    registrations (os ++ o) = registrations os := by
  rw [registrations_append]
  generalize registrations os = rs
  induction o generalizing rs with
  | nil => rfl
  | cons e o ih =>
      rw [List.foldl_cons, h e (by simp)]
      exact ih (fun e' he' => h e' (by simp [he'])) rs

theorem mem_requestStreamIds {r : CaptureRequest} {streamId : ℤ} :
    streamId ∈ requestStreamIds r ↔
      streamId ∈ r.outputBuffers.map StreamBuffer.streamId ∨
        r.inputBuffer.streamId ≠ -1 ∧ r.inputBuffer.bufferId ≠ 0 ∧
          streamId = r.inputBuffer.streamId := by
  simp only [requestStreamIds, List.mem_insertionSort, List.mem_dedup]
  split_ifs with hinput
  · rw [List.mem_cons, or_comm]
    exact or_congr_right ⟨fun h => ⟨hinput.1, hinput.2, h⟩, fun h => h.2.2⟩
  · exact ⟨Or.inl, fun h => h.resolve_right fun h => hinput ⟨h.1, h.2.1⟩⟩

/-! ### The loop -/

/-- What `registerLegacyBuffers` has done after the history `os`, for the streams
`ids`: `result` is what it gives, from the streams that were registered before. -/
structure Registers (os : List Event) (ids registered : List ℤ)
    (result : Bool × List ℤ × List Event) : Prop where
  remembered : result.2.1 = (registrations (os ++ result.2.2)).map Prod.fst
  nonempty : ∀ x ∈ registrations (os ++ result.2.2), x.2 ≠ []
  grows : registered ⊆ result.2.1
  all : result.1 → ∀ streamId ∈ ids, streamId ∈ result.2.1
  once : ∀ o₁ streamId buffers o₂,
    result.2.2 = o₁ ++ .streamRegistered streamId buffers :: o₂ →
      streamId ∉ (registrations (os ++ o₁)).map Prod.fst

theorem registerStreams_spec {s : Session} {succeeds : ℤ → Bool} (ids : List ℤ)
    {registered : List ℤ} {os : List Event}
    (hreg : registered = (registrations os).map Prod.fst)
    (hne : ∀ x ∈ registrations os, x.2 ≠ []) :
    Registers os ids registered (registerStreams s succeeds ids registered) := by
  induction ids generalizing registered os with
  | nil =>
      refine ⟨?_, ?_, List.Subset.refl _, by simp, by simp [registerStreams]⟩
      · simpa [registerStreams] using hreg
      · simpa [registerStreams] using hne
  | cons streamId ids ih =>
      -- a loop that stops here has done nothing
      have hstop : Registers os (streamId :: ids) registered (false, registered, []) := by
        refine ⟨?_, ?_, List.Subset.refl _, by simp, by simp⟩
        · simpa using hreg
        · simpa using hne
      unfold registerStreams
      split_ifs with hold hnone hok
      · have hrest := ih hreg hne
        refine ⟨hrest.remembered, hrest.nonempty, hrest.grows, fun htrue => ?_, hrest.once⟩
        rintro id hid
        rcases List.mem_cons.1 hid with rfl | hid
        · exact hrest.grows hold
        · exact hrest.all htrue id hid
      · exact hstop
      · have hnew : registrations (os ++ [.streamRegistered streamId
            (s.circulatingBuffers streamId)]) =
            (streamId, s.circulatingBuffers streamId) :: registrations os :=
          registrations_append_cons os [] _ _
        have hrest : Registers (os ++ [.streamRegistered streamId
            (s.circulatingBuffers streamId)]) ids (streamId :: registered)
            (registerStreams s succeeds ids (streamId :: registered)) := by
          refine ih (by rw [hnew, hreg]; rfl) fun x hx => ?_
          rw [hnew] at hx
          rcases List.mem_cons.1 hx with rfl | hx
          · exact fun hempty => hnone (Or.inr hempty)
          · exact hne x hx
        obtain ⟨hremembered, hnonempty, hgrows, hall, honce⟩ := hrest
        simp only [List.append_assoc, List.singleton_append] at hremembered hnonempty honce
        refine ⟨hremembered, hnonempty, fun id hid => hgrows (List.mem_cons_of_mem _ hid),
          fun htrue id hid => ?_, fun o₁ id buffers o₂ hsplit => ?_⟩
        · rcases List.mem_cons.1 hid with rfl | hid
          · exact hgrows (List.mem_cons_self)
          · exact hall htrue id hid
        · cases o₁ with
          | nil =>
              obtain ⟨heq, -⟩ := List.cons.inj hsplit
              cases heq
              rwa [List.append_nil, ← hreg]
          | cons e o₁ =>
              obtain ⟨rfl, htail⟩ := List.cons.inj hsplit
              exact honce o₁ id buffers o₂ htail
      · exact hstop

/-! ### Runs -/

/-- The session remembers what the history says, and has registered the streams
of a request before it is handed over. -/
structure Session.Remembers (s : Session) (os : List Event) : Prop where
  registered : s.legacyRegisteredStreams = (registrations os).map Prod.fst
  nonempty : ∀ x ∈ registrations os, x.2 ≠ []
  ready : ∀ r still, s.requestThread = .registered r still →
    ∀ streamId ∈ requestStreamIds r, streamId ∈ s.legacyRegisteredStreams

variable {d : Device} {s t : Session} {os o : List Event}

theorem Session.Remembers.congr (h : s.Remembers os)
    (ho : ∀ e ∈ o, ∀ rs, register rs e = rs)
    (hstreams : t.legacyRegisteredStreams = s.legacyRegisteredStreams)
    (hthread : ∀ r still, t.requestThread = .registered r still →
      s.requestThread = .registered r still) : t.Remembers (os ++ o) where
  registered := by rw [hstreams, h.registered, registrations_append_of_forall ho]
  nonempty := by rw [registrations_append_of_forall ho]; exact h.nonempty
  ready r still hr := by rw [hstreams]; exact h.ready r still (hthread r still hr)

theorem Session.Remembers.isRegistered (h : s.Remembers os) {streamId : ℤ}
    (hmem : streamId ∈ s.legacyRegisteredStreams) : IsRegistered os streamId := by
  rw [h.registered] at hmem
  obtain ⟨x, hx, rfl⟩ := List.mem_map.1 hmem
  exact ⟨x.2, h.nonempty x hx, hx⟩

theorem registerLegacyBuffers_spec (hd : d.IsLegacy) (hs : s.Remembers os)
    (r : CaptureRequest) (succeeds : ℤ → Bool) :
    Registers os (requestStreamIds r) s.legacyRegisteredStreams
      (registerLegacyBuffers d s r succeeds) := by
  unfold registerLegacyBuffers
  rw [if_neg (not_not.2 hd)]
  split_ifs
  · exact registerStreams_spec _ hs.registered hs.nonempty
  · refine ⟨?_, ?_, List.Subset.refl _, by simp, by simp⟩
    · simpa using hs.registered
    · simpa using hs.nonempty

theorem Session.Remembers.pass (h : s.Remembers os) (r : CaptureRequest) (intent : ℤ)
    (still : Bool) :
    (s.pass r intent still).1.Remembers (os ++ (s.pass r intent still).2) := by
  refine h.congr (fun e he rs => ?_) ?_ ?_
  · obtain ⟨frameNumber, blobStreams, rfl⟩ := pass_events r intent still e he
    rfl
  all_goals
    unfold Session.pass
    split_ifs <;> simp

theorem Session.Remembers.tryPass (h : s.Remembers os) (r : CaptureRequest) (intent : ℤ)
    (still : Bool) :
    (s.tryPass r intent still).1.Remembers (os ++ (s.tryPass r intent still).2) := by
  unfold Session.tryPass
  split_ifs
  · exact h.congr (by simp) rfl (by simp)
  · exact h.pass r intent still

theorem Session.Remembers.releaseFrame {e : Event} (h : s.Remembers os)
    (he : ∀ rs, register rs e = rs) (frameNumber : ℕ) :
    (s.releaseFrame frameNumber).Remembers (os ++ [e]) := by
  unfold Session.releaseFrame
  split_ifs
  · exact h.congr (by simpa using he) rfl fun _ _ hr => hr
  · exact h.congr (by simpa using he) rfl fun _ _ hr => hr

theorem step_remembers (hd : d.IsLegacy) {a : Action} {p : Session × List Event}
    (hs : s.Remembers os) (h : step d s a = some p) : p.1.Remembers (os ++ p.2) := by
  cases step_spec h with
  | lock hp => exact hs.tryPass _ _ _
  | wake hp => exact hs.tryPass _ _ _
  | timeOut hp =>
      have hreleased : s.release.Remembers (os ++ [.timedOut]) :=
        hs.congr (by simp [register]) rfl fun _ _ hr => hr
      rw [List.append_cons]
      exact hreleased.pass _ _ _
  | @register r still succeeds result hp hr =>
      have hspec := registerLegacyBuffers_spec hd hs r succeeds
      rw [← hr] at hspec
      refine ⟨hspec.remembered, hspec.nonempty, fun r' still' hthread => ?_⟩
      dsimp only at hthread ⊢
      split_ifs at hthread with htrue
      cases hthread
      exact hspec.all htrue
  | blob hd hb => exact hs.releaseFrame (fun _ => rfl) _
  | error => exact hs.releaseFrame (fun _ => rfl) _
  | configure hp ht =>
      subst ht
      refine ⟨?_, ?_, fun r still hr => ?_⟩
      · simp [hd, registrations, Camera.register]
      · simp [registrations, Camera.register]
      · rw [hp] at hr
        cases hr
  | failStill hp | flush | close =>
      exact hs.congr (by simp [register]) rfl (by simp [Session.release])
  | enter | readLegacy | readCurrent | refuse | importBuffers | hand | accept | reject |
      failOther | noBlob | shutter | unknown | configureFails =>
      exact hs.congr (by simp [register]) rfl (by simp)

/-- A stream is registered by the loop only, which skips those that are. -/
theorem step_registers_once (hd : d.IsLegacy) {a : Action} {p : Session × List Event}
    (hs : s.Remembers os) (h : step d s a = some p) {o₁ o₂ : List Event} {streamId : ℤ}
    {buffers : List ℕ} (hsplit : p.2 = o₁ ++ .streamRegistered streamId buffers :: o₂) :
    streamId ∉ (registrations (os ++ o₁)).map Prod.fst := by
  have hmem : .streamRegistered streamId buffers ∈ p.2 := by simp [hsplit]
  cases step_spec h with
  | @register r still succeeds result hp hr =>
      have hspec := registerLegacyBuffers_spec hd hs r succeeds
      rw [← hr] at hspec
      exact hspec.once o₁ streamId buffers o₂ hsplit
  | lock hp => simpa using tryPass_events _ _ _ _ hmem
  | wake hp => simpa using tryPass_events _ _ _ _ hmem
  | timeOut hp =>
      have hmem := (List.mem_cons.1 hmem).resolve_left (by simp)
      simpa using pass_events _ _ _ _ hmem
  | _ => simp at hmem

theorem step_hands_registered {a : Action} {p : Session × List Event}
    (hs : s.Remembers os) (h : step d s a = some p) {o₁ o₂ : List Event}
    {r : CaptureRequest} {settings : Option Settings}
    (hsplit : p.2 = o₁ ++ .handed r settings :: o₂) :
    ∀ streamId ∈ requestStreamIds r, IsRegistered (os ++ o₁) streamId := by
  have hmem : .handed r settings ∈ p.2 := by simp [hsplit]
  obtain ⟨hone, still, hthread⟩ := step_handed h hmem
  obtain ⟨rfl, -⟩ : o₁ = [] ∧ o₂ = [] := by
    simpa [hone, List.append_eq_cons_iff] using hsplit.symm
  rw [List.append_nil]
  exact fun streamId hid => hs.isRegistered (hs.ready _ _ hthread streamId hid)

/-- In every run on a legacy device, whatever fails and whatever is tried again: when
a request is handed over, the streams of all its buffers have been registered with
some buffers since they were configured, and none is registered again until they are
configured anew. -/
theorem run_registered (hd : d.IsLegacy) {as : List Action}
    (hrun : (step d).run init as = some (s, os)) :
    (∀ pre r settings post, os = pre ++ .handed r settings :: post →
      (∀ buffer ∈ r.outputBuffers, IsRegistered pre buffer.streamId) ∧
        (r.inputBuffer.streamId ≠ -1 → r.inputBuffer.bufferId ≠ 0 →
          IsRegistered pre r.inputBuffer.streamId)) ∧
    ∀ pre streamId buffers post, os = pre ++ .streamRegistered streamId buffers :: post →
      streamId ∉ (registrations pre).map Prod.fst := by
  have hQ := Machine.run_events (P := fun s os => s.Remembers os)
    (Q := fun pre e =>
      (∀ r settings, e = .handed r settings →
        ∀ streamId ∈ requestStreamIds r, IsRegistered pre streamId) ∧
      ∀ streamId buffers, e = .streamRegistered streamId buffers →
        streamId ∉ (registrations pre).map Prod.fst)
    (fun s os a p hs h => step_remembers hd hs h)
    (fun s os a p hs h o₁ e o₂ hsplit =>
      ⟨fun r settings he => step_hands_registered hs h (he ▸ hsplit),
        fun streamId buffers he => step_registers_once hd hs h (he ▸ hsplit)⟩)
    (show init.Remembers [] from ⟨rfl, by simp [registrations], by simp [init]⟩) hrun
  refine ⟨fun pre r settings post hsplit => ?_, fun pre streamId buffers post hsplit =>
    (hQ pre _ post hsplit).2 streamId buffers rfl⟩
  have hids := (hQ pre _ post hsplit).1 r settings rfl
  refine ⟨fun buffer hbuffer => ?_, fun hid hbuffer => ?_⟩
  · exact hids _ (mem_requestStreamIds.2 (Or.inl (List.mem_map_of_mem hbuffer)))
  · exact hids _ (mem_requestStreamIds.2 (Or.inr ⟨hid, hbuffer, rfl⟩))

/-- A request with two streams, up to their registration. -/
def attempt (succeeds : ℤ → Bool) : List Action :=
  [.processOneCaptureRequest ⟨1, some fun _ => none, ⟨-1, 0⟩, [⟨3, 1⟩, ⟨7, 1⟩]⟩,
    .readIntent, .lockCapture, .importRequest (some fun _ => [1]),
    .registerLegacyBuffers succeeds]

/-- The second stream is refused and the request is tried again; then the streams are
configured anew, and a third attempt follows. -/
def retries : List Action :=
  configureBlob :: attempt (fun streamId => streamId = 3) ++ .fail ::
    attempt (fun _ => true) ++ [.processCaptureRequest, .halReturns true, configureBlob] ++
    attempt (fun _ => true) ++ [.processCaptureRequest]

def Event.registeredStream : Event → Option ℤ
  | .streamRegistered streamId _ => some streamId
  | _ => none

theorem registered_retries :
    ∃ s os, (step legacyDevice).run init retries = some (s, os) ∧
      os.filterMap Event.registeredStream = [3, 7, 3, 7] ∧
        ∀ pre streamId buffers post, os = pre ++ .streamRegistered streamId buffers :: post →
          streamId ∉ (registrations pre).map Prod.fst := by
  have hrun : ((step legacyDevice).run init retries).map
      (fun p => p.2.filterMap Event.registeredStream) = some [3, 7, 3, 7] := rfl
  obtain ⟨⟨s, os⟩, hrun, hos⟩ := Option.map_eq_some_iff.1 hrun
  exact ⟨s, os, hrun, hos, (run_registered (by decide) hrun).2⟩

end MozartLineage.Camera
