import MozartLineage.Composer.Adapter

/-!
# What is played as an overlay

A layer is chosen when the display is validated, and its overlay is built when
it is presented. Every setter between the two invalidates the choice but one:
a new buffer does not. So the chosen layer stays eligible up to its buffer, and
`fillDssLayer`, which looks at the buffer again, takes any format that the
display subsystem has.

`KeepsYuv` is what is left to ask of a new buffer.
-/

namespace MozartLineage.Composer

open Transition

theorem eligible_iff {fbInfo : Info} {st : LayerState} :
    eligible fbInfo st ↔
      st.requestedType = hwc2CompositionDevice ∧ st.transform = 0 ∧
        ¬ st.planeAlpha < planeAlphaMin ∧ rectIsValid st.displayFrame ∧
        frameFitsDisplay st.displayFrame fbInfo ∧ cropIsValid st.sourceCrop ∧
        (getHisiFormat st.buffer).any isYuvFormat ∧
        (fillDssLayer st.buffer st.videoGeometry).isSome := by
  simp [eligible]

/-- Another YUV buffer that can be shown leaves a layer eligible. -/
theorem eligible_of_buffer {fbInfo : Info} {st : LayerState} {buffer : BufferHandle}
    {layer : DssLayer} (h : eligible fbInfo { st with buffer := buffer })
    (hfill : fillDssLayer st.buffer st.videoGeometry = some layer)
    (hyuv : isYuvFormat layer.src.format) : eligible fbInfo st := by
  obtain ⟨htype, htransform, halpha, hframe, hfits, hcrop, -, -⟩ := eligible_iff.1 h
  refine eligible_iff.2 ⟨htype, htransform, halpha, hframe, hfits, hcrop, ?_, ?_⟩
  · simpa [getHisiFormat_of_fillDssLayer hfill] using hyuv
  · simp [hfill]

theorem isYuvFormat_of_eligible {fbInfo : Info} {st : LayerState} {layer : DssLayer}
    (h : eligible fbInfo st)
    (hfill : fillDssLayer st.buffer st.videoGeometry = some layer) :
    isYuvFormat layer.src.format := by
  obtain ⟨-, -, -, -, -, -, hyuv, -⟩ := eligible_iff.1 h
  simpa [getHisiFormat_of_fillDssLayer hfill] using hyuv

/-! ### The selection loop -/

/-- `r` is the largest of the eligible layers seen since `best`, or `best` where
none is larger. -/
structure Largest (fbInfo : Info) (entries : List (LayerId × LayerState))
    (best r : LayerId × ℕ) : Prop where
  seen : r = best ∨ ∃ e ∈ entries, eligible fbInfo e.2 ∧
    r = (e.1, frameArea e.2.displayFrame)
  best_le : best.2 ≤ r.2
  le : ∀ e ∈ entries, eligible fbInfo e.2 → frameArea e.2.displayFrame ≤ r.2

theorem foldl_considerLayer {fbInfo : Info} (entries : List (LayerId × LayerState))
    (best : LayerId × ℕ) :
    Largest fbInfo entries best (entries.foldl (considerLayer fbInfo) best) := by
  induction entries generalizing best with
  | nil => exact ⟨Or.inl rfl, le_rfl, by simp⟩
  | cons entry entries ih =>
      rw [List.foldl_cons]
      obtain ⟨hseen, hbest, hle⟩ := ih (considerLayer fbInfo best entry)
      by_cases hentry : eligible fbInfo entry.2 ∧ frameArea entry.2.displayFrame > best.2
      · rw [considerLayer, if_pos hentry] at hseen hbest hle ⊢
        refine ⟨?_, hentry.2.le.trans hbest, ?_⟩
        · rcases hseen with hseen | ⟨e, he, hel, hr⟩
          · exact Or.inr ⟨entry, by simp, hentry.1, hseen⟩
          · exact Or.inr ⟨e, List.mem_cons_of_mem _ he, hel, hr⟩
        · intro e he hel
          rcases List.mem_cons.1 he with rfl | he
          · exact hbest
          · exact hle e he hel
      · rw [considerLayer, if_neg hentry] at hseen hbest hle ⊢
        refine ⟨?_, hbest, ?_⟩
        · rcases hseen with hseen | ⟨e, he, hel, hr⟩
          · exact Or.inl hseen
          · exact Or.inr ⟨e, List.mem_cons_of_mem _ he, hel, hr⟩
        · intro e he hel
          rcases List.mem_cons.1 he with rfl | he
          · exact (not_lt.1 fun hlt => hentry ⟨hel, hlt⟩).trans hbest
          · exact hle e he hel

theorem selectOverlay_eligible {fbInfo : Info} {entries : List (LayerId × LayerState)}
    (h : selectOverlay fbInfo entries ≠ 0) :
    ∃ st, (selectOverlay fbInfo entries, st) ∈ entries ∧ eligible fbInfo st := by
  rcases (foldl_considerLayer entries (0, 0)).seen with hz | ⟨e, he, hel, hr⟩
  · exact absurd (congrArg Prod.fst hz) h
  · have hid : selectOverlay fbInfo entries = e.1 := congrArg Prod.fst hr
    exact ⟨e.2, by rwa [hid], hel⟩

namespace Adapter

variable {s : Adapter}

theorem chooseOverlay_eligible {property : Bool} (h : s.chooseOverlay property ≠ 0) :
    ∃ st, s.layerStates.find (s.chooseOverlay property) = some st ∧
      eligible s.fbInfo st := by
  unfold chooseOverlay at h ⊢
  split_ifs at h ⊢ with hon
  · obtain ⟨st, hst, hel⟩ := selectOverlay_eligible h
    exact ⟨st, UnorderedMap.mem_toList.1 hst, hel⟩
  · exact absurd rfl h

end Adapter

/-! ### The chosen layer -/

/-- A layer that was eligible when it was chosen, up to a buffer that it has got
since. -/
structure Ready (fbInfo : Info) (st : LayerState) : Prop where
  eligible : ∃ buffer, eligible fbInfo { st with buffer := buffer }
  device : st.validatedType = hwc2CompositionDevice
  yuv : ∀ layer, fillDssLayer st.buffer st.videoGeometry = some layer →
    isYuvFormat layer.src.format

theorem Ready.eligible_of_fillDssLayer {fbInfo : Info} {st : LayerState}
    {layer : DssLayer} (h : Ready fbInfo st)
    (hfill : fillDssLayer st.buffer st.videoGeometry = some layer) :
    Composer.eligible fbInfo st := by
  obtain ⟨buffer, hel⟩ := h.eligible
  exact eligible_of_buffer hel hfill (h.yuv layer hfill)

namespace Adapter

variable {s : Adapter}

/-- The overlay layer is there and ready. -/
def OverlayKept (s : Adapter) : Prop :=
  s.hasOverlayLayer → ∃ st, s.layerStates.find s.overlayLayer = some st ∧
    Ready s.fbInfo st

/-- What a validation leaves behind until the adapter is modified. -/
def OverlayReady (s : Adapter) : Prop := s.state ≠ .modified → s.OverlayKept

/-- A new buffer for the overlay layer has a YUV format, if it can be shown at
all in the place of the one that was validated. -/
def KeepsYuv (s : Adapter) : Action → Prop
  | .setLayerBuffer layer buffer =>
      s.state = .modified ∨ s.hasOverlayLayer = false ∨ layer ≠ s.overlayLayer ∨
        ((s.layerStates.find layer).bind fun st =>
          fillDssLayer buffer st.videoGeometry).all fun shown =>
            isYuvFormat shown.src.format
  | _ => True

instance (s : Adapter) (a : Action) : Decidable (s.KeepsYuv a) := by
  unfold KeepsYuv
  split <;> infer_instance

theorem overlayReady_of_modified (h : s.state = .modified) : s.OverlayReady :=
  fun hs => absurd h hs

theorem OverlayReady.touch {modified : Bool} (h : s.OverlayReady) :
    (s.touch modified).OverlayReady := by
  cases modified with
  | false => exact h
  | true => exact overlayReady_of_modified rfl

theorem OverlayReady.addLayer (h : s.OverlayReady) {keys : List LayerId}
    (hkeys : keys.Perm (s.layerStates.keys.insert s.nextId)) :
    (s.addLayer keys hkeys).OverlayReady := by
  intro hstate hlayer
  obtain ⟨st, hst, hready⟩ := h hstate hlayer
  exact ⟨st, UnorderedMap.find_emplace_of_eq_some _ hkeys hst, hready⟩

theorem OverlayReady.removeLayer (h : s.OverlayReady) {layer : LayerId} {s' : Adapter}
    (hs : s.removeLayer layer = some s') : s'.OverlayReady := by
  unfold Adapter.removeLayer at hs
  split_ifs at hs
  cases hs
  intro hstate hlayer
  have hkept : s.hasOverlayLayer ∧ s.overlayLayer ≠ layer := by
    by_cases hl : s.overlayLayer = layer <;> simp_all
  obtain ⟨st, hst, hready⟩ := h hstate hkept.1
  exact ⟨st, by simpa [UnorderedMap.find_erase, hkept.2] using hst, hready⟩

theorem OverlayReady.setLayerBuffer (h : s.OverlayReady) {layer : LayerId}
    {buffer : BufferHandle} (hyuv : s.KeepsYuv (.setLayerBuffer layer buffer)) :
    ((s.setLayerBuffer layer buffer).getD s).OverlayReady := by
  unfold Adapter.setLayerBuffer setLayer
  split_ifs with hfind
  · intro hstate hlayer
    obtain ⟨st, hst, hready⟩ := h hstate hlayer
    by_cases hl : s.overlayLayer = layer
    · obtain ⟨old, hel⟩ := hready.eligible
      refine ⟨{ st with buffer := buffer }, ?_, ⟨old, hel⟩, hready.device, ?_⟩
      · change (s.layerStates.modify layer _).find s.overlayLayer = _
        rw [UnorderedMap.find_modify, if_pos hl, hst, Option.map_some]
      · intro shown hshown
        have hall := ((hyuv.resolve_left hstate).resolve_left (by simp_all)).resolve_left
          (not_not.2 hl.symm)
        rw [← hl, hst, Option.bind_some] at hall
        exact (Option.all_eq_true _ _).1 hall shown hshown
    · exact ⟨st, by simpa [UnorderedMap.find_modify, hl] using hst, hready⟩
  · exact h

theorem overlayKept_validateLayers (s : Adapter) (property : Bool) :
    (s.validateLayers property).OverlayKept := by
  intro hlayer
  have hne : s.chooseOverlay property ≠ 0 := by simpa [validateLayers] using hlayer
  obtain ⟨st, hst, hel⟩ := chooseOverlay_eligible hne
  refine ⟨{ st with validatedType := hwc2CompositionDevice }, ?_, ⟨st.buffer, hel⟩, rfl,
    fun _ => isYuvFormat_of_eligible hel⟩
  simp [validateLayers, hne, hst, validatedTypeOf]

/-- Accepting asks for the type that the overlay layer has asked for anyway. -/
theorem OverlayKept.acceptChanges (h : s.OverlayKept) : s.acceptChanges.OverlayKept := by
  intro hlayer
  obtain ⟨st, hst, hready⟩ := h hlayer
  obtain ⟨buffer, hel⟩ := hready.eligible
  have htype : st.requestedType = st.validatedType :=
    (eligible_iff.1 hel).1.trans hready.device.symm
  have hst' : { st with requestedType := st.validatedType } = st := by
    cases st
    simpa using htype.symm
  exact ⟨st, by simp [Adapter.acceptChanges, hst, hst'], hready⟩

/-- What `postOverlay` can be. -/
inductive Posted (s : Adapter) (outcome : Outcome) : Bool × Adapter × List Event → Prop where
  | skip (h : s.hasOverlayLayer = false ∨ s.overlayDisabledByError ∨
        s.layerStates.find s.overlayLayer = none) :
      Posted s outcome (false, s, [])
  | fail {video} (hlayer : s.hasOverlayLayer) (hdisabled : s.overlayDisabledByError = false)
      (hvideo : s.layerStates.find s.overlayLayer = some video)
      (hfail : s.overlayLayers video = none ∨ outcome.openOk = false) :
      Posted s outcome (false, s.disableOverlay, [])
  | play {video layers} (hlayer : s.hasOverlayLayer)
      (hdisabled : s.overlayDisabledByError = false)
      (hvideo : s.layerStates.find s.overlayLayer = some video)
      (hlayers : s.overlayLayers video = some layers) (hopen : outcome.openOk) :
      Posted s outcome
        (outcome.ioctlOk, if outcome.ioctlOk then s else s.disableOverlay,
          [.played (s.playedOverlay layers)])

theorem postOverlay_spec (s : Adapter) (outcome : Outcome) :
    Posted s outcome (s.postOverlay outcome) := by
  unfold postOverlay
  by_cases hoverlay : ¬ s.hasOverlayLayer ∨ s.overlayDisabledByError
  · rw [if_pos hoverlay]
    exact .skip (by simpa using hoverlay.imp_right Or.inl)
  · obtain ⟨hlayer, hdisabled⟩ : s.hasOverlayLayer ∧ s.overlayDisabledByError = false := by
      simpa using hoverlay
    rw [if_neg hoverlay]
    cases hvideo : s.layerStates.find s.overlayLayer with
    | none => exact .skip (Or.inr (Or.inr hvideo))
    | some video =>
        cases hlayers : s.overlayLayers video with
        | none =>
            have hfail : Posted s outcome _ :=
              .fail hlayer hdisabled hvideo (Or.inl hlayers)
            simpa [hlayers] using hfail
        | some layers =>
            cases hopen : outcome.openOk with
            | false =>
                have hfail : Posted s outcome _ :=
                  .fail hlayer hdisabled hvideo (Or.inr hopen)
                simpa [hlayers] using hfail
            | true =>
                have hplay : Posted s outcome _ :=
                  .play hlayer hdisabled hvideo hlayers hopen
                cases hioctl : outcome.ioctlOk <;> simpa [hlayers, hioctl] using hplay

/-- Presenting changes nothing, or gives the overlay up. -/
theorem postBuffer_spec (s : Adapter) (outcome : Outcome) :
    (s.postBuffer outcome).1 = s ∨ (s.postBuffer outcome).1 = s.disableOverlay := by
  have h : (s.postBuffer outcome).1 = s ∨
      (s.postBuffer outcome).1 = (s.postOverlay outcome).2.1 := by
    unfold postBuffer
    split_ifs
    · split <;> simp [*]
    · exact Or.inl rfl
  rcases h with h | h
  · exact Or.inl h
  · rw [h]
    generalize hp : s.postOverlay outcome = p
    cases hp ▸ postOverlay_spec s outcome with
    | skip => exact Or.inl rfl
    | fail => exact Or.inr rfl
    | play =>
        split_ifs
        · exact Or.inl rfl
        · exact Or.inr rfl

theorem step_overlayReady {a : Action} {p : Adapter × List Event} (h : s.OverlayReady)
    (hyuv : s.KeepsYuv a) (hs : step s a = some p) : p.1.OverlayReady := by
  cases step_spec hs with
  | create hkeys => exact (h.addLayer hkeys).touch
  | destroy hremove => exact (h.removeLayer hremove).touch
  | target => exact OverlayReady.touch h
  | other => exact h.touch
  | newBuffer => exact h.setLayerBuffer hyuv
  | set => exact overlayReady_of_modified rfl
  | validate => exact fun _ => overlayKept_validateLayers s _
  | accept hstate => exact fun _ => (h hstate).acceptChanges
  | present =>
      rcases postBuffer_spec s _ with hp | hp
      · rwa [hp]
      · rw [hp]
        exact overlayReady_of_modified rfl
  | refuse => exact h

/-! ### What is played -/

/-- What is played shows the overlay layer, which is eligible as it is. -/
def PlaysEligible (s : Adapter) (overlay : DssOverlay) : Prop :=
  ∃ video, s.layerStates.find s.overlayLayer = some video ∧ eligible s.fbInfo video ∧
    overlay.layerInfos.head? = fillDssLayer video.buffer video.videoGeometry

theorem overlayLayers_spec {video : LayerState} {layers : List DssLayer}
    (h : s.overlayLayers video = some layers) :
    ∃ layer, fillDssLayer video.buffer video.videoGeometry = some layer ∧
      layers.head? = some layer := by
  unfold overlayLayers at h
  cases hfill : fillDssLayer video.buffer video.videoGeometry with
  | none => simp [hfill] at h
  | some layer =>
      refine ⟨layer, rfl, ?_⟩
      cases hused : s.overlayUsesClientTarget with
      | false =>
          obtain rfl : [layer] = layers := by simpa [hfill, hused] using h
          rfl
      | true =>
          cases hclient : fillDssLayer s.buffer s.clientGeometry with
          | none => simp [hfill, hused, hclient] at h
          | some client =>
              obtain rfl : [layer, client] = layers := by
                simp only [hfill, hused, hclient] at h
                split_ifs at h with hnone
                · cases h
                · simpa using h
              rfl

/-- A played overlay comes from `postOverlay`. -/
theorem mem_postBuffer_played {outcome : Outcome} {overlay : DssOverlay}
    (h : .played overlay ∈ (s.postBuffer outcome).2) :
    .played overlay ∈ (s.postOverlay outcome).2.2 := by
  have hpost (s' : Adapter) : .played overlay ∉ s'.fbPost := by
    unfold fbPost
    split_ifs <;> simp
  unfold postBuffer at h
  split_ifs at h
  · split at h
    · next hp => simpa [hp] using h
    · next hp => simpa [hp, hpost] using h
  · exact absurd h (hpost s)

theorem OverlayKept.playsEligible (h : s.OverlayKept) {outcome : Outcome}
    {overlay : DssOverlay} (hplayed : .played overlay ∈ (s.postOverlay outcome).2.2) :
    s.PlaysEligible overlay := by
  generalize hp : s.postOverlay outcome = p at hplayed
  cases hp ▸ postOverlay_spec s outcome with
  | skip => simp at hplayed
  | fail => simp at hplayed
  | play hlayer _ hvideo hlayers =>
      obtain ⟨st, hst, hready⟩ := h hlayer
      obtain rfl : _ = st := Option.some.inj (hvideo.symm.trans hst)
      obtain ⟨layer, hfill, hhead⟩ := overlayLayers_spec hlayers
      obtain rfl : overlay = _ := by simpa using hplayed
      exact ⟨_, hvideo, hready.eligible_of_fillDssLayer hfill, hhead.trans hfill.symm⟩

/-- In every run in which no new buffer of the chosen layer brings another kind
of format, whatever is played next is eligible. -/
theorem run_playsEligible {fbInfo : Info} {as : List Action} {s : Adapter}
    {os : List Event} (hrun : step.run (init fbInfo) as = some (s, os))
    (hyuv : step.Meets KeepsYuv (init fbInfo) as) {outcome : Outcome}
    {p : Adapter × List Event} (hs : step s (.presentDisplay outcome) = some p)
    {overlay : DssOverlay} (hplayed : .played overlay ∈ p.2) : s.PlaysEligible overlay := by
  have hready : s.OverlayReady := Machine.run_invariant_of_meets
    (P := fun s _ => s.OverlayReady)
    (fun s os a t o h hyuv hs => step_overlayReady (p := (t, o)) h hyuv hs)
    (overlayReady_of_modified rfl) hyuv hrun
  simp only [step] at hs
  split_ifs at hs with hstate <;> cases hs
  · have hpost : .played overlay ∈ (s.postBuffer outcome).2 := by simpa using hplayed
    exact (hready (by simp [hstate])).playsEligible (mem_postBuffer_played hpost)
  · simp at hplayed

/-- A buffer that does not keep the format can be shown, and leaves the chosen
layer ineligible without a new validation. -/
theorem not_eligible_of_not_keepsYuv {layer : LayerId} {buffer : BufferHandle}
    (hyuv : ¬ s.KeepsYuv (.setLayerBuffer layer buffer)) (hl : layer ∈ s.layers)
    {p : Adapter × List Event} (hs : step s (.setLayerBuffer layer buffer) = some p) :
    p.1.state ≠ .modified ∧ p.1.hasOverlayLayer ∧
      ∃ st, p.1.layerStates.find p.1.overlayLayer = some st ∧
        (fillDssLayer st.buffer st.videoGeometry).isSome ∧
        ¬ eligible p.1.fbInfo st := by
  simp only [KeepsYuv, not_or, Decidable.not_not] at hyuv
  obtain ⟨hstate, hlayer, rfl, hall⟩ := hyuv
  cases hst : s.layerStates.find s.overlayLayer with
  | none => simp [hst] at hall
  | some st =>
      cases hfill : fillDssLayer buffer st.videoGeometry with
      | none => simp [hst, hfill] at hall
      | some shown =>
          simp only [step, if_pos hl, setLayerBuffer, setLayer, hst, Option.isSome_some,
            if_true, Option.getD_some, Option.some.injEq] at hs
          subst hs
          refine ⟨hstate, by simpa using hlayer, { st with buffer := buffer }, ?_,
            by simpa [LayerState.videoGeometry] using Option.isSome_of_eq_some hfill,
            fun hel => ?_⟩
          · simp [UnorderedMap.find_modify, hst]
          · have hyuv := isYuvFormat_of_eligible hel hfill
            simp [hst, hfill, hyuv] at hall

/-- An overlay that was shown is all that is presented. -/
theorem postBuffer_of_shown {outcome : Outcome} (h : (s.postOverlay outcome).1) :
    ∃ overlay, s.postBuffer outcome = (s, [.played overlay]) := by
  generalize hp : s.postOverlay outcome = p at h
  cases hp ▸ postOverlay_spec s outcome with
  | skip => simp at h
  | fail => simp at h
  | @play video layers hlayer =>
      have hioctl : outcome.ioctlOk = true := h
      exact ⟨s.playedOverlay layers, by simp [postBuffer, hlayer, hp, hioctl]⟩

/-! ### A video of two frames -/

/-- A buffer of 16 by 16 pixels. -/
def frameBuffer (format : ℤ) : BufferHandle :=
  some
    { numFds := 1
      numInts := 48
      data := fun i =>
        if i = 1 then kHisiHandleMagic else if i = 2 then format
        else if i = 19 ∨ i = 20 then 16 else 0 }

/-- A layer with a YUV buffer is validated, and gets a second buffer then. -/
def secondFrame (format : ℤ) : List Action :=
  [.createLayer [1] true, .setLayerCompositionType 1 hwc2CompositionDevice,
    .setLayerDisplayFrame 1 ⟨0, 0, 16, 16⟩, .setLayerSourceCrop 1 ⟨0, 0, 16, 16⟩,
    .setLayerBuffer 1 (frameBuffer halPixelFormatYCrCb420Sp), .validateDisplay true,
    .setLayerBuffer 1 (frameBuffer format)]

def display : Info := ⟨64, 64⟩

/-- The second frame is played, whatever its format. -/
theorem secondFrame_played (format : ℤ)
    (hformat : format = halPixelFormatYCrCb420Sp ∨ format = halPixelFormatRgba8888) :
    ∃ s os p overlay,
      step.run (init display) (secondFrame format) = some (s, os) ∧
        step s (.presentDisplay ⟨true, true⟩) = some p ∧ .played overlay ∈ p.2 ∧
        (s.layerStates.find s.overlayLayer).map (eligible s.fbInfo) =
          some (format = halPixelFormatYCrCb420Sp : Bool) := by
  have hall : ((step.run (init display) (secondFrame format)).any fun p =>
      p.1.state = .validated ∧ ((p.1.postOverlay ⟨true, true⟩).1) ∧
        (p.1.layerStates.find p.1.overlayLayer).map (eligible p.1.fbInfo) =
          some (format = halPixelFormatYCrCb420Sp : Bool)) = true := by
    rcases hformat with rfl | rfl
    · decide +kernel
    · decide +kernel
  cases hrun : step.run (init display) (secondFrame format) with
  | none => simp [hrun] at hall
  | some q =>
      simp only [hrun, Option.any_some, Bool.decide_and, Bool.and_eq_true,
        decide_eq_true_eq] at hall
      obtain ⟨hstate, hshown, hel⟩ := hall
      obtain ⟨overlay, hpost⟩ := postBuffer_of_shown hshown
      exact ⟨q.1, q.2, (q.1, [.played overlay, .returned none]), overlay, rfl,
        by simp [step, hstate, hpost], by simp, hel⟩

theorem playsEligible_secondFrame :
    ∃ s overlay, (∃ os, step.run (init display) (secondFrame halPixelFormatYCrCb420Sp) =
        some (s, os)) ∧ s.PlaysEligible overlay := by
  obtain ⟨s, os, p, overlay, hrun, hs, hplayed, -⟩ := secondFrame_played _ (Or.inl rfl)
  exact ⟨s, overlay, ⟨os, hrun⟩,
    run_playsEligible hrun (by decide +kernel) hs hplayed⟩

/-- An RGBA buffer that comes after the validation is played. -/
theorem plays_rgba_secondFrame :
    ¬ ∀ (fbInfo : Info) (as : List Action) (s : Adapter) (os : List Event)
        (outcome : Outcome) (p : Adapter × List Event) (overlay : DssOverlay),
      step.run (init fbInfo) as = some (s, os) →
        step s (.presentDisplay outcome) = some p → .played overlay ∈ p.2 →
          s.PlaysEligible overlay := by
  intro hall
  obtain ⟨s, os, p, overlay, hrun, hs, hplayed, hel⟩ :=
    secondFrame_played halPixelFormatRgba8888 (Or.inr rfl)
  obtain ⟨video, hvideo, hvideoEl, -⟩ := hall _ _ _ _ _ _ _ hrun hs hplayed
  rw [hvideo, Option.map_some, hvideoEl] at hel
  exact absurd hel (by decide)

end Adapter

end MozartLineage.Composer
