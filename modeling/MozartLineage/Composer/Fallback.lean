import MozartLineage.Composer.Operations

/-!
# Falling back to the framebuffer

Every way in which an overlay can fail gives it up, and it stays given up until
the overlay property is read as off. Until then every layer is left to the
client, and every post goes to the framebuffer.
-/

namespace MozartLineage.Composer

open Transition

namespace Adapter

variable {s : Adapter}

/-- An overlay that has failed, and is not tried again. -/
structure GivenUp (s : Adapter) : Prop where
  disabled : s.overlayDisabledByError
  noLayer : s.hasOverlayLayer = false

theorem givenUp_disableOverlay (s : Adapter) : s.disableOverlay.GivenUp := ⟨rfl, rfl⟩

/-- With the bookkeeping kept, an overlay that is called for and not shown is
given up. -/
theorem postOverlay_of_fails {outcome : Outcome} (h : s.Bookkeeping)
    (hlayer : s.hasOverlayLayer) (hfail : (s.postOverlay outcome).1 = false) :
    (s.postOverlay outcome).2.1 = s.disableOverlay := by
  generalize hp : s.postOverlay outcome = p at hfail ⊢
  cases hp ▸ postOverlay_spec s outcome with
  | skip hskip =>
      obtain ⟨hdisabled, st, hst, -⟩ := h.overlay hlayer
      simp [hlayer, hdisabled, hst] at hskip
  | fail => rfl
  | play =>
      have hioctl : outcome.ioctlOk = false := hfail
      simp [hioctl]

/-- The post in which it fails goes to the framebuffer already. -/
theorem postBuffer_of_fails {outcome : Outcome} (h : s.Bookkeeping)
    (hlayer : s.hasOverlayLayer) (hfail : (s.postOverlay outcome).1 = false) :
    ∃ es, s.postBuffer outcome = (s.disableOverlay, es ++ s.fbPost) := by
  have hdisabled := postOverlay_of_fails h hlayer hfail
  refine ⟨(s.postOverlay outcome).2.2, ?_⟩
  generalize hp : s.postOverlay outcome = p at hfail hdisabled
  obtain ⟨shown, s', es⟩ := p
  obtain rfl : shown = false := hfail
  obtain rfl : s' = s.disableOverlay := hdisabled
  simp [postBuffer, hlayer, hp, fbPost, Adapter.disableOverlay]

theorem GivenUp.chooseOverlay (h : s.GivenUp) (property : Bool) :
    s.chooseOverlay property = 0 := by
  simp [Adapter.chooseOverlay, h.disabled]

theorem GivenUp.postBuffer (h : s.GivenUp) (outcome : Outcome) :
    s.postBuffer outcome = (s, s.fbPost) := by
  simp [Adapter.postBuffer, h.noLayer]

theorem GivenUp.validateLayers (h : s.GivenUp) : (s.validateLayers true).GivenUp where
  disabled := by simp [Adapter.validateLayers, h.disabled]
  noLayer := by simp [Adapter.validateLayers, h.chooseOverlay]

theorem GivenUp.validatedType (h : s.GivenUp) {property : Bool} {layer : LayerId}
    {st : LayerState}
    (hst : (s.validateLayers property).layerStates.find layer = some st) :
    st.validatedType = hwc2CompositionClient := by
  obtain ⟨st', -, rfl⟩ := Option.map_eq_some_iff.1 hst
  simp [h.chooseOverlay, validatedTypeOf]

theorem GivenUp.clearClientTarget (h : s.GivenUp) (property : Bool) :
    (s.validateLayers property).clearClientTargetLayers = ∅ := by
  simp [Adapter.validateLayers, h.chooseOverlay]

theorem operate_givenUp {op : Operation} {p : Adapter × List Effect} (h : s.GivenUp)
    (hop : op ≠ .validateLayers false) (hs : operate s op = some p) :
    p.1.GivenUp ∧ ∀ overlay, .shown (.played overlay) ∉ p.2 := by
  cases operate_spec hs with
  | add => exact ⟨⟨h.disabled, h.noLayer⟩, by simp⟩
  | remove hremove =>
      unfold removeLayer at hremove
      split_ifs at hremove
      cases hremove
      exact ⟨⟨h.disabled, by simp [h.noLayer]⟩, by simp⟩
  | set _ _ hset =>
      unfold setLayer at hset
      split_ifs at hset
      cases hset
      exact ⟨⟨h.disabled, h.noLayer⟩, by simp⟩
  | @validate property =>
      cases property with
      | false => exact absurd rfl hop
      | true => exact ⟨h.validateLayers, by simp⟩
  | accept => exact ⟨⟨h.disabled, h.noLayer⟩, by simp⟩
  | buffer => exact ⟨⟨h.disabled, h.noLayer⟩, by simp⟩
  | state => exact ⟨⟨h.disabled, h.noLayer⟩, by simp⟩
  | post =>
      rw [h.postBuffer]
      refine ⟨h, fun overlay => ?_⟩
      unfold fbPost
      split_ifs <;> simp
  | refuse => exact ⟨h, by simp⟩

theorem run_givenUp {t : Adapter} {ops : List Operation} {os : List Effect}
    (h : s.GivenUp) (hoff : .validateLayers false ∉ ops)
    (hrun : operate.run s ops = some (t, os)) :
    t.GivenUp ∧ ∀ overlay, .shown (.played overlay) ∉ os := by
  refine Machine.run_invariant_of_meets (G := fun _ op => op ≠ .validateLayers false)
    (P := fun s os => s.GivenUp ∧ ∀ overlay, .shown (.played overlay) ∉ os) ?_
    ⟨h, by simp⟩ (Machine.meets_of_forall (fun op hmem _ => ?_) s) hrun
  · rintro s os op t o ⟨h, hos⟩ hop hs
    obtain ⟨ht, ho⟩ := operate_givenUp h hop hs
    exact ⟨ht, fun overlay hmem => (List.mem_append.1 hmem).elim (hos overlay) (ho overlay)⟩
  · rintro rfl
    exact hoff hmem

/-- The hooks do not play anything either between a present that gives the
overlay up and a validation with the property off. -/
theorem step_run_fallsBack {t : Adapter} {as : List Action} {os : List Event}
    (h : s.GivenUp) (hoff : .validateDisplay false ∉ as)
    (hrun : step.run s as = some (t, os)) :
    t.GivenUp ∧ ∀ overlay, .played overlay ∉ os := by
  obtain ⟨ops, os', hops, hvalidate, hos⟩ := run_operates hrun
  obtain ⟨ht, hplayed⟩ := run_givenUp h (fun hmem => hoff (hvalidate false hmem)) hops
  refine ⟨ht, fun overlay hmem => ?_⟩
  have hdevice : Event.played overlay ∈ os.filter Event.onDevice :=
    List.mem_filter.2 ⟨hmem, rfl⟩
  rw [← hos] at hdevice
  obtain ⟨e, he, hshown⟩ := List.mem_filterMap.1 hdevice
  cases e with
  | shown event =>
      cases hshown
      exact hplayed overlay he
  | returned found => cases hshown

end Adapter

end MozartLineage.Composer
