import MozartLineage.Transition.Run
import MozartLineage.Container.UnorderedMap
import MozartLineage.Composer.Dss
import Mathlib.Data.Finset.Basic

/-!
# The composer adapter

The adapter keeps the layers of one display and decides at each validation
whether the display subsystem shows one of them as an overlay; presenting then
plays that layer, or posts the client target to the framebuffer.

Hooks that are not part of the patch are taken at large: creating and destroying
a layer, setting the client target and the layer properties that the adapter
ignores may or may not leave the state `modified`. Presenting is refused except
in `validated`, and accepting in `modified`. Calls for another display change
nothing and are left out.
-/

namespace MozartLineage.Composer

open Transition

abbrev LayerId := ℕ

def hwc2CompositionClient : ℤ := 1

def hwc2CompositionDevice : ℤ := 2

structure LayerState where
  buffer : BufferHandle := none
  requestedType : ℤ := hwc2CompositionClient
  validatedType : ℤ := hwc2CompositionClient
  blendMode : ℤ := hwc2BlendModeNone
  displayFrame : Rect := ⟨0, 0, 0, 0⟩
  sourceCrop : FRect := ⟨0, 0, 0, 0⟩
  planeAlpha : ℚ := 1
  transform : ℤ := 0
  z : ℕ := 0

inductive Validation where
  | modified
  | validatedWithChanges
  | validated
  deriving DecidableEq

/-- `layers` has the keys of `layerStates` a second time; `buffer` is the client
target. -/
structure Adapter where
  fbInfo : Info
  nextLayerId : LayerId
  layers : Finset LayerId
  layerStates : UnorderedMap LayerId LayerState
  changedTypes : List (LayerId × ℤ)
  clearClientTargetLayers : Finset LayerId
  buffer : BufferHandle
  overlayEnabled : Bool
  overlayDisabledByError : Bool
  hasOverlayLayer : Bool
  overlayUsesClientTarget : Bool
  overlayLayer : LayerId
  state : Validation

namespace Adapter

def init (fbInfo : Info) : Adapter where
  fbInfo := fbInfo
  nextLayerId := 0
  layers := ∅
  layerStates := .empty LayerId LayerState
  changedTypes := []
  clearClientTargetLayers := ∅
  buffer := none
  overlayEnabled := false
  overlayDisabledByError := false
  hasOverlayLayer := false
  overlayUsesClientTarget := false
  overlayLayer := 0
  state := .modified

/-! ### Layers -/

def nextId (s : Adapter) : LayerId := (s.nextLayerId + 1) % 2 ^ 64

/-- `keys` is the order in which the layers are iterated from then on. -/
def addLayer (s : Adapter) (keys : List LayerId)
    (hkeys : keys.Perm (s.layerStates.keys.insert s.nextId)) : Adapter :=
  { s with
    nextLayerId := s.nextId
    layers := insert s.nextId s.layers
    layerStates := s.layerStates.emplace s.nextId {} keys hkeys }

def removeLayer (s : Adapter) (layer : LayerId) : Option Adapter :=
  if layer ∈ s.layers then
    let gone := s.hasOverlayLayer ∧ s.overlayLayer = layer
    some { s with
      layers := s.layers.erase layer
      layerStates := s.layerStates.erase layer
      changedTypes := s.changedTypes.filter fun e => e.1 ≠ layer
      clearClientTargetLayers := s.clearClientTargetLayers.erase layer
      hasOverlayLayer := if gone then false else s.hasOverlayLayer
      overlayUsesClientTarget := if gone then false else s.overlayUsesClientTarget }
  else none

/-- An assignment to the state of a layer, refused where there is none. -/
def setLayer (s : Adapter) (layer : LayerId) (f : LayerState → LayerState) :
    Option Adapter :=
  if (s.layerStates.find layer).isSome then
    some { s with layerStates := s.layerStates.modify layer f }
  else none

def setLayerBuffer (s : Adapter) (layer : LayerId) (buffer : BufferHandle) :=
  s.setLayer layer fun st => { st with buffer := buffer }

def setLayerCompositionType (s : Adapter) (layer : LayerId) (type : ℤ) :=
  s.setLayer layer fun st => { st with requestedType := type }

def setLayerBlendMode (s : Adapter) (layer : LayerId) (mode : ℤ) :=
  s.setLayer layer fun st => { st with blendMode := mode }

def setLayerDisplayFrame (s : Adapter) (layer : LayerId) (frame : Rect) :=
  s.setLayer layer fun st => { st with displayFrame := frame }

def setLayerPlaneAlpha (s : Adapter) (layer : LayerId) (alpha : ℚ) :=
  s.setLayer layer fun st => { st with planeAlpha := alpha }

def setLayerSourceCrop (s : Adapter) (layer : LayerId) (crop : FRect) :=
  s.setLayer layer fun st => { st with sourceCrop := crop }

def setLayerTransform (s : Adapter) (layer : LayerId) (transform : ℤ) :=
  s.setLayer layer fun st => { st with transform := transform }

def setLayerZOrder (s : Adapter) (layer : LayerId) (z : ℕ) :=
  s.setLayer layer fun st => { st with z := z }

def setBuffer (s : Adapter) (buffer : BufferHandle) : Adapter :=
  { s with buffer := buffer }

def setState (s : Adapter) (state : Validation) : Adapter :=
  { s with state := state }

end Adapter

/-! ### Validation -/

/-- The single-precision number `0.999f`. -/
def planeAlphaMin : ℚ := 16760439 / 16777216

/-- The arguments with which the layer of an overlay is filled. -/
def LayerState.videoGeometry (st : LayerState) : LayerGeometry where
  sourceCrop := st.sourceCrop
  displayFrame := st.displayFrame
  blendMode := hwc2BlendModeNone
  planeAlpha := 1
  transform := st.transform
  layerIndex := 0
  channel := 0
  needCap := capDma

/-- The conditions of the selection loop of `validateLayers`. -/
def eligible (fbInfo : Info) (st : LayerState) : Bool :=
  st.requestedType = hwc2CompositionDevice ∧ st.transform = 0 ∧
    ¬ st.planeAlpha < planeAlphaMin ∧ rectIsValid st.displayFrame ∧
    frameFitsDisplay st.displayFrame fbInfo ∧ cropIsValid st.sourceCrop ∧
    (getHisiFormat st.buffer).any isYuvFormat ∧
    (fillDssLayer st.buffer st.videoGeometry).isSome

/-- One round of the selection loop: the layer chosen so far, `0` for none, and
its area. -/
def considerLayer (fbInfo : Info) (best : LayerId × ℕ) (entry : LayerId × LayerState) :
    LayerId × ℕ :=
  if eligible fbInfo entry.2 ∧ frameArea entry.2.displayFrame > best.2 then
    (entry.1, frameArea entry.2.displayFrame)
  else best

def selectOverlay (fbInfo : Info) (entries : List (LayerId × LayerState)) : LayerId :=
  (entries.foldl (considerLayer fbInfo) (0, 0)).1

/-- The type that a layer gets when `overlayLayer` has been chosen. -/
def validatedTypeOf (overlayLayer layer : LayerId) : ℤ :=
  if overlayLayer ≠ 0 ∧ layer = overlayLayer then hwc2CompositionDevice
  else hwc2CompositionClient

namespace Adapter

/-- The layer that is chosen under a value of the overlay property. A property
that is off forgets an earlier error. -/
def chooseOverlay (s : Adapter) (property : Bool) : LayerId :=
  if property ∧ ¬ s.overlayDisabledByError then
    selectOverlay s.fbInfo s.layerStates.toList
  else 0

def hasClientComposition (s : Adapter) (overlayLayer : LayerId) : Bool :=
  s.layerStates.keys.any fun layer =>
    validatedTypeOf overlayLayer layer = hwc2CompositionClient

def validateLayers (s : Adapter) (property : Bool) : Adapter :=
  let overlayLayer := s.chooseOverlay property
  let usesClientTarget := overlayLayer ≠ 0 ∧ s.hasClientComposition overlayLayer
  { s with
    layerStates := s.layerStates.mapValues fun layer st =>
      { st with validatedType := validatedTypeOf overlayLayer layer }
    changedTypes := s.layerStates.toList.filterMap fun e =>
      if e.2.requestedType ≠ validatedTypeOf overlayLayer e.1 then
        some (e.1, validatedTypeOf overlayLayer e.1)
      else none
    clearClientTargetLayers := if usesClientTarget then {overlayLayer} else ∅
    overlayEnabled := property
    overlayDisabledByError := property && s.overlayDisabledByError
    hasOverlayLayer := overlayLayer ≠ 0
    overlayUsesClientTarget := usesClientTarget
    overlayLayer := if overlayLayer ≠ 0 then overlayLayer else s.overlayLayer }

def acceptChanges (s : Adapter) : Adapter :=
  { s with
    layerStates := s.layerStates.mapValues fun _ st =>
      { st with requestedType := st.validatedType }
    changedTypes := [] }

end Adapter

/-! ### Presenting -/

/-- What is played: the layers, and the rectangle that they update. -/
structure DssOverlay where
  layerInfos : List DssLayer
  layerNums : ℕ
  releaseFence : ℤ
  ovlFlags : ℕ
  dirtyRect : DssRect

inductive Hwc2Error where
  | badLayer
  | hasChanges
  | notValidated
  deriving DecidableEq

inductive Event where
  /-- the `HISIFB_OV_ONLINE_PLAY` ioctl -/
  | played (overlay : DssOverlay)
  /-- the client target is posted to the framebuffer device -/
  | posted
  | returned (error : Option Hwc2Error)

/-- How the calls of a presentation out of the adapter end. -/
structure Outcome where
  openOk : Bool
  ioctlOk : Bool

namespace Adapter

/-- The arguments with which the client target is filled, above the video. -/
def clientGeometry (s : Adapter) : LayerGeometry where
  sourceCrop := ⟨0, 0, s.fbInfo.width, s.fbInfo.height⟩
  displayFrame := ⟨0, 0, toInt32 s.fbInfo.width, toInt32 s.fbInfo.height⟩
  blendMode := hwc2BlendModePremultiplied
  planeAlpha := 1
  transform := 0
  layerIndex := 1
  channel := 3
  needCap := capFbPost

/-- An overlay that failed is not tried again until the property is off. -/
def disableOverlay (s : Adapter) : Adapter :=
  { s with
    overlayDisabledByError := true
    hasOverlayLayer := false
    overlayUsesClientTarget := false
    state := .modified }

/-- The layers of the overlay: the video and, if it is used, the client target.
-/
def overlayLayers (s : Adapter) (video : LayerState) : Option (List DssLayer) := do
  if s.overlayUsesClientTarget ∧ s.buffer.isNone then none
  let videoLayer ← fillDssLayer video.buffer video.videoGeometry
  if s.overlayUsesClientTarget then
    let clientLayer ← fillDssLayer s.buffer s.clientGeometry
    return [videoLayer, clientLayer]
  else
    return [videoLayer]

def playedOverlay (s : Adapter) (layers : List DssLayer) : DssOverlay where
  layerInfos := layers
  layerNums := layers.length
  releaseFence := -1
  ovlFlags := dssScenePdpOnline
  dirtyRect := ⟨0, 0, s.fbInfo.width, s.fbInfo.height⟩

/-- Whether the overlay has been shown, with the adapter and the events after. -/
def postOverlay (s : Adapter) (outcome : Outcome) : Bool × Adapter × List Event :=
  if ¬ s.hasOverlayLayer ∨ s.overlayDisabledByError then (false, s, [])
  else
    match s.layerStates.find s.overlayLayer with
    | none => (false, s, [])
    | some video =>
        match s.overlayLayers video with
        | none => (false, s.disableOverlay, [])
        | some layers =>
            if ¬ outcome.openOk then (false, s.disableOverlay, [])
            else if ¬ outcome.ioctlOk then
              (false, s.disableOverlay, [.played (s.playedOverlay layers)])
            else (true, s, [.played (s.playedOverlay layers)])

def fbPost (s : Adapter) : List Event := if s.buffer.isSome then [.posted] else []

def postBuffer (s : Adapter) (outcome : Outcome) : Adapter × List Event :=
  if s.hasOverlayLayer then
    match s.postOverlay outcome with
    | (true, s', es) => (s', es)
    | (false, s', es) => (s', es ++ s'.fbPost)
  else (s, s.fbPost)

end Adapter

/-! ### Hooks -/

inductive Action where
  | createLayer (keys : List LayerId) (modified : Bool)
  | destroyLayer (layer : LayerId) (modified : Bool)
  | setClientTarget (target : BufferHandle) (modified : Bool)
  /-- any property of a layer that the adapter does not keep -/
  | setLayerState (layer : LayerId) (modified : Bool)
  | setLayerBuffer (layer : LayerId) (buffer : BufferHandle)
  | setLayerCompositionType (layer : LayerId) (type : ℤ)
  | setLayerBlendMode (layer : LayerId) (mode : ℤ)
  | setLayerDisplayFrame (layer : LayerId) (frame : Rect)
  | setLayerPlaneAlpha (layer : LayerId) (alpha : ℚ)
  | setLayerSourceCrop (layer : LayerId) (crop : FRect)
  | setLayerTransform (layer : LayerId) (transform : ℤ)
  | setLayerZOrder (layer : LayerId) (z : ℕ)
  /-- with the overlay property as it is read -/
  | validateDisplay (property : Bool)
  | acceptDisplayChanges
  | presentDisplay (outcome : Outcome)

namespace Adapter

/-- A hook that has no say in the state, and may have set it. -/
def touch (s : Adapter) (modified : Bool) : Adapter :=
  if modified then s.setState .modified else s

/-- The end of a setter hook: the state is `modified`, or the layer unknown. -/
def settle (s : Adapter) : Option Adapter → Adapter × List Event
  | some s' => (s'.setState .modified, [.returned none])
  | none => (s, [.returned (some .badLayer)])

def step : Machine Adapter Action Event
  | s, .createLayer keys modified =>
      if hkeys : keys.Perm (s.layerStates.keys.insert s.nextId) then
        some ((s.addLayer keys hkeys).touch modified, [.returned none])
      else none
  | s, .destroyLayer layer modified =>
      match s.removeLayer layer with
      | some s' => some (s'.touch modified, [.returned none])
      | none => some (s, [.returned (some .badLayer)])
  | s, .setClientTarget target modified =>
      some ((s.setBuffer target).touch modified, [.returned none])
  | s, .setLayerState layer modified =>
      if layer ∈ s.layers then some (s.touch modified, [.returned none])
      else some (s, [.returned (some .badLayer)])
  | s, .setLayerBuffer layer buffer =>
      -- a new buffer alone is no reason to validate again
      if layer ∈ s.layers then
        some ((s.setLayerBuffer layer buffer).getD s, [.returned none])
      else some (s, [.returned (some .badLayer)])
  | s, .setLayerCompositionType layer type =>
      some (s.settle (s.setLayerCompositionType layer type))
  | s, .setLayerBlendMode layer mode => some (s.settle (s.setLayerBlendMode layer mode))
  | s, .setLayerDisplayFrame layer frame =>
      some (s.settle (s.setLayerDisplayFrame layer frame))
  | s, .setLayerPlaneAlpha layer alpha =>
      some (s.settle (s.setLayerPlaneAlpha layer alpha))
  | s, .setLayerSourceCrop layer crop =>
      some (s.settle (s.setLayerSourceCrop layer crop))
  | s, .setLayerTransform layer transform =>
      some (s.settle (s.setLayerTransform layer transform))
  | s, .setLayerZOrder layer z => some (s.settle (s.setLayerZOrder layer z))
  | s, .validateDisplay property =>
      let s' := s.validateLayers property
      if s'.changedTypes ≠ [] ∨ s'.clearClientTargetLayers ≠ ∅ then
        some (s'.setState .validatedWithChanges, [.returned (some .hasChanges)])
      else some (s'.setState .validated, [.returned none])
  | s, .acceptDisplayChanges =>
      if s.state = .modified then some (s, [.returned (some .notValidated)])
      else some (s.acceptChanges.setState .validated, [.returned none])
  | s, .presentDisplay outcome =>
      if s.state = .validated then
        let p := s.postBuffer outcome
        some (p.1, p.2 ++ [.returned none])
      else some (s, [.returned (some .notValidated)])

/-- Everything that a step can be. -/
inductive Step (s : Adapter) : Action → Adapter × List Event → Prop where
  | create {keys modified} (hkeys : keys.Perm (s.layerStates.keys.insert s.nextId)) :
      Step s (.createLayer keys modified)
        ((s.addLayer keys hkeys).touch modified, [.returned none])
  | destroy {layer modified s'} (hs : s.removeLayer layer = some s') :
      Step s (.destroyLayer layer modified) (s'.touch modified, [.returned none])
  | target {target modified} :
      Step s (.setClientTarget target modified)
        ((s.setBuffer target).touch modified, [.returned none])
  | other {layer modified} (hl : layer ∈ s.layers) :
      Step s (.setLayerState layer modified) (s.touch modified, [.returned none])
  | newBuffer {layer buffer} (hl : layer ∈ s.layers) :
      Step s (.setLayerBuffer layer buffer)
        ((s.setLayerBuffer layer buffer).getD s, [.returned none])
  | set {a layer f s'} (hs : s.setLayer layer f = some s') :
      Step s a (s'.setState .modified, [.returned none])
  | validate {property state error}
      (hstate : state =
        if (s.validateLayers property).changedTypes ≠ [] ∨
            (s.validateLayers property).clearClientTargetLayers ≠ ∅ then
          .validatedWithChanges
        else .validated) :
      Step s (.validateDisplay property)
        ((s.validateLayers property).setState state, [.returned error])
  | accept (hstate : s.state ≠ .modified) :
      Step s .acceptDisplayChanges (s.acceptChanges.setState .validated, [.returned none])
  | present {outcome} (hstate : s.state = .validated) :
      Step s (.presentDisplay outcome)
        ((s.postBuffer outcome).1, (s.postBuffer outcome).2 ++ [.returned none])
  | refuse {a error} : Step s a (s, [.returned (some error)])

theorem settle_spec {s : Adapter} {a : Action} {layer : LayerId}
    {f : LayerState → LayerState} : Step s a (s.settle (s.setLayer layer f)) := by
  cases hs : s.setLayer layer f with
  | none => exact .refuse
  | some s' => exact .set hs

theorem step_spec {s : Adapter} {a : Action} {p : Adapter × List Event}
    (h : step s a = some p) : Step s a p := by
  cases a with
  | createLayer keys modified =>
      simp only [step] at h
      split_ifs at h with hkeys
      cases h
      exact .create hkeys
  | destroyLayer layer modified =>
      simp only [step] at h
      split at h <;> cases h
      · exact .destroy ‹_›
      · exact .refuse
  | setClientTarget target modified =>
      cases h
      exact .target
  | setLayerState layer modified =>
      simp only [step] at h
      split_ifs at h with hl <;> cases h
      · exact .other hl
      · exact .refuse
  | setLayerBuffer layer buffer =>
      simp only [step] at h
      split_ifs at h with hl <;> cases h
      · exact .newBuffer hl
      · exact .refuse
  | validateDisplay property =>
      simp only [step] at h
      split_ifs at h with hchanges <;> cases h
      · exact .validate (by rw [if_pos hchanges])
      · exact .validate (by rw [if_neg hchanges])
  | acceptDisplayChanges =>
      simp only [step] at h
      split_ifs at h with hstate <;> cases h
      · exact .refuse
      · exact .accept hstate
  | presentDisplay outcome =>
      simp only [step] at h
      split_ifs at h with hstate <;> cases h
      · exact .present hstate
      · exact .refuse
  | _ =>
      cases h
      exact settle_spec

end Adapter

end MozartLineage.Composer
