import MozartLineage.Composer.Overlay

/-!
# The operations of the adapter, in any order

The hooks call the operations of the adapter only in some orders, and look at the
state before they do. Here the operations are called in any order, with any
ending of the calls out of the adapter. `run_operate` says that the hooks do
nothing else.

`Bookkeeping` is what the layers, the results of the last validation and the
overlay keep of each other.
-/

namespace MozartLineage.Composer

open Transition

inductive Operation where
  | addLayer (keys : List LayerId)
  | removeLayer (layer : LayerId)
  | setLayerBuffer (layer : LayerId) (buffer : BufferHandle)
  | setLayerCompositionType (layer : LayerId) (type : ℤ)
  | setLayerBlendMode (layer : LayerId) (mode : ℤ)
  | setLayerDisplayFrame (layer : LayerId) (frame : Rect)
  | setLayerPlaneAlpha (layer : LayerId) (alpha : ℚ)
  | setLayerSourceCrop (layer : LayerId) (crop : FRect)
  | setLayerTransform (layer : LayerId) (transform : ℤ)
  | setLayerZOrder (layer : LayerId) (z : ℕ)
  /-- with the overlay property as it is read -/
  | validateLayers (property : Bool)
  | acceptChanges
  | setBuffer (buffer : BufferHandle)
  | setState (state : Validation)
  | postBuffer (outcome : Outcome)

/-- The layer that is removed or set. -/
def Operation.target : Operation → Option LayerId
  | .removeLayer layer => some layer
  | .setLayerBuffer layer _ => some layer
  | .setLayerCompositionType layer _ => some layer
  | .setLayerBlendMode layer _ => some layer
  | .setLayerDisplayFrame layer _ => some layer
  | .setLayerPlaneAlpha layer _ => some layer
  | .setLayerSourceCrop layer _ => some layer
  | .setLayerTransform layer _ => some layer
  | .setLayerZOrder layer _ => some layer
  | _ => none

inductive Effect where
  /-- the device is called, in the course of a post -/
  | shown (event : Event)
  /-- what an operation on one layer returns -/
  | returned (found : Bool)

/-- The event of a device that an effect is. -/
def Effect.event? : Effect → Option Event
  | .shown event => some event
  | .returned _ => none

def Event.onDevice : Event → Bool
  | .returned _ => false
  | _ => true

namespace Adapter

/-- An operation on one layer: `false` and no change where there is none. -/
def reply (s : Adapter) : Option Adapter → Adapter × List Effect
  | some s' => (s', [.returned true])
  | none => (s, [.returned false])

/-- An operation; adding a layer takes an order that the layers can have then. -/
def operate : Machine Adapter Operation Effect
  | s, .addLayer keys =>
      if hkeys : keys.Perm (s.layerStates.keys.insert s.nextId) then
        some (s.addLayer keys hkeys, [])
      else none
  | s, .removeLayer layer => some (s.reply (s.removeLayer layer))
  | s, .setLayerBuffer layer buffer => some (s.reply (s.setLayerBuffer layer buffer))
  | s, .setLayerCompositionType layer type =>
      some (s.reply (s.setLayerCompositionType layer type))
  | s, .setLayerBlendMode layer mode => some (s.reply (s.setLayerBlendMode layer mode))
  | s, .setLayerDisplayFrame layer frame =>
      some (s.reply (s.setLayerDisplayFrame layer frame))
  | s, .setLayerPlaneAlpha layer alpha =>
      some (s.reply (s.setLayerPlaneAlpha layer alpha))
  | s, .setLayerSourceCrop layer crop =>
      some (s.reply (s.setLayerSourceCrop layer crop))
  | s, .setLayerTransform layer transform =>
      some (s.reply (s.setLayerTransform layer transform))
  | s, .setLayerZOrder layer z => some (s.reply (s.setLayerZOrder layer z))
  | s, .validateLayers property => some (s.validateLayers property, [])
  | s, .acceptChanges => some (s.acceptChanges, [])
  | s, .setBuffer buffer => some (s.setBuffer buffer, [])
  | s, .setState state => some (s.setState state, [])
  | s, .postBuffer outcome =>
      some ((s.postBuffer outcome).1, (s.postBuffer outcome).2.map .shown)

/-- Everything that an operation can be. -/
inductive Operated (s : Adapter) : Operation → Adapter × List Effect → Prop where
  | add {keys} (hkeys : keys.Perm (s.layerStates.keys.insert s.nextId)) :
      Operated s (.addLayer keys) (s.addLayer keys hkeys, [])
  | remove {layer s'} (hs : s.removeLayer layer = some s') :
      Operated s (.removeLayer layer) (s', [.returned true])
  | set {op layer f s'} (htarget : op.target = some layer)
      (hf : ∀ st, (f st).validatedType = st.validatedType)
      (hs : s.setLayer layer f = some s') : Operated s op (s', [.returned true])
  | validate {property} :
      Operated s (.validateLayers property) (s.validateLayers property, [])
  | accept : Operated s .acceptChanges (s.acceptChanges, [])
  | buffer {buffer} : Operated s (.setBuffer buffer) (s.setBuffer buffer, [])
  | state {state} : Operated s (.setState state) (s.setState state, [])
  | post {outcome} :
      Operated s (.postBuffer outcome)
        ((s.postBuffer outcome).1, (s.postBuffer outcome).2.map .shown)
  | refuse {op layer} (htarget : op.target = some layer)
      (hs : layer ∉ s.layers ∨ s.layerStates.find layer = none) :
      Operated s op (s, [.returned false])

variable {s : Adapter}

theorem reply_setLayer_spec {op : Operation} {layer : LayerId}
    {f : LayerState → LayerState} (htarget : op.target = some layer)
    (hf : ∀ st, (f st).validatedType = st.validatedType) :
    Operated s op (s.reply (s.setLayer layer f)) := by
  cases hs : s.setLayer layer f with
  | none =>
      refine .refuse htarget (Or.inr ?_)
      unfold setLayer at hs
      split_ifs at hs with hfind
      exact Option.not_isSome_iff_eq_none.1 hfind
  | some s' => exact .set htarget hf hs

theorem operate_spec {op : Operation} {p : Adapter × List Effect}
    (h : operate s op = some p) : Operated s op p := by
  cases op with
  | addLayer keys =>
      simp only [operate] at h
      split_ifs at h with hkeys
      cases h
      exact .add hkeys
  | removeLayer layer =>
      cases h
      cases hs : s.removeLayer layer with
      | none =>
          refine .refuse rfl (Or.inl ?_)
          intro hl
          simp [removeLayer, hl] at hs
      | some s' => exact .remove hs
  | validateLayers property =>
      cases h
      exact .validate
  | acceptChanges =>
      cases h
      exact .accept
  | setBuffer buffer =>
      cases h
      exact .buffer
  | setState state =>
      cases h
      exact .state
  | postBuffer outcome =>
      cases h
      exact .post
  | _ =>
      cases h
      exact reply_setLayer_spec rfl fun _ => rfl

/-- A layer that is not there is neither removed nor set. -/
theorem operate_of_notMem {op : Operation} {layer : LayerId}
    (htarget : op.target = some layer) (hl : layer ∉ s.layers)
    (hfind : s.layerStates.find layer = none) :
    operate s op = some (s, [.returned false]) := by
  have hset (f : LayerState → LayerState) : s.setLayer layer f = none := by
    simp [setLayer, hfind]
  cases op with
  | removeLayer layer' =>
      obtain rfl : layer' = layer := Option.some.inj htarget
      simp [operate, removeLayer, hl, reply]
  | addLayer | validateLayers | acceptChanges | setBuffer | setState | postBuffer =>
      cases htarget
  | _ =>
      cases htarget
      exact congrArg (fun s' => some (s.reply s')) (hset _)

/-! ### Bookkeeping -/

theorem eq_of_validatedTypeOf_device {overlayLayer layer : LayerId}
    (h : validatedTypeOf overlayLayer layer = hwc2CompositionDevice) :
    overlayLayer ≠ 0 ∧ layer = overlayLayer := by
  unfold validatedTypeOf at h
  split_ifs at h with hl
  · exact hl
  · exact absurd h (by decide)

/-- The layers are known twice over, and what is known of the last validation is
about layers that are still there. -/
structure Bookkeeping (s : Adapter) : Prop where
  layers : ∀ layer, layer ∈ s.layers ↔ layer ∈ s.layerStates.keys
  changedTypes : ∀ e ∈ s.changedTypes, e.1 ∈ s.layers
  clearClientTarget : ∀ layer ∈ s.clearClientTargetLayers, layer ∈ s.layers
  device : ∀ layer layer' st st', s.layerStates.find layer = some st →
    s.layerStates.find layer' = some st' → st.validatedType = hwc2CompositionDevice →
      st'.validatedType = hwc2CompositionDevice → layer = layer'
  overlay : s.hasOverlayLayer → s.overlayDisabledByError = false ∧
    ∃ st, s.layerStates.find s.overlayLayer = some st ∧
      st.validatedType = hwc2CompositionDevice
  usesClientTarget : s.overlayUsesClientTarget → s.hasOverlayLayer

theorem bookkeeping_init (fbInfo : Info) : (init fbInfo).Bookkeeping where
  layers layer := by simp [init, UnorderedMap.empty]
  changedTypes := by simp [init]
  clearClientTarget := by simp [init]
  device layer layer' st st' hst := by simp [init] at hst
  overlay := by simp [init]
  usesClientTarget := by simp [init]

theorem Bookkeeping.find_eq_none (h : s.Bookkeeping) {layer : LayerId}
    (hl : layer ∉ s.layers) : s.layerStates.find layer = none := by
  rw [h.layers, s.layerStates.mem_keys] at hl
  exact Option.not_isSome_iff_eq_none.1 hl

theorem Bookkeeping.mem_layers (h : s.Bookkeeping) {layer : LayerId} {st : LayerState}
    (hst : s.layerStates.find layer = some st) : layer ∈ s.layers := by
  rw [h.layers, s.layerStates.mem_keys]
  exact Option.isSome_of_eq_some hst

/-- An id that is given out again finds its layer as it is. -/
theorem Bookkeeping.addLayer (h : s.Bookkeeping) {keys : List LayerId}
    (hkeys : keys.Perm (s.layerStates.keys.insert s.nextId)) :
    (s.addLayer keys hkeys).Bookkeeping where
  layers layer := by
    change layer ∈ insert s.nextId s.layers ↔ layer ∈ keys
    rw [hkeys.mem_iff, List.mem_insert_iff, Finset.mem_insert, h.layers]
  changedTypes e he := Finset.mem_insert_of_mem (h.changedTypes e he)
  clearClientTarget layer hl := Finset.mem_insert_of_mem (h.clearClientTarget layer hl)
  device layer layer' st st' hst hst' hd hd' := by
    -- a layer that is new has been assigned the type of the client
    have hold (l : LayerId) (x : LayerState) (hx : x.validatedType = hwc2CompositionDevice)
        (hfind : (s.layerStates.emplace s.nextId {} keys hkeys).find l = some x) :
        s.layerStates.find l = some x := by
      rw [UnorderedMap.find_emplace] at hfind
      split_ifs at hfind
      · cases hl : s.layerStates.find l with
        | none =>
            rw [hl, Option.none_or, Option.some.injEq] at hfind
            subst hfind
            exact absurd hx (by decide)
        | some y => simpa [hl] using hfind
      · exact hfind
    exact h.device layer layer' st st' (hold layer st hd hst) (hold layer' st' hd' hst')
      hd hd'
  overlay hlayer := by
    obtain ⟨hdisabled, st, hst, hd⟩ := h.overlay hlayer
    exact ⟨hdisabled, st, UnorderedMap.find_emplace_of_eq_some _ hkeys hst, hd⟩
  usesClientTarget := h.usesClientTarget

theorem Bookkeeping.removeLayer (h : s.Bookkeeping) {layer : LayerId} {s' : Adapter}
    (hs : s.removeLayer layer = some s') : s'.Bookkeeping := by
  unfold Adapter.removeLayer at hs
  split_ifs at hs
  cases hs
  have hfind (l : LayerId) (st : LayerState)
      (hst : (s.layerStates.erase layer).find l = some st) :
      l ≠ layer ∧ s.layerStates.find l = some st := by
    rw [UnorderedMap.find_erase] at hst
    split_ifs at hst with hl
    exact ⟨hl, hst⟩
  refine ⟨fun l => ?_, ?_, ?_, ?_, ?_, ?_⟩
  · change l ∈ s.layers.erase layer ↔ l ∈ s.layerStates.keys.erase layer
    rw [Finset.mem_erase, s.layerStates.nodup.mem_erase_iff, h.layers]
  · intro e he
    obtain ⟨he, hl⟩ := List.mem_filter.1 he
    exact Finset.mem_erase.2 ⟨by simpa using hl, h.changedTypes e he⟩
  · intro l hl
    obtain ⟨hne, hl⟩ := Finset.mem_erase.1 hl
    exact Finset.mem_erase.2 ⟨hne, h.clearClientTarget l hl⟩
  · intro l l' st st' hst hst' hd hd'
    exact h.device l l' st st' (hfind l st hst).2 (hfind l' st' hst').2 hd hd'
  · intro hlayer
    have hkept : s.hasOverlayLayer ∧ s.overlayLayer ≠ layer := by
      by_cases hl : s.overlayLayer = layer <;> simp_all
    obtain ⟨hdisabled, st, hst, hd⟩ := h.overlay hkept.1
    exact ⟨hdisabled, st, by simpa [UnorderedMap.find_erase, hkept.2] using hst, hd⟩
  · intro hused
    by_cases hgone : s.hasOverlayLayer ∧ s.overlayLayer = layer
    · simp [hgone] at hused
    · simp only [hgone, if_false] at hused ⊢
      exact h.usesClientTarget hused

/-- New states of the same layers, with the types of the last validation. -/
theorem Bookkeeping.of_types (h : s.Bookkeeping) {m : UnorderedMap LayerId LayerState}
    {changedTypes : List (LayerId × ℤ)} (hkeys : m.keys = s.layerStates.keys)
    (hchanged : ∀ e ∈ changedTypes, e ∈ s.changedTypes)
    (hm : ∀ layer, (m.find layer).map LayerState.validatedType =
      (s.layerStates.find layer).map LayerState.validatedType) :
    Bookkeeping { s with layerStates := m, changedTypes := changedTypes } where
  layers layer := by
    change layer ∈ s.layers ↔ layer ∈ m.keys
    rw [hkeys, h.layers]
  changedTypes e he := h.changedTypes e (hchanged e he)
  clearClientTarget := h.clearClientTarget
  device layer layer' st st' hst hst' hd hd' := by
    have hold (l : LayerId) (x : LayerState) (hx : m.find l = some x) :
        ∃ y, s.layerStates.find l = some y ∧ y.validatedType = x.validatedType := by
      have hl := hm l
      rw [hx, Option.map_some] at hl
      exact Option.map_eq_some_iff.1 hl.symm
    obtain ⟨y, hy, hyx⟩ := hold layer st hst
    obtain ⟨y', hy', hyx'⟩ := hold layer' st' hst'
    exact h.device layer layer' y y' hy hy' (hyx.trans hd) (hyx'.trans hd')
  overlay hlayer := by
    obtain ⟨hdisabled, st, hst, hd⟩ := h.overlay hlayer
    have hl := hm s.overlayLayer
    rw [hst, Option.map_some] at hl
    obtain ⟨x, hx, hxd⟩ := Option.map_eq_some_iff.1 hl
    exact ⟨hdisabled, x, hx, hxd.trans hd⟩
  usesClientTarget := h.usesClientTarget

theorem Bookkeeping.setLayer (h : s.Bookkeeping) {layer : LayerId}
    {f : LayerState → LayerState} (hf : ∀ st, (f st).validatedType = st.validatedType)
    {s' : Adapter} (hs : s.setLayer layer f = some s') : s'.Bookkeeping := by
  unfold Adapter.setLayer at hs
  split_ifs at hs
  cases hs
  refine h.of_types rfl (fun _ he => he) fun l => ?_
  rw [UnorderedMap.find_modify]
  split_ifs
  · rw [Option.map_map]
    exact congrArg (Option.map · _) (funext hf)
  · rfl

theorem Bookkeeping.validateLayers (h : s.Bookkeeping) (property : Bool) :
    (s.validateLayers property).Bookkeeping where
  layers := h.layers
  changedTypes e he := by
    obtain ⟨e', he', hchanged⟩ := List.mem_filterMap.1 he
    split_ifs at hchanged
    cases hchanged
    exact h.mem_layers (UnorderedMap.mem_toList.1 he')
  clearClientTarget layer hl := by
    change layer ∈ (if _ then _ else _ : Finset LayerId) at hl
    split_ifs at hl with hused
    · rw [Finset.mem_singleton] at hl
      obtain ⟨st, hst, -⟩ := chooseOverlay_eligible hused.1
      exact hl ▸ h.mem_layers hst
    · simp at hl
  device layer layer' st st' hst hst' hd hd' := by
    have hchosen (l : LayerId) (x : LayerState)
        (hx : (s.validateLayers property).layerStates.find l = some x)
        (hxd : x.validatedType = hwc2CompositionDevice) : l = s.chooseOverlay property := by
      obtain ⟨y, -, rfl⟩ := Option.map_eq_some_iff.1 hx
      exact (eq_of_validatedTypeOf_device hxd).2
    rw [hchosen layer st hst hd, hchosen layer' st' hst' hd']
  overlay hlayer := by
    have hne : s.chooseOverlay property ≠ 0 := of_decide_eq_true hlayer
    obtain ⟨st, hst, hready⟩ := overlayKept_validateLayers s property hlayer
    refine ⟨?_, st, hst, hready.device⟩
    cases hdisabled : s.overlayDisabledByError with
    | false => simp [Adapter.validateLayers, hdisabled]
    | true => simp [chooseOverlay, hdisabled] at hne
  usesClientTarget hused := decide_eq_true (of_decide_eq_true hused).1

theorem Bookkeeping.acceptChanges (h : s.Bookkeeping) : s.acceptChanges.Bookkeeping := by
  refine h.of_types rfl (by simp) fun l => ?_
  rw [UnorderedMap.find_mapValues, Option.map_map]
  rfl

theorem Bookkeeping.disableOverlay (h : s.Bookkeeping) : s.disableOverlay.Bookkeeping where
  layers := h.layers
  changedTypes := h.changedTypes
  clearClientTarget := h.clearClientTarget
  device := h.device
  overlay hlayer := absurd hlayer (by simp [Adapter.disableOverlay])
  usesClientTarget hused := absurd hused (by simp [Adapter.disableOverlay])

theorem operate_bookkeeping {op : Operation} {p : Adapter × List Effect}
    (h : s.Bookkeeping) (hs : operate s op = some p) : p.1.Bookkeeping := by
  cases operate_spec hs with
  | add hkeys => exact h.addLayer hkeys
  | remove hremove => exact h.removeLayer hremove
  | set _ hf hset => exact h.setLayer hf hset
  | validate => exact h.validateLayers _
  | accept => exact h.acceptChanges
  | buffer => exact { h with }
  | state => exact { h with }
  | post =>
      rcases postBuffer_spec s _ with hp | hp
      · rwa [hp]
      · rw [hp]
        exact h.disableOverlay
  | refuse => exact h

theorem bookkeeping_of_run {fbInfo : Info} {ops : List Operation} {s : Adapter}
    {os : List Effect} (hrun : operate.run (init fbInfo) ops = some (s, os)) :
    s.Bookkeeping :=
  Machine.run_invariant (P := fun s _ => s.Bookkeeping)
    (fun _ _ _ t o h hs => operate_bookkeeping (p := (t, o)) h hs)
    (bookkeeping_init fbInfo) hrun

/-- Whatever is done with the adapter keeps the bookkeeping, and a layer that is
not there is neither removed nor set. -/
theorem run_bookkeeping {fbInfo : Info} {ops : List Operation} {s : Adapter}
    {os : List Effect} (hrun : operate.run (init fbInfo) ops = some (s, os)) :
    s.Bookkeeping ∧ ∀ op layer, op.target = some layer → layer ∉ s.layers →
      operate s op = some (s, [.returned false]) := by
  have h := bookkeeping_of_run hrun
  refine ⟨h, fun op layer htarget hl => ?_⟩
  exact operate_of_notMem htarget hl (h.find_eq_none hl)

/-- A new layer with a video frame. -/
def addVideo (layer : LayerId) : List Operation :=
  [.addLayer [layer], .setLayerCompositionType layer hwc2CompositionDevice,
    .setLayerDisplayFrame layer ⟨0, 0, 16, 16⟩, .setLayerSourceCrop layer ⟨0, 0, 16, 16⟩,
    .setLayerBuffer layer (frameBuffer halPixelFormatYCrCb420Sp)]

def videoLayer : List Operation := addVideo 1 ++ [.validateLayers true]

theorem run_videoLayer :
    ∃ s os, operate.run (init display) videoLayer = some (s, os) ∧ s.hasOverlayLayer ∧
      2 ∉ s.layers ∧ (s.postOverlay ⟨true, false⟩).1 = false := by
  have hall : ((operate.run (init display) videoLayer).any fun p =>
      p.1.hasOverlayLayer ∧ 2 ∉ p.1.layers ∧
        (p.1.postOverlay ⟨true, false⟩).1 = false) = true := by
    decide +kernel
  cases hrun : operate.run (init display) videoLayer with
  | none => simp [hrun] at hall
  | some p =>
      rw [hrun, Option.any_some, decide_eq_true_eq] at hall
      exact ⟨p.1, p.2, rfl, hall⟩

theorem bookkeeping_videoLayer :
    ∃ s os, operate.run (init display) videoLayer = some (s, os) ∧ s.hasOverlayLayer ∧
      s.Bookkeeping ∧ operate s (.removeLayer 2) = some (s, [.returned false]) := by
  obtain ⟨s, os, hrun, hlayer, hl, -⟩ := run_videoLayer
  obtain ⟨hkept, hrefused⟩ := run_bookkeeping hrun
  exact ⟨s, os, hrun, hlayer, hkept, hrefused (.removeLayer 2) 2 rfl hl⟩

/-! ### The hooks as operations -/

/-- What operations do in the place of the action `a` of the hooks. -/
def Operates (s : Adapter) (a : Action) (p : Adapter × List Event) : Prop :=
  ∃ ops os, operate.run s ops = some (p.1, os) ∧
    (∀ property, .validateLayers property ∈ ops → a = .validateDisplay property) ∧
      os.filterMap Effect.event? = p.2.filter Event.onDevice

theorem Operates.refuse {a : Action} {error : Option Hwc2Error} :
    s.Operates a (s, [.returned error]) :=
  ⟨[], [], rfl, by simp, rfl⟩

/-- One operation that calls no device, and then perhaps another state. -/
theorem Operates.of_operate {a : Action} {t u : Adapter} {error : Option Hwc2Error}
    (op : Operation) (found : List Bool) (hop : operate s op = some (t, found.map .returned))
    (hu : u = t ∨ ∃ state, u = t.setState state)
    (hvalidate : ∀ property, op = .validateLayers property → a = .validateDisplay property) :
    s.Operates a (u, [.returned error]) := by
  have hquiet : (found.map Effect.returned).filterMap Effect.event? = [] := by
    simp [List.filterMap_map, Function.comp_def, Effect.event?]
  rcases hu with rfl | ⟨state, rfl⟩
  · refine ⟨[op], found.map .returned, ?_, ?_, hquiet⟩
    · simp [Machine.run, hop]
    · intro property hmem
      exact hvalidate property (List.mem_singleton.1 hmem).symm
  · refine ⟨[op, .setState state], found.map .returned, ?_, ?_, hquiet⟩
    · exact Machine.run_cons_eq_some.2 ⟨t, found.map .returned, [], hop, rfl, by simp⟩
    · intro property hmem
      simp only [List.mem_cons, reduceCtorEq, List.not_mem_nil, or_false] at hmem
      exact hvalidate property hmem.symm

theorem touch_eq (s : Adapter) (modified : Bool) :
    s.touch modified = s ∨ ∃ state, s.touch modified = s.setState state := by
  cases modified with
  | false => exact Or.inl rfl
  | true => exact Or.inr ⟨.modified, rfl⟩

theorem Operates.settle {a : Action} (op : Operation) {r : Option Adapter}
    (hop : operate s op = some (s.reply r))
    (hvalidate : ∀ property, op ≠ .validateLayers property) :
    s.Operates a (s.settle r) := by
  cases r with
  | none => exact .refuse
  | some s' =>
      exact .of_operate op [true] hop (Or.inr ⟨.modified, rfl⟩)
        fun property h => absurd h (hvalidate property)

theorem postBuffer_onDevice (s : Adapter) (outcome : Outcome) :
    ∀ e ∈ (s.postBuffer outcome).2, e.onDevice := by
  have hfb (s' : Adapter) : ∀ e ∈ s'.fbPost, e.onDevice := by
    unfold fbPost
    split_ifs <;> simp [Event.onDevice]
  have hoverlay : ∀ e ∈ (s.postOverlay outcome).2.2, e.onDevice := by
    generalize hp : s.postOverlay outcome = p
    cases hp ▸ postOverlay_spec s outcome with
    | skip => simp
    | fail => simp
    | play => simp [Event.onDevice]
  unfold postBuffer
  split_ifs
  · split
    · next hp => simpa [hp] using hoverlay
    · next s' es hp =>
      intro e he
      rcases List.mem_append.1 he with he | he
      · exact hoverlay e (by simpa [hp] using he)
      · exact hfb s' e he
  · exact hfb s

/-- Every hook calls operations of the adapter, or none. -/
theorem step_operates {a : Action} {p : Adapter × List Event} (h : step s a = some p) :
    s.Operates a p := by
  cases a with
  | createLayer keys modified =>
      simp only [step] at h
      split_ifs at h with hkeys
      cases h
      exact .of_operate (.addLayer keys) [] (by simp [operate, hkeys])
        (touch_eq _ modified) (by simp)
  | destroyLayer layer modified =>
      simp only [step] at h
      split at h <;> cases h
      · next s' hs =>
        exact .of_operate (.removeLayer layer) [true]
          (by simp [operate, hs, reply]) (touch_eq s' modified) (by simp)
      · exact .refuse
  | setClientTarget target modified =>
      cases h
      exact .of_operate (.setBuffer target) [] rfl (touch_eq _ modified)
        (by simp)
  | setLayerState layer modified =>
      simp only [step] at h
      split_ifs at h with hl <;> cases h
      · rcases touch_eq s modified with ht | ⟨state, ht⟩
        · rw [ht]
          exact .refuse
        · rw [ht]
          exact .of_operate (.setState state) [] rfl (Or.inl rfl) (by simp)
      · exact .refuse
  | setLayerBuffer layer buffer =>
      simp only [step] at h
      split_ifs at h with hl <;> cases h
      · cases hs : s.setLayerBuffer layer buffer with
        | none => exact .refuse
        | some s' =>
            exact .of_operate (.setLayerBuffer layer buffer) [true]
              (by simp [operate, hs, reply]) (Or.inl rfl) (by simp)
      · exact .refuse
  | setLayerCompositionType layer type =>
      cases h
      exact .settle (.setLayerCompositionType layer type) rfl (by simp)
  | setLayerBlendMode layer mode =>
      cases h
      exact .settle (.setLayerBlendMode layer mode) rfl (by simp)
  | setLayerDisplayFrame layer frame =>
      cases h
      exact .settle (.setLayerDisplayFrame layer frame) rfl (by simp)
  | setLayerPlaneAlpha layer alpha =>
      cases h
      exact .settle (.setLayerPlaneAlpha layer alpha) rfl (by simp)
  | setLayerSourceCrop layer crop =>
      cases h
      exact .settle (.setLayerSourceCrop layer crop) rfl (by simp)
  | setLayerTransform layer transform =>
      cases h
      exact .settle (.setLayerTransform layer transform) rfl (by simp)
  | setLayerZOrder layer z =>
      cases h
      exact .settle (.setLayerZOrder layer z) rfl (by simp)
  | validateDisplay property =>
      simp only [step] at h
      split_ifs at h <;> cases h
      all_goals
        exact .of_operate (.validateLayers property) [] rfl
          (Or.inr ⟨_, rfl⟩) (by simp)
  | acceptDisplayChanges =>
      simp only [step] at h
      split_ifs at h <;> cases h
      · exact .refuse
      · exact .of_operate .acceptChanges [] rfl (Or.inr ⟨_, rfl⟩) (by simp)
  | presentDisplay outcome =>
      simp only [step] at h
      split_ifs at h <;> cases h
      · refine ⟨[.postBuffer outcome], (s.postBuffer outcome).2.map .shown, ?_, by simp, ?_⟩
        · simp [Machine.run, operate]
        · rw [List.filter_append, List.filter_eq_self.2 (postBuffer_onDevice s outcome)]
          simp [List.filterMap_map, Function.comp_def, Effect.event?, Event.onDevice]
      · exact .refuse

/-- A run of the hooks is a run of operations, with the same calls of the
devices. -/
theorem run_operates {s t : Adapter} {as : List Action} {os : List Event}
    (hrun : step.run s as = some (t, os)) :
    ∃ ops os', operate.run s ops = some (t, os') ∧
      (∀ property, .validateLayers property ∈ ops → .validateDisplay property ∈ as) ∧
        os'.filterMap Effect.event? = os.filter Event.onDevice := by
  induction as generalizing s os with
  | nil =>
      cases hrun
      exact ⟨[], [], rfl, by simp, rfl⟩
  | cons a as ih =>
      obtain ⟨u, o, o', hu, ht, rfl⟩ := Machine.run_cons_eq_some.1 hrun
      obtain ⟨ops, os, hops, hvalidate, hos⟩ := step_operates hu
      obtain ⟨ops', os', hops', hvalidate', hos'⟩ := ih ht
      refine ⟨ops ++ ops', os ++ os',
        Machine.run_append_eq_some.2 ⟨u, os, os', hops, hops', rfl⟩, ?_, ?_⟩
      · intro property hmem
        rcases List.mem_append.1 hmem with hmem | hmem
        · exact List.mem_cons.2 (Or.inl (hvalidate property hmem).symm)
        · exact List.mem_cons_of_mem _ (hvalidate' property hmem)
      · rw [List.filterMap_append, List.filter_append, hos, hos']

end Adapter

end MozartLineage.Composer
