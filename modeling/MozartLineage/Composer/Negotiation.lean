import MozartLineage.Composer.Operations

/-!
# Negotiating the composition

A validation hands the largest eligible layer to the display subsystem and the
others to the client. Accepting its result makes the other layers ask for the
client themselves, so the next validation has only the chosen layer to choose.

The selection loop has `0` for no layer. Ids count from `1`, so that this is the
id of a layer only when the counter of `2 ^ 64` ids has come round.
-/

namespace MozartLineage.Composer

open Transition

variable {s : Adapter}

/-! ### The largest layer -/

theorem toUint32_pos {x : ℤ} (hpos : 0 < x) (hlt : x < 2 ^ 32) : 0 < toUint32 x := by
  rw [toUint32, Int.emod_eq_of_lt hpos.le hlt]
  omega

theorem toInt32_lt (word : ℕ) : toInt32 word < 2 ^ 31 := by
  have h : toInt32 word < ((2 ^ 32 : ℕ) + 1) / 2 := Int.bmod_lt (by norm_num)
  simpa using h

/-- An eligible layer has a frame on the display, and so an area. -/
theorem frameArea_pos_of_eligible {fbInfo : Info} {st : LayerState}
    (h : eligible fbInfo st) : 0 < frameArea st.displayFrame := by
  obtain ⟨-, -, -, hframe, hfits, -⟩ := eligible_iff.1 h
  rw [frameArea, if_pos hframe]
  simp only [rectIsValid, decide_eq_true_eq] at hframe
  simp only [frameFitsDisplay, decide_eq_true_eq] at hfits
  have hwidth := toInt32_lt fbInfo.width
  have hheight := toInt32_lt fbInfo.height
  apply Nat.mul_pos
  · exact toUint32_pos (by omega) (by omega)
  · exact toUint32_pos (by omega) (by omega)

theorem exists_selectOverlay {fbInfo : Info} {entries : List (LayerId × LayerState)}
    {e : LayerId × LayerState} (he : e ∈ entries) (hel : eligible fbInfo e.2) :
    ∃ st, (selectOverlay fbInfo entries, st) ∈ entries ∧ eligible fbInfo st ∧
      ∀ e' ∈ entries, eligible fbInfo e'.2 →
        frameArea e'.2.displayFrame ≤ frameArea st.displayFrame := by
  obtain ⟨hseen, -, hle⟩ := @foldl_considerLayer fbInfo entries (0, 0)
  have hpos := (frameArea_pos_of_eligible hel).trans_le (hle e he hel)
  rcases hseen with hz | ⟨c, hc, hcel, hr⟩
  · simp [hz] at hpos
  · have hid : selectOverlay fbInfo entries = c.1 := congrArg Prod.fst hr
    rw [hr] at hle
    exact ⟨c.2, by rwa [hid], hcel, hle⟩

namespace Adapter

/-- A layer that a validation may choose. -/
structure Candidate (s : Adapter) (property : Bool) (layer : LayerId) (st : LayerState) :
    Prop where
  enabled : property
  allowed : s.overlayDisabledByError = false
  find : s.layerStates.find layer = some st
  eligible : eligible s.fbInfo st

theorem candidate_of_chooseOverlay {property : Bool} (h : s.chooseOverlay property ≠ 0) :
    ∃ st, s.Candidate property (s.chooseOverlay property) st := by
  obtain ⟨st, hst, hel⟩ := chooseOverlay_eligible h
  have hon : property ∧ ¬ s.overlayDisabledByError := by
    by_contra hon
    exact h (if_neg hon)
  exact ⟨st, hon.1, by simpa using hon.2, hst, hel⟩

theorem Candidate.chooseOverlay {property : Bool} {layer : LayerId} {st : LayerState}
    (h : s.Candidate property layer st) :
    ∃ st', s.Candidate property (s.chooseOverlay property) st' ∧
      ∀ layer' st'', s.Candidate property layer' st'' →
        frameArea st''.displayFrame ≤ frameArea st'.displayFrame := by
  have hchoose : s.chooseOverlay property = selectOverlay s.fbInfo s.layerStates.toList :=
    if_pos ⟨h.enabled, by simp [h.allowed]⟩
  obtain ⟨st', hmem, hel, hle⟩ :=
    exists_selectOverlay (UnorderedMap.mem_toList.2 h.find) h.eligible
  rw [← hchoose] at hmem
  refine ⟨st', ⟨h.enabled, h.allowed, UnorderedMap.mem_toList.1 hmem, hel⟩, ?_⟩
  intro layer' st'' h'
  exact hle (layer', st'') (UnorderedMap.mem_toList.2 h'.find) h'.eligible

/-- Where no layer has the id `0`, the choice is `0` just for want of layers. -/
theorem chooseOverlay_eq_zero_iff {property : Bool} (hid : 0 ∉ s.layerStates.keys) :
    s.chooseOverlay property = 0 ↔ ∀ layer st, ¬ s.Candidate property layer st := by
  constructor
  · intro hz layer st h
    obtain ⟨st', h', -⟩ := h.chooseOverlay
    rw [hz] at h'
    exact hid ((s.layerStates.mem_keys 0).2 (Option.isSome_of_eq_some h'.find))
  · intro hnone
    by_contra hne
    obtain ⟨st, h⟩ := candidate_of_chooseOverlay hne
    exact hnone _ st h

/-! ### One validation -/

/-- The type that the last validation has given to a layer. -/
def assignedType (s : Adapter) (layer : LayerId) : ℤ :=
  if s.hasOverlayLayer ∧ layer = s.overlayLayer then hwc2CompositionDevice
  else hwc2CompositionClient

/-- What a validation that takes `s` to `v` is for. -/
structure Negotiated (s : Adapter) (property : Bool) (v : Adapter) : Prop where
  largest : v.hasOverlayLayer → ∃ st, s.Candidate property v.overlayLayer st ∧
    ∀ layer st', s.Candidate property layer st' →
      frameArea st'.displayFrame ≤ frameArea st.displayFrame
  none_iff : v.hasOverlayLayer = false ↔ ∀ layer st, ¬ s.Candidate property layer st
  assigned : ∀ layer, v.layerStates.find layer = (s.layerStates.find layer).map fun st =>
    { st with validatedType := v.assignedType layer }
  changed : ∀ layer type, (layer, type) ∈ v.changedTypes ↔
    ∃ st, s.layerStates.find layer = some st ∧ type = v.assignedType layer ∧
      st.requestedType ≠ type
  clear : ∀ layer, layer ∈ v.clearClientTargetLayers ↔
    v.hasOverlayLayer ∧ layer = v.overlayLayer ∧ ∃ other ∈ s.layerStates.keys, other ≠ layer

theorem assignedType_validateLayers (s : Adapter) (property : Bool) (layer : LayerId) :
    (s.validateLayers property).assignedType layer =
      validatedTypeOf (s.chooseOverlay property) layer := by
  unfold assignedType validatedTypeOf
  by_cases hne : s.chooseOverlay property = 0
  · simp [validateLayers, hne]
  · simp [validateLayers, hne]

theorem mem_changedTypes_validateLayers {property : Bool} {layer : LayerId} {type : ℤ} :
    (layer, type) ∈ (s.validateLayers property).changedTypes ↔
      ∃ st, s.layerStates.find layer = some st ∧
        type = (s.validateLayers property).assignedType layer ∧ st.requestedType ≠ type := by
  rw [assignedType_validateLayers]
  constructor
  · intro hmem
    obtain ⟨e, he, hchanged⟩ := List.mem_filterMap.1 hmem
    split_ifs at hchanged with hne
    cases hchanged
    exact ⟨e.2, UnorderedMap.mem_toList.1 he, rfl, hne⟩
  · rintro ⟨st, hst, rfl, hne⟩
    refine List.mem_filterMap.2 ⟨(layer, st), UnorderedMap.mem_toList.2 hst, ?_⟩
    rw [if_pos hne]

theorem hasClientComposition_iff {layer : LayerId} (hne : layer ≠ 0) :
    s.hasClientComposition layer ↔ ∃ other ∈ s.layerStates.keys, other ≠ layer := by
  rw [hasClientComposition, List.any_eq_true]
  refine exists_congr fun other => and_congr_right fun _ => ?_
  rw [decide_eq_true_eq, validatedTypeOf]
  by_cases hother : other = layer
  · simp [hother, hne, hwc2CompositionDevice, hwc2CompositionClient]
  · simp [hother]

theorem mem_clear_validateLayers {property : Bool} {layer : LayerId} :
    layer ∈ (s.validateLayers property).clearClientTargetLayers ↔
      (s.validateLayers property).hasOverlayLayer ∧
        layer = (s.validateLayers property).overlayLayer ∧
          ∃ other ∈ s.layerStates.keys, other ≠ layer := by
  by_cases hne : s.chooseOverlay property = 0
  · simp [validateLayers, hne]
  · have hclient := hasClientComposition_iff (s := s) hne
    by_cases hc : s.hasClientComposition (s.chooseOverlay property)
    · simp only [validateLayers, hne, hc, ne_eq, not_false_eq_true, and_self, if_true,
        Finset.mem_singleton, decide_true, true_and]
      constructor
      · rintro rfl
        exact ⟨rfl, hclient.1 hc⟩
      · exact fun h => h.1
    · simp only [validateLayers, hne, hc, ne_eq, not_false_eq_true, if_true, decide_true,
        true_and]
      constructor
      · simp
      · rintro ⟨rfl, hother⟩
        exact absurd (hclient.2 hother) hc

theorem negotiated_validateLayers {property : Bool} (hid : 0 ∉ s.layerStates.keys) :
    s.Negotiated property (s.validateLayers property) where
  largest hlayer := by
    have hne : s.chooseOverlay property ≠ 0 := of_decide_eq_true hlayer
    obtain ⟨st, h⟩ := candidate_of_chooseOverlay hne
    obtain ⟨st', h', hle⟩ := h.chooseOverlay
    exact ⟨st', by simpa [validateLayers, hne] using h', hle⟩
  none_iff := by
    rw [← chooseOverlay_eq_zero_iff hid]
    simp [validateLayers]
  assigned layer := by
    rw [assignedType_validateLayers]
    rfl
  changed _ _ := mem_changedTypes_validateLayers
  clear _ := mem_clear_validateLayers

/-! ### The validation after -/

/-- The layers as `acceptChanges` leaves them. -/
def accepted (m : UnorderedMap LayerId LayerState) : UnorderedMap LayerId LayerState :=
  m.mapValues fun _ st => { st with requestedType := st.validatedType }

theorem accepted_accepted (m : UnorderedMap LayerId LayerState) :
    accepted (accepted m) = accepted m := by
  refine UnorderedMap.ext rfl fun layer => ?_
  simp only [accepted, UnorderedMap.find_mapValues, Option.map_map]
  rfl

/-- Neither a setter nor another set of layers, and no overlay that fails. -/
def Quiet (s : Adapter) : Operation → Prop
  | .acceptChanges => True
  | .setBuffer _ => True
  | .setState _ => True
  | .postBuffer outcome => s.hasOverlayLayer → (s.postOverlay outcome).1
  | _ => False

/-- All of what the choice of an overlay looks at, and what it leaves, but for the
layers. -/
structure SameOverlay (s t : Adapter) : Prop where
  fbInfo : t.fbInfo = s.fbInfo
  disabled : t.overlayDisabledByError = s.overlayDisabledByError
  hasOverlayLayer : t.hasOverlayLayer = s.hasOverlayLayer
  overlayLayer : t.overlayLayer = s.overlayLayer

theorem SameOverlay.refl (s : Adapter) : s.SameOverlay s := ⟨rfl, rfl, rfl, rfl⟩

theorem SameOverlay.trans {t u : Adapter} (h : s.SameOverlay t) (h' : t.SameOverlay u) :
    s.SameOverlay u :=
  ⟨h'.fbInfo.trans h.fbInfo, h'.disabled.trans h.disabled,
    h'.hasOverlayLayer.trans h.hasOverlayLayer, h'.overlayLayer.trans h.overlayLayer⟩

theorem postBuffer_of_quiet {outcome : Outcome} (h : s.Quiet (.postBuffer outcome)) :
    (s.postBuffer outcome).1 = s := by
  by_cases hlayer : s.hasOverlayLayer
  · obtain ⟨overlay, hpost⟩ := postBuffer_of_shown (h hlayer)
    rw [hpost]
  · simp [postBuffer, hlayer]

theorem operate_quiet {op : Operation} {p : Adapter × List Effect} (h : s.Quiet op)
    (hs : operate s op = some p) :
    s.SameOverlay p.1 ∧ (op ≠ .acceptChanges → p.1.layerStates = s.layerStates) ∧
      (op = .acceptChanges → p.1.layerStates = accepted s.layerStates) := by
  cases op with
  | acceptChanges =>
      cases hs
      exact ⟨⟨rfl, rfl, rfl, rfl⟩, fun hne => absurd rfl hne, fun _ => rfl⟩
  | setBuffer buffer =>
      cases hs
      exact ⟨⟨rfl, rfl, rfl, rfl⟩, fun _ => rfl, by simp⟩
  | setState state =>
      cases hs
      exact ⟨⟨rfl, rfl, rfl, rfl⟩, fun _ => rfl, by simp⟩
  | postBuffer outcome =>
      cases hs
      rw [postBuffer_of_quiet h]
      exact ⟨.refl s, fun _ => rfl, by simp⟩
  | _ => exact absurd h not_false

theorem run_quiet {t : Adapter} {ops : List Operation} {os : List Effect}
    (hquiet : operate.Meets Quiet s ops) (hrun : operate.run s ops = some (t, os)) :
    s.SameOverlay t ∧ (.acceptChanges ∉ ops → t.layerStates = s.layerStates) ∧
      (.acceptChanges ∈ ops → t.layerStates = accepted s.layerStates) := by
  induction ops generalizing s os with
  | nil =>
      cases hrun
      exact ⟨.refl _, fun _ => rfl, by simp⟩
  | cons op ops ih =>
      obtain ⟨u, o, o', hu, ht, rfl⟩ := Machine.run_cons_eq_some.1 hrun
      obtain ⟨hop, hquiet⟩ := Machine.meets_cons.1 hquiet
      obtain ⟨hsame, hkeep, haccept⟩ := operate_quiet hop hu
      obtain ⟨hsame', hkeep', haccept'⟩ := ih (hquiet u o hu) ht
      refine ⟨hsame.trans hsame', fun hnot => ?_, fun hmem => ?_⟩
      · simp only [List.mem_cons, not_or] at hnot
        rw [hkeep' hnot.2, hkeep (Ne.symm hnot.1)]
      · by_cases hop' : op = .acceptChanges
        · by_cases hrest : .acceptChanges ∈ ops
          · rw [haccept' hrest, haccept hop', accepted_accepted]
          · rw [hkeep' hrest, haccept hop']
        · have hrest := (List.mem_cons.1 hmem).resolve_left (Ne.symm hop')
          rw [haccept' hrest, hkeep hop']

/-- The layers ask for what a validation has assigned to them. -/
def acceptedAs (c : LayerId) (layer : LayerId) (st : LayerState) : LayerState :=
  { st with
    requestedType := validatedTypeOf c layer
    validatedType := validatedTypeOf c layer }

/-- The layer that was chosen is the only one left to choose. -/
theorem chooseOverlay_accepted {t : Adapter} {property : Bool}
    (hid : 0 ∉ s.layerStates.keys) (hfb : t.fbInfo = s.fbInfo)
    (hdisabled : t.overlayDisabledByError = (property && s.overlayDisabledByError))
    (hkeys : t.layerStates.keys = s.layerStates.keys)
    (hfind : ∀ layer, t.layerStates.find layer =
      (s.layerStates.find layer).map (acceptedAs (s.chooseOverlay property) layer)) :
    t.chooseOverlay property = s.chooseOverlay property := by
  have honly (layer : LayerId) (st : LayerState) (h : t.Candidate property layer st) :
      s.chooseOverlay property ≠ 0 ∧ layer = s.chooseOverlay property := by
    obtain ⟨st', -, rfl⟩ := Option.map_eq_some_iff.1 ((hfind layer).symm.trans h.find)
    exact eq_of_validatedTypeOf_device (eligible_iff.1 h.eligible).1
  by_cases hz : s.chooseOverlay property = 0
  · rw [hz, chooseOverlay_eq_zero_iff (by rwa [hkeys])]
    exact fun layer st h => (honly layer st h).1 hz
  · obtain ⟨st, hst⟩ := candidate_of_chooseOverlay hz
    have htype : validatedTypeOf (s.chooseOverlay property) (s.chooseOverlay property) =
        st.requestedType := by
      rw [(eligible_iff.1 hst.eligible).1]
      exact if_pos ⟨hz, rfl⟩
    have hel : eligible t.fbInfo
        (acceptedAs (s.chooseOverlay property) (s.chooseOverlay property) st) := by
      rw [hfb, acceptedAs, htype]
      exact hst.eligible
    have hchosen : t.Candidate property (s.chooseOverlay property) _ :=
      ⟨hst.enabled, by rw [hdisabled, hst.allowed, Bool.and_false],
        by rw [hfind, hst.find, Option.map_some], hel⟩
    obtain ⟨st', h', -⟩ := hchosen.chooseOverlay
    exact (honly _ st' h').2

/-- A validation that finds nothing to change, with the result of the one before.
-/
structure Converged (v w : Adapter) : Prop where
  unchanged : w.changedTypes = []
  hasOverlayLayer : w.hasOverlayLayer = v.hasOverlayLayer
  overlayLayer : w.overlayLayer = v.overlayLayer
  types : ∀ layer, (w.layerStates.find layer).map LayerState.validatedType =
    (v.layerStates.find layer).map LayerState.validatedType
  clear : w.clearClientTargetLayers = v.clearClientTargetLayers

theorem converged_validateLayers {t : Adapter} {property : Bool} {ops : List Operation}
    {os : List Effect} (hid : 0 ∉ s.layerStates.keys)
    (hquiet : operate.Meets Quiet (s.validateLayers property) ops)
    (haccept : .acceptChanges ∈ ops)
    (hrun : operate.run (s.validateLayers property) ops = some (t, os)) :
    (s.validateLayers property).Converged (t.validateLayers property) := by
  obtain ⟨hsame, -, hstates⟩ := run_quiet hquiet hrun
  have hkeys : t.layerStates.keys = s.layerStates.keys := by
    rw [hstates haccept]
    rfl
  have hfind (layer : LayerId) : t.layerStates.find layer =
      (s.layerStates.find layer).map (acceptedAs (s.chooseOverlay property) layer) := by
    rw [hstates haccept]
    simp only [accepted, validateLayers, UnorderedMap.find_mapValues, Option.map_map]
    rfl
  have hchoose : t.chooseOverlay property = s.chooseOverlay property :=
    chooseOverlay_accepted hid hsame.fbInfo hsame.disabled hkeys hfind
  have hclient (layer : LayerId) : t.hasClientComposition layer = s.hasClientComposition layer := by
    rw [hasClientComposition, hkeys, hasClientComposition]
  refine ⟨?_, ?_, ?_, fun layer => ?_, ?_⟩
  · refine List.filterMap_eq_nil_iff.2 fun e he => ?_
    obtain ⟨st, -, hst⟩ := Option.map_eq_some_iff.1
      ((hfind e.1).symm.trans (UnorderedMap.mem_toList.1 he))
    rw [hchoose, ← hst]
    simp [acceptedAs]
  · simp [validateLayers, hchoose]
  · have hlayer : t.overlayLayer = (s.validateLayers property).overlayLayer :=
      hsame.overlayLayer
    by_cases hz : s.chooseOverlay property = 0
    · simpa [validateLayers, hchoose, hz] using hlayer
    · simp [validateLayers, hchoose, hz]
  · simp [validateLayers, hchoose, hfind, Function.comp_def]
  · simp [validateLayers, hchoose, hclient]

/-- Where no layer has the id `0`, a validation settles the composition, and the
one after its result was accepted settles the same. -/
theorem validateLayers_negotiates {property : Bool} (hid : 0 ∉ s.layerStates.keys) :
    s.Negotiated property (s.validateLayers property) ∧
      ∀ ops t os, operate.Meets Quiet (s.validateLayers property) ops →
        .acceptChanges ∈ ops →
          operate.run (s.validateLayers property) ops = some (t, os) →
            (s.validateLayers property).Converged (t.validateLayers property) :=
  ⟨negotiated_validateLayers hid, fun _ _ _ => converged_validateLayers hid⟩

theorem negotiates_videoLayer :
    ∃ s os, operate.run (init display) (addVideo 1) = some (s, os) ∧
      s.Candidate true 1 ((s.layerStates.find 1).getD {}) ∧
        s.Negotiated true (s.validateLayers true) ∧
          (s.validateLayers true).Converged
            ((s.validateLayers true).acceptChanges.validateLayers true) := by
  have hall : ((operate.run (init display) (addVideo 1)).any fun p =>
      0 ∉ p.1.layerStates.keys ∧ p.1.overlayDisabledByError = false ∧
        (p.1.layerStates.find 1).any (eligible p.1.fbInfo)) = true := by
    decide +kernel
  cases hrun : operate.run (init display) (addVideo 1) with
  | none => simp [hrun] at hall
  | some p =>
      rw [hrun, Option.any_some, decide_eq_true_eq] at hall
      obtain ⟨hid, hallowed, hel⟩ := hall
      obtain ⟨hneg, hconv⟩ := @validateLayers_negotiates p.1 true hid
      refine ⟨p.1, p.2, rfl, ?_, hneg, hconv [.acceptChanges] _ [] ?_ (by simp) rfl⟩
      · cases hst : p.1.layerStates.find 1 with
        | none => simp [hst] at hel
        | some st => exact ⟨rfl, hallowed, hst, by simpa [hst] using hel⟩
      · exact Machine.meets_cons.2 ⟨trivial, fun _ _ _ => trivial⟩

/-! ### The id `0` -/

/-- After `n` operations at most `n` ids have been given out, from `1` on. -/
structure Numbered (s : Adapter) (n : ℕ) : Prop where
  nextLayerId_le : s.nextLayerId ≤ n
  zero_notMem : 0 ∉ s.layerStates.keys

theorem operate_numbered {n : ℕ} {op : Operation} {p : Adapter × List Effect}
    (h : s.Numbered n) (hn : n + 1 < 2 ^ 64) (hs : operate s op = some p) :
    p.1.Numbered (n + 1) := by
  have hnext : s.nextLayerId ≤ n + 1 := h.nextLayerId_le.trans n.le_succ
  have hid : s.nextId = s.nextLayerId + 1 :=
    Nat.mod_eq_of_lt ((Nat.succ_le_succ h.nextLayerId_le).trans_lt hn)
  cases operate_spec hs with
  | add hkeys =>
      refine ⟨?_, fun hmem => ?_⟩
      · change s.nextId ≤ n + 1
        rw [hid]
        exact Nat.succ_le_succ h.nextLayerId_le
      · rcases List.mem_insert_iff.1 (hkeys.mem_iff.1 hmem) with hz | hmem
        · exact absurd (hz.trans hid) (Nat.succ_ne_zero _).symm
        · exact h.zero_notMem hmem
  | remove hremove =>
      unfold removeLayer at hremove
      split_ifs at hremove
      cases hremove
      exact ⟨hnext, fun hmem => h.zero_notMem (List.mem_of_mem_erase hmem)⟩
  | set _ _ hset =>
      unfold setLayer at hset
      split_ifs at hset
      cases hset
      exact ⟨hnext, h.zero_notMem⟩
  | post =>
      rcases postBuffer_spec s _ with hp | hp
      · rw [hp]
        exact ⟨hnext, h.zero_notMem⟩
      · rw [hp]
        exact ⟨hnext, h.zero_notMem⟩
  | validate | accept | buffer | state | refuse => exact ⟨hnext, h.zero_notMem⟩

/-- The ids do not come round in fewer than `2 ^ 64` operations. -/
theorem zero_notMem_keys {fbInfo : Info} {ops : List Operation} {s : Adapter}
    {os : List Effect} (hrun : operate.run (init fbInfo) ops = some (s, os))
    (hlength : ops.length < 2 ^ 64) : 0 ∉ s.layerStates.keys := by
  have h : ops.length < 2 ^ 64 → s.Numbered ops.length := by
    refine Machine.run_induction
      (P := fun ops s _ => ops.length < 2 ^ 64 → s.Numbered ops.length)
      (fun _ => ⟨le_rfl, List.not_mem_nil⟩) ?_ hrun
    intro ops u os op v o ih hs hlength
    rw [List.length_append, List.length_singleton] at hlength ⊢
    exact operate_numbered (ih (Nat.lt_of_succ_lt hlength)) hlength hs
  exact (h hlength).zero_notMem

/-- `n` layers, each removed before the next one is added. -/
def addAndRemove : ℕ → List Operation
  | 0 => []
  | n + 1 =>
      addAndRemove n ++ [.addLayer [(n + 1) % 2 ^ 64], .removeLayer ((n + 1) % 2 ^ 64)]

/-- An adapter without layers that has given out the ids up to `k`. -/
def afterLayers (fbInfo : Info) (k : LayerId) : Adapter :=
  { init fbInfo with nextLayerId := k }

theorem run_addLayer_removeLayer (fbInfo : Info) {k id : LayerId}
    (hid : (k + 1) % 2 ^ 64 = id) :
    ∃ os, operate.run (afterLayers fbInfo k) [.addLayer [id], .removeLayer id] =
      some (afterLayers fbInfo id, os) := by
  have hkeys : [id].Perm ((UnorderedMap.empty LayerId LayerState).keys.insert id) := .refl _
  have hadd : operate (afterLayers fbInfo k) (.addLayer [id]) =
      some ({ afterLayers fbInfo id with
        layers := insert id ∅
        layerStates := (UnorderedMap.empty LayerId LayerState).emplace id {} [id] hkeys },
        []) := by
    subst hid
    exact dif_pos hkeys
  refine ⟨[] ++ ([.returned true] ++ []), Machine.run_cons_eq_some.2
    ⟨_, _, _, hadd, Machine.run_cons_eq_some.2 ⟨_, _, _, ?_, rfl, rfl⟩, rfl⟩⟩
  simp [operate, removeLayer, reply, afterLayers, init, UnorderedMap.erase_emplace_empty]

theorem run_addAndRemove (fbInfo : Info) (n : ℕ) :
    ∃ os, operate.run (init fbInfo) (addAndRemove n) =
      some (afterLayers fbInfo (n % 2 ^ 64), os) := by
  induction n with
  | zero => exact ⟨[], rfl⟩
  | succ n ih =>
      obtain ⟨os, hrun⟩ := ih
      obtain ⟨os', hpair⟩ := run_addLayer_removeLayer fbInfo (Nat.mod_add_mod n (2 ^ 64) 1)
      exact ⟨os ++ os', Machine.run_append_eq_some.2 ⟨_, os, os', hrun, hpair, rfl⟩⟩

/-- When the ids have come round, an eligible layer with the id `0` is not chosen.
-/
theorem not_negotiated_zero :
    ¬ ∀ (fbInfo : Info) (ops : List Operation) (s : Adapter) (os : List Effect)
        (property : Bool), operate.run (init fbInfo) ops = some (s, os) →
      s.Negotiated property (s.validateLayers property) := by
  intro hall
  obtain ⟨os, hrun⟩ := run_addAndRemove display (2 ^ 64 - 1)
  have hzero : ((operate.run (afterLayers display ((2 ^ 64 - 1) % 2 ^ 64)) (addVideo 0)).any
      fun p => p.1.overlayDisabledByError = false ∧ p.1.chooseOverlay true = 0 ∧
        (p.1.layerStates.find 0).any (eligible p.1.fbInfo)) = true := by
    decide +kernel
  cases hadd : operate.run (afterLayers display ((2 ^ 64 - 1) % 2 ^ 64)) (addVideo 0) with
  | none => rw [hadd] at hzero; cases hzero
  | some p =>
      rw [hadd, Option.any_some, decide_eq_true_eq] at hzero
      obtain ⟨hallowed, hchoose, hel⟩ := hzero
      have hneg := hall display _ p.1 (os ++ p.2) true
        (Machine.run_append_eq_some.2 ⟨_, os, p.2, hrun, hadd, rfl⟩)
      obtain ⟨st, hst, hel⟩ := (Option.any_eq_true _ _).1 hel
      refine hneg.none_iff.1 ?_ 0 st ⟨rfl, hallowed, hst, hel⟩
      simp [validateLayers, hchoose]

end Adapter

end MozartLineage.Composer
