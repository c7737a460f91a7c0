import MozartLineage.Sensors.Delivery

/-!
# Handles of what `poll` returns

A record whose sensor is not registered gets the handle `-1` in the field that is
rewritten, which for meta data is the inner one. `poll` looks for the `-1` in the
outer field of every record, so meta data passes whatever sensor it is about.
-/

namespace MozartLineage.Sensors

open Transition

namespace HandleMaps

/-- A full handle that is known under a global one is known there. The list may
name a sensor twice. -/
theorem globalToFull_of_fullToGlobal {fs : List FullHandle} {g : ℤ} {f : FullHandle}
    (h : (registered fs).fullToGlobal f = some g) :
    (registered fs).globalToFull g = some f := by
  induction fs using List.reverseRecOn generalizing g f with
  | nil => simp [registered, empty] at h
  | append_singleton fs f' ih =>
      simp only [registered_concat, assignGlobalHandle] at h ⊢
      by_cases hf : f = f'
      · subst hf
        obtain rfl : (registered fs).nextGlobalHandle = g := by simpa using h
        exact Function.update_self _ _ _
      · rw [Function.update_of_ne hf] at h
        obtain ⟨i, hi, hget⟩ := globalToFull_registered.1 (ih h)
        have hlt := (List.getElem?_eq_some_iff.1 hget).1
        rw [Function.update_of_ne]
        · exact ih h
        · rw [nextGlobalHandle_registered]
          omega

theorem globalToFull_neg_one (fs : List FullHandle) :
    (registered fs).globalToFull (-1) = none := by
  rw [Option.eq_none_iff_forall_ne_some]
  intro f hf
  obtain ⟨i, hi, -⟩ := globalToFull_registered.1 hf
  omega

/-- The global handle of a sensor is registered if and only if the sensor is. -/
theorem globalToFull_getGlobalHandle (fs : List FullHandle) (f : FullHandle) :
    ((registered fs).globalToFull ((registered fs).getGlobalHandle f)).isSome ↔
      ((registered fs).fullToGlobal f).isSome := by
  unfold getGlobalHandle
  cases h : (registered fs).fullToGlobal f with
  | none => simp [globalToFull_neg_one]
  | some g => simp [globalToFull_of_fullToGlobal h]

theorem getGlobalHandle_eq_neg_one_iff (fs : List FullHandle) (f : FullHandle) :
    (registered fs).getGlobalHandle f = -1 ↔ (registered fs).fullToGlobal f = none := by
  unfold getGlobalHandle
  cases h : (registered fs).fullToGlobal f with
  | none => simp
  | some g =>
      have hne : g ≠ -1 := by
        rintro rfl
        simpa [globalToFull_neg_one] using globalToFull_of_fullToGlobal h
      simpa using hne

end HandleMaps

open HandleMaps

/-- The sensor that an event is about. -/
def SensorsEvent.namedSensor (e : SensorsEvent) : ℤ :=
  if e.type = sensorTypeMetaData then e.metaDataSensor else e.sensor

/-- The event is about a registered sensor, under its global handle. -/
def SensorsEvent.IsRegistered (m : HandleMaps) (e : SensorsEvent) : Prop :=
  (m.globalToFull e.namedSensor).isSome

instance (m : HandleMaps) (e : SensorsEvent) : Decidable (e.IsRegistered m) :=
  inferInstanceAs (Decidable (_ = true))

/-- A record of a queue is no meta data about a sensor that its sub-HAL has not
listed, or has `-1` in the outer field. -/
def KnownInner (m : HandleMaps) (r : ℕ × SensorsEvent) : Prop :=
  r.2.type = sensorTypeMetaData → r.2.sensor ≠ -1 →
    (m.fullToGlobal ⟨r.1, r.2.metaDataSensor⟩).isSome

instance (m : HandleMaps) (r : ℕ × SensorsEvent) : Decidable (KnownInner m r) :=
  inferInstanceAs (Decidable (_ → _ → _))

/-- What is delivered for a record is about a registered sensor, unless it is meta
data about another one. -/
theorem isRegistered_delivered_iff {fs : List FullHandle} (r : ℕ × SensorsEvent) :
    (∀ e, delivered (registered fs) r = some e → e.IsRegistered (registered fs)) ↔
      KnownInner (registered fs) r := by
  unfold delivered KnownInner SensorsEvent.IsRegistered SensorsEvent.namedSensor
  by_cases htype : r.2.type = sensorTypeMetaData
  · simp only [copyEventRemapHandle, if_pos htype]
    rw [← globalToFull_getGlobalHandle]
    by_cases hsensor : r.2.sensor = -1
    · simp [hsensor]
    · simp [hsensor, htype]
  · simp only [copyEventRemapHandle, if_neg htype]
    refine iff_of_true (fun e he => ?_) fun h => absurd h htype
    split_ifs at he with hbad
    cases he
    rw [getGlobalHandle_eq_neg_one_iff, ← Option.not_isSome_iff_eq_none,
      not_not] at hbad
    simpa [htype] using (globalToFull_getGlobalHandle fs _).2 hbad

variable {π : Type*} [DecidableEq π]

/-- What a caller of `poll` is given is what it has read and not dropped, whatever
the queues held when it came. -/
theorem run_returned {m : HandleMaps} {s t : State π} {as : List (Action π)}
    {os : List (Event π)} (hidle : ∀ p, s.pollers p = .idle)
    (hrun : Machine.run (step m) s as = some (t, os)) (p : π) :
    os.flatMap (Event.returnedTo p) ++ (t.pollers p).inHand =
      (os.flatMap (Event.dequeuedBy p)).filterMap (delivered m) := by
  have h : t.Readers m os := by
    refine Machine.run_invariant (P := fun s os => s.Readers m os) ?_ (fun p => ?_) hrun
    · exact fun s os a t o h hs => step_readers h hs
    · rw [hidle p]
      exact ⟨trivial, rfl⟩
  exact (h p).history

/-- Whatever the queues hold and get, all that `poll` counts and returns to a
caller is about registered sensors if and only if none of the records that it
reads is meta data about another one. -/
theorem run_isRegistered_iff {fs : List FullHandle} {s t : State π}
    {as : List (Action π)} {os : List (Event π)} (hidle : ∀ p, s.pollers p = .idle)
    (hrun : Machine.run (step (registered fs)) s as = some (t, os)) (p : π) :
    (∀ e ∈ os.flatMap (Event.returnedTo p) ++ (t.pollers p).inHand,
        e.IsRegistered (registered fs)) ↔
      ∀ r ∈ os.flatMap (Event.dequeuedBy p), KnownInner (registered fs) r := by
  rw [run_returned hidle hrun p]
  simp only [List.mem_filterMap, ← isRegistered_delivered_iff]
  constructor
  · intro h r hr e he
    exact h e ⟨r, hr, he⟩
  · rintro h e ⟨r, hr, he⟩
    exact h r hr e he

/-- The only sub-HAL completes a flush of the sensor `inner`, and `p` asks for up to
four records. -/
def emitFlushComplete (p : π) (inner : ℤ) : List (Action π) :=
  [.requestRegion 0, .store 0 0 ⟨sensorTypeMetaData, 0, inner, 10⟩, .subPollReturns 0 1,
    .markAsWritten 0, .poll p 4 fun _ => ⟨0, 0, 0, 0⟩, .scan p, .scan p, .scan p]

/-- It is returned whatever sensor that is. -/
theorem returned_emitFlushComplete (inner : ℤ) (hinner : inner = 5 ∨ inner = 6) :
    ∃ s os, Machine.run (step (registered [⟨0, 5⟩]))
        (init (Fin 1) 1 fun _ _ => ⟨0, 0, 0, 0⟩) (emitFlushComplete 0 inner) =
          some (s, os) ∧
      os.flatMap (Event.returnedTo 0) = [⟨0, 0, if inner = 5 then 1 else -1, 10⟩] ∧
      os.flatMap (Event.dequeuedBy 0) = [(0, ⟨0, 0, inner, 10⟩)] := by
  have h : (Machine.run (step (registered [⟨0, 5⟩]))
      (init (Fin 1) 1 fun _ _ => ⟨0, 0, 0, 0⟩) (emitFlushComplete 0 inner)).map
        (fun r => (r.2.flatMap (Event.returnedTo 0), r.2.flatMap (Event.dequeuedBy 0))) =
      some ([⟨0, 0, if inner = 5 then 1 else -1, 10⟩], [(0, ⟨0, 0, inner, 10⟩)]) := by
    rcases hinner with rfl | rfl
    · decide
    · decide
  obtain ⟨⟨s, os⟩, hrun, hs⟩ := Option.map_eq_some_iff.1 h
  exact ⟨s, os, hrun, congrArg Prod.fst hs, congrArg Prod.snd hs⟩

theorem isRegistered_emitFlushComplete :
    ∃ s os, Machine.run (step (registered [⟨0, 5⟩]))
        (init (Fin 1) 1 fun _ _ => ⟨0, 0, 0, 0⟩) (emitFlushComplete 0 5) = some (s, os) ∧
      ∀ e ∈ os.flatMap (Event.returnedTo 0) ++ (s.pollers 0).inHand,
        e.IsRegistered (registered [⟨0, 5⟩]) := by
  obtain ⟨s, os, hrun, -, hdequeued⟩ := returned_emitFlushComplete 5 (Or.inl rfl)
  refine ⟨s, os, hrun, (run_isRegistered_iff (fun _ => rfl) hrun 0).2 ?_⟩
  rw [hdequeued]
  decide

/-- A flush of a sensor that was never listed is returned under the handle `-1`. -/
theorem not_isRegistered_emitFlushComplete :
    ¬ ∀ (fs : List FullHandle) (as : List (Action (Fin 1))) (s : State (Fin 1))
        (os : List (Event (Fin 1))),
      Machine.run (step (registered fs)) (init (Fin 1) 1 fun _ _ => ⟨0, 0, 0, 0⟩) as =
          some (s, os) →
        ∀ e ∈ os.flatMap (Event.returnedTo 0), e.IsRegistered (registered fs) := by
  intro hall
  obtain ⟨s, os, hrun, hreturned, -⟩ := returned_emitFlushComplete 6 (Or.inr rfl)
  have h := hall _ _ _ _ hrun
  rw [hreturned] at h
  exact absurd (h _ (List.mem_singleton_self _)) (by decide)

end MozartLineage.Sensors
