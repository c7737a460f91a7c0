import MozartLineage.Sensors.Manager

/-!
# The memory of the sensor manager

Whatever the order of the calls, of the deaths and of the notifications, the manager frees
no array twice and uses nothing that is gone. A pointer that a client was given is good
until the next initialisation or notification. What is lost are the arrays that an
initialisation has found in place.
-/

namespace MozartLineage.Sensors.Manager

open Transition

variable {σ : Type*}

/-- What an event does with an array or with the elements of a listing. -/
def Event.use : Event σ → Option (Transition.Use Resource)
  | .memory use => some use
  | _ => none

/-- The array whose last pointer an event overwrites. -/
def Event.leaks : Event σ → Option ℕ
  | .initialised _ old _ => old.map SensorArray.block
  | _ => none

def State.Holds (s : State σ) : Resource → Prop
  | .array b => b ∈ s.arrays
  | .sensors n => ∃ listing ∈ s.mSensors, listing.id = n

def State.holds (s : State σ) : Set Resource := {r | s.Holds r}

/-- The resources that the manager has a pointer to. -/
def State.current (s : State σ) : Set Resource :=
  {r | (∃ list ∈ s.mSensorList, r = .array list.block) ∨
    ∃ listing ∈ s.mSensors, r = .sensors listing.id}

/-- A client uses only what is still current. -/
def Fresh (s : State σ) : Action σ → Prop
  | .readSensor list _ => s.mSensorList = some list
  | .useSensor p => ∃ listing ∈ s.mSensors, listing.id = p.listing
  | _ => True

instance (s : State σ) (a : Action σ) : Decidable (Fresh s a) :=
  match a with
  | .readSensor list _ => inferInstanceAs (Decidable (s.mSensorList = some list))
  | .useSensor p => inferInstanceAs (Decidable (∃ listing ∈ s.mSensors, listing.id = p.listing))
  | .construct _ | .call _ _ | .die _ | .sendObituary _ | .binderDied _ => isTrue trivial

/-- The array goes with the listing, and both go with the server. -/
structure Inv (s : State σ) : Prop where
  matched : s.running → s.mSensorList = s.mSensors.map Listing.array
  server : s.running → (s.mSensorServer = none ↔ s.mSensors = none)
  listing : ∀ listing ∈ s.mSensors, listing.id < s.inits
  arrays : ∀ b ∈ s.arrays, b < s.inits
  listed : ∀ list ∈ s.mSensorList, list.block ∈ s.arrays
  handed : ∀ list ∈ s.handed, list.block < s.inits ∧
    (∀ p ∈ list.entries, p.listing = list.block) ∧
    ∀ listing ∈ s.mSensors, listing.id = list.block → listing.array = list

/-- The events of a part of a step are in order and account for what it holds then. -/
structure Keeps (s : State σ) (p : State σ × List (Event σ)) : Prop where
  after : (ownership Event.use).after s.holds p.2 = p.1.holds
  accepts : (ownership Event.use).Accepts s.holds p.2

variable {s t u : State σ} {o o' : List (Event σ)} {answers : Answers σ} {r : Resource}

@[simp] theorem mem_holds_array {b : ℕ} : Resource.array b ∈ s.holds ↔ b ∈ s.arrays := Iff.rfl

@[simp] theorem mem_holds_sensors {n : ℕ} :
    Resource.sensors n ∈ s.holds ↔ ∃ listing ∈ s.mSensors, listing.id = n := Iff.rfl

theorem Listing.listing_of_mem_entries {listing : Listing σ} {p : Pointer}
    (h : p ∈ listing.array.entries) : p.listing = listing.id := by
  obtain ⟨i, -, rfl⟩ := List.mem_map.1 h
  rfl

@[simp] theorem Listing.block_array (listing : Listing σ) : listing.array.block = listing.id :=
  rfl

@[simp] theorem Listing.length_entries (listing : Listing σ) :
    listing.array.entries.length = listing.sensors.length := by
  simp [Listing.array]

/-! ### One part after the other -/

theorem Keeps.trans (h : Keeps s (t, o)) (h' : Keeps t (u, o')) : Keeps s (u, o ++ o') := by
  constructor
  · rw [Monitor.after_append, h.after]
    exact h'.after
  · rw [Monitor.accepts_append, h.after]
    exact ⟨h.accepts, h'.accepts⟩

@[simp] theorem next_memory (held : Set Resource) (use : Transition.Use Resource) :
    (ownership (Event.use (σ := σ))).next held (.memory use) = use.next held := rfl

@[simp] theorem allowed_memory {held : Set Resource} {use : Transition.Use Resource} :
    (ownership (Event.use (σ := σ))).Allowed held (.memory use) ↔ use.Allowed held := by
  simp [ownership, Event.use]

theorem next_of_use_eq_none {e : Event σ} (h : e.use = none) (held : Set Resource) :
    (ownership Event.use).next held e = held := by
  simp [ownership, h]

theorem allowed_of_use_eq_none {e : Event σ} (h : e.use = none) (held : Set Resource) :
    (ownership Event.use).Allowed held e := by
  simp [ownership, h]

/-- Events that change nothing are all allowed if each of them is. -/
theorem keeps_of_forall (hholds : t.holds = s.holds)
    (ho : ∀ e ∈ o, (ownership Event.use).next s.holds e = s.holds ∧
      (ownership Event.use).Allowed s.holds e) : Keeps s (t, o) := by
  suffices h : (ownership Event.use).after s.holds o = s.holds ∧
      (ownership Event.use).Accepts s.holds o from ⟨h.1.trans hholds.symm, h.2⟩
  clear hholds
  induction o with
  | nil => exact ⟨rfl, trivial⟩
  | cons e o ih =>
      obtain ⟨hnext, hallowed⟩ := ho e (by simp)
      obtain ⟨hafter, haccepts⟩ := ih fun e' he' => ho e' (by simp [he'])
      rw [Monitor.after_cons, Monitor.accepts_cons, hnext]
      exact ⟨hafter, hallowed, haccepts⟩

/-- Events that are not about memory. -/
theorem keeps_of_use_eq_none (hholds : t.holds = s.holds) (ho : ∀ e ∈ o, e.use = none) :
    Keeps s (t, o) :=
  keeps_of_forall hholds fun e he =>
    ⟨next_of_use_eq_none (ho e he) s.holds, allowed_of_use_eq_none (ho e he) s.holds⟩

theorem use_of_mem_pinged {e : Event σ} (h : e ∈ s.pinged) : e.use = none := by
  obtain ⟨service, -, rfl⟩ := List.mem_map.1 h
  rfl

/-! ### The initialisation -/

/-- The elements of the old listing go when the new one is assigned. -/
theorem keeps_replace (hs : Inv s) {listing : Listing σ} (hid : listing.id = s.inits)
    (harrays : t.arrays = s.arrays) (hsensors : t.mSensors = some listing) :
    Keeps s (t, .memory (.take (.sensors s.inits)) ::
      s.mSensors.toList.map fun old => .memory (.give (.sensors old.id))) := by
  have hnew : Resource.sensors s.inits ∉ s.holds := by
    rintro ⟨old, hold, heq⟩
    exact absurd heq (hs.listing old hold).ne
  constructor
  · ext r
    cases hold : s.mSensors with
    | none =>
        cases r <;>
          simp [Transition.Use.next, hold, hsensors, harrays, hid, eq_comm]
    | some old =>
        have hne := (hs.listing old (by simp [hold])).ne
        cases r with
        | array b => simp [Transition.Use.next, harrays]
        | sensors n =>
            simp only [Option.toList_some, List.map_cons, List.map_nil, Monitor.after_cons,
              Monitor.after_nil, next_memory, Transition.Use.next, Set.mem_sdiff, Set.mem_insert_iff,
              Set.mem_singleton_iff, mem_holds_sensors, Resource.sensors.injEq, hold, hsensors, Option.mem_def, Option.some.injEq,
              exists_eq_left', hid]
            omega
  · cases hold : s.mSensors with
    | none => simpa [Transition.Use.Allowed] using hnew
    | some old => simpa [Transition.Use.Allowed, Transition.Use.next, hold] using hnew

/-- The new array. -/
theorem keeps_malloc {b : ℕ} {e : Event σ} (hb : b ∉ s.arrays) (he : e.use = none)
    (harrays : t.arrays = b :: s.arrays) (hsensors : t.mSensors = s.mSensors) :
    Keeps s (t, [.memory (.take (.array b)), e]) := by
  constructor
  · rw [Monitor.after_cons, Monitor.after_cons, Monitor.after_nil, next_of_use_eq_none he]
    ext r
    cases r <;> simp [Transition.Use.next, harrays, hsensors]
  · exact ⟨allowed_memory.2 hb, allowed_of_use_eq_none he _, trivial⟩

theorem keeps_initialise (hs : Inv s) (service : ℕ) (answers : Answers σ) :
    Keeps s ((s.initialise service answers).state, (s.initialise service answers).events) := by
  have hfresh : s.inits ∉ s.arrays := fun hmem => (hs.arrays s.inits hmem).false
  have hasked : Keeps s (s, [.asked service (.getSensorList s.mOpPackageName)]) :=
    keeps_of_use_eq_none rfl (by simp [Event.use])
  let t : State σ := { s with mSensors := some ⟨s.inits, answers.sensors⟩ }
  have hreplaced : Keeps s (t, _) := hasked.trans (keeps_replace (t := t) hs rfl rfl rfl)
  unfold State.initialise
  cases answers.malloc with
  | true => exact hreplaced.trans (keeps_malloc hfresh rfl rfl rfl)
  | false => exact hreplaced.trans (keeps_of_use_eq_none rfl (by simp [Event.use]))

theorem inv_initialise (hs : Inv s) (service : ℕ) (answers : Answers σ) :
    Inv (s.initialise service answers).state := by
  have hhanded : ∀ list ∈ s.handed, list.block < s.inits + 1 ∧
      (∀ p ∈ list.entries, p.listing = list.block) ∧
      ∀ listing ∈ some (⟨s.inits, answers.sensors⟩ : Listing σ),
        listing.id = list.block → listing.array = list := by
    intro list hlist
    obtain ⟨hlt, hentries, -⟩ := hs.handed list hlist
    refine ⟨hlt.trans (Nat.lt_succ_self _), hentries, ?_⟩
    rintro listing ⟨⟩ hid
    exact absurd hid hlt.ne'
  unfold State.initialise
  cases answers.malloc with
  | true =>
      exact
        { matched := fun _ => rfl
          server := fun _ => by simp
          listing := by simp
          arrays := by
            intro b hb
            rcases List.mem_cons.1 hb with rfl | hb
            · exact Nat.lt_succ_self _
            · exact (hs.arrays b hb).trans (Nat.lt_succ_self _)
          listed := by simp
          handed := hhanded }
  | false =>
      exact
        { matched := fun h => by simp at h
          server := fun h => by simp at h
          listing := by simp
          arrays := fun b hb => (hs.arrays b hb).trans (Nat.lt_succ_self _)
          listed := by simp
          handed := hhanded }

/-- The check: what it leaves is in order, and if it does not abort there is a server. -/
theorem assertStateLocked_keeps (hs : Inv s) (answers : Answers σ) :
    Keeps s ((s.assertStateLocked answers).state, (s.assertStateLocked answers).events) ∧
      Inv (s.assertStateLocked answers).state := by
  have hpinged : Keeps s (s, s.pinged) :=
    keeps_of_use_eq_none rfl fun e he => use_of_mem_pinged he
  obtain ⟨-, h⟩ | ⟨-, h⟩ | ⟨i, service, -, -, h⟩ := assertStateLocked_cases s answers
  · rw [h]
    exact ⟨hpinged, hs⟩
  · rw [h]
    refine ⟨hpinged.trans (keeps_of_use_eq_none rfl (by simp [Event.use])), ?_⟩
    exact ⟨fun h => by simp at h, fun h => by simp at h, hs.listing, hs.arrays, hs.listed,
      hs.handed⟩
  · rw [h]
    exact ⟨hpinged.trans (keeps_initialise hs service answers),
      inv_initialise hs service answers⟩

/-- A call goes on with a server that has answered or has just been found. -/
theorem server_of_assertStateLocked {err : ℤ}
    (h : (s.assertStateLocked answers).status = some err) :
    err = noError ∧ (s.assertStateLocked answers).state.running = s.running ∧
      ∃ service, (s.assertStateLocked answers).state.mSensorServer = some service := by
  obtain ⟨hinit, heq⟩ | ⟨-, heq⟩ | ⟨i, service, -, -, heq⟩ := assertStateLocked_cases s answers
  · obtain ⟨service, hserver, -⟩ := initSensorManager_eq_false.1 hinit
    rw [heq] at h ⊢
    exact ⟨(Option.some.inj h).symm, rfl, service, hserver⟩
  · rw [heq] at h
    cases h
  · rw [heq] at h ⊢
    unfold State.initialise at h ⊢
    cases hmalloc : answers.malloc with
    | true =>
        rw [hmalloc] at h
        exact ⟨(Option.some.inj h).symm, rfl, service, rfl⟩
    | false =>
        rw [hmalloc] at h
        cases h

/-! ### The calls -/

section Calls

variable {getType : σ → ℤ} {isWakeUpSensor : σ → Bool}

theorem keeps_findDefault {listing : Listing σ} {block : ℕ} {ps : List Pointer} (type : ℤ)
    (hblock : block ∈ s.arrays) (hsensors : s.mSensors = some listing)
    (hps : ∀ p ∈ ps, p.listing = listing.id) :
    Keeps s (s, (findDefault getType isWakeUpSensor s type block ps).2) := by
  induction ps with
  | nil => exact keeps_of_forall rfl (by simp [findDefault])
  | cons p ps ih =>
      have hread : Keeps s (s, [.memory (.touch (.array block)),
          .memory (.touch (.sensors p.listing))]) := by
        refine keeps_of_forall rfl ?_
        simp [Transition.Use.next, Transition.Use.Allowed, hblock, hsensors, hps p (by simp)]
      unfold findDefault
      dsimp only
      split_ifs
      · exact hread
      · exact hread.trans (ih fun p' hp' => hps p' (by simp [hp']))

theorem keeps_ask (request : Request) (result : Result σ) :
    Keeps s (s.ask request result) := by
  unfold State.ask
  cases s.mSensorServer with
  | none => exact keeps_of_use_eq_none rfl (by simp [Event.use])
  | some service => exact keeps_of_use_eq_none rfl (by simp [Event.use])

theorem inv_ask (hs : Inv s) (request : Request) (result : Result σ) :
    Inv (s.ask request result).1 := by
  unfold State.ask
  cases s.mSensorServer with
  | none =>
      exact ⟨fun h => by simp at h, fun h => by simp at h, hs.listing, hs.arrays, hs.listed,
        hs.handed⟩
  | some service => exact hs

/-- What is handed out is current. -/
theorem inv_hand (hs : Inv s) (hrunning : s.running) :
    Inv { s with handed := s.mSensorList.toList ++ s.handed } := by
  refine ⟨hs.matched, hs.server, hs.listing, hs.arrays, hs.listed, fun list hlist => ?_⟩
  rcases List.mem_append.1 hlist with hlist | hlist
  · have hcurrent : s.mSensorList = some list := by simpa using hlist
    obtain ⟨listing, hlisting, rfl⟩ :=
      Option.map_eq_some_iff.1 ((hs.matched hrunning).symm.trans hcurrent)
    refine ⟨hs.listing listing hlisting, fun p hp => Listing.listing_of_mem_entries hp, ?_⟩
    rintro other hother -
    obtain rfl := Option.some.inj (hlisting.symm.trans hother)
    rfl
  · exact hs.handed list hlist

theorem body_keeps (getType : σ → ℤ) (isWakeUpSensor : σ → Bool) (answers : Answers σ)
    (hs : Inv s) (hrunning : s.running) (c : Call) (err : ℤ) :
    Keeps s (c.body getType isWakeUpSensor answers err s) ∧
      Inv (c.body getType isWakeUpSensor answers err s).1 := by
  have hnothing : ∀ result : Result σ, Keeps s (s, [.returned result]) := fun result =>
    keeps_of_use_eq_none rfl (by simp [Event.use])
  cases c with
  | getSensorList =>
      rw [Call.body]
      split_ifs
      · exact ⟨hnothing _, hs⟩
      · exact ⟨keeps_of_use_eq_none rfl (by simp [Event.use]), inv_hand hs hrunning⟩
  | getDynamicSensorList =>
      rw [Call.body]
      split_ifs
      · exact ⟨hnothing _, hs⟩
      · exact ⟨keeps_ask _ _, inv_ask hs _ _⟩
  | getDefaultSensor type =>
      rw [Call.body]
      split_ifs
      · refine ⟨?_, hs.matched, hs.server, hs.listing, hs.arrays, hs.listed, hs.handed⟩
        cases hlist : s.mSensorList with
        | none => exact keeps_of_use_eq_none rfl (by simp [Event.use])
        | some list =>
            obtain ⟨listing, hlisting, rfl⟩ :=
              Option.map_eq_some_iff.1 ((hs.matched hrunning).symm.trans hlist)
            have hblock := hs.listed _ hlist
            refine (keeps_findDefault type hblock hlisting fun p hp => ?_).trans
              (keeps_of_use_eq_none rfl (by simp [Event.use]))
            exact Listing.listing_of_mem_entries (List.mem_of_mem_take hp)
      · exact ⟨hnothing _, hs⟩
  | createEventQueue packageName mode =>
      rw [Call.body]
      split_ifs
      · exact ⟨keeps_ask _ _, inv_ask hs _ _⟩
      · exact ⟨hnothing _, hs⟩
  | isDataInjectionEnabled =>
      rw [Call.body]
      split_ifs
      · exact ⟨keeps_ask _ _, inv_ask hs _ _⟩
      · exact ⟨hnothing _, hs⟩

end Calls

/-! ### The notification -/

theorem keeps_free {old : Option SensorArray} (h : ∀ list ∈ old, list.block ∈ s.arrays) :
    Keeps s ({ s with arrays := s.arrays.filter fun b => ∀ list ∈ old, list.block ≠ b },
      old.toList.map fun list => .memory (.give (.array list.block))) := by
  cases old with
  | none => exact keeps_of_forall (by ext r; cases r <;> simp) (by simp)
  | some list =>
      constructor
      · ext r
        cases r with
        | array b => simp [Transition.Use.next, ne_comm]
        | sensors n => simp [Transition.Use.next]
      · exact ⟨allowed_memory.2 (h list rfl), trivial⟩

theorem keeps_clear : Keeps s ({ s with mSensors := none },
    s.mSensors.toList.map fun listing => .memory (.give (.sensors listing.id))) := by
  cases hsensors : s.mSensors with
  | none => exact keeps_of_forall (by ext r; cases r <;> simp [hsensors]) (by simp)
  | some listing =>
      constructor
      · ext r
        cases r <;> simp [Transition.Use.next, hsensors, eq_comm]
      · exact ⟨allowed_memory.2 ⟨listing, hsensors, rfl⟩, trivial⟩

/-- The notification gives up everything that there is a pointer to. -/
theorem sensorManagerDied_keeps (hs : Inv s) (observer : ℕ) :
    Keeps s (s.sensorManagerDied observer) ∧ Inv (s.sensorManagerDied observer).1 := by
  constructor
  · exact ((keeps_free hs.listed).trans keeps_clear).trans
      (keeps_of_use_eq_none rfl (by simp [Event.use]))
  · refine ⟨fun _ => rfl, fun _ => iff_of_true rfl rfl, fun _ h => (by cases h),
      fun b hb => hs.arrays b (List.mem_filter.1 hb).1, fun _ h => (by cases h),
      fun list hlist => ?_⟩
    obtain ⟨hlt, hentries, -⟩ := hs.handed list hlist
    exact ⟨hlt, hentries, fun _ h => by cases h⟩

/-! ### Steps and runs -/

section Runs

variable {getType : σ → ℤ} {isWakeUpSensor : σ → Bool} {a : Action σ} {as : List (Action σ)}
  {os : List (Event σ)} {p : State σ × List (Event σ)} {opPackageName : String}

/-- An array that was handed out is in use as long as the manager has it, and a pointer
into it leads somewhere as long as the manager has it. -/
theorem fresh_of_handed (hs : Inv s) (hrunning : s.running) {list : SensorArray} {q : Pointer}
    (hlist : list ∈ s.handed) (hq : q ∈ list.entries) :
    (list.block ∈ s.arrays ∧ ∃ listing ∈ s.mSensors, listing.id = q.listing) ↔
      s.mSensorList = some list := by
  obtain ⟨-, hentries, hsame⟩ := hs.handed list hlist
  have hid : q.listing = list.block := hentries q hq
  rw [hid, hs.matched hrunning, Option.map_eq_some_iff]
  constructor
  · rintro ⟨-, listing, hlisting, heq⟩
    exact ⟨listing, hlisting, hsame listing hlisting heq⟩
  · rintro ⟨listing, hlisting, rfl⟩
    refine ⟨hs.listed _ ?_, listing, hlisting, rfl⟩
    rw [hs.matched hrunning, hlisting]
    rfl

theorem step_keeps (hs : Inv s) (h : step getType isWakeUpSensor s a = some p) :
    Inv p.1 ∧ (ownership Event.use).after s.holds p.2 = p.1.holds ∧
      ((ownership Event.use).Accepts s.holds p.2 ↔ Fresh s a) := by
  have hkeeps : ∀ {q : State σ × List (Event σ)}, Keeps s q ∧ Inv q.1 → Fresh s a →
      Inv q.1 ∧ (ownership Event.use).after s.holds q.2 = q.1.holds ∧
        ((ownership Event.use).Accepts s.holds q.2 ↔ Fresh s a) :=
    fun hq hfresh => ⟨hq.2, hq.1.after, iff_of_true hq.1.accepts hfresh⟩
  obtain ⟨hrunning, h⟩ := step_spec h
  cases h with
  | @construct answers hnew =>
      obtain ⟨hk, hi⟩ := assertStateLocked_keeps hs answers
      exact hkeeps ⟨⟨hk.after, hk.accepts⟩, ⟨hi.matched, hi.server, hi.listing, hi.arrays,
        hi.listed, hi.handed⟩⟩ trivial
  | @abort c answers hthere hstatus =>
      exact hkeeps (assertStateLocked_keeps hs answers) trivial
  | @call c answers err body hthere hstatus hbody =>
      obtain ⟨hk, hi⟩ := assertStateLocked_keeps hs answers
      obtain ⟨-, hstill, -⟩ := server_of_assertStateLocked hstatus
      obtain ⟨hk', hi'⟩ := body_keeps getType isWakeUpSensor answers hi
        (hstill.trans hrunning) c err
      rw [hbody] at hk' hi'
      exact hkeeps ⟨hk.trans hk', hi'⟩ trivial
  | die | sendObituary =>
      exact hkeeps ⟨keeps_of_use_eq_none rfl (by simp [Event.use]),
        ⟨hs.matched, hs.server, hs.listing, hs.arrays, hs.listed, hs.handed⟩⟩ trivial
  | @binderDied observer hpromoted =>
      have hs' : Inv { s with promoted := s.promoted.erase observer } :=
        ⟨hs.matched, hs.server, hs.listing, hs.arrays, hs.listed, hs.handed⟩
      obtain ⟨hk, hi⟩ := sensorManagerDied_keeps hs' observer
      exact hkeeps ⟨⟨hk.after, hk.accepts⟩, hi⟩ trivial
  | @readSensor list i q hlist hq =>
      refine ⟨⟨hs.matched, hs.server, hs.listing, hs.arrays, hs.listed, hs.handed⟩, rfl, ?_⟩
      have hmem : q ∈ list.entries := List.mem_of_getElem? hq
      rw [Fresh, ← fresh_of_handed hs hrunning hlist hmem]
      simp [Transition.Use.Allowed, Transition.Use.next]
  | useSensor =>
      refine ⟨hs, rfl, ?_⟩
      simp [Transition.Use.Allowed, Fresh]

/-! ### What is lost -/

/-- The arrays that are there are the current one and those whose last pointer was
overwritten. -/
structure Accounted (s : State σ) (os : List (Event σ)) : Prop where
  arrays : ∀ b, b ∈ s.arrays ↔
    b ∈ os.filterMap Event.leaks ∨ ∃ list ∈ s.mSensorList, list.block = b
  nodup : (os.filterMap Event.leaks).Nodup
  apart : ∀ list ∈ s.mSensorList, list.block ∉ os.filterMap Event.leaks

theorem Accounted.of_eq (hs : Accounted s os) (harrays : t.arrays = s.arrays)
    (hlist : t.mSensorList = s.mSensorList) (ho : ∀ e ∈ o, e.leaks = none) :
    Accounted t (os ++ o) := by
  have hleaks : (os ++ o).filterMap Event.leaks = os.filterMap Event.leaks := by
    rw [List.filterMap_append, List.filterMap_eq_nil_iff.2 ho, List.append_nil]
  constructor
  · rw [hleaks, harrays, hlist]
    exact hs.arrays
  · rw [hleaks]
    exact hs.nodup
  · rw [hleaks, hlist]
    exact hs.apart

theorem leaks_of_mem_pinged {e : Event σ} (h : e ∈ s.pinged) : e.leaks = none := by
  obtain ⟨service, -, rfl⟩ := List.mem_map.1 h
  rfl

theorem leaks_initialise (service : ℕ) (hmalloc : answers.malloc = true) :
    (s.initialise service answers).events.filterMap Event.leaks =
      s.mSensorList.toList.map SensorArray.block := by
  unfold State.initialise
  rw [hmalloc]
  cases s.mSensors <;> cases s.mSensorList <;> rfl

theorem accounted_initialise (hs : Inv s) (h : Accounted s os) (service : ℕ)
    (hmalloc : answers.malloc = true) :
    Accounted (s.initialise service answers).state
      (os ++ (s.pinged ++ (s.initialise service answers).events)) := by
  have hleaks : (os ++ (s.pinged ++ (s.initialise service answers).events)).filterMap
      Event.leaks = os.filterMap Event.leaks ++ s.mSensorList.toList.map SensorArray.block := by
    have hpinged : s.pinged.filterMap Event.leaks = [] :=
      List.filterMap_eq_nil_iff.2 fun e he => leaks_of_mem_pinged he
    rw [List.filterMap_append, List.filterMap_append, leaks_initialise service hmalloc, hpinged,
      List.nil_append]
  have hmem : ∀ b, b ∈ os.filterMap Event.leaks ++ s.mSensorList.toList.map SensorArray.block ↔
      b ∈ s.arrays := fun b => by
    rw [h.arrays, List.mem_append]
    simp
  have harrays : (s.initialise service answers).state.arrays = s.inits :: s.arrays := by
    simp [State.initialise, hmalloc]
  have hlist : (s.initialise service answers).state.mSensorList =
      some (Listing.array ⟨s.inits, answers.sensors⟩) := by
    simp [State.initialise, hmalloc]
  constructor
  · intro b
    rw [hleaks, hmem, harrays, hlist, List.mem_cons, or_comm]
    simp [eq_comm]
  · rw [hleaks, List.nodup_append]
    refine ⟨h.nodup, by cases s.mSensorList <;> simp, ?_⟩
    rintro b hb _ hb' rfl
    obtain ⟨list, hlist', rfl⟩ := List.mem_map.1 hb'
    exact h.apart list (by simpa using hlist') hb
  · rw [hleaks, hlist]
    rintro list ⟨⟩ hb
    exact (hs.arrays _ ((hmem _).1 hb)).false

theorem accounted_assertStateLocked (hs : Inv s) (h : Accounted s os)
    (hrunning : (s.assertStateLocked answers).state.running = true) :
    Accounted (s.assertStateLocked answers).state
      (os ++ (s.assertStateLocked answers).events) := by
  obtain ⟨-, heq⟩ | ⟨-, heq⟩ | ⟨i, service, -, -, heq⟩ := assertStateLocked_cases s answers
  · rw [heq]
    exact h.of_eq rfl rfl fun e he => leaks_of_mem_pinged he
  · rw [heq] at hrunning
    cases hrunning
  · rw [heq] at hrunning ⊢
    cases hmalloc : answers.malloc with
    | true => exact accounted_initialise hs h service hmalloc
    | false => simp [State.initialise, hmalloc] at hrunning

theorem accounted_sensorManagerDied (h : Accounted s os) (observer : ℕ) :
    Accounted (s.sensorManagerDied observer).1 (os ++ (s.sensorManagerDied observer).2) := by
  have hleaks : (os ++ (s.sensorManagerDied observer).2).filterMap Event.leaks =
      os.filterMap Event.leaks := by
    rw [List.filterMap_append]
    cases hlist : s.mSensorList <;> cases hsensors : s.mSensors <;>
      simp [State.sensorManagerDied, hlist, hsensors, Event.leaks]
  refine ⟨fun b => ?_, by rw [hleaks]; exact h.nodup, fun list hlist => by cases hlist⟩
  rw [hleaks]
  simp only [State.sensorManagerDied, List.mem_filter, h.arrays, decide_eq_true_eq]
  constructor
  · rintro ⟨hb | ⟨list, hlist, rfl⟩, hne⟩
    · exact Or.inl hb
    · exact absurd rfl (hne list hlist)
  · rintro (hb | ⟨list, hlist, -⟩)
    · refine ⟨Or.inl hb, ?_⟩
      rintro list hlist rfl
      exact h.apart list hlist hb
    · cases hlist

theorem step_accounted (hs : Inv s) (h : Accounted s os)
    (hstep : step getType isWakeUpSensor s a = some p) (hrunning : p.1.running = true) :
    Accounted p.1 (os ++ p.2) := by
  cases (step_spec hstep).2 with
  | construct =>
      obtain ⟨harrays, hnodup, hapart⟩ := accounted_assertStateLocked hs h hrunning
      exact ⟨harrays, hnodup, hapart⟩
  | abort => exact accounted_assertStateLocked hs h hrunning
  | @call c answers err body hthere hstatus hbody =>
      subst hbody
      have hassert := accounted_assertStateLocked hs h
        ((server_of_assertStateLocked hstatus).2.1.trans (step_spec hstep).1)
      obtain ⟨handed, handedSensors, running, hstate⟩ := body_state getType isWakeUpSensor
        answers err (s.assertStateLocked answers).state c
      rw [← List.append_assoc]
      refine hassert.of_eq (by rw [hstate]) (by rw [hstate]) fun e he => ?_
      obtain ⟨r, rfl⟩ | ⟨service, request, -, rfl⟩ | ⟨result, rfl⟩ | rfl := body_events he <;> rfl
  | die | sendObituary | readSensor | useSensor =>
      exact h.of_eq rfl rfl (by simp [Event.leaks])
  | @binderDied observer hpromoted =>
      have h' : Accounted { s with promoted := s.promoted.erase observer } os :=
        ⟨h.arrays, h.nodup, h.apart⟩
      exact accounted_sensorManagerDied h' observer

theorem inv_initial : Inv (State.initial opPackageName : State σ) where
  matched _ := rfl
  server _ := iff_of_true rfl rfl
  listing _ h := by cases h
  arrays _ h := by cases h
  listed _ h := by cases h
  handed _ h := by cases h

theorem holds_initial : (State.initial opPackageName : State σ).holds = ∅ := by
  ext r
  cases r <;> simp [State.initial]

theorem run_accounted (hrun : (step getType isWakeUpSensor).run
      (State.initial opPackageName) as = some (t, os)) (hrunning : t.running = true) :
    Accounted t os := by
  refine (Machine.run_invariant (P := fun s os => Inv s ∧ (s.running = true → Accounted s os))
    ?_ ⟨inv_initial, fun _ => ?_⟩ hrun).2 hrunning
  · rintro s os a u o ⟨hs, h⟩ hstep
    exact ⟨(step_keeps hs hstep).1, step_accounted hs (h (step_spec hstep).1) hstep⟩
  · exact ⟨by simp [State.initial], by simp, fun _ h => by cases h⟩

theorem run_keeps (hrun : (step getType isWakeUpSensor).run (State.initial opPackageName) as =
      some (t, os)) :
    (ownership Event.use).after ∅ os = t.holds ∧
      ((ownership Event.use).Accepts ∅ os ↔
        (step getType isWakeUpSensor).Meets Fresh (State.initial opPackageName) as) := by
  obtain ⟨-, hafter, haccepts⟩ := Monitor.run_accepts_iff State.holds
    (fun s a p hs h => step_keeps hs h) inv_initial hrun
  rw [holds_initial] at hafter haccepts
  exact ⟨hafter, haccepts⟩

theorem Accounted.holds_eq (h : Accounted t os) :
    t.holds = t.current ∪ Resource.array '' {b | b ∈ os.filterMap Event.leaks} := by
  ext r
  cases r with
  | array b => simp [State.current, h.arrays, or_comm, eq_comm]
  | sensors n => simp [State.current, eq_comm]

end Runs

/-! ### A notification that comes late -/

/-- What a call is told while `service` is there, which is found in the second try. -/
def told (ping : ℤ) (service : ℕ) : Answers (ℤ × Bool) where
  ping := ping
  lookups i := if i = 0 then none else some service
  sensors := [(1, false), (8, true)]
  malloc := true
  dynamicSensors := []
  connection := none
  dataInjection := 0

/-- The notification of the death of the first service waits for the lock while the list is
read again from the second one. -/
def lateNotification : List (Action (ℤ × Bool)) :=
  [.construct (told 0 0), .call .getSensorList (told 0 0), .die 0, .sendObituary 0,
    .call .getSensorList (told (-32) 1),
    .readSensor (Listing.array ⟨1, [(1, false), (8, true)]⟩) 1, .binderDied 0,
    .useSensor ⟨1, 1⟩]

end MozartLineage.Sensors.Manager
