import MozartLineage.Sensors.ManagerMemory
import MozartLineage.Transition.History

/-!
# The sessions of the sensor manager

An initialisation opens a session with a service, and a notification closes the one that is
open, whichever service it is about. What the calls return is about the session that is
open. If no call comes before the notifications that are due, each session ends with its
own service, and nothing is lost.
-/

namespace MozartLineage.Sensors.Manager

open Transition

variable {σ : Type*}

/-- The service of a session and what it has listed. -/
abbrev Session (σ : Type*) := ℕ × Listing σ

/-- The session that an event opens, or that it closes the one that is open. -/
def Event.session : Event σ → Option (Option (Session σ))
  | .initialised service _ listing => some (some (service, listing))
  | .cleared _ => some none
  | _ => none

def State.session (s : State σ) : Option (Session σ) :=
  s.mSensorServer.bind fun service => s.mSensors.map (Prod.mk service)

section Machine

variable (getType : σ → ℤ) (isWakeUpSensor : σ → Bool)

/-- The first sensor of the type that is a wake-up sensor, or is not, as the type has it. -/
def Listing.defaultSensor (listing : Listing σ) (type : ℤ) : Option Pointer :=
  (listing.sensors.findIdx? fun x =>
    getType x = type ∧ isWakeUpSensor x = wakeUpSensor type).map (Pointer.mk listing.id)

/-- The result is about the session. -/
def Result.Agrees : Result σ → Session σ → Prop
  | .sensorList list, (_, listing) => list = .ok (some listing.array, listing.sensors.length)
  | .dynamicSensorList list, _ => ∃ sensors, list = .ok sensors
  | .defaultSensor type sensor, (_, listing) =>
      sensor = listing.defaultSensor getType isWakeUpSensor type
  | .eventQueue _, _ | .dataInjectionEnabled _, _ => True

/-- An event agrees with the session before it: results are about it, and what else is asked
than for an answer to a ping or for a new list is asked its service. -/
def Event.Agrees (session : Option (Session σ)) : Event σ → Prop
  | .returned result => ∃ current ∈ session, result.Agrees getType isWakeUpSensor current
  | .asked _ .ping | .asked _ (.getSensorList _) => True
  | .asked service _ => ∃ current ∈ session, current.1 = service
  | _ => True

end Machine

variable {s t : State σ} {os : List (Event σ)} {answers : Answers σ} {e : Event σ}

/-! ### The session that is open -/

theorem session_eq_some {service : ℕ} {listing : Listing σ} :
    s.session = some (service, listing) ↔
      s.mSensorServer = some service ∧ s.mSensors = some listing := by
  simp [State.session, Option.bind_eq_some_iff]

/-- A running manager with a server has a session, and its array. -/
theorem exists_session (hs : Inv s) (hrunning : s.running = true) {service : ℕ}
    (hserver : s.mSensorServer = some service) :
    ∃ listing, s.session = some (service, listing) ∧ s.mSensors = some listing ∧
      s.mSensorList = some listing.array := by
  cases hsensors : s.mSensors with
  | none =>
      have := (hs.server hrunning).2 hsensors
      simp [hserver] at this
  | some listing =>
      refine ⟨listing, session_eq_some.2 ⟨hserver, hsensors⟩, rfl, ?_⟩
      rw [hs.matched hrunning, hsensors]
      rfl

theorem session_of_mem_pinged (h : e ∈ s.pinged) : e.session = none := by
  obtain ⟨service, -, rfl⟩ := List.mem_map.1 h
  rfl

theorem latest_initialise (session : Option (Session σ)) (service : ℕ)
    (hmalloc : answers.malloc = true) :
    latest Event.session session (s.initialise service answers).events =
      some (service, ⟨s.inits, answers.sensors⟩) := by
  simp [State.initialise, hmalloc, latest_append, Event.session]

theorem latest_assertStateLocked (h : latest Event.session none os = s.session)
    (hrunning : (s.assertStateLocked answers).state.running = true) :
    latest Event.session none (os ++ (s.assertStateLocked answers).events) =
      (s.assertStateLocked answers).state.session := by
  obtain ⟨-, heq⟩ | ⟨-, heq⟩ | ⟨i, service, -, -, heq⟩ := assertStateLocked_cases s answers
  · rw [heq, latest_append_of_forall_eq_none fun e he => session_of_mem_pinged he, h]
  · rw [heq] at hrunning
    cases hrunning
  · rw [heq] at hrunning ⊢
    cases hmalloc : answers.malloc with
    | true =>
        rw [latest_append, latest_append, latest_initialise _ _ hmalloc]
        simp [State.initialise, hmalloc, State.session]
    | false => simp [State.initialise, hmalloc] at hrunning

section Runs

variable {getType : σ → ℤ} {isWakeUpSensor : σ → Bool} {a : Action σ} {as : List (Action σ)}
  {p : State σ × List (Event σ)} {opPackageName : String} {err : ℤ} {c : Call}

theorem session_of_mem_body
    (h : e ∈ (c.body getType isWakeUpSensor answers err s).2) : e.session = none := by
  obtain ⟨r, rfl⟩ | ⟨service, request, -, rfl⟩ | ⟨result, rfl⟩ | rfl := body_events h <;> rfl

theorem session_body (answers : Answers σ) (err : ℤ) (s : State σ) (c : Call) :
    (c.body getType isWakeUpSensor answers err s).1.session = s.session := by
  obtain ⟨handed, handedSensors, running, hstate⟩ := body_state getType isWakeUpSensor answers err s c
  rw [hstate]
  rfl

/-- The history says which session is open. -/
theorem latest_of_step (h : latest Event.session none os = s.session)
    (hstep : step getType isWakeUpSensor s a = some p) (hrunning : p.1.running = true) :
    latest Event.session none (os ++ p.2) = p.1.session := by
  cases (step_spec hstep).2 with
  | construct => exact latest_assertStateLocked h hrunning
  | abort => exact latest_assertStateLocked h hrunning
  | @call c answers err body hthere hstatus hbody =>
      subst hbody
      have hasserted := latest_assertStateLocked h
        ((server_of_assertStateLocked hstatus).2.1.trans (step_spec hstep).1)
      rw [← List.append_assoc, latest_append_of_forall_eq_none fun e he => session_of_mem_body he,
        hasserted, session_body]
  | binderDied => simp [State.sensorManagerDied, latest_append, Event.session, State.session]
  | die | sendObituary | readSensor | useSensor =>
      rw [latest_append_of_forall_eq_none (by simp [Event.session])]
      exact h

/-! ### What the calls return -/

/-- To look through the indices of a list is to look for the first index. -/
theorem find?_range_any {α : Type*} (xs : List α) (q : α → Bool) :
    ((List.range xs.length).find? fun i => xs[i]?.any q) = xs.findIdx? q := by
  cases h : xs.findIdx? q with
  | none =>
      rw [List.find?_range_eq_none]
      intro i hi
      have := List.findIdx?_eq_none_iff.1 h xs[i] (List.getElem_mem hi)
      simp [hi, this]
  | some i =>
      obtain ⟨hi, hq, hbefore⟩ := List.findIdx?_eq_some_iff_getElem.1 h
      rw [List.find?_range_eq_some]
      refine ⟨by simp [hi, hq], by simpa using hi, fun j hj => ?_⟩
      have := hbefore j hj
      simp [hj.trans hi, this]

theorem findDefault_eq (s : State σ) (type : ℤ) (block : ℕ) (ps : List Pointer) :
    (findDefault getType isWakeUpSensor s type block ps).1 =
      ps.find? fun p => (s.deref p).any fun x =>
        getType x = type ∧ isWakeUpSensor x = wakeUpSensor type := by
  induction ps with
  | nil => rfl
  | cons p ps ih =>
      unfold findDefault
      dsimp only
      split_ifs with h
      · simp only [List.find?_cons, h]
      · rw [Bool.not_eq_true] at h
        simp only [List.find?_cons, h, ih]

/-- The loop over the array finds the first sensor of the listing. -/
theorem findDefault_array {listing : Listing σ} (hsensors : s.mSensors = some listing)
    (type : ℤ) (block : ℕ) :
    (findDefault getType isWakeUpSensor s type block (listing.array.entries.take s.size)).1 =
      listing.defaultSensor getType isWakeUpSensor type := by
  have htake : listing.array.entries.take s.size = listing.array.entries := by
    refine List.take_of_length_le ?_
    simp [State.size, hsensors]
  have hderef : ∀ i, s.deref ⟨listing.id, i⟩ = listing.sensors[i]? := fun i => by
    simp [State.deref, hsensors]
  rw [htake, findDefault_eq, Listing.defaultSensor, ← find?_range_any, Listing.array,
    List.find?_map]
  simp [Function.comp_def, hderef]

theorem ask_agrees {service : ℕ} {listing : Listing σ} (hserver : s.mSensorServer = some service)
    (hsession : s.session = some (service, listing)) {request : Request} {result : Result σ}
    (hresult : result.Agrees getType isWakeUpSensor (service, listing))
    (h : e ∈ (s.ask request result).2) :
    e.Agrees getType isWakeUpSensor s.session := by
  simp only [State.ask, hserver] at h
  rcases List.mem_cons.1 h with rfl | h
  · cases request <;> simp [Event.Agrees, hsession]
  · rw [List.mem_singleton.1 h]
    exact ⟨_, hsession, hresult⟩

/-- What a call asks and returns is about the session that is open by then. -/
theorem body_agrees (hs : Inv s) (hrunning : s.running = true) {service : ℕ}
    (hserver : s.mSensorServer = some service)
    (h : e ∈ (c.body getType isWakeUpSensor answers noError s).2) :
    e.Agrees getType isWakeUpSensor s.session := by
  obtain ⟨listing, hsession, hsensors, hlist⟩ := exists_session hs hrunning hserver
  cases c with
  | getSensorList =>
      rw [Call.body, if_neg (by decide)] at h
      rw [List.mem_singleton.1 h]
      refine ⟨_, hsession, ?_⟩
      simp [Result.Agrees, hlist, State.size, hsensors]
  | getDynamicSensorList =>
      rw [Call.body, if_neg (by decide)] at h
      refine ask_agrees hserver hsession ?_ h
      exact ⟨_, rfl⟩
  | getDefaultSensor type =>
      rw [Call.body, if_pos rfl, hlist] at h
      rcases List.mem_append.1 h with h | h
      · obtain ⟨r, rfl⟩ := mem_findDefault h
        trivial
      · rw [List.mem_singleton.1 h]
        exact ⟨_, hsession, findDefault_array hsensors type _⟩
  | createEventQueue packageName mode =>
      rw [Call.body, if_pos rfl] at h
      refine ask_agrees hserver hsession ?_ h
      trivial
  | isDataInjectionEnabled =>
      rw [Call.body, if_pos rfl] at h
      refine ask_agrees hserver hsession ?_ h
      trivial

/-- The check returns nothing to the client. -/
theorem assertStateLocked_agrees {session : Option (Session σ)}
    (h : e ∈ (s.assertStateLocked answers).events) :
    e.Agrees getType isWakeUpSensor session := by
  obtain ⟨service, rfl⟩ | ⟨use, rfl⟩ | ⟨service, rfl⟩ | ⟨-, service, listing, rfl⟩ | rfl :=
    mem_assertStateLocked h <;> trivial

/-- No call comes while a death is still to be reported or a notification waits, the
services that live answer pings, and those that are found live. -/
def Prompt (s : State σ) : Action σ → Prop
  | .construct answers | .call _ answers =>
      s.promoted = [] ∧ (∀ link ∈ s.links, link.1 ∉ s.dead) ∧
        (∀ service ∈ s.mSensorServer, service ∉ s.dead → answers.ping = noError) ∧
        ∀ i, ∀ service ∈ answers.lookups i, service ∉ s.dead
  | _ => True

instance (s : State σ) (a : Action σ) : Decidable (Prompt s a) :=
  match a with
  | .construct answers | .call _ answers =>
      inferInstanceAs (Decidable (s.promoted = [] ∧ (∀ link ∈ s.links, link.1 ∉ s.dead) ∧
        (∀ service ∈ s.mSensorServer, service ∉ s.dead → answers.ping = noError) ∧
        ∀ i, ∀ service ∈ answers.lookups i, service ∉ s.dead))
  | .die _ | .sendObituary _ | .binderDied _ | .readSensor _ _ | .useSensor _ => isTrue trivial

/-- The observer of the session that is open is linked to its service, or is about to be
told of its death. No other observer is left to be told. -/
structure Linked (s : State σ) : Prop where
  reported : ∀ service ∈ s.obitsSent, service ∈ s.dead
  numbered : ∀ link ∈ s.links, link.2 < s.inits
  closed : s.session = none → s.promoted = [] ∧ ∀ link ∈ s.links, s.mDeathObserver ≠ some link.2
  current : ∀ service listing, s.session = some (service, listing) →
    s.mDeathObserver = some listing.id ∧
      (∀ link ∈ s.links, link.2 = listing.id → link.1 = service) ∧
      (s.promoted = [] ∧ (service, listing.id) ∈ s.links ∨
        s.promoted = [listing.id] ∧ service ∈ s.dead ∧ ∀ link ∈ s.links, link.2 ≠ listing.id)

theorem linked_initial : Linked (State.initial opPackageName : State σ) where
  reported _ h := by cases h
  numbered _ h := by cases h
  closed _ := ⟨rfl, fun _ h => by cases h⟩
  current _ _ h := by cases h

/-- A session that is open is not given up by a call. -/
theorem session_of_prompt (hs : Linked s) (hpromoted : s.promoted = [])
    (hlinks : ∀ link ∈ s.links, link.1 ∉ s.dead)
    (hping : ∀ service ∈ s.mSensorServer, service ∉ s.dead → answers.ping = noError)
    (hinit : s.initSensorManager answers.ping = true) : s.session = none := by
  by_contra hopen
  obtain ⟨⟨service, listing⟩, hsession⟩ := Option.ne_none_iff_exists'.1 hopen
  obtain ⟨-, -, ⟨-, hlink⟩ | ⟨hwaits, -⟩⟩ := hs.current service listing hsession
  · have hserver := (session_eq_some.1 hsession).1
    have halive : service ∉ s.dead := hlinks _ hlink
    have hkept := initSensorManager_eq_false.2 ⟨service, hserver, hping service hserver halive⟩
    rw [hinit] at hkept
    cases hkept
  · rw [hpromoted] at hwaits
    cases hwaits

theorem mSensorList_of_session_eq_none (hs : Inv s) (hrunning : s.running = true)
    (h : s.session = none) : s.mSensorList = none := by
  rw [hs.matched hrunning, Option.map_eq_none_iff]
  by_contra hsensors
  obtain ⟨listing, hlisting⟩ := Option.ne_none_iff_exists'.1 hsensors
  obtain ⟨service, hserver⟩ : ∃ service, s.mSensorServer = some service := by
    refine Option.ne_none_iff_exists'.1 fun hnone => ?_
    exact hsensors ((hs.server hrunning).1 hnone)
  rw [session_eq_some.2 ⟨hserver, hlisting⟩] at h
  cases h

/-- A new session with a service that lives. -/
theorem linked_initialise (hs : Linked s) (hpromoted : s.promoted = []) {service : ℕ}
    (halive : service ∉ s.dead) (hmalloc : answers.malloc = true) :
    Linked (s.initialise service answers).state := by
  have hlinks : s.linkToDeath service s.inits = (service, s.inits) :: s.links :=
    if_neg fun hsent => halive (hs.reported service hsent)
  have hstate : (s.initialise service answers).state =
      { s with
        mSensorServer := some service
        mSensorList := some (Listing.array ⟨s.inits, answers.sensors⟩)
        mSensors := some ⟨s.inits, answers.sensors⟩
        mDeathObserver := some s.inits
        inits := s.inits + 1
        arrays := s.inits :: s.arrays
        links := (service, s.inits) :: s.links } := by
    simp [State.initialise, hmalloc, hlinks]
  rw [hstate]
  have hold : ∀ link ∈ (service, s.inits) :: s.links, link.2 = s.inits → link.1 = service := by
    intro link hlink heq
    rcases List.mem_cons.1 hlink with rfl | hlink
    · rfl
    · exact absurd heq (hs.numbered link hlink).ne
  constructor
  · exact hs.reported
  · intro link hlink
    rcases List.mem_cons.1 hlink with rfl | hlink
    · exact Nat.lt_succ_self _
    · exact (hs.numbered link hlink).trans (Nat.lt_succ_self _)
  · intro hnone
    cases hnone
  · rintro service' listing hsession
    obtain ⟨hserver, hsensors⟩ := session_eq_some.1 hsession
    obtain rfl := Option.some.inj hserver
    obtain rfl := Option.some.inj hsensors
    exact ⟨rfl, hold, Or.inl ⟨hpromoted, by simp⟩⟩

theorem assertStateLocked_prompt (hinv : Inv s) (hs : Linked s) (hrunning : s.running = true)
    (hpromoted : s.promoted = []) (hlinks : ∀ link ∈ s.links, link.1 ∉ s.dead)
    (hping : ∀ service ∈ s.mSensorServer, service ∉ s.dead → answers.ping = noError)
    (hfound : ∀ i, ∀ service ∈ answers.lookups i, service ∉ s.dead) :
    (∀ e ∈ (s.assertStateLocked answers).events, e.leaks = none) ∧
      ((s.assertStateLocked answers).state.running = true →
        Linked (s.assertStateLocked answers).state) := by
  constructor
  · intro e he
    obtain ⟨service, rfl⟩ | ⟨use, rfl⟩ | ⟨service, rfl⟩ | ⟨hinit, service, listing, rfl⟩ | rfl :=
      mem_assertStateLocked he
    · rfl
    · rfl
    · rfl
    · rw [mSensorList_of_session_eq_none hinv hrunning
        (session_of_prompt hs hpromoted hlinks hping hinit)]
      rfl
    · rfl
  · intro h
    obtain ⟨-, heq⟩ | ⟨-, heq⟩ | ⟨i, service, -, hi, heq⟩ := assertStateLocked_cases s answers
    · rw [heq]
      exact hs
    · rw [heq] at h
      cases h
    · rw [heq] at h ⊢
      cases hmalloc : answers.malloc with
      | true => exact linked_initialise hs hpromoted (hfound i service hi) hmalloc
      | false => simp [State.initialise, hmalloc] at h

/-- The death of a service is reported to the observer of its session only. -/
theorem linked_sendObituary (hs : Linked s) {service : ℕ} (hdead : service ∈ s.dead) :
    Linked { s with
      obitsSent := service :: s.obitsSent
      links := s.links.filter fun link => link.1 ≠ service
      promoted := s.promoted ++ s.mDeathObserver.toList.filter fun o =>
        (service, o) ∈ s.links } := by
  have hmem : ∀ link ∈ s.links.filter (fun link => link.1 ≠ service),
      link ∈ s.links ∧ link.1 ≠ service := fun link h => by simpa using h
  constructor
  · intro sent hsent
    rcases List.mem_cons.1 hsent with rfl | hsent
    · exact hdead
    · exact hs.reported sent hsent
  · exact fun link h => hs.numbered link (hmem link h).1
  · intro hnone
    obtain ⟨hpromoted, hlinks⟩ := hs.closed hnone
    refine ⟨?_, fun link h => hlinks link (hmem link h).1⟩
    have hnobody : ∀ o ∈ s.mDeathObserver.toList, (service, o) ∉ s.links := fun o ho hlink =>
      hlinks _ hlink (by simpa using ho)
    simpa [hpromoted] using hnobody
  · rintro service' listing hsession
    obtain ⟨hobserver, hown, hwaits⟩ := hs.current service' listing hsession
    refine ⟨hobserver, fun link h => hown link (hmem link h).1, ?_⟩
    dsimp only
    rw [hobserver]
    by_cases hlink : (service, listing.id) ∈ s.links
    · -- it is the service of the session that has died
      obtain rfl : service = service' := hown _ hlink rfl
      obtain ⟨hpromoted, -⟩ | ⟨-, -, hnone⟩ := hwaits
      · refine Or.inr ⟨by simp [hpromoted, hlink], hdead, fun link h heq => ?_⟩
        exact (hmem link h).2 (hown link (hmem link h).1 heq)
      · exact absurd rfl (hnone _ hlink)
    · obtain ⟨hpromoted, hthere⟩ | ⟨hpromoted, hdead', hnone⟩ := hwaits
      · have hne : service' ≠ service := by
          rintro rfl
          exact hlink hthere
        exact Or.inl ⟨by simp [hpromoted, hlink], by simp [hthere, hne]⟩
      · exact Or.inr ⟨by simp [hpromoted, hlink], hdead', fun link h => hnone link (hmem link h).1⟩

/-- A notification that waits is about the session that is open, and closes it. -/
theorem linked_sensorManagerDied (hs : Linked s) {observer : ℕ} (h : observer ∈ s.promoted) :
    Linked (State.sensorManagerDied { s with promoted := s.promoted.erase observer } observer).1 ∧
      ∃ service listing, s.session = some (service, listing) ∧ listing.id = observer ∧
        service ∈ s.dead := by
  cases hsession : s.session with
  | none =>
      rw [(hs.closed hsession).1] at h
      cases h
  | some session =>
      obtain ⟨service, listing⟩ := session
      obtain ⟨hobserver, -, ⟨hpromoted, -⟩ | ⟨hpromoted, hdead, hlinks⟩⟩ :=
        hs.current service listing hsession
      · rw [hpromoted] at h
        cases h
      · rw [hpromoted] at h
        obtain rfl := List.mem_singleton.1 h
        refine ⟨⟨hs.reported, hs.numbered, fun _ => ⟨?_, fun link hlink heq => ?_⟩, ?_⟩,
          service, listing, rfl, rfl, hdead⟩
        · simp [State.sensorManagerDied, hpromoted]
        · exact hlinks link hlink (Option.some.inj (hobserver.symm.trans heq)).symm
        · intro service' listing' h
          cases h

/-- Only a notification clears. -/
theorem step_of_cleared (hstep : step getType isWakeUpSensor s a = some p) {observer : ℕ}
    (h : .cleared observer ∈ p.2) : observer ∈ s.promoted ∧
      p = State.sensorManagerDied { s with promoted := s.promoted.erase observer } observer := by
  have hasserted : ∀ {answers : Answers σ},
      .cleared observer ∉ (s.assertStateLocked answers).events := fun {answers} hmem => by
    obtain ⟨service, h⟩ | ⟨use, h⟩ | ⟨service, h⟩ | ⟨-, service, listing, h⟩ | h :=
      mem_assertStateLocked hmem <;> cases h
  cases (step_spec hstep).2 with
  | construct | abort => exact (hasserted h).elim
  | call hthere hstatus hbody =>
      subst hbody
      rcases List.mem_append.1 h with h | h
      · exact (hasserted h).elim
      · obtain ⟨r, h⟩ | ⟨service, request, -, h⟩ | ⟨result, h⟩ | h := body_events h <;> cases h
  | die | sendObituary | readSensor | useSensor => simp at h
  | binderDied hpromoted =>
      obtain ⟨use, h⟩ | h := mem_sensorManagerDied h
      · cases h
      · cases h
        exact ⟨hpromoted, rfl⟩

theorem step_linked (hinv : Inv s) (hs : Linked s) (hprompt : Prompt s a)
    (hstep : step getType isWakeUpSensor s a = some p) :
    (∀ e ∈ p.2, e.leaks = none) ∧ (p.1.running = true → Linked p.1) := by
  obtain ⟨hrunning, hsteps⟩ := step_spec hstep
  cases hsteps with
  | construct hnew =>
      obtain ⟨hpromoted, hlinks, hping, hfound⟩ := hprompt
      obtain ⟨hleaks, hlinked⟩ :=
        assertStateLocked_prompt hinv hs hrunning hpromoted hlinks hping hfound
      refine ⟨hleaks, fun h => ?_⟩
      obtain ⟨hreported, hnumbered, hclosed, hcurrent⟩ := hlinked h
      exact ⟨hreported, hnumbered, hclosed, hcurrent⟩
  | abort hthere hstatus =>
      obtain ⟨hpromoted, hlinks, hping, hfound⟩ := hprompt
      exact assertStateLocked_prompt hinv hs hrunning hpromoted hlinks hping hfound
  | @call c answers err body hthere hstatus hbody =>
      subst hbody
      obtain ⟨hpromoted, hlinks, hping, hfound⟩ := hprompt
      obtain ⟨hleaks, hlinked⟩ :=
        assertStateLocked_prompt hinv hs hrunning hpromoted hlinks hping hfound
      obtain ⟨handed, handedSensors, running, hstate⟩ := body_state getType isWakeUpSensor
        answers err (s.assertStateLocked answers).state c
      refine ⟨fun e he => ?_, fun _ => ?_⟩
      · rcases List.mem_append.1 he with he | he
        · exact hleaks e he
        · obtain ⟨r, rfl⟩ | ⟨service, request, -, rfl⟩ | ⟨result, rfl⟩ | rfl := body_events he <;>
            rfl
      · obtain ⟨hreported, hnumbered, hclosed, hcurrent⟩ :=
          hlinked ((server_of_assertStateLocked hstatus).2.1.trans hrunning)
        rw [hstate]
        exact ⟨hreported, hnumbered, hclosed, hcurrent⟩
  | die =>
      refine ⟨by simp [Event.leaks], fun _ => ⟨?_, hs.numbered, hs.closed, ?_⟩⟩
      · exact fun service h => List.mem_cons_of_mem _ (hs.reported service h)
      · rintro service listing hsession
        obtain ⟨hobserver, hown, hwaits⟩ := hs.current service listing hsession
        refine ⟨hobserver, hown, hwaits.imp_right fun h => ?_⟩
        exact ⟨h.1, List.mem_cons_of_mem _ h.2.1, h.2.2⟩
  | sendObituary hdead => exact ⟨by simp, fun _ => linked_sendObituary hs hdead⟩
  | binderDied hpromoted =>
      refine ⟨fun e he => ?_, fun _ => (linked_sensorManagerDied hs hpromoted).1⟩
      obtain ⟨use, rfl⟩ | rfl := mem_sensorManagerDied he <;> rfl
  | readSensor | useSensor =>
      refine ⟨by simp [Event.leaks], fun _ => ?_⟩
      exact ⟨hs.reported, hs.numbered, hs.closed, hs.current⟩

/-- The services that have died are those that the history tells of. -/
theorem dead_of_step (hstep : step getType isWakeUpSensor s a = some p) {service : ℕ}
    (h : service ∈ p.1.dead) : service ∈ s.dead ∨ .died service ∈ p.2 := by
  have hasserted : ∀ {answers : Answers σ},
      (s.assertStateLocked answers).state.dead = s.dead := fun {answers} => by
    obtain ⟨-, heq⟩ | ⟨-, heq⟩ | ⟨i, service, -, -, heq⟩ := assertStateLocked_cases s answers
    · rw [heq]
    · rw [heq]
    · rw [heq]
      cases hmalloc : answers.malloc <;> simp [State.initialise, hmalloc]
  cases (step_spec hstep).2 with
  | construct | abort => exact Or.inl (hasserted ▸ h)
  | @call c answers err body hthere hstatus hbody =>
      subst hbody
      obtain ⟨handed, handedSensors, running, hstate⟩ := body_state getType isWakeUpSensor
        answers err (s.assertStateLocked answers).state c
      rw [hstate] at h
      exact Or.inl (hasserted ▸ h)
  | die =>
      rcases List.mem_cons.1 h with rfl | h
      · exact Or.inr (by simp)
      · exact Or.inl h
  | sendObituary | binderDied | readSensor | useSensor => exact Or.inl h

/-- Nothing clears before a notification clears. -/
theorem session_of_mem_before {observer : ℕ} {o₁ o₂ : List (Event σ)}
    (ho : (s.sensorManagerDied observer).2 = o₁ ++ e :: o₂) {e' : Event σ} (he' : e' ∈ o₁) :
    e'.session = none := by
  have hmemory : ∀ e' ∈ (s.mSensorList.toList.map fun list =>
        (.memory (.give (.array list.block)) : Event σ)) ++
      s.mSensors.toList.map fun listing => .memory (.give (.sensors listing.id)),
      e'.session = none := fun e' h => by
    rcases List.mem_append.1 h with h | h
    · obtain ⟨list, -, rfl⟩ := List.mem_map.1 h
      rfl
    · obtain ⟨listing, -, rfl⟩ := List.mem_map.1 h
      rfl
  refine hmemory e' (List.IsPrefix.mem he' ?_)
  have hwhole : o₁ <+: (s.sensorManagerDied observer).2 := by
    rw [ho]
    exact List.prefix_append _ _
  refine List.prefix_of_prefix_length_le hwhole ?_ ?_
  · exact List.prefix_append _ _
  · have := congrArg List.length ho
    simp only [State.sensorManagerDied, List.length_append, List.length_cons,
      List.length_nil] at this ⊢
    omega

/-- What a prompt run knows. -/
structure Known (s : State σ) (os : List (Event σ)) : Prop where
  linked : Linked s
  session : latest Event.session none os = s.session
  dead : ∀ service ∈ s.dead, .died service ∈ os

theorem known_of_step (hinv : Inv s) (h : Known s os) (hprompt : Prompt s a)
    (hstep : step getType isWakeUpSensor s a = some p) (hrunning : p.1.running = true) :
    Known p.1 (os ++ p.2) := by
  refine ⟨(step_linked hinv h.linked hprompt hstep).2 hrunning,
    latest_of_step h.session hstep hrunning, fun service hdead => ?_⟩
  rcases dead_of_step hstep hdead with hdead | hdied
  · exact List.mem_append_left _ (h.dead service hdead)
  · exact List.mem_append_right _ hdied

end Runs

/-- The service dies, its death is reported, and a second one is found. -/
def promptNotification : List (Action (ℤ × Bool)) :=
  [.construct (told 0 0), .call .getSensorList (told 0 0), .die 0, .sendObituary 0,
    .binderDied 0, .call (.getDefaultSensor 8) (told 0 1)]

end MozartLineage.Sensors.Manager
