import MozartLineage.Transition.Monitor
import Mathlib.Data.List.OfFn
import Mathlib.Data.Set.Insert

/-!
# The sensor manager of the legacy processes

`SensorManager` asks the sensor service once for its sensors, and hands out pointers into
what it has been told. The service can die at any moment. A call asks first whether the
service still answers, and starts over if it does not. A death notification clears what is
there when it gets the lock, which may be long after the service has died.
-/

namespace MozartLineage.Sensors.Manager

open Transition

def noError : ℤ := 0

def nameNotFound : ℤ := -2

/-- The elements of the vector of sensors, from one assignment to the next. -/
structure Listing (σ : Type*) where
  id : ℕ
  sensors : List σ

structure Pointer where
  listing : ℕ
  index : ℕ
deriving DecidableEq

/-- An array of pointers. It is not written to once it is filled. -/
structure SensorArray where
  block : ℕ
  entries : List Pointer
deriving DecidableEq

/-- The array that is filled with the addresses of the elements. -/
def Listing.array {σ : Type*} (listing : Listing σ) : SensorArray where
  block := listing.id
  entries := (List.range listing.sensors.length).map (Pointer.mk listing.id)

inductive Resource where
  | array (block : ℕ)
  | sensors (listing : ℕ)
deriving DecidableEq

/-- A transaction with the service. -/
inductive Request where
  | ping
  | getSensorList (opPackageName : String)
  | getDynamicSensorList (opPackageName : String)
  | createSensorEventConnection (packageName : String) (mode : ℤ) (opPackageName : String)
  | isDataInjectionEnabled
deriving DecidableEq

/-- What a call returns. -/
inductive Result (σ : Type*) where
  | sensorList (list : Except ℤ (Option SensorArray × ℕ))
  | dynamicSensorList (list : Except ℤ (List σ))
  | defaultSensor (type : ℤ) (sensor : Option Pointer)
  | eventQueue (connection : Option ℕ)
  | dataInjectionEnabled (enabled : Bool)

inductive Event (σ : Type*) where
  | memory (use : Transition.Use Resource)
  | asked (service : ℕ) (request : Request)
  | initialised (service : ℕ) (old : Option SensorArray) (listing : Listing σ)
  | died (service : ℕ)
  | cleared (observer : ℕ)
  | returned (result : Result σ)
  | aborted

/-- The manager, the memory, the clients and the binder library. The services, the
observers and the notifications are numbered. -/
structure State (σ : Type*) where
  mSensorServer : Option ℕ
  mSensorList : Option SensorArray
  mSensors : Option (Listing σ)
  mDeathObserver : Option ℕ
  mOpPackageName : String
  constructed : Bool
  running : Bool
  inits : ℕ
  arrays : List ℕ
  handed : List SensorArray
  handedSensors : List Pointer
  dead : List ℕ
  obitsSent : List ℕ
  links : List (ℕ × ℕ)
  promoted : List ℕ

/-- Before the constructor. -/
def State.initial {σ : Type*} (opPackageName : String) : State σ where
  mSensorServer := none
  mSensorList := none
  mSensors := none
  mDeathObserver := none
  mOpPackageName := opPackageName
  constructed := false
  running := true
  inits := 0
  arrays := []
  handed := []
  handedSensors := []
  dead := []
  obitsSent := []
  links := []
  promoted := []

/-- What a call is told: by the ping, by the service manager in each try, by the service
and by `malloc`. A service that has died in the meantime lists no sensors. -/
structure Answers (σ : Type*) where
  ping : ℤ
  lookups : Fin 60 → Option ℕ
  sensors : List σ
  malloc : Bool
  dynamicSensors : List σ
  connection : Option ℕ
  dataInjection : ℤ

/-- `getService` for what the service manager finds: the status and what is assigned. -/
def getService : Option ℕ → ℤ × Option ℕ
  | some service => (noError, some service)
  | none => (nameNotFound, none)

/-- The loop over the tries: the status it returns with, if it does, and the server. -/
def findService : List (ℤ × Option ℕ) → Option ℕ → Option ℤ × Option ℕ
  | [], server => (none, server)
  | (err, out) :: tries, _ =>
      if err = nameNotFound then findService tries out
      else if err ≠ noError then (some err, out)
      else (none, out)

/-- What `assertStateLocked` returns, if the process has not been aborted. -/
structure Asserted (σ : Type*) where
  status : Option ℤ
  state : State σ
  events : List (Event σ)

namespace State

variable {σ : Type*}

def size (s : State σ) : ℕ := (s.mSensors.map (·.sensors.length)).getD 0

/-- The binder library does not link to a service whose death it has reported. -/
def linkToDeath (s : State σ) (service observer : ℕ) : List (ℕ × ℕ) :=
  if service ∈ s.obitsSent then s.links else (service, observer) :: s.links

/-- A new observer, a new listing in place of the old one, and a new array. The pointer to
the array that was there is overwritten. -/
def initialise (s : State σ) (service : ℕ) (answers : Answers σ) : Asserted σ :=
  let listing : Listing σ := ⟨s.inits, answers.sensors⟩
  let linked := { s with
    mSensorServer := some service
    mSensors := some listing
    mDeathObserver := some s.inits
    inits := s.inits + 1
    links := s.linkToDeath service s.inits }
  let events := .asked service (.getSensorList s.mOpPackageName) ::
    .memory (.take (.sensors s.inits)) ::
    s.mSensors.toList.map fun old => .memory (.give (.sensors old.id))
  if answers.malloc then
    ⟨some noError,
      { linked with mSensorList := some listing.array, arrays := s.inits :: s.arrays },
      events ++ [.memory (.take (.array s.inits)), .initialised service s.mSensorList listing]⟩
  else ⟨none, { linked with mSensorList := none, running := false }, events ++ [.aborted]⟩

def initSensorManager (s : State σ) (ping : ℤ) : Bool :=
  match s.mSensorServer with
  | none => true
  | some _ => ping ≠ noError

def pinged (s : State σ) : List (Event σ) :=
  s.mSensorServer.toList.map fun service => .asked service .ping

def assertStateLocked (s : State σ) (answers : Answers σ) : Asserted σ :=
  if s.initSensorManager answers.ping then
    match findService (List.ofFn fun i => getService (answers.lookups i)) s.mSensorServer with
    | (some err, server) => ⟨some err, { s with mSensorServer := server }, s.pinged⟩
    | (none, none) =>
        ⟨none, { s with mSensorServer := none, running := false }, s.pinged ++ [.aborted]⟩
    | (none, some service) =>
        let asserted := s.initialise service answers
        { asserted with events := s.pinged ++ asserted.events }
  else ⟨some noError, s, s.pinged⟩

def sensorManagerDied (s : State σ) (observer : ℕ) : State σ × List (Event σ) :=
  ({ s with
      mSensorServer := none
      mSensorList := none
      mSensors := none
      arrays := s.arrays.filter fun b => ∀ list ∈ s.mSensorList, list.block ≠ b },
    (s.mSensorList.toList.map fun list => .memory (.give (.array list.block))) ++
      (s.mSensors.toList.map fun listing => .memory (.give (.sensors listing.id))) ++
      [.cleared observer])

/-- The sensor at an address, as long as it is there. -/
def deref (s : State σ) (p : Pointer) : Option σ :=
  s.mSensors.bind fun listing =>
    if listing.id = p.listing then listing.sensors[p.index]? else none

/-- A call to the service, which the code makes without a check of the pointer. -/
def ask (s : State σ) (request : Request) (result : Result σ) : State σ × List (Event σ) :=
  match s.mSensorServer with
  | none => ({ s with running := false }, [.aborted])
  | some service => (s, [.asked service request, .returned result])

end State

/-- The wake-up sensor is the default one. -/
def wakeUpSensor (type : ℤ) : Bool :=
  -- proximity, significant motion, tilt detector, wake, glance, pick up and wrist tilt
  type ∈ ([8, 17, 22, 23, 24, 25, 26] : List ℤ)

inductive Call where
  | getSensorList
  | getDynamicSensorList
  | getDefaultSensor (type : ℤ)
  | createEventQueue (packageName : String) (mode : ℤ)
  | isDataInjectionEnabled
deriving DecidableEq

/-- `createEventQueue` without arguments. -/
def createEventQueue : Call := .createEventQueue "" 0

inductive Action (σ : Type*) where
  | construct (answers : Answers σ)
  | call (c : Call) (answers : Answers σ)
  | die (service : ℕ)
  | sendObituary (service : ℕ)
  | binderDied (observer : ℕ)
  | readSensor (list : SensorArray) (i : ℕ)
  | useSensor (sensor : Pointer)

section Machine

variable {σ : Type*} (getType : σ → ℤ) (isWakeUpSensor : σ → Bool)

/-- The loop of `getDefaultSensor` over the array `block`. -/
def findDefault (s : State σ) (type : ℤ) (block : ℕ) :
    List Pointer → Option Pointer × List (Event σ)
  | [] => (none, [])
  | p :: ps =>
      let read := [.memory (.touch (.array block)), .memory (.touch (.sensors p.listing))]
      if (s.deref p).any fun x => getType x = type ∧ isWakeUpSensor x = wakeUpSensor type then
        (some p, read)
      else
        let found := findDefault s type block ps
        (found.1, read ++ found.2)

/-- What a call does after `assertStateLocked` has returned `err`. -/
def Call.body (answers : Answers σ) (err : ℤ) (s : State σ) :
    Call → State σ × List (Event σ)
  | .getSensorList =>
      if err < 0 then (s, [.returned (.sensorList (.error err))])
      else
        ({ s with handed := s.mSensorList.toList ++ s.handed },
          [.returned (.sensorList (.ok (s.mSensorList, s.size)))])
  | .getDynamicSensorList =>
      if err < 0 then (s, [.returned (.dynamicSensorList (.error err))])
      else s.ask (.getDynamicSensorList s.mOpPackageName)
        (.dynamicSensorList (.ok answers.dynamicSensors))
  | .getDefaultSensor type =>
      if err = noError then
        let found := match s.mSensorList with
          | none => (none, [])
          | some list =>
              findDefault getType isWakeUpSensor s type list.block (list.entries.take s.size)
        ({ s with handedSensors := found.1.toList ++ s.handedSensors },
          found.2 ++ [.returned (.defaultSensor type found.1)])
      else (s, [.returned (.defaultSensor type none)])
  | .createEventQueue packageName mode =>
      if err = noError then
        s.ask (.createSensorEventConnection packageName mode s.mOpPackageName)
          (.eventQueue answers.connection)
      else (s, [.returned (.eventQueue none)])
  | .isDataInjectionEnabled =>
      if err = noError then
        s.ask .isDataInjectionEnabled (.dataInjectionEnabled (answers.dataInjection ≠ 0))
      else (s, [.returned (.dataInjectionEnabled false)])

/-- Every call and every notification holds the lock, so each of them is one step. The
obituary of a service reaches the observer that is there by then, and waits for the lock. -/
def step : Machine (State σ) (Action σ) (Event σ) := fun s a =>
  if s.running then
    match a with
    | .construct answers =>
        if s.constructed then none
        else
          let asserted := s.assertStateLocked answers
          some ({ asserted.state with constructed := true }, asserted.events)
    | .call c answers =>
        if s.constructed then
          let asserted := s.assertStateLocked answers
          match asserted.status with
          | none => some (asserted.state, asserted.events)
          | some err =>
              let body := c.body getType isWakeUpSensor answers err asserted.state
              some (body.1, asserted.events ++ body.2)
        else none
    | .die service => if service ∈ s.dead then none
        else some ({ s with dead := service :: s.dead }, [.died service])
    | .sendObituary service =>
        if service ∈ s.dead ∧ service ∉ s.obitsSent ∧ service ∈ s.links.map Prod.fst then
          some ({ s with
            obitsSent := service :: s.obitsSent
            links := s.links.filter fun link => link.1 ≠ service
            promoted := s.promoted ++ s.mDeathObserver.toList.filter fun o =>
              (service, o) ∈ s.links }, [])
        else none
    | .binderDied observer =>
        if observer ∈ s.promoted then
          some (State.sensorManagerDied { s with promoted := s.promoted.erase observer } observer)
        else none
    | .readSensor list i =>
        if list ∈ s.handed then
          list.entries[i]?.map fun p =>
            ({ s with handedSensors := p :: s.handedSensors },
              [.memory (.touch (.array list.block)), .memory (.touch (.sensors p.listing))])
        else none
    | .useSensor p =>
        if p ∈ s.handedSensors then some (s, [.memory (.touch (.sensors p.listing))])
        else none
  else none

end Machine

section Lemmas

variable {σ : Type*} {s : State σ} {answers : Answers σ}

/-- The first service that is found ends the loop, and no error does. -/
theorem findService_getService (found : List (Option ℕ)) :
    findService (found.map getService) none = (none, found.findSome? id) := by
  induction found with
  | nil => rfl
  | cons out found ih =>
      cases out with
      | none => simpa [findService, getService] using ih
      | some service => simp [findService, getService, noError, nameNotFound]

theorem findService_lookups (lookups : Fin 60 → Option ℕ) (server : Option ℕ) :
    findService (List.ofFn fun i => getService (lookups i)) server =
      (none, (List.ofFn lookups).findSome? id) := by
  have hmap : (List.ofFn fun i => getService (lookups i)) =
      (List.ofFn lookups).map getService := by
    rw [List.map_ofFn]
    rfl
  rw [hmap, ← findService_getService]
  -- the first try already overwrites what was there
  rw [List.ofFn_succ, List.map_cons]
  cases lookups 0 <;> rfl

theorem initSensorManager_eq_false {ping : ℤ} :
    s.initSensorManager ping = false ↔
      ∃ service, s.mSensorServer = some service ∧ ping = noError := by
  unfold State.initSensorManager
  cases s.mSensorServer <;> simp

/-- The service answers and all stays, or none is found in 60 tries, or one is found and all
is set up again. -/
theorem assertStateLocked_cases (s : State σ) (answers : Answers σ) :
    (s.initSensorManager answers.ping = false ∧
      s.assertStateLocked answers = ⟨some noError, s, s.pinged⟩) ∨
    (s.initSensorManager answers.ping = true ∧
      s.assertStateLocked answers =
        ⟨none, { s with mSensorServer := none, running := false }, s.pinged ++ [.aborted]⟩) ∨
    ∃ i service, s.initSensorManager answers.ping = true ∧
      answers.lookups i = some service ∧
      s.assertStateLocked answers =
        { s.initialise service answers with
          events := s.pinged ++ (s.initialise service answers).events } := by
  cases hinit : s.initSensorManager answers.ping with
  | false => exact Or.inl ⟨rfl, by rw [State.assertStateLocked, if_neg (by simp [hinit])]⟩
  | true =>
      right
      rw [State.assertStateLocked, if_pos hinit, findService_lookups]
      cases hfound : (List.ofFn answers.lookups).findSome? id with
      | none => exact Or.inl ⟨rfl, rfl⟩
      | some service =>
          obtain ⟨out, hout, heq⟩ := List.exists_of_findSome?_eq_some hfound
          obtain ⟨i, hi⟩ := (List.mem_ofFn' _ _).1 hout
          exact Or.inr ⟨i, service, rfl, hi.trans heq, rfl⟩

theorem mem_initialise {service : ℕ} {e : Event σ}
    (h : e ∈ (s.initialise service answers).events) :
    (∃ use, e = .memory use) ∨ e = .asked service (.getSensorList s.mOpPackageName) ∨
      (∃ listing, e = .initialised service s.mSensorList listing) ∨ e = .aborted := by
  have hold : e ∈ s.mSensors.toList.map (fun old => .memory (.give (.sensors old.id))) →
      ∃ use, e = .memory use := fun h => by
    obtain ⟨old, -, rfl⟩ := List.mem_map.1 h
    exact ⟨_, rfl⟩
  cases hmalloc : answers.malloc with
  | true =>
      simp only [State.initialise, hmalloc, if_true, List.cons_append, List.mem_cons,
        List.mem_append, List.not_mem_nil, or_false] at h
      rcases h with rfl | rfl | h | rfl | rfl
      · exact Or.inr (Or.inl rfl)
      · exact Or.inl ⟨_, rfl⟩
      · exact Or.inl (hold h)
      · exact Or.inl ⟨_, rfl⟩
      · exact Or.inr (Or.inr (Or.inl ⟨_, rfl⟩))
  | false =>
      simp only [State.initialise, hmalloc, Bool.false_eq_true, if_false, List.cons_append,
        List.mem_cons, List.mem_append, List.not_mem_nil, or_false] at h
      rcases h with rfl | rfl | h | rfl
      · exact Or.inr (Or.inl rfl)
      · exact Or.inl ⟨_, rfl⟩
      · exact Or.inl (hold h)
      · exact Or.inr (Or.inr (Or.inr rfl))

/-- The list is overwritten only if the service did not answer. -/
theorem mem_assertStateLocked {e : Event σ} (h : e ∈ (s.assertStateLocked answers).events) :
    (∃ service, e = .asked service .ping) ∨ (∃ use, e = .memory use) ∨
      (∃ service, e = .asked service (.getSensorList s.mOpPackageName)) ∨
      (s.initSensorManager answers.ping = true ∧
        ∃ service listing, e = .initialised service s.mSensorList listing) ∨
      e = .aborted := by
  have hpinged : e ∈ s.pinged → ∃ service, e = .asked service .ping := fun h => by
    obtain ⟨service, -, rfl⟩ := List.mem_map.1 h
    exact ⟨service, rfl⟩
  obtain ⟨-, heq⟩ | ⟨-, heq⟩ | ⟨i, service, hinit, -, heq⟩ := assertStateLocked_cases s answers
  · rw [heq] at h
    exact Or.inl (hpinged h)
  · rw [heq] at h
    rcases List.mem_append.1 h with h | h
    · exact Or.inl (hpinged h)
    · exact Or.inr (Or.inr (Or.inr (Or.inr (List.mem_singleton.1 h))))
  · rw [heq] at h
    rcases List.mem_append.1 h with h | h
    · exact Or.inl (hpinged h)
    · obtain h | h | ⟨listing, h⟩ | h := mem_initialise h
      · exact Or.inr (Or.inl h)
      · exact Or.inr (Or.inr (Or.inl ⟨service, h⟩))
      · exact Or.inr (Or.inr (Or.inr (Or.inl ⟨hinit, service, listing, h⟩)))
      · exact Or.inr (Or.inr (Or.inr (Or.inr h)))

theorem mem_sensorManagerDied {observer : ℕ} {e : Event σ}
    (h : e ∈ (s.sensorManagerDied observer).2) :
    (∃ use, e = .memory use) ∨ e = .cleared observer := by
  rcases List.mem_append.1 h with h | h
  · left
    rcases List.mem_append.1 h with h | h
    · obtain ⟨list, -, rfl⟩ := List.mem_map.1 h
      exact ⟨_, rfl⟩
    · obtain ⟨listing, -, rfl⟩ := List.mem_map.1 h
      exact ⟨_, rfl⟩
  · exact Or.inr (List.mem_singleton.1 h)

end Lemmas

section Bodies

variable {σ : Type*} {getType : σ → ℤ} {isWakeUpSensor : σ → Bool} {s : State σ}

/-- A call changes nothing of the manager once the state has been checked. -/
theorem body_state (getType : σ → ℤ) (isWakeUpSensor : σ → Bool) (answers : Answers σ) (err : ℤ)
    (s : State σ) (c : Call) :
    ∃ handed handedSensors running,
      (c.body getType isWakeUpSensor answers err s).1 =
        { s with handed := handed, handedSensors := handedSensors, running := running } := by
  have hask : ∀ request result, ∃ running,
      (s.ask request result).1 = { s with running := running } := fun request result => by
    unfold State.ask
    split
    · exact ⟨false, rfl⟩
    · exact ⟨s.running, rfl⟩
  cases c with
  | getSensorList =>
      rw [Call.body]
      split_ifs <;> exact ⟨_, _, _, rfl⟩
  | getDefaultSensor type =>
      rw [Call.body]
      split_ifs <;> exact ⟨_, _, _, rfl⟩
  | getDynamicSensorList | createEventQueue packageName mode | isDataInjectionEnabled =>
      rw [Call.body]
      split_ifs
      all_goals first
        | exact ⟨_, _, _, rfl⟩
        | obtain ⟨running, h⟩ := hask _ _
          exact ⟨s.handed, s.handedSensors, running, h⟩

theorem mem_findDefault {type : ℤ} {block : ℕ} {ps : List Pointer} {e : Event σ}
    (h : e ∈ (findDefault getType isWakeUpSensor s type block ps).2) :
    ∃ r, e = .memory (.touch r) := by
  induction ps with
  | nil => simp [findDefault] at h
  | cons p ps ih =>
      unfold findDefault at h
      dsimp only at h
      split_ifs at h
      · rcases List.mem_cons.1 h with rfl | h
        · exact ⟨_, rfl⟩
        · exact ⟨_, List.mem_singleton.1 h⟩
      · rcases List.mem_append.1 h with h | h
        · rcases List.mem_cons.1 h with rfl | h
          · exact ⟨_, rfl⟩
          · exact ⟨_, List.mem_singleton.1 h⟩
        · exact ih h

/-- What a call reads, asks the service and returns. -/
theorem body_events {answers : Answers σ} {err : ℤ} {c : Call} {e : Event σ}
    (h : e ∈ (c.body getType isWakeUpSensor answers err s).2) :
    (∃ r, e = .memory (.touch r)) ∨
      (∃ service request, s.mSensorServer = some service ∧ e = .asked service request) ∨
      (∃ result, e = .returned result) ∨ e = .aborted := by
  have hask : ∀ {request result}, e ∈ (s.ask request result).2 →
      (∃ service request, s.mSensorServer = some service ∧ e = .asked service request) ∨
        (∃ result, e = .returned result) ∨ e = .aborted := fun {request result} h => by
    unfold State.ask at h
    split at h
    · exact Or.inr (Or.inr (List.mem_singleton.1 h))
    · rename_i service hserver
      rcases List.mem_cons.1 h with rfl | h
      · exact Or.inl ⟨service, request, hserver, rfl⟩
      · exact Or.inr (Or.inl ⟨result, List.mem_singleton.1 h⟩)
  cases c with
  | getSensorList =>
      rw [Call.body] at h
      split_ifs at h <;> exact Or.inr (Or.inr (Or.inl ⟨_, List.mem_singleton.1 h⟩))
  | getDefaultSensor type =>
      rw [Call.body] at h
      split_ifs at h
      · rcases List.mem_append.1 h with h | h
        · cases hlist : s.mSensorList with
          | none => simp [hlist] at h
          | some list =>
              rw [hlist] at h
              exact Or.inl (mem_findDefault h)
        · exact Or.inr (Or.inr (Or.inl ⟨_, List.mem_singleton.1 h⟩))
      · exact Or.inr (Or.inr (Or.inl ⟨_, List.mem_singleton.1 h⟩))
  | getDynamicSensorList | createEventQueue packageName mode | isDataInjectionEnabled =>
      rw [Call.body] at h
      split_ifs at h
      all_goals first
        | exact Or.inr (hask h)
        | exact Or.inr (Or.inr (Or.inl ⟨_, List.mem_singleton.1 h⟩))

end Bodies

section Steps

variable {σ : Type*} {getType : σ → ℤ} {isWakeUpSensor : σ → Bool} {s : State σ}
  {a : Action σ} {p : State σ × List (Event σ)}

/-- The steps of a process that is running. -/
inductive Steps (getType : σ → ℤ) (isWakeUpSensor : σ → Bool) (s : State σ) :
    Action σ → State σ × List (Event σ) → Prop
  | construct {answers} (hnew : s.constructed = false) :
      Steps getType isWakeUpSensor s (.construct answers)
        ({ (s.assertStateLocked answers).state with constructed := true },
          (s.assertStateLocked answers).events)
  | abort {c answers} (hthere : s.constructed = true)
      (hstatus : (s.assertStateLocked answers).status = none) :
      Steps getType isWakeUpSensor s (.call c answers)
        ((s.assertStateLocked answers).state, (s.assertStateLocked answers).events)
  | call {c answers err body} (hthere : s.constructed = true)
      (hstatus : (s.assertStateLocked answers).status = some err)
      (hbody : c.body getType isWakeUpSensor answers err (s.assertStateLocked answers).state =
        body) :
      Steps getType isWakeUpSensor s (.call c answers)
        (body.1, (s.assertStateLocked answers).events ++ body.2)
  | die {service} (halive : service ∉ s.dead) :
      Steps getType isWakeUpSensor s (.die service)
        ({ s with dead := service :: s.dead }, [.died service])
  | sendObituary {service} (hdead : service ∈ s.dead) (hsent : service ∉ s.obitsSent)
      (hlink : service ∈ s.links.map Prod.fst) :
      Steps getType isWakeUpSensor s (.sendObituary service)
        ({ s with
            obitsSent := service :: s.obitsSent
            links := s.links.filter fun link => link.1 ≠ service
            promoted := s.promoted ++ s.mDeathObserver.toList.filter fun o =>
              (service, o) ∈ s.links }, [])
  | binderDied {observer} (hpromoted : observer ∈ s.promoted) :
      Steps getType isWakeUpSensor s (.binderDied observer)
        (State.sensorManagerDied { s with promoted := s.promoted.erase observer } observer)
  | readSensor {list i q} (hlist : list ∈ s.handed) (hq : list.entries[i]? = some q) :
      Steps getType isWakeUpSensor s (.readSensor list i)
        ({ s with handedSensors := q :: s.handedSensors },
          [.memory (.touch (.array list.block)), .memory (.touch (.sensors q.listing))])
  | useSensor {q} (hq : q ∈ s.handedSensors) :
      Steps getType isWakeUpSensor s (.useSensor q)
        (s, [.memory (.touch (.sensors q.listing))])

theorem step_spec (h : step getType isWakeUpSensor s a = some p) :
    s.running = true ∧ Steps getType isWakeUpSensor s a p := by
  by_cases hrunning : s.running = true
  · refine ⟨hrunning, ?_⟩
    unfold step at h
    rw [if_pos hrunning] at h
    cases a with
    | construct answers =>
        dsimp only at h
        split_ifs at h with hnew
        cases h
        exact .construct (by simpa using hnew)
    | call c answers =>
        dsimp only at h
        split_ifs at h with hthere
        cases hstatus : (s.assertStateLocked answers).status with
        | none =>
            rw [hstatus] at h
            cases h
            exact .abort hthere hstatus
        | some err =>
            rw [hstatus] at h
            cases h
            exact .call hthere hstatus rfl
    | die service =>
        dsimp only at h
        split_ifs at h with halive
        cases h
        exact .die halive
    | sendObituary service =>
        dsimp only at h
        split_ifs at h with hsent
        cases h
        exact .sendObituary hsent.1 hsent.2.1 hsent.2.2
    | binderDied observer =>
        dsimp only at h
        split_ifs at h with hpromoted
        cases h
        exact .binderDied hpromoted
    | readSensor list i =>
        dsimp only at h
        split_ifs at h with hlist
        obtain ⟨q, hq, rfl⟩ := Option.map_eq_some_iff.1 h
        exact .readSensor hlist hq
    | useSensor q =>
        dsimp only at h
        split_ifs at h with hq
        cases h
        exact .useSensor hq
  · unfold step at h
    rw [if_neg hrunning] at h
    cases h

end Steps

end MozartLineage.Sensors.Manager
