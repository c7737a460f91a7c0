import MozartLineage.Transition.Run
import Mathlib.Data.List.Basic

/-!
# The sensor managers of a process

There is one manager for each package name. A client that does not know its package gets
the manager that was made for the first package of its user, unless this package has a
manager of its own already.
-/

namespace MozartLineage.Sensors.Instances

open Transition

/-- The managers are numbered as they are made; each has a package name. -/
structure State where
  sPackageInstances : String → Option ℕ
  managers : List String

def State.initial : State where
  sPackageInstances _ := none
  managers := []

inductive Event where
  | error (message : String)
  | created (packageName opPackageName : String) (manager : ℕ)
  | returned (packageName : String) (manager : ℕ)
deriving DecidableEq

/-- `std::map::insert` leaves a key that is there. -/
def insert (instances : String → Option ℕ) (name : String) (manager : ℕ) :
    String → Option ℕ := fun name' =>
  if name' = name then some ((instances name).getD manager) else instances name'

/-- The name for a new manager. `packages` is what the permission service says of the user
that calls, if there is such a service. -/
def findOpPackageName (packageName : String) (packages : Option (List String)) :
    String × List Event :=
  if packageName.length ≤ 0 then
    match packages with
    | none => (packageName, [.error "Cannot get permission service"])
    | some [] => (packageName, [.error "No packages for calling UID"])
    | some (package :: _) => (package, [])
  else (packageName, [])

def getInstanceForPackage (s : State) (packageName : String) (packages : Option (List String)) :
    State × List Event :=
  match s.sPackageInstances packageName with
  | some manager => (s, [.returned packageName manager])
  | none =>
      let found := findOpPackageName packageName packages
      let manager := s.managers.length
      let instances :=
        if packageName.length ≤ 0 then insert s.sPackageInstances "" manager
        else s.sPackageInstances
      ({ sPackageInstances := insert instances found.1 manager
         managers := s.managers ++ [found.1] },
        found.2 ++ [.created packageName found.1 manager, .returned packageName manager])

/-- The manager that the camera asks for. -/
def getInstance (s : State) : State × List Event :=
  getInstanceForPackage s "MtkCam/SensorListener" none

/-- A package name, and what the permission service says in this call. -/
abbrev Action := String × Option (List String)

def step : Machine State Action Event := fun s a => some (getInstanceForPackage s a.1 a.2)

variable {s t : State} {a : Action} {as : List Action} {os : List Event}
  {p : State × List Event} {name name' : String} {m m' : ℕ}

theorem insert_of_some {instances : String → Option ℕ} (h : instances name = some m) :
    insert instances name m' = instances := by
  funext name'
  unfold insert
  split_ifs with heq
  · rw [heq, h, Option.getD_some]
  · rfl

theorem insert_of_none {instances : String → Option ℕ} (h : instances name = none) :
    insert instances name m = fun name' => if name' = name then some m else instances name' := by
  funext name'
  simp [insert, h]

theorem getD_insert {instances : String → Option ℕ} :
    insert instances name m name = some ((instances name).getD m) := by
  simp [insert]

theorem insert_ne {instances : String → Option ℕ} (h : name' ≠ name) :
    insert instances name m name' = instances name' := by
  simp [insert, h]

/-- A manager that is there is returned. Else a new one is made for the name, or for the
package that is found for the empty name; this package keeps a manager that it has. -/
theorem step_cases (h : step s a = some p) :
    (∃ manager, s.sPackageInstances a.1 = some manager ∧ p = (s, [.returned a.1 manager])) ∨
    (s.sPackageInstances a.1 = none ∧ a.1 ≠ "" ∧
      p = (⟨insert s.sPackageInstances a.1 s.managers.length, s.managers ++ [a.1]⟩,
        [.created a.1 a.1 s.managers.length, .returned a.1 s.managers.length])) ∨
    ∃ opPackageName errors, s.sPackageInstances "" = none ∧ a.1 = "" ∧
      (∀ e ∈ errors, ∃ message, e = .error message) ∧
      p = (⟨insert (insert s.sPackageInstances "" s.managers.length) opPackageName
          s.managers.length, s.managers ++ [opPackageName]⟩,
        errors ++ [.created "" opPackageName s.managers.length,
          .returned "" s.managers.length]) := by
  obtain ⟨name, packages⟩ := a
  simp only [step, Option.some.injEq] at h
  subst h
  unfold getInstanceForPackage
  cases hfound : s.sPackageInstances name with
  | some manager => exact Or.inl ⟨manager, rfl, rfl⟩
  | none =>
      right
      by_cases hempty : name = ""
      · subst hempty
        refine Or.inr ⟨_, (findOpPackageName "" packages).2, hfound, rfl, fun e he => ?_, rfl⟩
        unfold findOpPackageName at he
        cases packages with
        | none => exact ⟨_, List.mem_singleton.1 he⟩
        | some packages =>
            cases packages with
            | nil => exact ⟨_, List.mem_singleton.1 he⟩
            | cons package packages => cases he
      · refine Or.inl ⟨rfl, hempty, ?_⟩
        have hlength : ¬ name.length ≤ 0 := by simpa using hempty
        simp [findOpPackageName, hlength]

/-- What the map says agrees with the history. -/
structure Inv (s : State) (os : List Event) : Prop where
  returned : ∀ name m, .returned name m ∈ os → s.sPackageInstances name = some m
  named : ∀ name m, s.sPackageInstances name = some m →
    m < s.managers.length ∧ (name ≠ "" → s.managers[m]? = some name)
  known : s.sPackageInstances "" = none → ∀ name m, s.sPackageInstances name = some m →
    .returned name m ∈ os
  reached : ∀ m < s.managers.length, ∃ name, s.sPackageInstances name = some m
  shared : ∀ pre package m post, os = pre ++ .created "" package m :: post →
    (s.sPackageInstances package).isSome ∧
      (s.sPackageInstances package = some m ↔ ∀ m', .returned package m' ∉ pre)

theorem inv_initial : Inv State.initial [] where
  returned _ _ h := by cases h
  named _ _ h := by cases h
  known _ _ _ h := by cases h
  reached _ h := by cases h
  shared pre _ _ _ h := by cases pre <;> cases h

/-- What was created for the empty name before keeps what it has. -/
theorem shared_of_le {o : List Event} (hs : Inv s os)
    (hle : ∀ name m, s.sPackageInstances name = some m → t.sPackageInstances name = some m)
    (ho : ∀ package m, .created "" package m ∉ o) {pre post : List Event} {package : String}
    (h : os ++ o = pre ++ .created "" package m :: post) :
    (t.sPackageInstances package).isSome ∧
      (t.sPackageInstances package = some m ↔ ∀ m', .returned package m' ∉ pre) := by
  have hold : ∃ post', os = pre ++ .created "" package m :: post' := by
    rcases List.append_eq_append_iff.1 h with ⟨o', -, rfl⟩ | ⟨o', hos, hpost⟩
    · exact absurd (List.mem_append_right _ (List.mem_cons_self ..)) (ho package m)
    · cases o' with
      | nil =>
          rw [List.nil_append] at hpost
          exact absurd (hpost ▸ List.mem_cons_self ..) (ho package m)
      | cons e o' =>
          obtain ⟨rfl, -⟩ := List.cons.inj hpost
          exact ⟨o', hos⟩
  obtain ⟨post', hos⟩ := hold
  obtain ⟨hsome, hiff⟩ := hs.shared pre package m post' hos
  obtain ⟨m₀, hm₀⟩ := Option.isSome_iff_exists.1 hsome
  rw [hm₀] at hiff
  rw [hle package m₀ hm₀]
  exact ⟨rfl, hiff⟩

theorem insert_eq_some {instances : String → Option ℕ} {new : ℕ}
    (h : insert instances name new name' = some m) :
    name' = name ∧ instances name = none ∧ m = new ∨ instances name' = some m := by
  by_cases heq : name' = name
  · subst heq
    rw [getD_insert] at h
    cases hfound : instances name' with
    | none => exact Or.inl ⟨rfl, rfl, by simpa [hfound] using h.symm⟩
    | some m₀ => exact Or.inr (by simpa [hfound] using h)
  · exact Or.inr (by rwa [insert_ne heq] at h)

theorem insert_new {instances : String → Option ℕ} (h : instances name = none) :
    insert instances name m name = some m := by
  rw [getD_insert, h, Option.getD_none]

/-- An insertion changes no key that is there. -/
theorem insert_of_eq_some {instances : String → Option ℕ} {new : ℕ}
    (h : instances name' = some m) : insert instances name new name' = some m := by
  by_cases heq : name' = name
  · subst heq
    rw [insert_of_some h, h]
  · rw [insert_ne heq, h]

theorem inv_found (hs : Inv s os) (h : s.sPackageInstances name = some m) :
    Inv s (os ++ [.returned name m]) where
  returned name' m' hmem := by
    rcases List.mem_append.1 hmem with hmem | hmem
    · exact hs.returned name' m' hmem
    · cases List.mem_singleton.1 hmem
      exact h
  named := hs.named
  known hnone name' m' hfound := List.mem_append_left _ (hs.known hnone name' m' hfound)
  reached := hs.reached
  shared _ _ _ _ := shared_of_le hs (fun _ _ h => h) (by simp)

theorem inv_new (hs : Inv s os) (hnone : s.sPackageInstances name = none) (hne : name ≠ "") :
    Inv ⟨insert s.sPackageInstances name s.managers.length, s.managers ++ [name]⟩
      (os ++ [.created name name s.managers.length, .returned name s.managers.length]) where
  returned name' m' hmem := by
    rcases List.mem_append.1 hmem with hmem | hmem
    · exact insert_of_eq_some (hs.returned name' m' hmem)
    · obtain ⟨rfl, rfl⟩ : name' = name ∧ m' = s.managers.length := by simpa using hmem
      exact insert_new hnone
  named name' m' h := by
    obtain ⟨rfl, -, rfl⟩ | h := insert_eq_some h
    · simp
    · obtain ⟨hlt, hname⟩ := hs.named name' m' h
      refine ⟨by simpa using Nat.lt_succ_of_lt hlt, fun hne => ?_⟩
      rw [List.getElem?_append_left hlt, hname hne]
  known hnone' name' m' h := by
    have hnone' := (insert_ne hne.symm).symm.trans hnone'
    obtain ⟨rfl, -, rfl⟩ | h := insert_eq_some h
    · simp
    · exact List.mem_append_left _ (hs.known hnone' name' m' h)
  reached m hm := by
    rcases Nat.lt_succ_iff_lt_or_eq.1 (by simpa using hm) with hm | rfl
    · obtain ⟨name', hname'⟩ := hs.reached m hm
      exact ⟨name', insert_of_eq_some hname'⟩
    · exact ⟨name, insert_new hnone⟩
  shared _ _ _ _ := shared_of_le hs (fun _ _ h => insert_of_eq_some h) (by simp [hne.symm])

/-- The package has the new manager, unless it has been asked for before. -/
theorem shared_new (hs : Inv s os) {errors : List Event} (op : String)
    (hnone : s.sPackageInstances "" = none) (herrors : ∀ m', .returned op m' ∉ errors) :
    let instances := insert (insert s.sPackageInstances "" s.managers.length) op s.managers.length
    (instances op).isSome ∧
      (instances op = some s.managers.length ↔ ∀ m', .returned op m' ∉ os ++ errors) := by
  intro instances
  cases hop : s.sPackageInstances op with
  | none =>
      have hnew : instances op = some s.managers.length := by
        by_cases hempty : op = ""
        · subst hempty
          exact insert_of_eq_some (insert_new hnone)
        · exact insert_new ((insert_ne hempty).trans hop)
      refine ⟨by rw [hnew]; rfl, iff_of_true hnew fun m' hmem => ?_⟩
      rcases List.mem_append.1 hmem with hmem | hmem
      · rw [hs.returned op m' hmem] at hop
        cases hop
      · exact herrors m' hmem
  | some m₀ =>
      have hold : instances op = some m₀ := insert_of_eq_some (insert_of_eq_some hop)
      have hne : m₀ ≠ s.managers.length := Nat.ne_of_lt (hs.named op m₀ hop).1
      refine ⟨by rw [hold]; rfl, iff_of_false (by simpa [hold] using hne) fun hnever => ?_⟩
      exact hnever m₀ (List.mem_append_left _ (hs.known hnone op m₀ hop))

/-- The empty name gets the new manager, and so does the package, if it has none. -/
theorem inv_empty (hs : Inv s os) {errors : List Event} {op : String}
    (hnone : s.sPackageInstances "" = none)
    (herrors : ∀ e ∈ errors, ∃ message, e = .error message) :
    Inv ⟨insert (insert s.sPackageInstances "" s.managers.length) op s.managers.length,
        s.managers ++ [op]⟩
      (os ++ (errors ++ [.created "" op s.managers.length,
        .returned "" s.managers.length])) := by
  have hkept : ∀ name m, s.sPackageInstances name = some m →
      insert (insert s.sPackageInstances "" s.managers.length) op s.managers.length name =
        some m := fun name m h => insert_of_eq_some (insert_of_eq_some h)
  have hempty : insert (insert s.sPackageInstances "" s.managers.length) op s.managers.length "" =
      some s.managers.length := insert_of_eq_some (insert_new hnone)
  have hnoreturn : ∀ name m', .returned name m' ∉ errors := fun name m' hmem => by
    obtain ⟨message, h⟩ := herrors _ hmem
    cases h
  have hnocreate : ∀ package m, .created "" package m ∉ errors := fun package m hmem => by
    obtain ⟨message, h⟩ := herrors _ hmem
    cases h
  constructor
  · intro name m hmem
    rcases List.mem_append.1 hmem with hmem | hmem
    · exact hkept name m (hs.returned name m hmem)
    · rcases List.mem_append.1 hmem with hmem | hmem
      · exact absurd hmem (hnoreturn name m)
      · obtain ⟨rfl, rfl⟩ : name = "" ∧ m = s.managers.length := by simpa using hmem
        exact hempty
  · intro name m h
    obtain ⟨rfl, -, rfl⟩ | h := insert_eq_some h
    · simp
    · obtain ⟨rfl, -, rfl⟩ | h := insert_eq_some h
      · simp
      · obtain ⟨hlt, hname⟩ := hs.named name m h
        refine ⟨by simpa using Nat.lt_succ_of_lt hlt, fun hne => ?_⟩
        rw [List.getElem?_append_left hlt, hname hne]
  · intro hnone'
    cases hempty.symm.trans hnone'
  · intro m hm
    rcases Nat.lt_succ_iff_lt_or_eq.1 (by simpa using hm) with hm | rfl
    · obtain ⟨name, hname⟩ := hs.reached m hm
      exact ⟨name, hkept name m hname⟩
    · exact ⟨"", hempty⟩
  · intro pre package m post hsplit
    rw [← List.append_assoc] at hsplit
    -- it is the new one, or one of before
    have hwhich : pre = os ++ errors ∧ package = op ∧ m = s.managers.length ∨
        ∃ post', os ++ errors = pre ++ .created "" package m :: post' := by
      rcases List.append_eq_append_iff.1 hsplit with ⟨o, rfl, ho⟩ | ⟨o, hpre, ho⟩
      · cases o with
        | nil =>
            cases ho
            exact Or.inl ⟨by simp, rfl, rfl⟩
        | cons e o => cases o <;> simp at ho
      · cases o with
        | nil =>
            cases ho
            exact Or.inl ⟨by simpa using hpre.symm, rfl, rfl⟩
        | cons e o =>
            obtain ⟨rfl, -⟩ := List.cons.inj ho
            exact Or.inr ⟨o, hpre⟩
    obtain ⟨rfl, rfl, rfl⟩ | ⟨post', hold⟩ := hwhich
    · exact shared_new hs package hnone (hnoreturn package)
    · exact shared_of_le hs hkept hnocreate hold

theorem inv_of_step (hs : Inv s os) (h : step s a = some p) : Inv p.1 (os ++ p.2) := by
  obtain ⟨manager, hfound, rfl⟩ | ⟨hnone, hne, rfl⟩ | ⟨op, errors, hnone, -, herrors, rfl⟩ :=
    step_cases h
  · exact inv_found hs hfound
  · exact inv_new hs hnone hne
  · exact inv_empty hs hnone herrors

/-- Over every run: a name always gets the same manager; the manager of a name that is not
empty has this name; every manager that was made can be asked for; and the package that was
found for the empty name shares its manager if and only if it was not asked for before. -/
theorem run_instances (hrun : step.run State.initial as = some (t, os)) :
    (∀ name m m', .returned name m ∈ os → .returned name m' ∈ os → m = m') ∧
    (∀ name m, .returned name m ∈ os → name ≠ "" → t.managers[m]? = some name) ∧
    (∀ m < t.managers.length, ∃ name, t.sPackageInstances name = some m) ∧
    ∀ pre package m post, os = pre ++ .created "" package m :: post →
      (t.sPackageInstances package = some m ↔ ∀ m', .returned package m' ∉ pre) := by
  have ht : Inv t os := Machine.run_invariant (P := Inv)
    (fun s os a u o hs h => inv_of_step hs h) inv_initial hrun
  refine ⟨fun name m m' h h' => ?_, fun name m h hne => ?_, ht.reached,
    fun pre package m post h => (ht.shared pre package m post h).2⟩
  · exact Option.some.inj ((ht.returned name m h).symm.trans (ht.returned name m' h'))
  · exact (ht.named name m (ht.returned name m h)).2 hne

/-- The package was asked for first, so that two managers have its name. -/
theorem instances_packageFirst :
    ∃ t os, step.run State.initial
        [("com.example", none), ("", some ["com.example", "com.other"]), ("", none)] =
        some (t, os) ∧ t.managers = ["com.example", "com.example"] ∧
      t.sPackageInstances "com.example" ≠ some 1 := by
  have hrun : (step.run State.initial
      [("com.example", none), ("", some ["com.example", "com.other"]), ("", none)]).map
      (fun p => (p.1.managers, p.2)) = some (["com.example", "com.example"],
        [.created "com.example" "com.example" 0, .returned "com.example" 0,
          .created "" "com.example" 1, .returned "" 1, .returned "" 1]) := by decide +kernel
  obtain ⟨⟨t, os⟩, hrun, heq⟩ := Option.map_eq_some_iff.1 hrun
  obtain ⟨hmanagers, hos⟩ := Prod.mk.inj heq
  obtain ⟨-, -, -, hshared⟩ := run_instances hrun
  refine ⟨t, os, hrun, hmanagers, fun h => ?_⟩
  refine (hshared [.created "com.example" "com.example" 0, .returned "com.example" 0]
    "com.example" 1 [.returned "" 1, .returned "" 1] hos).1 h 0 (by simp)

end MozartLineage.Sensors.Instances
