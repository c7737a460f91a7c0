import MozartLineage.Macaddr.Persistence
import MozartLineage.Transition.History

/-!
# The addresses over many starts

Every start of the device runs `main`: it checks the two files, has the vendor's helper run
if one of them is refused, and then ensures both. The process may be killed between any two
system calls, and what it leaves is there at the next start.

The helper is a program of the vendor. While `main` waits for it, it may do to the files
whatever it likes. `waitpid` returns when it has ended, and a kill takes it along, as `init`
does with the processes of a service.
-/

namespace MozartLineage.Macaddr.Main

open Transition

inductive Path where
  | bluetooth
  | wifi
  deriving DecidableEq

def kSystemUid : ℕ := 1000

def kBluetoothUid : ℕ := 1002

def kBluetoothGid : ℕ := 1002

def kWifiGid : ℕ := 1010

def Path.owner : Path → ℕ × ℕ
  | .bluetooth => (kBluetoothUid, kBluetoothGid)
  | .wifi => (kSystemUid, kWifiGid)

inductive Stage where
  | notRunning
  /-- in `HasValidMac` -/
  | checking (path : Path)
  | forking
  | waiting
  /-- in `EnsureMac`, and whether those before have succeeded -/
  | ensuring (path : Path) (ok : Bool)
  deriving DecidableEq

/-- The file that the stage is about. -/
def Stage.path : Stage → Option Path
  | .checking path | .ensuring path _ => some path
  | .notRunning | .forking | .waiting => none

/-- The files, each with the call that is about it, and where `main` is. -/
structure Device where
  files : Path → State
  stage : Stage

inductive Move where
  | start
  | kill
  | systemCall (a : Action)
  | fork (ok : Bool)
  /-- The helper leaves these files. -/
  | helper (path : Path) (target temporary : Option File)
  | waitpid (status : Except Errno ℕ)

inductive Happening where
  | started
  | killed
  /-- `HasValidMac` returns to `main`. -/
  | checked (path : Path) (ok : Bool)
  | forked
  | helped (path : Path) (target : Option File)
  /-- `EnsureMac` returns. -/
  | ensured (path : Path) (ok : Bool)
  | exited (code : ℕ)
  deriving DecidableEq

namespace Device

def put (d : Device) (path : Path) (file : State) : Device :=
  { d with files := Function.update d.files path file }

def check (d : Device) (path : Path) : Device :=
  { d.put path { d.files path with thread := .openingTarget } with stage := .checking path }

def ensure (d : Device) (path : Path) (ok : Bool) : Device :=
  { d.put path { d.files path with owner := path.owner, thread := .openingTarget } with
    stage := .ensuring path ok }

/-- What comes after a file that is valid. -/
def passed (d : Device) : Path → Device
  | .bluetooth => d.check .wifi
  | .wifi => d.ensure .bluetooth true

/-- `HasValidMac` begins as `EnsureMac` does. It has returned when that would return too, or
would go on to generate an address. -/
def checked (d : Device) (path : Path) (file : State) : Device × List Happening :=
  match file.thread with
  | .idle => ((d.put path file).passed path, [.checked path true])
  | .openingUrandom =>
      ({ d.put path { file with thread := .idle } with stage := .forking }, [.checked path false])
  | _ => (d.put path file, [])

def ensured (d : Device) (path : Path) (ok : Bool) (file : State) (os : List Event) :
    Device × List Happening :=
  let returned := decide (.returned true ∈ os)
  match file.thread, path with
  | .idle, .bluetooth =>
      ((d.put path file).ensure .wifi returned, [.ensured .bluetooth returned])
  | .idle, .wifi =>
      ({ d.put path file with stage := .notRunning },
        [.ensured .wifi returned, .exited (if ok && returned then 0 else 1)])
  | _, _ => (d.put path file, [])

/-- Nothing of the process is left. -/
def stop (d : Device) : Device where
  files path := { d.files path with thread := .idle }
  stage := .notRunning

end Device

def main : Machine Device Move Happening
  | d, .start =>
      match d.stage with
      | .notRunning => some (d.check .bluetooth, [.started])
      | _ => none
  | d, .kill =>
      match d.stage with
      | .notRunning => none
      | _ => some (d.stop, [.killed])
  | d, .systemCall a =>
      match d.stage with
      | .checking path => (step (d.files path) a).map fun p => d.checked path p.1
      | .ensuring path ok => (step (d.files path) a).map fun p => d.ensured path ok p.1 p.2
      | _ => none
  | d, .fork ok =>
      match d.stage with
      | .forking =>
          if ok then some ({ d with stage := .waiting }, [.forked])
          else some (d.ensure .bluetooth true, [])
      | _ => none
  | d, .helper path target temporary =>
      match d.stage with
      | .waiting =>
          some (d.put path { d.files path with target := target, temporary := temporary },
            [.helped path target])
      | _ => none
  | d, .waitpid status =>
      match d.stage, status with
      | .waiting, .error .eintr => some (d, [])
      | .waiting, _ => some (d.ensure .bluetooth true, [])
      | _, _ => none

/-- Everything that a move can be. -/
inductive Moves (d : Device) : Move → Device × List Happening → Prop where
  | start (hp : d.stage = .notRunning) : Moves d .start (d.check .bluetooth, [.started])
  | kill (hp : d.stage ≠ .notRunning) : Moves d .kill (d.stop, [.killed])
  | checking {path a file os} (hp : d.stage = .checking path)
      (h : step (d.files path) a = some (file, os)) :
      Moves d (.systemCall a) (d.checked path file)
  | ensuring {path ok a file os} (hp : d.stage = .ensuring path ok)
      (h : step (d.files path) a = some (file, os)) :
      Moves d (.systemCall a) (d.ensured path ok file os)
  | fork (hp : d.stage = .forking) : Moves d (.fork true) ({ d with stage := .waiting }, [.forked])
  | forkFails (hp : d.stage = .forking) : Moves d (.fork false) (d.ensure .bluetooth true, [])
  | helper {path target temporary} (hp : d.stage = .waiting) :
      Moves d (.helper path target temporary)
        (d.put path { d.files path with target := target, temporary := temporary },
          [.helped path target])
  | interrupt (hp : d.stage = .waiting) : Moves d (.waitpid (.error .eintr)) (d, [])
  | waitpid {status} (hp : d.stage = .waiting) :
      Moves d (.waitpid status) (d.ensure .bluetooth true, [])

theorem main_spec {d : Device} {a : Move} {p : Device × List Happening}
    (h : main d a = some p) : Moves d a p := by
  cases a with
  | start =>
      simp only [main] at h
      split at h <;> cases h
      exact .start ‹_›
  | kill =>
      simp only [main] at h
      split at h <;> cases h
      exact .kill ‹_›
  | systemCall a =>
      simp only [main] at h
      split at h
      · obtain ⟨⟨file, os⟩, hstep, rfl⟩ := Option.map_eq_some_iff.1 h
        exact .checking ‹_› hstep
      · obtain ⟨⟨file, os⟩, hstep, rfl⟩ := Option.map_eq_some_iff.1 h
        exact .ensuring ‹_› hstep
      · cases h
  | fork ok =>
      simp only [main] at h
      split at h
      · cases ok <;> cases h
        · exact .forkFails ‹_›
        · exact .fork ‹_›
      · cases h
  | helper path target temporary =>
      simp only [main] at h
      split at h <;> cases h
      exact .helper ‹_›
  | waitpid status =>
      simp only [main] at h
      split at h <;> cases h
      · exact .interrupt ‹_›
      · exact .waitpid ‹_›

namespace Device

theorem checked_cases (d : Device) (path : Path) (file : State) :
    (file.thread = .idle ∧
      d.checked path file = ((d.put path file).passed path, [.checked path true])) ∨
    (file.thread = .openingUrandom ∧ d.checked path file =
      ({ d.put path { file with thread := .idle } with stage := .forking },
        [.checked path false])) ∨
    (file.thread ≠ .idle ∧ file.thread ≠ .openingUrandom ∧
      d.checked path file = (d.put path file, [])) := by
  unfold checked
  cases file.thread <;> simp

theorem ensured_cases (d : Device) (path : Path) (ok : Bool) (file : State) (os : List Event) :
    (file.thread = .idle ∧ path = .bluetooth ∧ d.ensured path ok file os =
      ((d.put .bluetooth file).ensure .wifi (decide (.returned true ∈ os)),
        [.ensured .bluetooth (decide (.returned true ∈ os))])) ∨
    (file.thread = .idle ∧ path = .wifi ∧ d.ensured path ok file os =
      ({ d.put .wifi file with stage := .notRunning },
        [.ensured .wifi (decide (.returned true ∈ os)),
          .exited (if ok && decide (.returned true ∈ os) then 0 else 1)])) ∨
    (file.thread ≠ .idle ∧ d.ensured path ok file os = (d.put path file, [])) := by
  unfold ensured
  cases file.thread <;> cases path <;> simp

end Device

/-! ### What is in the files -/

variable {d d₀ t : Device} {path : Path} {a : Move} {as : List Move} {p : Device × List Happening}
  {os : List Happening} {before target : Option File} {s : State} {call : Action}
  {q : State × List Event}

/-- The file is what was there before, or the program has stored an address in its place. -/
def Left (path : Path) (before target : Option File) : Prop :=
  target = before ∨ ∃ f, target = some f ∧ f.Stored path.owner

theorem Left.trans {target' : Option File} (h : Left path before target)
    (h' : Left path target target') : Left path before target' := by
  rcases h' with rfl | h'
  · exact h
  · exact Or.inr h'

/-- In `HasValidMac`. -/
def Checks (s : State) : Prop :=
  match s.thread with
  | .openingTarget | .readingTarget | .closingTarget _ => True
  | _ => False

/-- In `EnsureMac`, which has found a file that was left. -/
structure Ensures (path : Path) (before : Option File) (s : State) : Prop where
  running : s.thread ≠ .idle
  during : ∃ target as os, Left path before target ∧ s.During target path.owner as os

/-- What the call of a stage has come to. -/
def Stage.Current (stage : Stage) (before : Option File) (s : State) : Prop :=
  match stage with
  | .checking _ => Checks s
  | .ensuring path _ => Ensures path before s
  | .notRunning | .forking | .waiting => True

/-- All calls have returned. -/
structure Rests (before : Path → Option File) (d : Device) : Prop where
  left : ∀ path, Left path (before path) (d.files path).target
  idle : ∀ path, (d.files path).thread = .idle

structure Inv (before : Path → Option File) (d : Device) : Prop where
  left : ∀ path, Left path (before path) (d.files path).target
  idle : ∀ path, d.stage.path ≠ some path → (d.files path).thread = .idle
  current : ∀ path, d.stage.path = some path → d.stage.Current (before path) (d.files path)

theorem checks_step (hs : Checks s) (h : step s call = some q) :
    q.1.target = s.target ∧
      (Checks q.1 ∨ q.1.thread = .idle ∨ q.1.thread = .openingUrandom) := by
  unfold Checks at hs
  cases step_spec h with
  | openTarget hp | readTarget hp hr | readTargetFails hp he => exact ⟨rfl, Or.inl trivial⟩
  | openTargetFails hp | refuse hp ha => exact ⟨rfl, Or.inr (Or.inr rfl)⟩
  | interrupt hp => exact ⟨rfl, Or.inl hs⟩
  | accept hp ha => exact ⟨rfl, Or.inr (Or.inl rfl)⟩
  | readUrandom hp ht => cases hthread : s.thread <;> simp_all [Thread.OnUrandom]
  | fail hp => cases hthread : s.thread <;> simp_all [Thread.OnTemporary]
  | _ hp =>
      rw [hp] at hs
      exact hs.elim

theorem ensures_step (hs : Ensures path before s) (h : step s call = some q) :
    Left path before q.1.target ∧ (q.1.thread ≠ .idle → Ensures path before q.1) := by
  obtain ⟨hrunning, target, as, os, hleft, hduring⟩ := hs
  have hnext : q.1.During target path.owner (as ++ [call]) (os ++ q.2) := by
    refine step_during hduring ?_ h
    rintro uid gid rfl
    cases step_spec h with
    | call hp => exact hrunning hp
    | fail hp => cases hthread : s.thread <;> simp_all [Thread.OnTemporary, step]
  refine ⟨hleft.trans ?_, fun hne => ⟨hne, target, _, _, hleft, hnext⟩⟩
  rcases hnext.cases with ⟨ht, -⟩ | ⟨-, hreturned⟩
  · exact Or.inl ht
  · generalize os ++ q.2 = returned at hreturned
    cases hreturned with
    | stored ht hf => exact Or.inr ⟨_, ht, hnext.1 ▸ hf⟩
    | accepted ht | notCreated ht | removed ht | remains ht => exact Or.inl ht

section Rests

variable {before : Path → Option File}

theorem Rests.inv (h : Rests before d) (hpath : d.stage.path = none) : Inv before d := by
  refine ⟨h.left, fun path _ => h.idle path, fun path hsome => ?_⟩
  rw [hpath] at hsome
  cases hsome

/-- A call for one file runs, and no other one. -/
theorem inv_put (stage : Stage) (hpath : stage.path = some path)
    (hothers : ∀ other, other ≠ path → Left other (before other) (d.files other).target ∧
      (d.files other).thread = .idle)
    (hleft : Left path (before path) s.target) (hcurrent : stage.Current (before path) s) :
    Inv before { d.put path s with stage := stage } := by
  refine ⟨fun other => ?_, fun other hne => ?_, fun other hother => ?_⟩
  · by_cases hother : other = path
    · subst hother
      simpa [Device.put] using hleft
    · simpa [Device.put, hother] using (hothers other hother).1
  · have hother : other ≠ path := fun heq => hne (by rw [heq]; exact hpath)
    simpa [Device.put, hother] using (hothers other hother).2
  · obtain rfl := Option.some.inj (hpath.symm.trans hother)
    simpa [Device.put] using hcurrent

theorem Rests.check (h : Rests before d) (path : Path) : Inv before (d.check path) :=
  inv_put (.checking path) rfl (fun other _ => ⟨h.left other, h.idle other⟩)
    (h.left path) trivial

theorem Rests.ensure (h : Rests before d) (path : Path) (ok : Bool) :
    Inv before (d.ensure path ok) :=
  inv_put (.ensuring path ok) rfl (fun other _ => ⟨h.left other, h.idle other⟩)
    (h.left path) ⟨Thread.noConfusion, (d.files path).target, [], [], h.left path, rfl, rfl, rfl⟩

/-- The call that was running returns. -/
theorem Inv.rests (h : Inv before d) (hpath : d.stage.path = some path)
    (hleft : Left path (before path) s.target) (hidle : s.thread = .idle) :
    Rests before (d.put path s) := by
  have hothers : ∀ other, other ≠ path → (d.files other).thread = .idle := fun other hother =>
    h.idle other fun heq => hother (Option.some.inj (heq.symm.trans hpath))
  refine ⟨fun other => ?_, fun other => ?_⟩ <;> by_cases hother : other = path
  · subst hother
    simpa [Device.put] using hleft
  · simpa [Device.put, hother] using h.left other
  · subst hother
    simpa [Device.put] using hidle
  · simpa [Device.put, hother] using hothers other hother

/-- The call that is running goes on. -/
theorem Inv.goesOn (h : Inv before d) (hpath : d.stage.path = some path)
    (hleft : Left path (before path) s.target) (hcurrent : d.stage.Current (before path) s) :
    Inv before (d.put path s) := by
  refine inv_put d.stage hpath (fun other hother => ⟨h.left other, ?_⟩) hleft hcurrent
  exact h.idle other fun heq => hother (Option.some.inj (heq.symm.trans hpath))

theorem Inv.rests_of_none (h : Inv before d) (hpath : d.stage.path = none) : Rests before d :=
  ⟨h.left, fun path => h.idle path (by simp [hpath])⟩

theorem Inv.checked (h : Inv before d) (hp : d.stage = .checking path)
    (hstep : step (d.files path) call = some q) : Inv before (d.checked path q.1).1 := by
  have hpath : d.stage.path = some path := by rw [hp]; rfl
  have hchecks : Checks (d.files path) := by simpa [hp, Stage.Current] using h.current path hpath
  obtain ⟨htarget, hnext⟩ := checks_step hchecks hstep
  have hleft : Left path (before path) q.1.target := htarget ▸ h.left path
  obtain ⟨hidle, heq⟩ | ⟨-, heq⟩ | ⟨hidle, hopening, heq⟩ := d.checked_cases path q.1
  · rw [heq]
    cases path with
    | bluetooth => exact (h.rests hpath hleft hidle).check .wifi
    | wifi => exact (h.rests hpath hleft hidle).ensure .bluetooth true
  · have hrests : Rests before (d.put path { q.1 with thread := .idle }) := h.rests hpath hleft rfl
    rw [heq]
    exact Rests.inv ⟨hrests.left, hrests.idle⟩ rfl
  · rw [heq]
    refine h.goesOn hpath hleft ?_
    rw [hp]
    exact hnext.resolve_right (not_or.2 ⟨hidle, hopening⟩)

theorem Inv.ensured {ok : Bool} (h : Inv before d) (hp : d.stage = .ensuring path ok)
    (hstep : step (d.files path) call = some q) : Inv before (d.ensured path ok q.1 q.2).1 := by
  have hpath : d.stage.path = some path := by rw [hp]; rfl
  have hensures : Ensures path (before path) (d.files path) := by
    simpa [hp, Stage.Current] using h.current path hpath
  obtain ⟨hleft, hnext⟩ := ensures_step hensures hstep
  obtain ⟨hidle, rfl, heq⟩ | ⟨hidle, rfl, heq⟩ | ⟨hrunning, heq⟩ :=
    d.ensured_cases path ok q.1 q.2
  · rw [heq]
    exact (h.rests hpath hleft hidle).ensure .wifi _
  · have hrests := h.rests hpath hleft hidle
    rw [heq]
    exact Rests.inv ⟨hrests.left, hrests.idle⟩ rfl
  · rw [heq]
    refine h.goesOn hpath hleft ?_
    rw [hp]
    exact hnext hrunning

end Rests

/-- The helper leaves a file. -/
def Happening.left (path : Path) : Happening → Option (Option File)
  | .helped other target => if other = path then some target else none
  | _ => none

theorem left_checked (file : State) (e : Happening) (he : e ∈ (d.checked path file).2)
    (other : Path) : e.left other = none := by
  obtain ⟨-, heq⟩ | ⟨-, heq⟩ | ⟨-, -, heq⟩ := d.checked_cases path file <;> rw [heq] at he
  · rw [List.mem_singleton.1 he]
    rfl
  · rw [List.mem_singleton.1 he]
    rfl
  · cases he

theorem left_ensured {ok : Bool} (file : State) (os : List Event) (e : Happening)
    (he : e ∈ (d.ensured path ok file os).2) (other : Path) : e.left other = none := by
  obtain ⟨-, -, heq⟩ | ⟨-, -, heq⟩ | ⟨-, heq⟩ := d.ensured_cases path ok file os <;>
    rw [heq] at he
  · rw [List.mem_singleton.1 he]
    rfl
  · obtain rfl | rfl := by simpa using he
    · rfl
    · rfl
  · cases he

theorem inv_step {before : Path → Option File} (h : Inv before d) (hmove : main d a = some p) :
    Inv (fun path => latest (Happening.left path) (before path) p.2) p.1 := by
  have hsame : (∀ e ∈ p.2, ∀ path, e.left path = none) → Inv before p.1 →
      Inv (fun path => latest (Happening.left path) (before path) p.2) p.1 := fun hnone hinv => by
    have hlatest : (fun path => latest (Happening.left path) (before path) p.2) = before :=
      funext fun path => latest_of_forall_eq_none (fun e he => hnone e he path) _
    rwa [hlatest]
  cases main_spec hmove with
  | start hp =>
      exact hsame (by simp [Happening.left]) ((h.rests_of_none (by rw [hp]; rfl)).check _)
  | kill hp => exact hsame (by simp [Happening.left]) (Rests.inv ⟨h.left, fun _ => rfl⟩ rfl)
  | checking hp hstep => exact hsame (fun e he => left_checked _ e he) (h.checked hp hstep)
  | ensuring hp hstep => exact hsame (fun e he => left_ensured _ _ e he) (h.ensured hp hstep)
  | fork hp =>
      have hrests := h.rests_of_none (by rw [hp]; rfl)
      exact hsame (by simp [Happening.left]) (Rests.inv ⟨hrests.left, hrests.idle⟩ rfl)
  | forkFails hp | waitpid hp =>
      exact hsame (by simp) ((h.rests_of_none (by rw [hp]; rfl)).ensure _ _)
  | interrupt hp => exact hsame (by simp) h
  | @helper path target temporary hp =>
      have hrests := h.rests_of_none (by rw [hp]; rfl)
      refine Rests.inv ⟨fun other => ?_, fun other => ?_⟩ (by simp [Device.put, hp, Stage.path])
      · by_cases hother : path = other
        · subst hother
          exact Or.inl (by simp [Device.put, Happening.left])
        · simpa [Device.put, Happening.left, hother, Ne.symm hother] using hrests.left other
      · by_cases hother : path = other
        · subst hother
          simpa [Device.put] using hrests.idle path
        · simpa [Device.put, Ne.symm hother] using hrests.idle other

end MozartLineage.Macaddr.Main
