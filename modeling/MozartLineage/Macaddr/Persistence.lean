import MozartLineage.Macaddr.EnsureMac

/-!
# The address of the device persists

A call of `EnsureMac` replaces the target as a whole or not at all, and from the first
call on that succeeds the device keeps its address.

`During` says for every system call what the files are like when it is about to be
made, and what has happened so far. The results are read off it.
-/

namespace MozartLineage.Macaddr

open Transition

/-- `HasValidMac` accepts the file when its reads are in full. -/
def File.HasValidMac (f : File) : Prop := acceptsMac (f.content.take bufferSize)

instance (f : File) : Decidable f.HasValidMac := inferInstanceAs (Decidable (_ = true))

def IsGenerated (text : Text) : Prop := ∃ random, text = formatMac (generateMac random)

/-- What a call leaves in the target when it replaces it. -/
structure File.Stored (f : File) (owner : ℕ × ℕ) : Prop where
  content : IsGenerated f.content
  attributes : f.attributes = ⟨0o660, owner.1, owner.2⟩

/-- The bytes are those that a read of `before` gave. -/
def HasRead (before : Option File) (as : List Action) (bytes : Text) : Prop :=
  ∃ f count, before = some f ∧ .readTarget (.ok count) ∈ as ∧ bytes = f.content.take count

/-- The ways in which a call returns. -/
inductive Returned (before : Option File) (as : List Action) (s : State) :
    List Event → Prop where
  | accepted {buffer} (ht : s.target = before) (hr : HasRead before as buffer)
      (ha : acceptsMac buffer) : Returned before as s [.accepted, .returned true]
  | stored {f} (ht : s.target = some f) (hf : f.Stored s.owner) :
      Returned before as s [.created, .returned true]
  | notCreated (ht : s.target = before) : Returned before as s [.returned false]
  | removed (ht : s.target = before) (hn : s.temporary = none) :
      Returned before as s [.created, .returned false]
  | remains (ht : s.target = before) :
      Returned before as s [.created, .unlinkFailed, .returned false]

/-- The temporary file has been created, and `P` holds of it. -/
structure State.Holds (before : Option File) (s : State) (os : List Event)
    (P : File → Prop) : Prop where
  target : s.target = before
  events : os = [.created]
  temporary : ∃ f, s.temporary = some f ∧ P f

/-- What a call for `owner` that has found the target as `before` has come to. -/
def State.During (before : Option File) (owner : ℕ × ℕ) (as : List Action) (s : State)
    (os : List Event) : Prop :=
  s.owner = owner ∧
    match s.thread with
    | .idle => Returned before as s os
    | .openingTarget | .readingTarget | .openingUrandom | .readingUrandom _
    | .closingUrandom _ => s.target = before ∧ os = []
    | .closingTarget buffer =>
        s.target = before ∧ os = [] ∧ (buffer = [] ∨ HasRead before as buffer)
    | .removingStale text | .creating text =>
        s.target = before ∧ os = [] ∧ IsGenerated text
    | .changingMode text => s.Holds before os fun f => f.content = [] ∧ IsGenerated text
    | .changingOwner text =>
        s.Holds before os fun f =>
          f.content = [] ∧ f.attributes.mode = 0o660 ∧ IsGenerated text
    | .writing current =>
        s.Holds before os fun f =>
          IsGenerated (f.content ++ current) ∧ f.attributes = ⟨0o660, owner.1, owner.2⟩
    | .syncing | .renaming => s.Holds before os fun f => f.Stored owner
    | .closing success => s.Holds before os fun f => success → f.Stored owner
    | .cleaning => s.Holds before os fun _ => True

variable {before : Option File} {owner : ℕ × ℕ} {s t : State} {as : List Action}
  {os : List Event} {P Q : File → Prop}

theorem File.Stored.length {f : File} (h : f.Stored owner) : f.content.length = 17 := by
  obtain ⟨random, hcontent⟩ := h.content
  rw [hcontent, length_formatMac]

theorem File.Stored.hasValidMac {f : File} (h : f.Stored owner) : f.HasValidMac := by
  have htake : f.content.take bufferSize = f.content :=
    List.take_of_length_le (by rw [h.length]; decide)
  obtain ⟨random, hcontent⟩ := h.content
  rw [File.HasValidMac, htake, hcontent]
  exact acceptsMac_formatMac (isStation_generateMac random)

theorem State.Holds.goto (h : s.Holds before os P) (thread : Thread)
    (hPQ : ∀ f, P f → Q f) :
    (s.goto thread).1.Holds before (os ++ (s.goto thread).2) Q := by
  obtain ⟨f, hf, hP⟩ := h.temporary
  exact ⟨h.target, (List.append_nil os).trans h.events, f, hf, hPQ f hP⟩

/-- A change of the temporary file through its descriptor. -/
theorem State.Holds.modify (h : s.Holds before os P) {f : File → File} (thread : Thread)
    (hPQ : ∀ g, P g → Q (f g)) :
    ((s.modify f).goto thread).1.Holds before (os ++ ((s.modify f).goto thread).2) Q := by
  obtain ⟨g, hg, hP⟩ := h.temporary
  refine ⟨h.target, (List.append_nil os).trans h.events, f g, ?_, hPQ g hP⟩
  exact (congrArg (Option.map f) hg).trans rfl

theorem State.During.onUrandom (hp : s.thread.OnUrandom) :
    s.During before owner as os ↔ s.owner = owner ∧ s.target = before ∧ os = [] := by
  unfold State.During
  cases hs : s.thread with
  | readingUrandom | closingUrandom => rfl
  | _ => simp [hs, Thread.OnUrandom] at hp

theorem State.During.onTemporary (h : s.During before owner as os)
    (hp : s.thread.OnTemporary) : s.Holds before os fun _ => True := by
  have hwork := h.2
  cases hs : s.thread with
  | changingMode | changingOwner | writing | syncing =>
      rw [hs] at hwork
      obtain ⟨f, hf, -⟩ := hwork.temporary
      exact ⟨hwork.target, hwork.events, f, hf, trivial⟩
  | _ => simp [hs, Thread.OnTemporary] at hp

theorem step_during {a : Action} {p : State × List Event}
    (hs : s.During before owner as os) (ha : ∀ uid gid, a ≠ .ensureMac uid gid)
    (h : step s a = some p) : p.1.During before owner (as ++ [a]) (os ++ p.2) := by
  have hwork := hs.2
  obtain ⟨howner, -⟩ := hs
  cases step_spec h with
  | call => exact absurd rfl (ha _ _)
  | openTarget hp | openTargetFails hp | openUrandom hp =>
      rw [hp] at hwork
      rw [hwork.2]
      exact ⟨howner, hwork.1, rfl⟩
  | interrupt hp =>
      rw [← goto_thread hp]
      rw [hp] at hwork
      rw [hwork.2]
      exact ⟨howner, hwork.1, rfl⟩
  | @readTarget count hp hr =>
      rw [hp] at hwork
      obtain ⟨rfl, rfl⟩ := hwork
      refine ⟨howner, rfl, rfl, ?_⟩
      cases hf : s.target with
      | none => exact Or.inl (by simp [State.text, hf])
      | some f => exact Or.inr ⟨f, count, rfl, by simp, by simp [State.text, hf]⟩
  | readTargetFails hp =>
      rw [hp] at hwork
      rw [hwork.2]
      exact ⟨howner, hwork.1, rfl, Or.inl rfl⟩
  | accept hp haccept =>
      rw [hp] at hwork
      obtain ⟨ht, rfl, hread⟩ := hwork
      refine ⟨howner, .accepted ht ?_ haccept⟩
      rcases hread with rfl | ⟨f, count, hf, hcount, hbuffer⟩
      · exact absurd haccept (by decide)
      · exact ⟨f, count, hf, by simp [hcount], hbuffer⟩
  | refuse hp hrefuse =>
      rw [hp] at hwork
      rw [hwork.2.1]
      exact ⟨howner, hwork.1, rfl⟩
  | openUrandomFails hp | generateFails hp =>
      rw [hp] at hwork
      rw [hwork.2]
      exact ⟨howner, .notCreated hwork.1⟩
  | readUrandom hp ht =>
      obtain ⟨-, htarget, rfl⟩ := (State.During.onUrandom hp).1 ⟨howner, hwork⟩
      exact (State.During.onUrandom ht).2 ⟨howner, htarget, rfl⟩
  | generate hp =>
      rw [hp] at hwork
      rw [hwork.2]
      exact ⟨howner, hwork.1, rfl, _, rfl⟩
  | removeStale hp =>
      rw [hp] at hwork
      obtain ⟨ht, rfl, htext⟩ := hwork
      exact ⟨howner, ht, rfl, htext⟩
  | removeStaleFails hp | createFails hp =>
      rw [hp] at hwork
      rw [hwork.2.1]
      exact ⟨howner, .notCreated hwork.1⟩
  | create hp =>
      rw [hp] at hwork
      obtain ⟨ht, rfl, htext⟩ := hwork
      exact ⟨howner, ht, rfl, _, rfl, rfl, htext⟩
  | fchmod hp =>
      rw [hp] at hwork
      exact ⟨howner, hwork.modify _ fun g hg => ⟨hg.1, rfl, hg.2⟩⟩
  | fchown hp =>
      rw [hp] at hwork
      refine ⟨howner, hwork.modify _ fun g hg => ?_⟩
      obtain ⟨hcontent, hmode, htext⟩ := hg
      rw [howner, File.chown, hcontent]
      exact ⟨htext, by rw [← hmode]⟩
  | write hp =>
      rw [hp] at hwork
      refine ⟨howner, hwork.modify _ fun g hg => ⟨?_, hg.2⟩⟩
      rw [File.append, List.append_assoc, List.take_append_drop]
      exact hg.1
  | writeAll hp =>
      rw [hp] at hwork
      exact ⟨howner, hwork.modify _ fun g hg => ⟨hg.1, hg.2⟩⟩
  | interruptWrite hp =>
      rw [← goto_thread hp]
      rw [hp] at hwork
      exact ⟨howner, hwork.goto _ fun _ h => h⟩
  | fsync hp =>
      rw [hp] at hwork
      exact ⟨howner, hwork.goto _ fun f hf _ => hf⟩
  | fail hp =>
      have hheld := State.During.onTemporary ⟨howner, hwork⟩ hp
      exact ⟨howner, hheld.goto _ fun f _ hfalse => absurd hfalse Bool.false_ne_true⟩
  | close hp =>
      rw [hp] at hwork
      exact ⟨howner, hwork.goto _ fun f hf => hf rfl⟩
  | closeFails hp | renameFails hp =>
      rw [hp] at hwork
      exact ⟨howner, hwork.goto _ fun _ _ => trivial⟩
  | rename hp =>
      rw [hp] at hwork
      obtain ⟨-, rfl, f, hf, hstored⟩ := hwork
      exact ⟨howner, .stored hf (howner ▸ hstored)⟩
  | clean hp =>
      rw [hp] at hwork
      obtain ⟨ht, rfl, -⟩ := hwork
      exact ⟨howner, .removed ht rfl⟩
  | cleanFails hp =>
      rw [hp] at hwork
      obtain ⟨ht, rfl, -⟩ := hwork
      exact ⟨howner, .remains ht⟩

/-- Up to its return a call that has not renamed the file has left the target alone. -/
theorem State.During.cases (h : s.During before owner as os) :
    (s.target = before ∧ (os = [] ∨ os = [.created])) ∨
      s.thread = .idle ∧ Returned before as s os := by
  have hwork := h.2
  cases hs : s.thread with
  | idle =>
      rw [hs] at hwork
      exact Or.inr ⟨rfl, hwork⟩
  | openingTarget | readingTarget | openingUrandom | readingUrandom | closingUrandom =>
      rw [hs] at hwork
      exact Or.inl ⟨hwork.1, Or.inl hwork.2⟩
  | closingTarget | removingStale | creating =>
      rw [hs] at hwork
      exact Or.inl ⟨hwork.1, Or.inl hwork.2.1⟩
  | _ =>
      rw [hs] at hwork
      exact Or.inl ⟨hwork.target, Or.inr hwork.events⟩

theorem run_during {s₀ : State} {uid gid : ℕ} (hidle : s₀.thread = .idle)
    (hone : ∀ uid gid, .ensureMac uid gid ∉ as)
    (hrun : step.run s₀ (.ensureMac uid gid :: as) = some (s, os)) :
    s.During s₀.target (uid, gid) as os := by
  obtain ⟨t, o, os', hcall, hrest, rfl⟩ := Machine.run_cons_eq_some.1 hrun
  simp only [step, hidle, Option.some.injEq, Prod.mk.injEq] at hcall
  obtain ⟨rfl, rfl⟩ := hcall
  refine Machine.run_induction (P := fun as s os => (∀ uid gid, .ensureMac uid gid ∉ as) →
    s.During s₀.target (uid, gid) as os) (fun _ => ⟨rfl, rfl, rfl⟩) ?_ hrest hone
  intro as s os a t o ih h hone
  refine step_during (p := (t, o)) (ih fun u g hu => hone u g (by simp [hu])) ?_ h
  rintro u g rfl
  exact hone u g (by simp)

/-! ### Later calls -/

/-- The file can be opened, and what is read of it is what there is. -/
def InFull : State → Action → Prop
  | _, .openTarget ok => ok
  | s, .readTarget (.ok count) => count = min bufferSize s.text.length
  | _, .readTarget (.error e) => e = .eintr
  | _, _ => True

/-- The actions of a call that reads the file in full, after some interrupts. -/
def readsInFull (uid gid interrupts size : ℕ) : List Action :=
  [.ensureMac uid gid, .openTarget true] ++
    List.replicate interrupts (.readTarget (.error .eintr)) ++
    [.readTarget (.ok (min bufferSize size)), .closeTarget]

/-- No later call changes the target or fails, as long as the file can be read. -/
structure State.Persists (s : State) : Prop where
  valid : ∃ f, s.target = some f ∧ f.HasValidMac
  unchanged : ∀ as t os, step.Meets InFull s as → step.run s as = some (t, os) →
    t.target = s.target ∧ .returned false ∉ os
  returns : ∀ uid gid interrupts,
    ∃ t, step.run s (readsInFull uid gid interrupts s.text.length) =
      some (t, [.accepted, .returned true])

/-- Calls that have only found that the file is valid. -/
def State.Settled (f : File) (s : State) (os : List Event) : Prop :=
  s.target = some f ∧ .returned false ∉ os ∧
    match s.thread with
    | .idle | .openingTarget | .readingTarget => True
    | .closingTarget buffer => buffer = f.content.take bufferSize
    | _ => False

theorem step_settled {f : File} (hf : f.HasValidMac) {a : Action} {p : State × List Event}
    (hs : s.Settled f os) (hfull : InFull s a) (h : step s a = some p) :
    p.1.Settled f (os ++ p.2) := by
  obtain ⟨ht, hno, hwork⟩ := hs
  cases step_spec h with
  | call hp | openTarget hp => exact ⟨ht, by simpa using hno, trivial⟩
  | openTargetFails hp => exact absurd hfull Bool.false_ne_true
  | interrupt hp => exact ⟨ht, by simpa using hno, hwork⟩
  | @readTarget count hp hr =>
      have htext : s.text = f.content := by simp [State.text, ht]
      have hcount : count = min bufferSize f.content.length := htext ▸ hfull
      refine ⟨ht, by simpa using hno, ?_⟩
      change s.text.take count = f.content.take bufferSize
      rw [htext, hcount, List.take_eq_take_iff]
      omega
  | readTargetFails hp he => exact absurd hfull he
  | accept hp ha => exact ⟨ht, by simpa using hno, trivial⟩
  | refuse hp hrefuse =>
      rw [hp] at hwork
      exact absurd (hwork ▸ hf) hrefuse
  | readUrandom hp =>
      cases hs : s.thread <;> simp_all [Thread.OnUrandom]
  | fail hp =>
      cases hs : s.thread <;> simp_all [Thread.OnTemporary]
  | _ hp =>
      rw [hp] at hwork
      exact hwork.elim

theorem run_interrupts (hp : s.thread = .readingTarget) (interrupts : ℕ) :
    step.run s (List.replicate interrupts (.readTarget (.error .eintr))) = some (s, []) := by
  induction interrupts with
  | zero => rfl
  | succ n ih =>
      rw [List.replicate_succ, Machine.run_cons_eq_some]
      exact ⟨s, [], [], by simp [step, hp], ih, rfl⟩

/-- A valid file persists. -/
theorem State.Persists.of_valid {f : File} (hidle : s.thread = .idle)
    (ht : s.target = some f) (hf : f.HasValidMac) : s.Persists := by
  have htext : s.text = f.content := by simp [State.text, ht]
  refine ⟨⟨f, ht, hf⟩, fun as t os hfull hrun => ?_, fun uid gid interrupts => ?_⟩
  · have hsettled : t.Settled f os :=
      Machine.run_invariant_of_meets (P := fun s os => s.Settled f os)
        (fun s os a t o hs hfull h => step_settled (p := (t, o)) hf hs hfull h)
        ⟨ht, by simp, by rw [hidle]; trivial⟩ hfull hrun
    exact ⟨hsettled.1.trans ht.symm, hsettled.2.1⟩
  · let u : State := { s with owner := (uid, gid), thread := .readingTarget }
    have hopen : step.run s [.ensureMac uid gid, .openTarget true] = some (u, []) := by
      simp [Machine.run, step, hidle, ht, State.goto, u]
    have hread : step.run u [.readTarget (.ok (min bufferSize s.text.length)), .closeTarget] =
        some ({ u with thread := .idle }, [.accepted, .returned true]) := by
      have hcan : CanRead u (min bufferSize s.text.length) := by
        refine ⟨le_rfl, fun hzero => List.eq_nil_of_length_eq_zero ?_⟩
        change s.text.length = 0
        simpa [bufferSize] using hzero
      have haccept : acceptsMac (u.text.take (min bufferSize s.text.length)) := by
        have htake : u.text.take (min bufferSize s.text.length) = f.content.take bufferSize := by
          rw [show u.text = f.content from htext, htext, List.take_eq_take_iff]
          omega
        rw [htake]
        exact hf
      simp [Machine.run, step, hcan, haccept, State.goto, u]
    refine ⟨{ u with thread := .idle }, ?_⟩
    refine Machine.run_append_eq_some.2 ⟨u, [], _, ?_, hread, rfl⟩
    exact Machine.run_append_eq_some.2 ⟨u, [], [], hopen, run_interrupts rfl interrupts, rfl⟩

/-- A call of `EnsureMac` at any point, for any files it finds and any outcomes of its
system calls: the target is as it was, or a complete address with the mode and the owner
asked for. A call that fails has left the target alone and its temporary file is gone,
unless it could not be removed. A target that is accepted stays as it is, and so does
any target before the temporary file is created. After a call that succeeds the target
persists, if it was not accepted on a part of what there was to read. -/
theorem run_ensureMac {s₀ : State} {uid gid : ℕ} (hidle : s₀.thread = .idle)
    (hone : ∀ uid gid, .ensureMac uid gid ∉ as)
    (hrun : step.run s₀ (.ensureMac uid gid :: as) = some (s, os)) :
    (s.target = s₀.target ∨ ∃ f, s.target = some f ∧ f.content.length = 17 ∧
      f.HasValidMac ∧ f.attributes = ⟨0o660, uid, gid⟩) ∧
    (.returned false ∈ os → s.target = s₀.target ∧
      (.created ∈ os → .unlinkFailed ∉ os → s.temporary = none)) ∧
    ((.accepted ∈ os → .created ∉ os) ∧ (.created ∉ os → s.target = s₀.target)) ∧
    (.returned true ∈ os →
      (.accepted ∈ os → ∀ count, .readTarget (.ok count) ∈ as →
        count = min bufferSize s₀.text.length) → s.Persists) := by
  have hduring := run_during hidle hone hrun
  rcases hduring.cases with ⟨ht, rfl | rfl⟩ | ⟨hreturned, hret⟩
  · simp [ht]
  · simp [ht]
  · cases hret with
    | @accepted buffer ht hread haccept =>
        refine ⟨Or.inl ht, by simp, ⟨by simp, fun _ => ht⟩, fun _ hfull => ?_⟩
        obtain ⟨f, count, hf, hcount, rfl⟩ := hread
        have htext : s₀.text = f.content := by simp [State.text, hf]
        have hlength := hfull (by simp) count hcount
        refine .of_valid hreturned (ht.trans hf) ?_
        have htake : f.content.take bufferSize = f.content.take count := by
          rw [hlength, htext, List.take_eq_take_iff]
          omega
        rw [File.HasValidMac, htake]
        exact haccept
    | @stored f ht hf =>
        rw [hduring.1] at hf
        refine ⟨Or.inr ⟨f, ht, hf.length, hf.hasValidMac, hf.attributes⟩, by simp, by simp,
          fun _ _ => .of_valid hreturned ht hf.hasValidMac⟩
    | notCreated ht => simp [ht]
    | removed ht hn => simp [ht, hn]
    | remains ht => simp [ht]

/-! ### Two calls -/

/-- A file with the address `02:02:02:02:02:02`, and what comes after it. -/
def someFile (rest : Text) : File := ⟨formatMac (fun _ => 2) ++ rest, ⟨0o600, 0, 0⟩⟩

/-- No file at the target, and a stale temporary one. -/
def noTarget : State := ⟨none, some (someFile []), (0, 0), .idle⟩

/-- A call that stores an address, with short reads and writes and with interrupts. -/
def store : List Action :=
  [.openTarget false, .openUrandom true, .readUrandom (.ok [0xff, 1]),
    .readUrandom (.error .eintr), .readUrandom (.ok [2, 3, 4, 5]), .closeUrandom,
    .unlink (.ok ()), .create (some ⟨0o640, 0, 0⟩), .fchmod true, .fchown true,
    .write (.ok 7), .write (.error .eintr), .write (.ok 10), .fsync true, .close true,
    .rename true]

theorem ensureMac_store :
    ∃ s os f, step.run noTarget (.ensureMac 1002 1002 :: store) = some (s, os) ∧
      s.target = some f ∧ f.content.length = 17 ∧ f.HasValidMac ∧
        f.attributes = ⟨0o660, 1002, 1002⟩ ∧ s.Persists := by
  have hrun : ∃ s, step.run noTarget (.ensureMac 1002 1002 :: store) =
      some (s, [.created, .returned true]) ∧ s.target ≠ none := ⟨_, rfl, by decide⟩
  obtain ⟨s, hrun, hne⟩ := hrun
  have hcall := run_ensureMac rfl (by simp [store]) hrun
  obtain ⟨f, hf⟩ := hcall.1.resolve_left hne
  exact ⟨s, _, f, hrun, hf.1, hf.2.1, hf.2.2.1, hf.2.2.2, hcall.2.2.2 (by simp) (by simp)⟩

/-- A target that is accepted on a short read does not persist. -/
theorem not_persists_after_short_read :
    ¬ ∀ (s₀ s : State) (uid gid : ℕ) (as : List Action) (os : List Event),
      s₀.thread = .idle → (∀ uid gid, .ensureMac uid gid ∉ as) →
        step.run s₀ (.ensureMac uid gid :: as) = some (s, os) → .returned true ∈ os →
          s.Persists := by
  intro hall
  have hrun : step.run ⟨some (someFile [120]), none, (0, 0), .idle⟩
      [.ensureMac 1002 1002, .openTarget true, .readTarget (.ok 17), .closeTarget] =
        some (⟨some (someFile [120]), none, (1002, 1002), .idle⟩,
          [.accepted, .returned true]) := by decide
  obtain ⟨f, hf, hvalid⟩ := (hall _ _ _ _ _ _ rfl (by simp) hrun (by simp)).valid
  obtain rfl := Option.some.inj hf
  exact absurd hvalid (by decide)

end MozartLineage.Macaddr
