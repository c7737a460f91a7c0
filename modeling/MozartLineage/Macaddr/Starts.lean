import MozartLineage.Macaddr.Main

/-!
# What stays over many starts

An address that is valid is not replaced, and as soon as one start has ended well, the later
ones find both addresses and change nothing.
-/

namespace MozartLineage.Macaddr.Main

open Transition

/-- A file that is there can be opened, and is read in full. -/
def Readable (d : Device) : Move → Prop
  | .systemCall a => ∀ path ∈ d.stage.path, (d.files path).target.isSome →
      InFull (d.files path) a
  | _ => True

/-- The calls that generate an address and store it do not fail. -/
def CallSucceeds : Action → Prop
  | .openUrandom ok | .fchmod ok | .fchown ok | .fsync ok | .close ok | .rename ok => ok
  | .readUrandom (.ok bytes) => bytes ≠ []
  | .unlink (.error e) => e = .enoent
  | .create attributes => attributes.isSome
  | .readUrandom (.error e) | .write (.error e) => e = .eintr
  | .unlink (.ok _) | .write (.ok _) | .ensureMac _ _ | .openTarget _ | .readTarget _ | .closeTarget | .closeUrandom => True

def Succeeds (_ : Device) : Move → Prop
  | .systemCall a => CallSucceeds a
  | _ => True

instance : DecidablePred CallSucceeds
  | .openUrandom ok | .fchmod ok | .fchown ok | .fsync ok | .close ok | .rename ok =>
      inferInstanceAs (Decidable (ok = true))
  | .readUrandom (.ok bytes) => inferInstanceAs (Decidable (bytes ≠ []))
  | .unlink (.error e) => inferInstanceAs (Decidable (e = .enoent))
  | .create attributes => inferInstanceAs (Decidable (attributes.isSome = true))
  | .readUrandom (.error e) | .write (.error e) => inferInstanceAs (Decidable (e = .eintr))
  | .unlink (.ok _) | .write (.ok _) | .ensureMac _ _ | .openTarget _ | .readTarget _
  | .closeTarget | .closeUrandom => .isTrue trivial

instance (d : Device) : DecidablePred (Succeeds d)
  | .systemCall a => inferInstanceAs (Decidable (CallSucceeds a))
  | .start | .kill | .fork _ | .helper _ _ _ | .waitpid _ => .isTrue trivial

instance (s : State) : DecidablePred (InFull s)
  | .openTarget ok => inferInstanceAs (Decidable (ok = true))
  | .readTarget (.ok count) => inferInstanceAs (Decidable (count = min bufferSize s.text.length))
  | .readTarget (.error e) => inferInstanceAs (Decidable (e = .eintr))
  | .ensureMac _ _ | .closeTarget | .openUrandom _ | .readUrandom _ | .closeUrandom | .unlink _
  | .create _ | .fchmod _ | .fchown _ | .write _ | .fsync _ | .close _ | .rename _ =>
      .isTrue trivial

instance (d : Device) : DecidablePred (Readable d)
  | .systemCall a =>
      inferInstanceAs (Decidable (∀ path ∈ d.stage.path, (d.files path).target.isSome →
        InFull (d.files path) a))
  | .start | .kill | .fork _ | .helper _ _ _ | .waitpid _ => .isTrue trivial

/-- What happens in a start that has nothing to do. -/
def Happening.Smooth : Happening → Prop
  | .started | .killed | .checked _ true | .ensured _ true | .exited 0 => True
  | _ => False

variable {d t : Device} {path other : Path} {a : Move} {as : List Move}
  {p : Device × List Happening} {os : List Happening} {before : Option File} {s : State}
  {call : Action} {q : State × List Event} {f : File}

/-! ### A file that is valid -/

/-- The file is valid, and what is being read of it is what there is. -/
structure Fixed (f : File) (s : State) : Prop where
  valid : f.HasValidMac
  settled : s.Settled f []

theorem Fixed.found (h : Fixed f s) : s.target = some f := h.settled.1

theorem Fixed.rest (h : Fixed f s) {thread : Thread}
    (hthread : thread = .idle ∨ thread = .openingTarget) (owner : ℕ × ℕ) :
    Fixed f { s with owner := owner, thread := thread } := by
  refine ⟨h.valid, h.found, by simp, ?_⟩
  rcases hthread with rfl | rfl <;> trivial

theorem fixed_of_idle (hf : f.HasValidMac) (htarget : s.target = some f)
    (hidle : s.thread = .idle) : Fixed f s := by
  refine ⟨hf, htarget, by simp, ?_⟩
  rw [hidle]
  trivial

/-- A call that goes on with a valid file can only accept it. -/
theorem fixed_step (hs : Fixed f s) (hfull : InFull s call) (h : step s call = some q) :
    Fixed f q.1 ∧ q.1.thread ≠ .openingUrandom ∧
      (q.1.thread = .idle → .returned true ∈ q.2) := by
  have hnext := step_settled hs.valid hs.settled hfull h
  have hfixed : Fixed f q.1 := ⟨hs.valid, hnext.1, by simp, hnext.2.2⟩
  have hthread := hfixed.settled.2.2
  refine ⟨hfixed, fun hopening => ?_, fun hidle => ?_⟩
  · rw [hopening] at hthread
    exact hthread
  · have hwork := hs.settled.2.2
    cases step_spec h with
    | accept => simp
    | interrupt hp =>
        rw [hp] at hidle
        cases hidle
    | call | openTarget | openTargetFails | readTarget | readTargetFails | refuse => cases hidle
    | readUrandom hp => cases hs : s.thread <;> simp_all [Thread.OnUrandom]
    | fail hp => cases hs : s.thread <;> simp_all [Thread.OnTemporary]
    | _ hp =>
        rw [hp] at hwork
        exact hwork.elim

/-! ### What a move keeps -/

/-- The beginning of a call and its end do not matter. -/
def Stable (K : State → Prop) : Prop :=
  ∀ s owner thread, K s → thread = .idle ∨ thread = .openingTarget →
    K { s with owner := owner, thread := thread }

variable {K : State → Prop}

theorem kept_put (h : K (d.files path)) (hs : other = path → K s) :
    K ((d.put other s).files path) := by
  by_cases hother : path = other
  · subst hother
    simpa [Device.put] using hs rfl
  · simpa [Device.put, hother] using h

theorem kept_put_self (hs : K s) : K ((d.put path s).files path) := by
  simpa [Device.put] using hs

theorem Stable.check (hK : Stable K) (h : K (d.files path)) (other : Path) :
    K ((d.check other).files path) :=
  kept_put h fun heq => by
    subst heq
    exact hK _ _ _ h (Or.inr rfl)

theorem Stable.ensure (hK : Stable K) (h : K (d.files path)) (other : Path) (ok : Bool) :
    K ((d.ensure other ok).files path) :=
  kept_put h fun heq => by
    subst heq
    exact hK _ _ _ h (Or.inr rfl)

theorem Stable.checked (hK : Stable K) (h : K (d.files path)) (hs : other = path → K s) :
    K ((d.checked other s).1.files path) := by
  have hput : K ((d.put other s).files path) := kept_put h hs
  obtain ⟨-, heq⟩ | ⟨-, heq⟩ | ⟨-, -, heq⟩ := d.checked_cases other s <;> rw [heq]
  · cases other with
    | bluetooth => exact hK.check hput _
    | wifi => exact hK.ensure hput _ _
  · exact kept_put h fun hother => hK _ _ _ (hs hother) (Or.inl rfl)
  · exact hput

theorem Stable.ensured (hK : Stable K) {ok : Bool} (h : K (d.files path))
    (hs : other = path → K s) (os : List Event) : K ((d.ensured other ok s os).1.files path) := by
  have hput : K ((d.put other s).files path) := kept_put h hs
  obtain ⟨-, rfl, heq⟩ | ⟨-, rfl, heq⟩ | ⟨-, heq⟩ := d.ensured_cases other ok s os <;> rw [heq]
  · exact hK.ensure hput _ _
  · exact hput
  · exact hput

/-- What the calls for a file keep, and the helper too, every move keeps. -/
theorem Stable.main (hK : Stable K) (h : K (d.files path)) (hmove : main d a = some p)
    (hcall : ∀ call q, a = .systemCall call → d.stage.path = some path →
      step (d.files path) call = some q → K q.1)
    (hhelper : ∀ target temporary, a = .helper path target temporary → d.stage = .waiting →
      K { d.files path with target := target, temporary := temporary }) :
    K (p.1.files path) := by
  cases main_spec hmove with
  | start hp => exact hK.check h _
  | kill hp => exact hK _ _ _ h (Or.inl rfl)
  | checking hp hstep =>
      refine hK.checked h ?_
      rintro rfl
      exact hcall _ _ rfl (by rw [hp]; rfl) hstep
  | ensuring hp hstep =>
      refine hK.ensured h ?_ _
      rintro rfl
      exact hcall _ _ rfl (by rw [hp]; rfl) hstep
  | fork hp | interrupt hp => exact h
  | forkFails hp | waitpid hp => exact hK.ensure h _ _
  | helper hp =>
      refine kept_put h ?_
      rintro rfl
      exact hhelper _ _ rfl hp

theorem stable_fixed (f : File) : Stable (Fixed f) := fun _ owner _ h hthread =>
  h.rest hthread owner

/-- Only the helper replaces a file that is valid. -/
theorem fixed_main (h : Fixed f (d.files path)) (hread : Readable d a) (hmove : main d a = some p)
    (hleft : ∀ e ∈ p.2, e.left path = none) : Fixed f (p.1.files path) := by
  refine (stable_fixed f).main h hmove ?_ ?_
  · rintro call q rfl hpath hstep
    exact (fixed_step h (hread path hpath (by simp [h.found])) hstep).1
  · rintro target temporary rfl hp
    cases main_spec hmove with
    | helper => simp [Happening.left] at hleft

/-! ### A call that succeeds -/

/-- What has been read of the file is what there is. -/
def ReadsInFull (s : State) : Prop :=
  ∀ buffer, s.thread = .closingTarget buffer → buffer = s.text.take bufferSize

theorem readsInFull_step (hs : ReadsInFull s) (hfull : s.target.isSome → InFull s call)
    (h : step s call = some q) : ReadsInFull q.1 := by
  have hempty : s.target = none → s.text = [] := fun hnone => by simp [State.text, hnone]
  cases step_spec h with
  | @readTarget count hp hr =>
      rintro buffer ⟨⟩
      change s.text.take count = s.text.take bufferSize
      cases htarget : s.target with
      | none => simp [hempty htarget]
      | some f =>
          have hcount : count = min bufferSize s.text.length := hfull (by simp [htarget])
          rw [hcount, List.take_eq_take_iff]
          omega
  | @readTargetFails e hp he =>
      rintro buffer ⟨⟩
      change [] = s.text.take bufferSize
      cases htarget : s.target with
      | none => simp [hempty htarget]
      | some f => exact absurd (hfull (by simp [htarget])) he
  | interrupt hp | interruptWrite hp => exact hs
  | readUrandom hp ht =>
      rintro buffer hthread
      change _ = Thread.closingTarget buffer at hthread
      rw [State.goto] at hthread
      subst hthread
      exact ht.elim
  | _ => exact fun buffer hthread => by cases hthread

/-- A call that has succeeded leaves a valid file. -/
theorem valid_of_returned (hs : Ensures path before s) (hreads : ReadsInFull s)
    (h : step s call = some q) (hreturned : .returned true ∈ q.2) :
    q.1.thread = .idle ∧ ∃ f, q.1.target = some f ∧ f.HasValidMac := by
  obtain ⟨-, target, as, os, -, -, hwork⟩ := hs
  cases step_spec h with
  | @accept buffer hp ha =>
      refine ⟨rfl, ?_⟩
      rw [hreads buffer hp] at ha
      cases htarget : s.target with
      | none =>
          rw [State.text, htarget] at ha
          exact absurd ha (by decide)
      | some f =>
          rw [State.text, htarget] at ha
          exact ⟨f, rfl, ha⟩
  | rename hp =>
      rw [hp] at hwork
      obtain ⟨-, -, f, hf, hstored⟩ := hwork
      exact ⟨rfl, f, hf, hstored.hasValidMac⟩
  | _ => simp [State.goto, State.returns] at hreturned

/-- No call has failed so far. -/
def Healthy : Thread → Prop
  | .closingUrandom none | .closing false | .cleaning => False
  | _ => True

theorem thread_of_goto {thread : Thread} (h : some q = some (s.goto thread)) :
    q.1.thread = thread := by
  rw [Option.some.inj h]
  rfl

/-- The calls on the temporary file do not give it up. -/
theorem onTemporary_step (hp : s.thread.OnTemporary) (hcall : CallSucceeds call)
    (h : step s call = some q) : q.1.thread.OnTemporary ∨ q.1.thread = .closing true := by
  cases hthread : s.thread with
  | changingMode text =>
      cases call with
      | fchmod ok =>
          obtain rfl : ok = true := hcall
          simp only [step, hthread] at h
          cases h
          exact Or.inl trivial
      | _ => simp [step, hthread] at h
  | changingOwner text =>
      cases call with
      | fchown ok =>
          obtain rfl : ok = true := hcall
          simp only [step, hthread] at h
          cases h
          exact Or.inl trivial
      | _ => simp [step, hthread] at h
  | writing current =>
      cases call with
      | write count =>
          cases count with
          | error e =>
              obtain rfl : e = .eintr := hcall
              simp only [step, hthread] at h
              cases h
              exact Or.inl hp
          | ok count =>
              simp only [step, hthread] at h
              split_ifs at h <;> cases h <;> exact Or.inl trivial
      | _ => simp [step, hthread] at h
  | syncing =>
      cases call with
      | fsync ok =>
          obtain rfl : ok = true := hcall
          simp only [step, hthread] at h
          cases h
          exact Or.inr rfl
      | _ => simp [step, hthread] at h
  | _ =>
      rw [hthread] at hp
      exact hp.elim

theorem healthy_step (hs : Healthy s.thread) (hcall : CallSucceeds call)
    (h : step s call = some q) :
    Healthy q.1.thread ∧ (q.1.thread = .idle → .returned true ∈ q.2) := by
  cases step_spec h with
  | interrupt hp | interruptWrite hp => exact ⟨hs, fun hidle => by simp [hp] at hidle⟩
  | accept hp ha => exact ⟨trivial, fun _ => by simp⟩
  | rename hp => exact ⟨trivial, fun _ => by simp [State.returns]⟩
  | @readUrandom bytes thread hp ht =>
      have hgood : thread ≠ .closingUrandom none := by
        rintro rfl
        cases hthread : s.thread with
        | readingUrandom address =>
            cases bytes with
            | error e =>
                obtain rfl : e = .eintr := hcall
                simp only [step, hthread] at h
                have hsame : s.thread = .closingUrandom none := thread_of_goto h
                rw [hthread] at hsame
                cases hsame
            | ok bytes =>
                simp only [step, hthread, show bytes ≠ [] from hcall, if_false] at h
                split_ifs at h
                · cases thread_of_goto h
                · cases thread_of_goto h
        | _ => simp [step, hthread] at h
      cases thread with
      | readingUrandom address => exact ⟨trivial, Thread.noConfusion⟩
      | closingUrandom address =>
          cases address with
          | none => exact absurd rfl hgood
          | some address => exact ⟨trivial, Thread.noConfusion⟩
      | _ => exact ht.elim
  | generateFails hp | clean hp | cleanFails hp =>
      rw [hp] at hs
      exact hs.elim
  | openUrandomFails hp | createFails hp | renameFails hp => simp [CallSucceeds] at hcall
  | @removeStaleFails text e hp =>
      obtain rfl : e = .enoent := hcall
      simp only [step, hp] at h
      split_ifs at h
      simp [State.goto, State.returns] at h
  | @closeFails success ok hp =>
      obtain rfl : ok = true := hcall
      rw [hp] at hs
      cases success
      · exact hs.elim
      · simp [step, hp, State.goto] at h
  | fail hp =>
      rcases onTemporary_step hp hcall h with hthread | hthread
      · exact hthread.elim
      · cases hthread
  | _ => exact ⟨trivial, Thread.noConfusion⟩

/-! ### The whole device -/

theorem stable_healthy : Stable fun s => Healthy s.thread := by
  rintro s owner thread - (rfl | rfl) <;> trivial

theorem stable_readsInFull : Stable ReadsInFull := by
  rintro s owner thread - (rfl | rfl) buffer hthread <;> cases hthread

/-- Nothing runs. -/
structure Device.Off (d : Device) : Prop where
  stage : d.stage = .notRunning
  idle : ∀ path, (d.files path).thread = .idle

/-- What was in the file at first, or what the helper has left there last. -/
def found (d : Device) (os : List Happening) (path : Path) : Option File :=
  latest (Happening.left path) (d.files path).target os

theorem inv_found {d₀ : Device} (h : Inv (found d₀ os) d) (hmove : main d a = some p) :
    Inv (found d₀ (os ++ p.2)) p.1 := by
  have hnext := inv_step h hmove
  have hfound : found d₀ (os ++ p.2) =
      fun path => latest (Happening.left path) (found d₀ os path) p.2 :=
    funext fun path => latest_append _ _ _ _
  rwa [hfound]

theorem Device.Off.inv (h : d.Off) : Inv (found d []) d :=
  Rests.inv ⟨fun _ => Or.inl rfl, h.idle⟩ (by rw [h.stage]; rfl)

/-- Each move of a run in which the files can be read keeps the valid ones. -/
theorem fixed_found {d₀ : Device} (h : Inv (found d₀ os) d)
    (hfixed : ∀ path f, found d₀ os path = some f → f.HasValidMac → Fixed f (d.files path))
    (hread : Readable d a) (hmove : main d a = some p) (hfound : found d₀ (os ++ p.2) path = some f)
    (hf : f.HasValidMac) : Fixed f (p.1.files path) := by
  by_cases hleft : ∀ e ∈ p.2, e.left path = none
  · rw [found, latest_append_of_forall_eq_none hleft] at hfound
    exact fixed_main (hfixed path f hfound hf) hread hmove hleft
  · obtain ⟨e, he, hne⟩ : ∃ e ∈ p.2, e.left path ≠ none := by simpa using hleft
    cases main_spec hmove with
    | checking hp hstep => exact absurd (left_checked _ e he path) hne
    | ensuring hp hstep => exact absurd (left_ensured _ _ e he path) hne
    | @helper other target temporary hp =>
        obtain rfl := List.mem_singleton.1 he
        obtain rfl : other = path := by
          by_contra hother
          exact hne (by simp [Happening.left, hother])
        have htarget : target = some f := by
          simpa [found, latest_append, Happening.left] using hfound
        refine fixed_of_idle hf ?_ ?_
        · simpa [Device.put] using htarget
        · simpa [Device.put] using h.idle other (by simp [hp, Stage.path])
    | start | kill | fork =>
        rw [List.mem_singleton.1 he] at hne
        exact absurd rfl hne
    | forkFails | interrupt | waitpid => cases he

/-- Whatever starts, kills and helpers there were: either file is what it was at first or what
the helper has left there last, or else a complete address that the program has stored with
the owner for this path. A valid file is not replaced while it can be read. -/
theorem run_targets (hoff : d.Off) (hrun : main.run d as = some (t, os)) (path : Path) :
    ((t.files path).target = found d os path ∨
      ∃ f, (t.files path).target = some f ∧ f.content.length = 17 ∧ f.HasValidMac ∧
        f.attributes = ⟨0o660, path.owner.1, path.owner.2⟩) ∧
    (main.Meets Readable d as → ∀ f, found d os path = some f → f.HasValidMac →
      (t.files path).target = some f) := by
  have hinv : Inv (found d os) t := Machine.run_invariant (P := fun s os => Inv (found d os) s)
    (fun s os a u o h hmove => inv_found (p := (u, o)) h hmove) hoff.inv hrun
  refine ⟨(hinv.left path).imp_right ?_, fun hread f hfound hf => ?_⟩
  · rintro ⟨f, htarget, hf⟩
    exact ⟨f, htarget, hf.length, hf.hasValidMac, hf.attributes⟩
  · have hfixed : Inv (found d os) t ∧ ∀ path f, found d os path = some f → f.HasValidMac →
        Fixed f (t.files path) := Machine.run_invariant_of_meets
      (P := fun s os => Inv (found d os) s ∧ ∀ path f, found d os path = some f →
        f.HasValidMac → Fixed f (s.files path))
      (fun s os a u o h hG hmove => ⟨inv_found (p := (u, o)) h.1 hmove,
        fun path f hfound hf => fixed_found (p := (u, o)) h.1 h.2 hG hmove hfound hf⟩)
      ⟨hoff.inv, fun path f hfound hf => fixed_of_idle hf hfound (hoff.idle path)⟩ hread hrun
    exact (hfixed.2 path f hfound hf).found

/-- A device that was never started. -/
def noFiles : Device := ⟨fun _ => ⟨none, none, (0, 0), .idle⟩, .notRunning⟩

/-- The helper leaves one address. The process is killed while it stores the other one. -/
def killed : List Move :=
  [.start, .systemCall (.openTarget false), .fork true,
    .helper .wifi (some (someFile [10])) none, .waitpid (.error .eintr), .waitpid (.ok 0)] ++
  [.openTarget false, .openUrandom true, .readUrandom (.ok [1, 2, 3, 4, 5, 6]), .closeUrandom,
    .unlink (.error .enoent), .create (some ⟨0o640, 0, 0⟩)].map .systemCall ++ [.kill]

/-- A start that stores the first address and finds the second one. -/
def storing : List Move :=
  [.start, .systemCall (.openTarget false), .fork false] ++ store.map .systemCall ++
  [.openTarget true, .readTarget (.ok 18), .closeTarget].map .systemCall

theorem off_noFiles : noFiles.Off := ⟨rfl, fun _ => rfl⟩

theorem run_storing :
    ∃ t, main.run noFiles (killed ++ storing) = some (t,
      [.started, .checked .bluetooth false, .forked, .helped .wifi (some (someFile [10])),
        .killed, .started, .checked .bluetooth false, .ensured .bluetooth true,
        .ensured .wifi true, .exited 0]) := by
  have hrun : (main.run noFiles (killed ++ storing)).map Prod.snd = some
      [.started, .checked .bluetooth false, .forked, .helped .wifi (some (someFile [10])),
        .killed, .started, .checked .bluetooth false, .ensured .bluetooth true,
        .ensured .wifi true, .exited 0] := by decide +kernel
  obtain ⟨⟨t, os⟩, hrun, rfl⟩ := Option.map_eq_some_iff.1 hrun
  exact ⟨t, hrun⟩

theorem meets_storing :
    main.Meets Readable noFiles (killed ++ storing) ∧
      main.Meets Succeeds noFiles (killed ++ storing) ∧
      (main.run noFiles (killed ++ storing)).map
        (fun p => (p.1.files .bluetooth).target.isSome) = some true := by decide +kernel

theorem targets_storing :
    ∃ t os, main.run noFiles (killed ++ storing) = some (t, os) ∧
      (t.files .wifi).target = some (someFile [10]) ∧
      ∃ f, (t.files .bluetooth).target = some f ∧ f.HasValidMac := by
  obtain ⟨t, hrun⟩ := run_storing
  obtain ⟨hread, -, hstored⟩ := meets_storing
  rw [hrun] at hstored
  refine ⟨t, _, hrun, (run_targets off_noFiles hrun .wifi).2 hread _ rfl (by decide), ?_⟩
  rcases (run_targets off_noFiles hrun .bluetooth).1 with hnone | ⟨f, htarget, -, hf, -⟩
  · have hempty : (t.files .bluetooth).target = none := hnone
    simp [hempty] at hstored
  · exact ⟨f, htarget, hf⟩

/-! ### After a start that has ended well -/

/-- What a run in which the files can be read knows. -/
structure Sound (d : Device) (os : List Happening) : Prop where
  reads : ∀ path, ReadsInFull (d.files path)
  bluetooth : d.stage = .ensuring .wifi true → ∃ f, Fixed f (d.files .bluetooth)
  exited : os.getLast? = some (.exited 0) →
    d.stage = .notRunning ∧ ∀ path, ∃ f, Fixed f (d.files path)

/-- `EnsureMac` has returned `true`. -/
theorem ensured_fixed {before : Path → Option File} {ok : Bool} (hinv : Inv before d)
    (hs : Sound d os) (hp : d.stage = .ensuring path ok)
    (hstep : step (d.files path) call = some q) (hreturned : .returned true ∈ q.2) :
    ∃ f, Fixed f q.1 := by
  have hensures : Ensures path (before path) (d.files path) := by
    simpa [hp, Stage.Current] using hinv.current path (by rw [hp]; rfl)
  obtain ⟨hidle, f, htarget, hf⟩ := valid_of_returned hensures (hs.reads path) hstep hreturned
  exact ⟨f, fixed_of_idle hf htarget hidle⟩

theorem sound_reads {before : Path → Option File} (hinv : Inv before d) (hs : Sound d os)
    (hread : Readable d a) (hmove : main d a = some p) (path : Path) :
    ReadsInFull (p.1.files path) := by
  refine stable_readsInFull.main (hs.reads path) hmove ?_ ?_
  · rintro call q rfl hpath hstep
    exact readsInFull_step (hs.reads path) (hread path hpath) hstep
  · rintro target temporary - hp buffer hthread
    rw [hinv.idle path (by simp [hp, Stage.path])] at hthread
    cases hthread

theorem sound_bluetooth {before : Path → Option File} (hinv : Inv before d) (hs : Sound d os)
    (hmove : main d a = some p) (hnext : p.1.stage = .ensuring .wifi true) :
    ∃ f, Fixed f (p.1.files .bluetooth) := by
  cases main_spec hmove with
  | @ensuring path ok call file events hp hstep =>
      obtain ⟨hidle, rfl, heq⟩ | ⟨-, rfl, heq⟩ | ⟨-, heq⟩ := d.ensured_cases path ok file events <;>
        rw [heq] at hnext ⊢
      · have hreturned : .returned true ∈ events := by simpa [Device.ensure] using hnext
        obtain ⟨f, hf⟩ := ensured_fixed hinv hs hp hstep hreturned
        exact ⟨f, (stable_fixed f).ensure (kept_put_self hf) _ _⟩
      · cases hnext
      · obtain ⟨rfl, rfl⟩ : path = .wifi ∧ ok = true := by
          simpa [Device.put, hp] using hnext
        obtain ⟨f, hf⟩ := hs.bluetooth hp
        exact ⟨f, kept_put hf (fun heq => by cases heq)⟩
  | @checking path call file events hp hstep =>
      obtain ⟨-, heq⟩ | ⟨-, heq⟩ | ⟨-, -, heq⟩ := d.checked_cases path file <;> rw [heq] at hnext
      · cases path <;> cases hnext
      · cases hnext
      · simp [Device.put, hp] at hnext
  | start | kill | fork | forkFails | waitpid => cases hnext
  | helper hp | interrupt hp => simp [Device.put, hp] at hnext

theorem sound_exited {before : Path → Option File} (hinv : Inv before d) (hs : Sound d os)
    (hmove : main d a = some p) (hlast : (os ++ p.2).getLast? = some (.exited 0)) :
    p.1.stage = .notRunning ∧ ∀ path, ∃ f, Fixed f (p.1.files path) := by
  -- a move of which nothing is seen does not end a start
  have hsilent : d.stage ≠ .notRunning → p.2 = [] → p.1.stage = .notRunning ∧
      ∀ path, ∃ f, Fixed f (p.1.files path) := fun hrunning hnil => by
    rw [hnil, List.append_nil] at hlast
    exact absurd (hs.exited hlast).1 hrunning
  cases main_spec hmove with
  | @ensuring path ok call file events hp hstep =>
      obtain ⟨-, rfl, heq⟩ | ⟨-, rfl, heq⟩ | ⟨-, heq⟩ := d.ensured_cases path ok file events
      · rw [heq] at hlast
        simp at hlast
      · rw [heq] at hlast ⊢
        obtain ⟨rfl, hreturned⟩ : ok = true ∧ .returned true ∈ events := by
          simpa using hlast
        obtain ⟨f, hf⟩ := hs.bluetooth hp
        obtain ⟨g, hg⟩ := ensured_fixed hinv hs hp hstep hreturned
        have hbluetooth : Fixed f ((d.put .wifi file).files .bluetooth) :=
          kept_put hf fun heq => by cases heq
        have hwifi : Fixed g ((d.put .wifi file).files .wifi) := kept_put_self hg
        refine ⟨rfl, fun path => ?_⟩
        cases path with
        | bluetooth => exact ⟨f, hbluetooth⟩
        | wifi => exact ⟨g, hwifi⟩
      · exact hsilent (by simp [hp]) (by rw [heq])
  | @checking path call file events hp hstep =>
      obtain ⟨-, heq⟩ | ⟨-, heq⟩ | ⟨-, -, heq⟩ := d.checked_cases path file
      · rw [heq] at hlast
        simp at hlast
      · rw [heq] at hlast
        simp at hlast
      · exact hsilent (by simp [hp]) (by rw [heq])
  | forkFails hp | interrupt hp | waitpid hp => exact hsilent (by simp [hp]) rfl
  | start | kill | fork | helper => simp at hlast

/-- The stages of a start that finds both files valid. -/
def Stage.Smooth : Stage → Prop
  | .notRunning | .checking _ | .ensuring _ true => True
  | _ => False

theorem smooth_main {files : Path → File} (hfixed : ∀ path, Fixed (files path) (d.files path))
    (hstage : d.stage.Smooth) (hread : Readable d a) (hmove : main d a = some p) :
    p.1.stage.Smooth ∧ ∀ e ∈ p.2, e.Smooth := by
  cases main_spec hmove with
  | start | kill => exact ⟨trivial, by simp [Happening.Smooth]⟩
  | @checking path call file events hp hstep =>
      obtain ⟨-, hopening, -⟩ := fixed_step (hfixed path)
        (hread path (by rw [hp]; rfl) (by simp [(hfixed path).found])) hstep
      obtain ⟨-, heq⟩ | ⟨hthread, -⟩ | ⟨-, -, heq⟩ := d.checked_cases path file
      · rw [heq]
        cases path <;> exact ⟨trivial, by simp [Happening.Smooth]⟩
      · exact absurd hthread hopening
      · rw [heq]
        exact ⟨hstage, by simp⟩
  | @ensuring path ok call file events hp hstep =>
      obtain rfl : ok = true := by
        rw [hp] at hstage
        cases ok
        · exact hstage.elim
        · rfl
      obtain ⟨-, -, hreturned⟩ := fixed_step (hfixed path)
        (hread path (by rw [hp]; rfl) (by simp [(hfixed path).found])) hstep
      obtain ⟨hidle, -, heq⟩ | ⟨hidle, -, heq⟩ | ⟨-, heq⟩ :=
        d.ensured_cases path true file events
      · rw [heq, decide_eq_true (hreturned hidle)]
        exact ⟨trivial, by simp [Happening.Smooth]⟩
      · rw [heq, decide_eq_true (hreturned hidle)]
        exact ⟨trivial, by simp [Happening.Smooth]⟩
      · rw [heq]
        exact ⟨hstage, by simp⟩
  | fork hp | forkFails hp | helper hp | interrupt hp | waitpid hp =>
      rw [hp] at hstage
      exact hstage.elim

/-- No call has failed, and none has returned `false`. -/
structure Thriving (d : Device) (os : List Happening) : Prop where
  healthy : ∀ path, Healthy (d.files path).thread
  stage : ∀ path, d.stage ≠ .ensuring path false
  exited : ∀ code, .exited code ∈ os → code = 0

theorem thriving_main (h : Thriving d os) (hcall : Succeeds d a) (hmove : main d a = some p) :
    Thriving p.1 (os ++ p.2) := by
  have hhealthy : ∀ path, Healthy (p.1.files path).thread := fun path => by
    refine stable_healthy.main (h.healthy path) hmove ?_ ?_
    · rintro call q rfl - hstep
      exact (healthy_step (h.healthy path) hcall hstep).1
    · rintro target temporary - -
      exact h.healthy path
  have hsame : (∀ path, p.1.stage ≠ .ensuring path false) → (∀ code, .exited code ∉ p.2) →
      Thriving p.1 (os ++ p.2) := fun hstage hexited =>
    ⟨hhealthy, hstage, fun code hmem => h.exited code <|
      (List.mem_append.1 hmem).resolve_right (hexited code)⟩
  cases main_spec hmove with
  | start | kill | fork => exact hsame (fun _ => Stage.noConfusion) (by simp)
  | forkFails | waitpid => exact hsame (fun _ heq => by cases heq) (by simp)
  | helper | interrupt => exact hsame h.stage (by simp)
  | @checking path call file events hp hstep =>
      obtain ⟨-, heq⟩ | ⟨-, heq⟩ | ⟨-, -, heq⟩ := d.checked_cases path file <;> rw [heq] at hsame ⊢
      · refine hsame (fun other hother => ?_) (by simp)
        cases path <;> cases hother
      · exact hsame (fun _ => Stage.noConfusion) (by simp)
      · exact hsame h.stage (by simp)
  | @ensuring path ok call file events hp hstep =>
      obtain rfl : ok = true := by
        cases ok
        · exact absurd hp (h.stage path)
        · rfl
      have hreturned := (healthy_step (h.healthy path) hcall hstep).2
      obtain ⟨hidle, -, heq⟩ | ⟨hidle, -, heq⟩ | ⟨-, heq⟩ :=
        d.ensured_cases path true file events <;> rw [heq] at hsame hhealthy ⊢
      · rw [decide_eq_true (hreturned hidle)] at hsame ⊢
        exact hsame (fun _ heq => by cases heq) (by simp)
      · refine ⟨hhealthy, fun _ => Stage.noConfusion, fun code hmem => ?_⟩
        rcases List.mem_append.1 hmem with hmem | hmem
        · exact h.exited code hmem
        · simpa [hreturned hidle] using hmem
      · exact hsame h.stage (by simp)

theorem Device.Off.thriving (h : d.Off) : Thriving d [] where
  healthy path := by
    rw [h.idle path]
    trivial
  stage path := by
    rw [h.stage]
    exact Stage.noConfusion
  exited := by simp

theorem Device.Off.sound (h : d.Off) : Sound d [] where
  reads path buffer hthread := by
    rw [h.idle path] at hthread
    cases hthread
  bluetooth heq := by
    rw [h.stage] at heq
    cases heq
  exited := by simp

/-- Whatever has been left by kills: if the calls that generate and store an address succeed,
no start ends with an error. If the files can be read when they are there, then from a start
on that has ended well both files stay as they are, valid, and no later start runs the helper
or has anything to do. -/
theorem run_exits (hoff : d.Off) (hrun : main.run d as = some (t, os)) :
    (main.Meets Succeeds d as → ∀ code, .exited code ∈ os → code = 0) ∧
    (main.Meets Readable d as → os.getLast? = some (.exited 0) →
      ∃ files : Path → File, (∀ path, (files path).HasValidMac) ∧
        ∀ bs u os', main.Meets Readable t bs → main.run t bs = some (u, os') →
          (∀ path, (u.files path).target = some (files path)) ∧ ∀ e ∈ os', e.Smooth) := by
  constructor
  · intro hcalls
    exact (Machine.run_invariant_of_meets (P := fun s os => Thriving s os)
      (fun s os a u o h hcall hmove => thriving_main (p := (u, o)) h hcall hmove)
      hoff.thriving hcalls hrun).exited
  · intro hread hlast
    have hsound : Inv (found d os) t ∧ Sound t os := Machine.run_invariant_of_meets
      (P := fun s os => Inv (found d os) s ∧ Sound s os)
      (fun s os a u o h hG hmove => ⟨inv_found (p := (u, o)) h.1 hmove,
        ⟨sound_reads (p := (u, o)) h.1 h.2 hG hmove,
          sound_bluetooth (p := (u, o)) h.1 h.2 hmove,
          sound_exited (p := (u, o)) h.1 h.2 hmove⟩⟩)
      ⟨hoff.inv, hoff.sound⟩ hread hrun
    obtain ⟨hstage, hfiles⟩ := hsound.2.exited hlast
    choose files hfixed using hfiles
    refine ⟨files, fun path => (hfixed path).valid, fun bs u os' hread' hrun' => ?_⟩
    have hlater : (∀ path, Fixed (files path) (u.files path)) ∧ u.stage.Smooth ∧
        ∀ e ∈ os', e.Smooth := Machine.run_invariant_of_meets
      (P := fun s os => (∀ path, Fixed (files path) (s.files path)) ∧ s.stage.Smooth ∧
        ∀ e ∈ os, e.Smooth)
      (fun s os a v o h hG hmove => by
        obtain ⟨hfixed, hsmooth, hos⟩ := h
        obtain ⟨hnext, ho⟩ := smooth_main (p := (v, o)) hfixed hsmooth hG hmove
        refine ⟨fun path => fixed_main (p := (v, o)) (hfixed path) hG hmove fun e he => ?_,
          hnext, fun e he => (List.mem_append.1 he).elim (hos e) (ho e)⟩
        have hsmooth := ho e he
        cases e <;> first | rfl | exact hsmooth.elim)
      ⟨hfixed, by rw [hstage]; trivial, by simp⟩ hread' hrun'
    exact ⟨fun path => (hlater.1 path).found, hlater.2.2⟩

theorem exits_storing :
    ∃ t os, main.run noFiles (killed ++ storing) = some (t, os) ∧
      (∀ code, .exited code ∈ os → code = 0) ∧
      ∃ files : Path → File, ∀ bs u os', main.Meets Readable t bs →
        main.run t bs = some (u, os') → ∀ path, (u.files path).target = some (files path) := by
  obtain ⟨t, hrun⟩ := run_storing
  obtain ⟨hread, hcalls, -⟩ := meets_storing
  obtain ⟨hcodes, hlater⟩ := run_exits off_noFiles hrun
  obtain ⟨files, -, hfiles⟩ := hlater hread rfl
  exact ⟨t, _, hrun, hcodes hcalls, files, fun bs u os' h h' => (hfiles bs u os' h h').1⟩

end MozartLineage.Macaddr.Main
