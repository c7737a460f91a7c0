import MozartLineage.Macaddr.Mac
import MozartLineage.Transition.Run

/-!
# Keeping a MAC address in a file

`EnsureMac` is satisfied with the file it finds if `HasValidMac` accepts what it reads
there. Otherwise `StoreMac` generates an address, writes it to a temporary file and
renames that to the target. A step is a system call together with what it returns; what
the code computes between two calls belongs to the earlier one.

The model has the target and its `.tmp` file. No other process changes them during a
call. A read may give fewer bytes than there are, and only the calls that make it to
their end change a file.
-/

namespace MozartLineage.Macaddr

open Transition

structure Attributes where
  mode : ℕ
  uid : ℕ
  gid : ℕ
  deriving DecidableEq

structure File where
  content : Text
  attributes : Attributes
  deriving DecidableEq

inductive Errno where
  | eintr
  | enoent
  | other
  deriving DecidableEq

/-- The next system call, with what the code has at hand there. -/
inductive Thread where
  | idle
  | openingTarget
  | readingTarget
  /-- An error of the read counts as no bytes. -/
  | closingTarget (buffer : Text)
  | openingUrandom
  | readingUrandom (address : Text)
  /-- with the six bytes, or without them after an error -/
  | closingUrandom (address : Option Text)
  | removingStale (text : Text)
  | creating (text : Text)
  | changingMode (text : Text)
  | changingOwner (text : Text)
  /-- with what is left to write -/
  | writing (current : Text)
  | syncing
  | closing (success : Bool)
  | renaming
  | cleaning
  deriving DecidableEq

/-- The files, and the owner that the call in progress is to give to the target. -/
structure State where
  target : Option File
  temporary : Option File
  owner : ℕ × ℕ
  thread : Thread
  deriving DecidableEq

inductive Action where
  | ensureMac (uid gid : ℕ)
  | openTarget (ok : Bool)
  | readTarget (count : Except Errno ℕ)
  | closeTarget
  | openUrandom (ok : Bool)
  | readUrandom (bytes : Except Errno Text)
  | closeUrandom
  /-- of the temporary file: the stale one, or the one that has failed -/
  | unlink (result : Except Errno Unit)
  /-- the attributes of the new file, if it could be created -/
  | create (attributes : Option Attributes)
  | fchmod (ok : Bool)
  | fchown (ok : Bool)
  | write (count : Except Errno ℕ)
  | fsync (ok : Bool)
  | close (ok : Bool)
  | rename (ok : Bool)

inductive Event where
  /-- `HasValidMac` accepts the target. -/
  | accepted
  /-- the temporary file is created -/
  | created
  /-- it could not be removed -/
  | unlinkFailed
  /-- `EnsureMac` returns. -/
  | returned (ok : Bool)
  deriving DecidableEq

/-- The size of the buffer of `HasValidMac`. -/
def bufferSize : ℕ := 32

def addressSize : ℕ := 6

/-- The address in the six bytes that were read. -/
def addressOf (bytes : Text) : Address := fun i => bytes.getD i 0

namespace State

def goto (s : State) (thread : Thread) : State × List Event := ({ s with thread := thread }, [])

def returns (s : State) (ok : Bool) : State × List Event :=
  ({ s with thread := .idle }, [.returned ok])

/-- A change of the temporary file through its descriptor. -/
def modify (s : State) (f : File → File) : State := { s with temporary := s.temporary.map f }

end State

def File.chmod (f : File) (mode : ℕ) : File :=
  { f with attributes := { f.attributes with mode := mode } }

def File.chown (f : File) (owner : ℕ × ℕ) : File :=
  { f with attributes := { f.attributes with uid := owner.1, gid := owner.2 } }

def File.append (f : File) (bytes : Text) : File := { f with content := f.content ++ bytes }

/-- The content of the target. -/
def State.text (s : State) : Text := s.target.elim [] File.content

/-- What a read of the target can return: 0 only at the end of the file. -/
def CanRead (s : State) (count : ℕ) : Prop :=
  count ≤ min bufferSize s.text.length ∧ (count = 0 → s.text = [])

instance (s : State) (count : ℕ) : Decidable (CanRead s count) :=
  inferInstanceAs (Decidable (_ ∧ _))

def step : Machine State Action Event
  | s, .ensureMac uid gid =>
      match s.thread with
      | .idle => some ({ s with owner := (uid, gid), thread := .openingTarget }, [])
      | _ => none
  | s, .openTarget ok =>
      match s.thread with
      | .openingTarget =>
          if ok = false then some (s.goto .openingUrandom)
          else if s.target.isSome then some (s.goto .readingTarget)
          else none
      | _ => none
  | s, .readTarget count =>
      match s.thread, count with
      | .readingTarget, .error .eintr => some (s, [])
      | .readingTarget, .error _ => some (s.goto (.closingTarget []))
      | .readingTarget, .ok count =>
          if CanRead s count then some (s.goto (.closingTarget (s.text.take count)))
          else none
      | _, _ => none
  | s, .closeTarget =>
      match s.thread with
      | .closingTarget buffer =>
          if acceptsMac buffer then
            some ({ s with thread := .idle }, [.accepted, .returned true])
          else some (s.goto .openingUrandom)
      | _ => none
  | s, .openUrandom ok =>
      match s.thread with
      | .openingUrandom =>
          if ok then some (s.goto (.readingUrandom [])) else some (s.returns false)
      | _ => none
  | s, .readUrandom bytes =>
      match s.thread, bytes with
      | .readingUrandom _, .error .eintr => some (s, [])
      | .readingUrandom _, .error _ => some (s.goto (.closingUrandom none))
      | .readingUrandom address, .ok bytes =>
          let current := address ++ bytes
          if bytes = [] then some (s.goto (.closingUrandom none))
          else if addressSize < current.length then none
          else if current.length = addressSize then
            some (s.goto (.closingUrandom (some current)))
          else some (s.goto (.readingUrandom current))
      | _, _ => none
  | s, .closeUrandom =>
      match s.thread with
      | .closingUrandom none => some (s.returns false)
      | .closingUrandom (some address) =>
          let text := formatMac (generateMac (addressOf address))
          if text.length ≠ 17 then some (s.returns false)
          else some (s.goto (.removingStale text))
      | _ => none
  | s, .unlink result =>
      match s.thread, result with
      | .removingStale text, .ok _ =>
          if s.temporary.isSome then
            some ({ s with temporary := none, thread := .creating text }, [])
          else none
      | .removingStale text, .error .enoent =>
          if s.temporary.isSome then none else some (s.goto (.creating text))
      | .removingStale _, .error _ => some (s.returns false)
      | .cleaning, .ok _ =>
          if s.temporary.isSome then some ({ s with temporary := none }.returns false)
          else none
      | .cleaning, .error _ =>
          some ({ s with thread := .idle }, [.unlinkFailed, .returned false])
      | _, _ => none
  | s, .create attributes =>
      match s.thread, attributes with
      | .creating _, none => some (s.returns false)
      | .creating text, some attributes =>
          if s.temporary.isSome then none
          else
            some ({ s with
              temporary := some ⟨[], attributes⟩
              thread := .changingMode text }, [.created])
      | _, _ => none
  | s, .fchmod ok =>
      match s.thread with
      | .changingMode text =>
          if ok then some ((s.modify (File.chmod · 0o660)).goto (.changingOwner text))
          else some (s.goto (.closing false))
      | _ => none
  | s, .fchown ok =>
      match s.thread with
      | .changingOwner text =>
          if ok then some ((s.modify (File.chown · s.owner)).goto (.writing text))
          else some (s.goto (.closing false))
      | _ => none
  | s, .write count =>
      match s.thread, count with
      | .writing _, .error .eintr => some (s, [])
      | .writing _, .error _ => some (s.goto (.closing false))
      | .writing current, .ok count =>
          if count = 0 ∨ current.length < count then none
          else
            let s := s.modify (File.append · (current.take count))
            some (s.goto (if count = current.length then .syncing
              else .writing (current.drop count)))
      | _, _ => none
  | s, .fsync ok =>
      match s.thread with
      | .syncing => some (s.goto (.closing ok))
      | _ => none
  | s, .close ok =>
      match s.thread with
      | .closing success => some (s.goto (if success && ok then .renaming else .cleaning))
      | _ => none
  | s, .rename ok =>
      match s.thread with
      | .renaming =>
          if ok then
            some ({ s with target := s.temporary, temporary := none }.returns true)
          else some (s.goto .cleaning)
      | _ => none

/-- The part of `GenerateMac` that the descriptor of `/dev/urandom` is open in. -/
def Thread.OnUrandom : Thread → Prop
  | .readingUrandom _ | .closingUrandom _ => True
  | _ => False

/-- The calls after which the temporary file is given up. -/
def Thread.OnTemporary : Thread → Prop
  | .changingMode _ | .changingOwner _ | .writing _ | .syncing => True
  | _ => False

/-- Everything that a step can be. -/
inductive Step (s : State) : Action → State × List Event → Prop where
  | call {uid gid} (hp : s.thread = .idle) :
      Step s (.ensureMac uid gid)
        ({ s with owner := (uid, gid), thread := .openingTarget }, [])
  | openTarget (hp : s.thread = .openingTarget) :
      Step s (.openTarget true) (s.goto .readingTarget)
  | openTargetFails (hp : s.thread = .openingTarget) :
      Step s (.openTarget false) (s.goto .openingUrandom)
  | interrupt (hp : s.thread = .readingTarget) :
      Step s (.readTarget (.error .eintr)) (s, [])
  | readTarget {count} (hp : s.thread = .readingTarget) (hr : CanRead s count) :
      Step s (.readTarget (.ok count)) (s.goto (.closingTarget (s.text.take count)))
  | readTargetFails {e} (hp : s.thread = .readingTarget) (he : e ≠ .eintr) :
      Step s (.readTarget (.error e)) (s.goto (.closingTarget []))
  | accept {buffer} (hp : s.thread = .closingTarget buffer) (ha : acceptsMac buffer) :
      Step s .closeTarget ({ s with thread := .idle }, [.accepted, .returned true])
  | refuse {buffer} (hp : s.thread = .closingTarget buffer) (ha : ¬ acceptsMac buffer) :
      Step s .closeTarget (s.goto .openingUrandom)
  | openUrandom (hp : s.thread = .openingUrandom) :
      Step s (.openUrandom true) (s.goto (.readingUrandom []))
  | openUrandomFails (hp : s.thread = .openingUrandom) :
      Step s (.openUrandom false) (s.returns false)
  | readUrandom {bytes thread} (hp : s.thread.OnUrandom) (ht : thread.OnUrandom) :
      Step s (.readUrandom bytes) (s.goto thread)
  | generate {address} (hp : s.thread = .closingUrandom (some address)) :
      Step s .closeUrandom
        (s.goto (.removingStale (formatMac (generateMac (addressOf address)))))
  | generateFails (hp : s.thread = .closingUrandom none) :
      Step s .closeUrandom (s.returns false)
  | removeStale {text result} (hp : s.thread = .removingStale text) :
      Step s (.unlink result) ({ s with temporary := none, thread := .creating text }, [])
  | removeStaleFails {text e} (hp : s.thread = .removingStale text) :
      Step s (.unlink (.error e)) (s.returns false)
  | create {text attributes} (hp : s.thread = .creating text) :
      Step s (.create (some attributes))
        ({ s with temporary := some ⟨[], attributes⟩, thread := .changingMode text },
          [.created])
  | createFails {text} (hp : s.thread = .creating text) :
      Step s (.create none) (s.returns false)
  | fchmod {text} (hp : s.thread = .changingMode text) :
      Step s (.fchmod true) ((s.modify (File.chmod · 0o660)).goto (.changingOwner text))
  | fchown {text} (hp : s.thread = .changingOwner text) :
      Step s (.fchown true) ((s.modify (File.chown · s.owner)).goto (.writing text))
  | write {current count} (hp : s.thread = .writing current) :
      Step s (.write (.ok count))
        ((s.modify (File.append · (current.take count))).goto (.writing (current.drop count)))
  | writeAll {current} (hp : s.thread = .writing current) :
      Step s (.write (.ok current.length)) ((s.modify (File.append · current)).goto .syncing)
  | interruptWrite {current} (hp : s.thread = .writing current) :
      Step s (.write (.error .eintr)) (s, [])
  | fsync (hp : s.thread = .syncing) : Step s (.fsync true) (s.goto (.closing true))
  | fail {a} (hp : s.thread.OnTemporary) : Step s a (s.goto (.closing false))
  | close (hp : s.thread = .closing true) : Step s (.close true) (s.goto .renaming)
  | closeFails {success ok} (hp : s.thread = .closing success) :
      Step s (.close ok) (s.goto .cleaning)
  | rename (hp : s.thread = .renaming) :
      Step s (.rename true)
        ({ s with target := s.temporary, temporary := none }.returns true)
  | renameFails (hp : s.thread = .renaming) : Step s (.rename false) (s.goto .cleaning)
  | clean (hp : s.thread = .cleaning) :
      Step s (.unlink (.ok ())) ({ s with temporary := none }.returns false)
  | cleanFails {e} (hp : s.thread = .cleaning) :
      Step s (.unlink (.error e)) ({ s with thread := .idle }, [.unlinkFailed, .returned false])

@[simp] theorem State.snd_goto (s : State) (thread : Thread) : (s.goto thread).2 = [] := rfl

theorem goto_thread {s : State} {thread : Thread} (hp : s.thread = thread) :
    s.goto thread = (s, []) := by
  subst hp
  rfl

theorem step_spec {s : State} {a : Action} {p : State × List Event}
    (h : step s a = some p) : Step s a p := by
  cases a with
  | ensureMac uid gid =>
      simp only [step] at h
      split at h <;> cases h
      exact .call ‹_›
  | openTarget ok =>
      simp only [step] at h
      split at h
      · cases ok
        · cases h
          exact .openTargetFails ‹_›
        · simp only [Bool.true_eq_false, if_false] at h
          split at h <;> cases h
          exact .openTarget ‹_›
      · cases h
  | readTarget count =>
      simp only [step] at h
      split at h
      · cases h
        exact .interrupt ‹_›
      · rename_i e he hp
        cases h
        exact .readTargetFails hp (by rintro rfl; exact he rfl)
      · split at h <;> cases h
        exact .readTarget ‹_› ‹_›
      · cases h
  | closeTarget =>
      simp only [step] at h
      split at h
      · split at h <;> cases h
        · exact .accept ‹_› ‹_›
        · exact .refuse ‹_› ‹_›
      · cases h
  | openUrandom ok =>
      simp only [step] at h
      split at h
      · cases ok <;> cases h
        · exact .openUrandomFails ‹_›
        · exact .openUrandom ‹_›
      · cases h
  | readUrandom bytes =>
      simp only [step] at h
      split at h
      · rename_i address _ hp
        cases h
        have hthread : s.thread.OnUrandom := by rw [hp]; trivial
        simpa [goto_thread rfl] using Step.readUrandom hthread hthread
      · rename_i hp
        cases h
        exact .readUrandom (by rw [hp]; trivial) trivial
      · rename_i hp
        have hthread : s.thread.OnUrandom := by rw [hp]; trivial
        split_ifs at h <;> cases h
        · exact .readUrandom hthread trivial
        · exact .readUrandom hthread trivial
        · exact .readUrandom hthread trivial
      · cases h
  | closeUrandom =>
      simp only [step, length_formatMac, ne_eq, not_true_eq_false, if_false] at h
      split at h <;> cases h
      · exact .generateFails ‹_›
      · exact .generate ‹_›
  | unlink result =>
      simp only [step] at h
      split at h
      · split at h <;> cases h
        exact .removeStale ‹_›
      · rename_i text hp
        split at h
        · cases h
        · rename_i hnone
          cases h
          have hgoto : s.goto (.creating text) =
              ({ s with temporary := none, thread := .creating text }, []) := by
            rw [State.goto, Option.not_isSome_iff_eq_none.1 hnone]
          rw [hgoto]
          exact .removeStale hp
      · cases h
        exact .removeStaleFails ‹_›
      · split at h <;> cases h
        exact .clean ‹_›
      · cases h
        exact .cleanFails ‹_›
      · cases h
  | create attributes =>
      simp only [step] at h
      split at h
      · cases h
        exact .createFails ‹_›
      · split at h <;> cases h
        exact .create ‹_›
      · cases h
  | fchmod ok =>
      simp only [step] at h
      split at h
      · cases ok <;> cases h
        · exact .fail (by rw [‹s.thread = _›]; trivial)
        · exact .fchmod ‹_›
      · cases h
  | fchown ok =>
      simp only [step] at h
      split at h
      · cases ok <;> cases h
        · exact .fail (by rw [‹s.thread = _›]; trivial)
        · exact .fchown ‹_›
      · cases h
  | write count =>
      simp only [step] at h
      split at h
      · cases h
        exact .interruptWrite ‹_›
      · cases h
        exact .fail (by rw [‹s.thread = _›]; trivial)
      · rename_i current count hp
        split at h
        · cases h
        · cases h
          by_cases hcount : count = current.length
          · subst hcount
            simpa using Step.writeAll hp
          · simpa [hcount] using Step.write hp
      · cases h
  | fsync ok =>
      simp only [step] at h
      split at h
      · cases ok <;> cases h
        · exact .fail (by rw [‹s.thread = _›]; trivial)
        · exact .fsync ‹_›
      · cases h
  | close ok =>
      simp only [step] at h
      split at h
      · rename_i success hp
        cases h
        cases success
        · exact .closeFails hp
        · cases ok
          · exact .closeFails hp
          · exact .close hp
      · cases h
  | rename ok =>
      simp only [step] at h
      split at h
      · cases ok <;> cases h
        · exact .renameFails ‹_›
        · exact .rename ‹_›
      · cases h

end MozartLineage.Macaddr
