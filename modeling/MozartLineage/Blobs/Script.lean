import MozartLineage.Blobs.ManifestLine
import MozartLineage.Storage.FileTree
import MozartLineage.Transition.Run
import Mathlib.Tactic.Common
import Mathlib.Tactic.SplitIfs

/-!
# The script on the text of a manifest

`extractLine` is the body of the loop on a line as it is read, with the paths as texts. The
commands that it calls are a parameter. Once the script has stopped nothing happens any
more, and the state says why; no way to stop has the exit status 0.

A line that says nothing to check is copied without a check, also in the strict mode. So
every copy has the digests of its fields if and only if the fields agree with what is read.
-/

namespace MozartLineage.Blobs

open Transition FileTree

/-- The tests and the commands, with `F` for what the file system holds. `read` is the
content of a regular file, `sha1sum` the first column that is printed; a command that fails
gives nothing. -/
structure Commands (F β : Type*) where
  isDir : F → Text → Bool
  read : F → Text → Option β
  sha1 : β → Text
  sha1sum : F → Text → Option Text
  install : F → Text → Text → Option F

/-- The digest is printed, with a backslash in front if the name is escaped, and a copy that
succeeds leaves its source as it was. -/
structure Commands.IsLawful {F β : Type*} (cmds : Commands F β) : Prop where
  isDigest_sha1 : ∀ content, IsDigest (cmds.sha1 content)
  sha1sum_eq : ∀ {fs path content printed}, cmds.read fs path = some content →
    cmds.sha1sum fs path = some printed →
      printed = cmds.sha1 content ∨ printed = '\\' :: cmds.sha1 content
  read_install : ∀ {fs src dst fs'}, cmds.install fs src dst = some fs' →
    cmds.read fs' src = cmds.read fs src

/-- The arguments, the directory of the script and the mode. -/
structure Arguments where
  patchRoot : Text
  androidTop : Text
  sourceRoot : Text
  strictSha1 : Text

namespace Arguments

variable (args : Arguments)

def cacheRoot : Text := args.patchRoot ++ "/proprietary-blobs/huawei/mozart".toList

def vendorProprietary : Text :=
  args.androidTop ++ "/vendor/huawei/mozart/proprietary".toList

def devicePrefix : Text := "@device/".toList

/-- `dst` -/
def destination (line : Text) : Text :=
  if devicePrefix <+: relOf line then
    args.androidTop ++ "/device/huawei/mozart/".toList ++
      (relOf line).drop devicePrefix.length
  else args.vendorProprietary ++ "/".toList ++ relOf line

/-- `cache` -/
def cached (line : Text) : Text :=
  if devicePrefix <+: relOf line then
    args.cacheRoot ++ "/system/".toList ++ sourceRelOf line
  else args.cacheRoot ++ "/proprietary/".toList ++ relOf line

def candidatesOf (rel : Text) : List Text :=
  [args.sourceRoot ++ "/proprietary/".toList ++ rel, args.sourceRoot ++ "/system/".toList ++ rel,
    args.sourceRoot ++ "/".toList ++ rel]

end Arguments

/-- Why the script has stopped early. -/
inductive Stop where
  | noCheckout
  | missing
  | mismatch
  | commandFailed
  deriving DecidableEq

def Stop.status : Stop → ℕ
  | .noCheckout => 2
  | .missing => 3
  | .mismatch => 4
  | .commandFailed => 1

theorem Stop.status_ne_zero (why : Stop) : why.status ≠ 0 := by
  cases why <;> decide

structure Shell (F : Type*) where
  fs : F
  copied : ℕ
  stopped : Option Stop

def Shell.stop {F : Type*} (s : Shell F) (why : Stop) : Shell F := { s with stopped := some why }

/-- What is printed, and what is installed for a line. -/
inductive ScriptEvent (β : Type*) where
  | message (text : Text)
  | installed (line dst : Text) (content : β)
  deriving DecidableEq

/-- The comparison with what a line says. -/
inductive Comparison where
  | passed
  | mismatch (actual : Text)
  | failed
  deriving DecidableEq

section Script

variable {F β : Type*} (cmds : Commands F β) (args : Arguments)

def findBlobOf (fs : F) (rel : Text) : Option Text :=
  (args.candidatesOf rel).find? fun candidate => (cmds.read fs candidate).isSome

/-- Without digits to compare with, nothing is compared. -/
def compareSha1 (fs : F) (src line : Text) : Comparison :=
  if expectedSha1Of line = [] then .passed
  else
    match cmds.sha1sum fs src with
    | none => .failed
    | some actual => if actual ≠ expectedSha1Of line then .mismatch actual else .passed

def mismatchMessage (line actual : Text) : Text :=
  "sha1 mismatch for ".toList ++ relOf line ++ ": expected ".toList ++ expectedSha1Of line ++
    ", got ".toList ++ actual

/-- One copy, with the content that is copied. -/
def Commands.copy (fs : F) (src dst : Text) : Option (F × β) :=
  (cmds.read fs src).bind fun content =>
    (cmds.install fs src dst).map fun fs' => (fs', content)

/-- Both copies for a line; the second one is left out if the file is in the cache. -/
def copyBlob (s : Shell F) (line src : Text) : Shell F × List (ScriptEvent β) :=
  let copiedMessage := .message ("copy: ".toList ++ relOf line)
  match cmds.copy s.fs src (args.destination line) with
  | none => (s.stop .commandFailed, [])
  | some (fs, content) =>
      let e := .installed line (args.destination line) content
      let s := { s with fs }
      if src = args.cached line then
        ({ s with copied := s.copied + 1 }, [e, copiedMessage])
      else
        match cmds.copy fs src (args.cached line) with
        | none => (s.stop .commandFailed, [e])
        | some (fs, content) =>
            ({ s with fs, copied := s.copied + 1 },
              [e, .installed line (args.cached line) content, copiedMessage])

/-- What follows when the file of a line has been found. -/
def checkAndCopy (s : Shell F) (line src : Text) : Shell F × List (ScriptEvent β) :=
  match compareSha1 cmds s.fs src line with
  | .failed => (s.stop .commandFailed, [])
  | .mismatch actual =>
      if args.strictSha1 = "1".toList then
        (s.stop .mismatch, [.message ("error: ".toList ++ mismatchMessage line actual)])
      else
        let p := copyBlob cmds args s line src
        (p.1, .message ("warning: ".toList ++ mismatchMessage line actual) :: p.2)
  | .passed => copyBlob cmds args s line src

def extractLine : Machine (Shell F) Text (ScriptEvent β) := fun s rawLine =>
  let line := lineOf rawLine
  if s.stopped.isSome ∨ line = [] then some (s, [])
  else
    match findBlobOf cmds args s.fs (sourceRelOf line) with
    | none =>
        some (s.stop .missing, [.message ("error: missing proprietary blob: ".toList ++
          sourceRelOf line ++ " (for ".toList ++ relOf line ++ ")".toList)])
    | some src => some (checkAndCopy cmds args s line src)

/-- The script up to the loop. -/
def start (fs : F) : Shell F × List (ScriptEvent β) :=
  let s : Shell F := ⟨fs, 0, none⟩
  if ¬ cmds.isDir fs (args.androidTop ++ "/.repo".toList) then
    (s.stop .noCheckout, [.message ("error: ".toList ++ args.androidTop ++
      " does not look like an Android repo checkout".toList)])
  else if ¬ cmds.isDir fs (args.androidTop ++ "/vendor/huawei/mozart".toList) then
    (s.stop .noCheckout, [.message ("error: missing vendor/huawei/mozart in ".toList ++
      args.androidTop)])
  else if ¬ cmds.isDir fs args.sourceRoot then
    (s.stop .missing, [.message ("error: proprietary blob source is missing: ".toList ++
        args.sourceRoot),
      .message ("pass a stock /system extraction as the second argument, ".toList ++
        "or place files under:".toList),
      .message ("  ".toList ++ args.cacheRoot ++ "/proprietary".toList)])
  else (s, [])

/-- The script with the text of the manifest. -/
def extractText (text : Text) (fs : F) : Option (Shell F × List (ScriptEvent β)) :=
  let p := start cmds args fs
  ((extractLine cmds args).run p.1 (readLines text)).map fun q =>
    (q.1, p.2 ++ q.2 ++ if q.1.stopped.isSome then [] else
      [.message ("copied ".toList ++ (toString q.1.copied).toList ++
        " proprietary blobs".toList)])

end Script

/-- The commands go well for a line whose file is found in the state: it passes, and is
copied to its destination. -/
structure Copies {F β : Type*} (cmds : Commands F β) (args : Arguments) (s : Shell F)
    (line src : Text) (content : β) : Prop where
  running : s.stopped = none
  line_ne : line ≠ []
  found : findBlobOf cmds args s.fs (sourceRelOf line) = some src
  read_eq : cmds.read s.fs src = some content
  passed : compareSha1 cmds s.fs src line = .passed
  installs : (cmds.install s.fs src (args.destination line)).isSome

section Steps

variable {F β : Type*} {cmds : Commands F β} {args : Arguments} {s s' : Shell F}
  {rawLine line line' src dst : Text} {content : β} {es : List (ScriptEvent β)}

theorem copy_eq_some {fs fs' : F} :
    cmds.copy fs src dst = some (fs', content) ↔
      cmds.read fs src = some content ∧ cmds.install fs src dst = some fs' := by
  simp only [Commands.copy, Option.bind_eq_some_iff, Option.map_eq_some_iff, Prod.mk.injEq]
  constructor
  · rintro ⟨content, hread, fs', hinstall, rfl, rfl⟩
    exact ⟨hread, hinstall⟩
  · rintro ⟨hread, hinstall⟩
    exact ⟨content, hread, fs', hinstall, rfl, rfl⟩

/-- Nothing is installed when the first copy fails. Otherwise it is, and what follows is at
most the copy into the cache. -/
theorem copyBlob_cases (cmds : Commands F β) (args : Arguments) (s : Shell F)
    (line src : Text) :
    (cmds.copy s.fs src (args.destination line) = none ∧
        copyBlob cmds args s line src = (s.stop .commandFailed, [])) ∨
      ∃ fs content os, cmds.copy s.fs src (args.destination line) = some (fs, content) ∧
        (copyBlob cmds args s line src).2 =
          .installed line (args.destination line) content :: os ∧
        ∀ line' dst content', .installed line' dst content' ∈ os →
          line' = line ∧ ∃ fs', cmds.copy fs src dst = some (fs', content') := by
  unfold copyBlob
  dsimp only
  split
  case h_1 hcopy => exact Or.inl ⟨hcopy, rfl⟩
  case h_2 fs content hcopy =>
    refine Or.inr ⟨fs, content, ?_⟩
    split_ifs
    · exact ⟨_, hcopy, rfl, by simp⟩
    · split
      case h_1 => exact ⟨_, hcopy, rfl, by simp⟩
      case h_2 fs' content' hcopy' =>
        refine ⟨_, hcopy, rfl, fun line' dst c hmem => ?_⟩
        simp only [List.mem_cons, ScriptEvent.installed.injEq, reduceCtorEq, List.not_mem_nil,
          or_false] at hmem
        obtain ⟨rfl, rfl, rfl⟩ := hmem
        exact ⟨rfl, fs', hcopy'⟩

/-- The first copy, when it goes well. -/
theorem installed_mem_copyBlob (hread : cmds.read s.fs src = some content)
    (hinstall : (cmds.install s.fs src (args.destination line)).isSome) :
    .installed line (args.destination line) content ∈ (copyBlob cmds args s line src).2 := by
  obtain ⟨fs, hfs⟩ := Option.isSome_iff_exists.1 hinstall
  have hcopy := copy_eq_some.2 ⟨hread, hfs⟩
  rcases copyBlob_cases cmds args s line src with ⟨hnone, -⟩ | ⟨fs', content', os, hcopy', hes, -⟩
  · simp [hcopy] at hnone
  · rw [hcopy] at hcopy'
    cases hcopy'
    rw [hes]
    exact List.mem_cons_self

/-- If nothing is installed the script has stopped. -/
theorem stopped_copyBlob :
    (∃ content, .installed line (args.destination line) content ∈
        (copyBlob cmds args s line src).2) ∨
      (copyBlob cmds args s line src).1.stopped = some .commandFailed := by
  rcases copyBlob_cases cmds args s line src with ⟨-, heq⟩ | ⟨fs, content, os, -, hes, -⟩
  · right
    rw [heq]
    rfl
  · left
    rw [hes]
    exact ⟨content, List.mem_cons_self⟩

section Lawful

variable (hcmds : cmds.IsLawful)

include hcmds

/-- Both copies are of the file that was found. -/
theorem of_mem_copyBlob (h : .installed line' dst content ∈ (copyBlob cmds args s line src).2) :
    line' = line ∧ cmds.read s.fs src = some content ∧
      (cmds.install s.fs src (args.destination line)).isSome := by
  rcases copyBlob_cases cmds args s line src with ⟨-, heq⟩ | ⟨fs, c, os, hcopy, hes, hrest⟩
  · rw [heq] at h
    cases h
  · obtain ⟨hread, hinstall⟩ := copy_eq_some.1 hcopy
    have hsome := Option.isSome_of_eq_some hinstall
    rw [hes] at h
    rcases List.mem_cons.1 h with hfirst | hsecond
    · cases hfirst
      exact ⟨rfl, hread, hsome⟩
    · obtain ⟨rfl, fs', hcopy'⟩ := hrest _ _ _ hsecond
      have hread' := (copy_eq_some.1 hcopy').1
      rw [hcmds.read_install hinstall] at hread'
      exact ⟨rfl, hread', hsome⟩

/-- A file that passes has the digest that is read off the line, if one is. -/
theorem sha1_of_passed {fs : F} (hread : cmds.read fs src = some content)
    (h : compareSha1 cmds fs src line = .passed) {digits : Text}
    (hdigits : sha1Digits line = some digits) : cmds.sha1 content = lower digits := by
  have hexpected : expectedSha1Of line = lower digits := by simp [expectedSha1Of, hdigits]
  have hne : expectedSha1Of line ≠ [] := by simp [expectedSha1Of_eq_nil, hdigits]
  unfold compareSha1 at h
  rw [if_neg hne] at h
  split at h
  case h_1 => cases h
  case h_2 actual hactual =>
    split_ifs at h with hne'
    rw [not_not] at hne'
    rw [← hexpected, ← hne']
    rcases hcmds.sha1sum_eq hread hactual with heq | heq
    · exact heq.symm
    · -- no digit is a backslash
      have hmem : '\\' ∈ expectedSha1Of line := by simp [← hne', heq]
      exact absurd (isHexDigit_of_mem_expectedSha1Of hmem) (by decide)

theorem Copies.agrees_iff (h : Copies cmds args s line src content) :
    Agrees line (cmds.sha1 content) ↔
      ∀ rest, HasSha1 line rest → lower (cmds.sha1 content) = lower rest :=
  Blobs.agrees_iff (hcmds.isDigest_sha1 content) fun _ hdigits =>
    sha1_of_passed hcmds h.read_eq h.passed hdigits

end Lawful

section Strict

variable (hstrict : args.strictSha1 = "1".toList)

include hstrict

theorem stopped_checkAndCopy :
    (∃ dst content, .installed line dst content ∈ (checkAndCopy cmds args s line src).2) ∨
      ∃ why, (checkAndCopy cmds args s line src).1.stopped = some why := by
  unfold checkAndCopy
  split
  · exact Or.inr ⟨_, rfl⟩
  · rw [if_pos hstrict]
    exact Or.inr ⟨_, rfl⟩
  · exact stopped_copyBlob.imp (fun ⟨content, h⟩ => ⟨_, content, h⟩) fun h => ⟨_, h⟩

/-- In the strict mode what is installed has passed. -/
theorem passed_of_mem_checkAndCopy
    (h : .installed line' dst content ∈ (checkAndCopy cmds args s line src).2) :
    compareSha1 cmds s.fs src line = .passed ∧
      .installed line' dst content ∈ (copyBlob cmds args s line src).2 := by
  unfold checkAndCopy at h
  split at h
  case h_1 => simp at h
  case h_2 => simp [hstrict] at h
  case h_3 hpassed => exact ⟨hpassed, h⟩

end Strict

/-- What the body of the loop does with a line. -/
theorem extractLine_cases (h : extractLine cmds args s rawLine = some (s', es)) :
    ((s.stopped.isSome ∨ lineOf rawLine = []) ∧ s' = s ∧ es = []) ∨
      (s.stopped = none ∧ lineOf rawLine ≠ [] ∧
        ((findBlobOf cmds args s.fs (sourceRelOf (lineOf rawLine)) = none ∧
            s'.stopped = some .missing ∧ ∃ text, es = [.message text]) ∨
          ∃ src, findBlobOf cmds args s.fs (sourceRelOf (lineOf rawLine)) = some src ∧
            checkAndCopy cmds args s (lineOf rawLine) src = (s', es))) := by
  unfold extractLine at h
  dsimp only at h
  split_ifs at h with hidle
  · cases h
    exact Or.inl ⟨hidle, rfl, rfl⟩
  · obtain ⟨hstopped, hne⟩ := not_or.1 hidle
    refine Or.inr ⟨by simpa using hstopped, hne, ?_⟩
    split at h
    case h_1 hnone =>
      cases h
      exact Or.inl ⟨hnone, rfl, _, rfl⟩
    case h_2 src hfound => exact Or.inr ⟨src, hfound, Option.some.inj h⟩

theorem extractLine_isSome (cmds : Commands F β) (args : Arguments) (s : Shell F)
    (rawLine : Text) : (extractLine cmds args s rawLine).isSome := by
  unfold extractLine
  dsimp only
  split_ifs
  · rfl
  · split <;> rfl

/-- A line whose file passes and can be copied has it installed. -/
theorem Copies.installed_mem (hc : Copies cmds args s (lineOf rawLine) src content)
    (h : extractLine cmds args s rawLine = some (s', es)) :
    .installed (lineOf rawLine) (args.destination (lineOf rawLine)) content ∈ es := by
  rcases extractLine_cases h with ⟨hidle, -, -⟩ | ⟨-, -, ⟨hnone, -⟩ | ⟨src', hfound, hp⟩⟩
  · rcases hidle with hstopped | hnil
    · simp [hc.running] at hstopped
    · exact (hc.line_ne hnil).elim
  · simp [hc.found] at hnone
  · obtain rfl : src = src' := Option.some.inj (hc.found.symm.trans hfound)
    have hcopy : (copyBlob cmds args s (lineOf rawLine) src).2 = es := by
      unfold checkAndCopy at hp
      rw [hc.passed] at hp
      exact congrArg Prod.snd hp
    rw [← hcopy]
    exact installed_mem_copyBlob hc.read_eq hc.installs

section Lawful

variable (hcmds : cmds.IsLawful) (hstrict : args.strictSha1 = "1".toList)

include hcmds hstrict

/-- What is installed is the file of the line. -/
theorem copies_of_mem (h : extractLine cmds args s rawLine = some (s', es))
    (hmem : .installed line dst content ∈ es) :
    line = lineOf rawLine ∧ ∃ src, Copies cmds args s (lineOf rawLine) src content := by
  rcases extractLine_cases h with
    ⟨-, -, rfl⟩ | ⟨hrunning, hne, ⟨-, -, text, rfl⟩ | ⟨src, hfound, hp⟩⟩
  · simp at hmem
  · simp at hmem
  · have hes : (checkAndCopy cmds args s (lineOf rawLine) src).2 = es := congrArg Prod.snd hp
    rw [← hes] at hmem
    obtain ⟨hpassed, hmem⟩ := passed_of_mem_checkAndCopy hstrict hmem
    obtain ⟨rfl, hread, hinstalls⟩ := of_mem_copyBlob hcmds hmem
    exact ⟨rfl, src, hrunning, hne, hfound, hread, hpassed, hinstalls⟩

end Lawful

/-- A line that has a field is installed, unless the script has stopped. -/
theorem installed_or_stopped (hstrict : args.strictSha1 = "1".toList)
    (h : extractLine cmds args s rawLine = some (s', es)) (hne : lineOf rawLine ≠ []) :
    (∃ dst content, .installed (lineOf rawLine) dst content ∈ es) ∨
      ∃ why, s'.stopped = some why ∧ why.status ≠ 0 := by
  rcases extractLine_cases h with
    ⟨hidle, rfl, -⟩ | ⟨-, -, ⟨-, hmissing, -⟩ | ⟨src, -, hp⟩⟩
  · rcases hidle with hstopped | hnil
    · obtain ⟨why, hwhy⟩ := Option.isSome_iff_exists.1 hstopped
      exact Or.inr ⟨why, hwhy, why.status_ne_zero⟩
    · exact (hne hnil).elim
  · exact Or.inr ⟨_, hmissing, Stop.status_ne_zero _⟩
  · have hstep : (∃ dst content, .installed (lineOf rawLine) dst content ∈
        (checkAndCopy cmds args s (lineOf rawLine) src).2) ∨
          ∃ why, (checkAndCopy cmds args s (lineOf rawLine) src).1.stopped = some why :=
      stopped_checkAndCopy hstrict
    rw [hp] at hstep
    exact hstep.imp_right fun ⟨why, hwhy⟩ => ⟨why, hwhy, why.status_ne_zero⟩

end Steps

/-! ### The whole script -/

section Runs

variable {F β : Type*} (cmds : Commands F β) (args : Arguments)

/-- What is installed has the digest that every field of its line says, in any case. -/
def Verified : ScriptEvent β → Prop
  | .message _ => True
  | .installed line _ content =>
      ∀ rest, HasSha1 line rest → lower (cmds.sha1 content) = lower rest

/-- Whatever is installed is verified; and a line with a field is installed when it is its
turn, or the script has stopped with an error. -/
structure Secure (text : Text) (fs : F) : Prop where
  verified : ∃ s es, extractText cmds args text fs = some (s, es) ∧
    ∀ e ∈ es, Verified cmds e
  stops : (extractLine cmds args).Meets (fun s rawLine =>
    (∃ rest, HasSha1 (lineOf rawLine) rest) → ∀ s' es,
      extractLine cmds args s rawLine = some (s', es) →
        (∃ dst content, .installed (lineOf rawLine) dst content ∈ es) ∨
          ∃ why, s'.stopped = some why ∧ why.status ≠ 0) (start cmds args fs).1 (readLines text)

/-- If the file of the line would be copied, the fields of the line agree. -/
def FieldsAgree (s : Shell F) (rawLine : Text) : Prop :=
  ∀ src content, Copies cmds args s (lineOf rawLine) src content →
    Agrees (lineOf rawLine) (cmds.sha1 content)

theorem run_isSome (s : Shell F) (lines : List Text) :
    ((extractLine cmds args).run s lines).isSome :=
  Machine.run_isSome (extractLine_isSome cmds args) s lines

variable {cmds args} {text : Text} {fs : F} {s : Shell F} {es : List (ScriptEvent β)}

theorem line_ne_nil_of_hasSha1 {line rest : Text} (h : HasSha1 line rest) : line ≠ [] := by
  rintro rfl
  simp [HasSha1, sha1Key] at h

/-- Where the fields agree, what is installed is verified. -/
theorem verified_of_mem {s' : Shell F} {rawLine : Text} {e : ScriptEvent β}
    (hcmds : cmds.IsLawful) (hstrict : args.strictSha1 = "1".toList)
    (hagree : FieldsAgree cmds args s rawLine)
    (hstep : extractLine cmds args s rawLine = some (s', es)) (he : e ∈ es) :
    Verified cmds e := by
  cases e with
  | message text => trivial
  | installed line dst content =>
      obtain ⟨rfl, src, hc⟩ := copies_of_mem hcmds hstrict hstep he
      exact (hc.agrees_iff hcmds).1 (hagree src content hc)

/-- The script installs what the loop does. -/
theorem installed_mem_extractText {line dst : Text} {content : β} {t : Shell F}
    {os : List (ScriptEvent β)}
    (hrun : (extractLine cmds args).run (start cmds args fs).1 (readLines text) = some (t, os))
    (h : extractText cmds args text fs = some (s, es)) :
    .installed line dst content ∈ es ↔ .installed line dst content ∈ os := by
  have hstart : .installed line dst content ∉ (start cmds args fs).2 := by
    unfold start
    dsimp only
    split_ifs <;> simp
  simp only [extractText, hrun, Option.map_some, Option.some.injEq, Prod.mk.injEq] at h
  rw [← h.2, List.mem_append, List.mem_append]
  constructor
  · rintro ((hmem | hmem) | hmem)
    · exact (hstart hmem).elim
    · exact hmem
    · split_ifs at hmem <;> simp at hmem
  · intro hmem
    exact Or.inl (Or.inr hmem)

/-- What a line of a run installs is in the log of the run. -/
theorem mem_of_run {start t s' : Shell F} {pre post : List Text} {rawLine : Text}
    {o os os' : List (ScriptEvent β)} {e : ScriptEvent β}
    (hrun : (extractLine cmds args).run start (pre ++ rawLine :: post) = some (s, os))
    (hpre : (extractLine cmds args).run start pre = some (t, o))
    (hstep : extractLine cmds args t rawLine = some (s', os')) (he : e ∈ os') : e ∈ os := by
  obtain ⟨u, o₁, o₂, hu, hrest, rfl⟩ := Machine.run_append_eq_some.1 hrun
  rw [hpre] at hu
  cases hu
  obtain ⟨u, o₃, o₄, hu, -, rfl⟩ := Machine.run_cons_eq_some.1 hrest
  rw [hstep] at hu
  cases hu
  simp [he]

/-- In the strict mode no unverified file is installed if and only if the fields agree for
every line whose file would be copied, in the state in which it is the line's turn. -/
theorem secure_iff (hcmds : cmds.IsLawful) (hstrict : args.strictSha1 = "1".toList) :
    Secure cmds args text fs ↔
      (extractLine cmds args).Meets (FieldsAgree cmds args) (start cmds args fs).1
        (readLines text) := by
  obtain ⟨⟨t, os⟩, hrun⟩ := Option.isSome_iff_exists.1
    (run_isSome cmds args (start cmds args fs).1 (readLines text))
  obtain ⟨s, es, h⟩ : ∃ s es, extractText cmds args text fs = some (s, es) := by
    simp [extractText, hrun]
  constructor
  · rintro ⟨⟨s', es', h', hverified⟩, -⟩
    rw [h] at h'
    cases h'
    refine Machine.meets_iff_forall.2 fun pre rawLine post u o hsplit hpre src content hc => ?_
    obtain ⟨⟨u', os'⟩, hstep⟩ := Option.isSome_iff_exists.1
      (extractLine_isSome cmds args u rawLine)
    have hmem := mem_of_run (hsplit ▸ hrun) hpre hstep (hc.installed_mem hstep)
    rw [hc.agrees_iff hcmds]
    exact hverified _ ((installed_mem_extractText hrun h).2 hmem)
  · intro hagree
    have hevent := Machine.run_events_of_meets (P := fun _ _ => True)
      (Q := fun _ e => Verified cmds e) (fun _ _ _ _ _ _ _ => trivial)
      (fun u _ rawLine p _ hu hstep o₁ e o₂ hsplit =>
        verified_of_mem hcmds hstrict hu hstep (by simp [hsplit] : e ∈ p.2))
      trivial hagree hrun
    refine ⟨⟨s, es, h, fun e he => ?_⟩, ?_⟩
    · cases e with
      | message text => trivial
      | installed line dst content =>
          obtain ⟨pre, post, hsplit⟩ :=
            List.append_of_mem ((installed_mem_extractText hrun h).1 he)
          exact hevent pre _ post hsplit
    · refine Machine.meets_of_forall (fun rawLine _ u hhas s' es' hstep => ?_) _
      obtain ⟨rest, hrest⟩ := hhas
      exact installed_or_stopped hstrict hstep (line_ne_nil_of_hasSha1 hrest)

/-- On a manifest whose lines agree with any digest the script is secure on every tree. -/
theorem meets_fieldsAgree (h : ∀ rawLine ∈ readLines text, lineOf rawLine ≠ [] →
    ∀ digest, Agrees (lineOf rawLine) digest) :
    (extractLine cmds args).Meets (FieldsAgree cmds args) (start cmds args fs).1
      (readLines text) :=
  Machine.meets_of_forall (fun rawLine hline _ _ _ hc => h rawLine hline hc.line_ne _) _

end Runs

/-! ### Two manifests for one file -/

def pathOf (path : Text) : Path := (path.splitOn '/').map String.ofList

/-- The commands on a file tree. To copy a file over itself is an error. -/
def treeCommands {β : Type*} (sha1 : β → Text) : Commands (Files β) β where
  isDir fs path := FileTree.isDir fs (pathOf path)
  read fs path := FileTree.read fs (pathOf path)
  sha1 := sha1
  sha1sum fs path := (FileTree.read fs (pathOf path)).map fun content =>
    if '\\' ∈ path then '\\' :: sha1 content else sha1 content
  install fs src dst :=
    let base := (pathOf src).getLastD ""
    if target fs base (pathOf dst) = pathOf src then none
    else
      (FileTree.read fs (pathOf src)).bind fun content =>
        FileTree.install fs base (pathOf dst) content

theorem treeCommands_isLawful {β : Type*} {sha1 : β → Text}
    (h : ∀ content, IsDigest (sha1 content)) : (treeCommands sha1).IsLawful where
  isDigest_sha1 := h
  sha1sum_eq := by
    intro fs path content printed hread hprinted
    simp only [treeCommands] at hread hprinted
    rw [hread, Option.map_some, Option.some.injEq] at hprinted
    split_ifs at hprinted with hpath
    · exact Or.inr hprinted.symm
    · exact Or.inl hprinted.symm
  read_install := by
    intro fs src dst fs' h
    simp only [treeCommands] at h ⊢
    split_ifs at h with hne
    obtain ⟨content, -, hinstall⟩ := Option.bind_eq_some_iff.1 h
    obtain ⟨-, rfl⟩ := install_eq_some.1 hinstall
    rw [read_write, if_neg (Ne.symm hne)]

def teecdDigest : Text := "51cc036a9faffd10c3b05a42f09583672bac4aa1".toList

/-- The digests of the stock file, of a changed one, and of no bytes. -/
def digestOf (content : Text) : Text :=
  if content = "teecd".toList then teecdDigest
  else if content = "patched".toList then "cea8b75f1ccb56cf8d11f004254622abb8cbcdb2".toList
  else "da39a3ee5e6b4b0d3255bfef95601890afd80709".toList

theorem isDigest_teecdDigest : IsDigest teecdDigest := by decide

theorem isDigest_digestOf (content : Text) : IsDigest (digestOf content) := by
  unfold digestOf
  split_ifs <;> decide

def stockArguments : Arguments where
  patchRoot := "/patches".toList
  androidTop := "/android".toList
  sourceRoot := "/stock".toList
  strictSha1 := "1".toList

/-- A checkout, and a stock tree with one file. -/
def stockFiles (content : String) : Files Text :=
  let files := [("/android/.repo/manifest.xml", ""),
    ("/android/vendor/huawei/mozart/Android.mk", ""), ("/stock/bin/teecd", content)]
  files.foldr (fun file t => write t (pathOf file.1.toList) file.2.toList) fun _ => none

def teecdLine : Text := "@device/rootdir/sbin/teecd;source=bin/teecd;sha1=".toList ++ teecdDigest

theorem secure_teecd : Secure (treeCommands digestOf) stockArguments
    ("# B217\n".toList ++ teecdLine ++ "\n".toList) (stockFiles "teecd") := by
  refine (secure_iff (treeCommands_isLawful isDigest_digestOf) rfl).2 (meets_fieldsAgree ?_)
  have hlines : (readLines ("# B217\n".toList ++ teecdLine ++ "\n".toList)).map lineOf =
      [[], teecdLine] := by decide
  intro rawLine hline hne digest
  have hmem := List.mem_map_of_mem (f := lineOf) hline
  rw [hlines, List.mem_cons, List.mem_singleton] at hmem
  rw [hmem.resolve_left hne]
  exact agrees_of_fields (by decide) isDigest_teecdDigest.ne_nil
    isDigest_teecdDigest.isHexDigit (by decide) (by decide)

/-- With a blank in front of the digits nothing is checked, and a changed file is
installed. -/
theorem not_secure_blank : ¬ Secure (treeCommands digestOf) stockArguments
    ("bin/teecd;sha1= ".toList ++ teecdDigest ++ "\n".toList) (stockFiles "patched") := by
  rintro ⟨⟨s, es, h, hverified⟩, -⟩
  have hmem : .installed ("bin/teecd;sha1= ".toList ++ teecdDigest)
      "/android/vendor/huawei/mozart/proprietary/bin/teecd".toList "patched".toList ∈ es := by
    have hlog : .installed ("bin/teecd;sha1= ".toList ++ teecdDigest)
        "/android/vendor/huawei/mozart/proprietary/bin/teecd".toList "patched".toList ∈
          ((extractText (treeCommands digestOf) stockArguments
            ("bin/teecd;sha1= ".toList ++ teecdDigest ++ "\n".toList)
            (stockFiles "patched")).map Prod.snd).getD [] := by decide +kernel
    rwa [h] at hlog
  have hverified := hverified _ hmem (' ' :: teecdDigest) (by decide)
  exact absurd hverified (by decide)

end MozartLineage.Blobs
