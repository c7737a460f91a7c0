import Mathlib.Data.List.Infix

/-!
# File trees

A tree of files gives for every path, as a list of names, the node found there. `install`
copies a file to a path in the way of `install -D`: missing directories are made
on the way, and where the path is a directory the file goes into it.

`Installed` says that a copy has taken place. It makes the same copy a no-op, and
no copy to another place undoes it.
-/

namespace FileTree

abbrev Path := List String

inductive Node (β : Type*) where
  | dir
  | file (content : β)

abbrev Files (β : Type*) := Path → Option (Node β)

variable {β : Type*}

def read (t : Files β) (p : Path) : Option β :=
  match t p with
  | some (.file content) => some content
  | _ => none

def isDir (t : Files β) (p : Path) : Bool :=
  match t p with
  | some .dir => true
  | _ => false

/-- Where a file called `base` goes when it is copied to `p`. -/
def target (t : Files β) (base : String) (p : Path) : Path :=
  if isDir t p then p ++ [base] else p

/-- A file can be made, or written over, at `p`. -/
def Writable (t : Files β) (p : Path) : Prop :=
  isDir t p = false ∧ ∀ q ∈ p.inits, q ≠ p → (read t q).isNone

instance (t : Files β) (p : Path) : Decidable (Writable t p) :=
  inferInstanceAs (Decidable (_ ∧ _))

/-- The tree with a file at `p`, and with the directories above it. -/
def write (t : Files β) (p : Path) (content : β) : Files β := fun q =>
  if q = p then some (.file content)
  else if q <+: p ∧ (t q).isNone then some .dir
  else t q

/-- A copy of a file called `base` to `p`. -/
def install (t : Files β) (base : String) (p : Path) (content : β) :
    Option (Files β) :=
  if Writable t (target t base p) then some (write t (target t base p) content)
  else none

/-- The file called `base` has been copied to `p`. -/
structure Installed (t : Files β) (base : String) (p : Path) (content : β) : Prop where
  file : t (target t base p) = some (.file content)
  above : ∀ q, q <+: target t base p → q ≠ target t base p → t q = some .dir

theorem read_eq_some {t : Files β} {p : Path} {content : β} :
    read t p = some content ↔ t p = some (.file content) := by
  unfold read
  split <;> simp_all

theorem isDir_eq_true {t : Files β} {p : Path} :
    isDir t p = true ↔ t p = some .dir := by
  unfold isDir
  split <;> simp_all

@[simp] theorem write_self (t : Files β) (p : Path) (content : β) :
    write t p content p = some (.file content) := by
  simp [write]

/-- A write keeps every node that is there, but for the file it is about. -/
theorem write_of_some {t : Files β} {p q : Path} {content : β} {n : Node β}
    (hq : q ≠ p) (hn : t q = some n) : write t p content q = some n := by
  simp [write, hq, hn]

theorem write_above {t : Files β} {p q : Path} {content : β}
    (hw : Writable t p) (hq : q <+: p) (hne : q ≠ p) :
    write t p content q = some .dir := by
  have hread := hw.2 q ((List.mem_inits q p).2 hq) hne
  cases hn : t q with
  | none => simp [write, hne, hq, hn]
  | some n =>
      cases n with
      | dir => exact write_of_some hne hn
      | file c => simp [read, hn] at hread

theorem read_write (t : Files β) (p q : Path) (content : β) :
    read (write t p content) q = if q = p then some content else read t q := by
  by_cases hq : q = p
  · simp [hq, read]
  · cases hn : t q with
    | none => by_cases hp : q <+: p <;> simp [read, write, hq, hn, hp]
    | some n => simp [read, write, hq, hn]

/-- The directories of the tree after a write. -/
theorem isDir_write {t : Files β} {p q : Path} {content : β}
    (h : isDir (write t p content) q = true) :
    isDir t q = true ∨ q <+: p ∧ q ≠ p := by
  by_cases hq : q = p
  · subst hq
    simp [isDir] at h
  · by_cases hp : q <+: p
    · exact Or.inr ⟨hp, hq⟩
    · left
      simpa [isDir, write, hq, hp] using h

theorem install_eq_some {t t' : Files β} {base : String} {p : Path} {content : β} :
    install t base p content = some t' ↔
      Writable t (target t base p) ∧ t' = write t (target t base p) content := by
  unfold install
  split_ifs with h
  · simp [h, eq_comm]
  · simp [h]

theorem prefix_target (t : Files β) (base : String) (p : Path) :
    p <+: target t base p := by
  unfold target
  split_ifs
  · exact List.prefix_append p [base]
  · exact List.prefix_rfl

/-- Copies to paths of which none lies in the other go to different places. -/
theorem target_ne {t t' : Files β} {base base' : String} {p p' : Path}
    (h : ¬ p <+: p') (h' : ¬ p' <+: p) : target t base p ≠ target t' base' p' := by
  intro heq
  have hp : p <+: target t' base' p' := heq ▸ prefix_target t base p
  rcases List.prefix_or_prefix_of_prefix hp (prefix_target t' base' p') with hpp | hpp
  · exact h hpp
  · exact h' hpp

/-- A write does not move the target of a path at which there was something. -/
theorem target_write {t : Files β} {base : String} {p q : Path} {content : β}
    {n : Node β} (hn : t p = some n) (hq : Writable t q) :
    target (write t q content) base p = target t base p := by
  have hdir : isDir (write t q content) p = isDir t p := by
    by_cases hp : p = q
    · subst hp
      rw [hq.1]
      simp [isDir]
    · simp [isDir, write_of_some hp hn, hn]
  simp [target, hdir]

theorem Installed.of_install {t t' : Files β} {base : String} {p : Path} {content : β}
    (h : install t base p content = some t') : Installed t' base p content := by
  obtain ⟨hw, rfl⟩ := install_eq_some.1 h
  have htarget : target (write t (target t base p) content) base p =
      target t base p := by
    by_cases hp : isDir t p = true
    · exact target_write (isDir_eq_true.1 hp) hw
    · have hself : target t base p = p := by simp [target, hp]
      rw [hself]
      simp [target, isDir]
  refine ⟨?_, ?_⟩
  · rw [htarget, write_self]
  · rw [htarget]
    exact fun q hq hne => write_above hw hq hne

/-- What is at the path itself of a copy that has taken place. -/
theorem Installed.exists_node {t : Files β} {base : String} {p : Path} {content : β}
    (h : Installed t base p content) : ∃ n, t p = some n := by
  by_cases hp : p = target t base p
  · exact ⟨_, (congrArg t hp).trans h.file⟩
  · exact ⟨_, h.above p (prefix_target t base p) hp⟩

theorem Installed.writable {t : Files β} {base : String} {p : Path} {content : β}
    (h : Installed t base p content) : Writable t (target t base p) := by
  refine ⟨by simp [isDir, h.file], fun q hq hne => ?_⟩
  simp [read, h.above q ((List.mem_inits q _).1 hq) hne]

/-- To make the same copy again changes nothing. -/
theorem Installed.install_eq {t : Files β} {base : String} {p : Path} {content : β}
    (h : Installed t base p content) : install t base p content = some t := by
  refine install_eq_some.2 ⟨h.writable, funext fun q => ?_⟩
  by_cases hq : q = target t base p
  · subst hq
    rw [h.file, write_self]
  · by_cases hp : q <+: target t base p
    · rw [h.above q hp hq, write_above h.writable hp hq]
    · simp [write, hq, hp]

/-- A copy to another place leaves this one as it is. -/
theorem Installed.frame {t t' : Files β} {base base' : String} {p p' : Path}
    {content content' : β} (h : Installed t base p content)
    (hi : install t base' p' content' = some t')
    (hne : target t base p ≠ target t base' p') : Installed t' base p content := by
  obtain ⟨hw, rfl⟩ := install_eq_some.1 hi
  obtain ⟨n, hn⟩ := h.exists_node
  have htarget : target (write t (target t base' p') content') base p =
      target t base p := target_write hn hw
  refine ⟨?_, ?_⟩
  · rw [htarget]
    exact write_of_some hne h.file
  · rw [htarget]
    intro q hq hqne
    by_cases heq : q = target t base' p'
    · subst heq
      have hdir := isDir_eq_true.2 (h.above _ hq hqne)
      rw [hw.1] at hdir
      cases hdir
    · exact write_of_some heq (h.above q hq hqne)

theorem Installed.read {t : Files β} {base : String} {p : Path} {content : β}
    (h : Installed t base p content) : read t (target t base p) = some content :=
  read_eq_some.2 h.file

end FileTree
