import MozartLineage.Patching.Diff
import Mathlib.Logic.Function.Basic

/-!
# Patches of a work tree

A patch has one diff for each of its files, and is applied to all of them or to none. How
a diff is applied to a file is a parameter, `Applier`; `IsLawful` is what a tool promises
with it: the hunks are put where their old lines are found, what has been applied can be
reversed, and hunks with context that are found in one place only are applied.

A patch is in a tree if its reverse can be applied. Another patch leaves it in the tree if
they have no file in common, or if it `Spares` it in those that they have.
-/

namespace Diff

inductive FileDiff (α : Type*) where
  | modify (hunks : List (Hunk α))
  | create (lines : List α)
  | remove (lines : List α)

namespace FileDiff

variable {α : Type*}

def reverse : FileDiff α → FileDiff α
  | modify hs => modify (hs.map Hunk.reverse)
  | create ls => remove ls
  | remove ls => create ls

/-- On a file that is there, or is not. -/
def Transforms : FileDiff α → Option (List α) → Option (List α) → Prop
  | modify hs, some f, some f' => Rewrites hs f f'
  | create ls, none, some f' => f' = ls
  | remove ls, some f, none => f = ls
  | _, _, _ => False

def Unambiguous : FileDiff α → Option (List α) → Prop
  | modify hs, some f => ∀ h ∈ hs, h.Framed ∧ Once h.before f
  | _, _ => True

theorem Transforms.reverse {d : FileDiff α} {x x' : Option (List α)}
    (h : d.Transforms x x') : d.reverse.Transforms x' x := by
  match d, x, x', h with
  | modify _, some _, some _, h => exact Rewrites.reverse h
  | create _, none, some _, h => exact h
  | remove _, some _, none, h => exact h

theorem Transforms.unique {d : FileDiff α} {x x' x'' : Option (List α)}
    (hd : d.Unambiguous x) (h : d.Transforms x x') (h' : d.Transforms x x'') : x' = x'' := by
  match d, x, x', x'', h, h' with
  | modify hs, some f, some f', some f'', h, h' =>
      exact congrArg some (Rewrites.unique (fun k hk => (hd k hk).2) h h')
  | create ls, none, some f', some f'', h, h' => exact congrArg some (h.trans h'.symm)
  | remove ls, some f, none, none, _, _ => rfl

end FileDiff

/-- A tool that applies a diff to a file, or refuses to. -/
abbrev Applier (α : Type*) := FileDiff α → Option (List α) → Option (Option (List α))

structure Applier.IsLawful {α : Type*} (apply : Applier α) : Prop where
  sound : ∀ {d x x'}, apply d x = some x' → d.Transforms x x'
  undo : ∀ {d x x'}, apply d x = some x' → (apply d.reverse x').isSome
  complete : ∀ {d x x'}, d.Transforms x x' → d.Unambiguous x → apply d x = some x'

/-- Every hunk goes to the leftmost place. -/
def leftmost {α : Type*} [DecidableEq α] : Applier α
  | .modify hs, some f => (rewrite? hs f).map some
  | .create ls, none => some (some ls)
  | .remove ls, some f => if f = ls then some none else none
  | _, _ => none

theorem leftmost_isSome_iff {α : Type*} [DecidableEq α] {d : FileDiff α}
    {x : Option (List α)} : (leftmost d x).isSome ↔ ∃ x', d.Transforms x x' := by
  constructor
  · intro h
    obtain ⟨x', hx'⟩ := Option.isSome_iff_exists.1 h
    match d, x with
    | .modify hs, some f =>
        obtain ⟨f', hf', rfl⟩ := Option.map_eq_some_iff.1 hx'
        exact ⟨some f', rewrites_of_rewrite? hf'⟩
    | .create ls, none => exact ⟨some ls, rfl⟩
    | .remove ls, some f => exact ⟨none, (Option.ite_none_right_eq_some.1 hx').1⟩
  · rintro ⟨x', hx'⟩
    match d, x, x', hx' with
    | .modify hs, some f, some f', h => simpa [leftmost] using rewrite?_isSome h
    | .create ls, none, some f', _ => rfl
    | .remove ls, some f, none, h => simp [leftmost, show f = ls from h]

theorem leftmost_transforms {α : Type*} [DecidableEq α] {d : FileDiff α}
    {x x' : Option (List α)} (h : leftmost d x = some x') : d.Transforms x x' := by
  match d, x with
  | .modify hs, some f =>
      obtain ⟨f', hf', rfl⟩ := Option.map_eq_some_iff.1 h
      exact rewrites_of_rewrite? hf'
  | .create ls, none =>
      cases h
      rfl
  | .remove ls, some f =>
      obtain ⟨heq, hx'⟩ := Option.ite_none_right_eq_some.1 h
      cases hx'
      exact heq

theorem leftmost_isLawful {α : Type*} [DecidableEq α] : (leftmost (α := α)).IsLawful where
  sound := leftmost_transforms
  undo := fun h => leftmost_isSome_iff.2 ⟨_, (leftmost_transforms h).reverse⟩
  complete := by
    intro d x x' hd hx
    obtain ⟨x'', hx''⟩ := Option.isSome_iff_exists.1 (leftmost_isSome_iff.2 ⟨x', hd⟩)
    rw [hx'', hd.unique hx (leftmost_transforms hx'')]

/-! ### Two diffs of one file -/

section Spares

variable {α : Type*} [DecidableEq α]

/-- No line of `known` is deleted or inserted. -/
def FileDiff.Keeps (known : List α) : FileDiff α → Prop
  | .modify hs => ∀ a ∈ known, ∀ h ∈ hs, h.before.count a = h.after.count a
  | _ => known = []

theorem FileDiff.keeps_nil (d : FileDiff α) : d.Keeps [] := by
  cases d with
  | modify hs =>
      intro a ha
      cases ha
  | create ls => rfl
  | remove ls => rfl

/-- The second diff is one change that does not reach into what the first one has left, and
every hunk of the first one has a line of `known` to be found by. -/
def FileDiff.Spares (known : List α) : FileDiff α → FileDiff α → Prop
  | .modify hs, d' =>
      (∀ h ∈ hs, h.reverse.Framed ∧ ∃ a ∈ known, a ∈ h.after) ∧
        ∃ c : Change α, d' = .modify [c.hunk] ∧ c.lead ≠ [] ∧ c.trail ≠ [] ∧
          ∀ h ∈ hs, Clear c.lead c.old c.trail h.after
  | _, _ => False

/-- Each line of `known` is in the file once, if there is one. -/
def Known (known : List α) (x : Option (List α)) : Prop :=
  ∀ f ∈ x, ∀ a ∈ known, f.count a = 1

variable {apply : Applier α} {known : List α} {d d' : FileDiff α} {x x' : Option (List α)}

theorem Known.transforms (hx : Known known x) (hd : d.Keeps known) (h : d.Transforms x x') :
    Known known x' := by
  match d, x, x', h with
  | .modify hs, some f, some f', h =>
      intro g hg a ha
      obtain rfl := Option.some.inj hg
      rw [← Rewrites.count_eq (hd a ha) h]
      exact hx f rfl a ha
  | .create ls, none, some f', _ =>
      obtain rfl : known = [] := hd
      simp [Known]
  | .remove ls, some f, none, _ => simp [Known]

/-- What the first diff has left can still be taken back after the second one. -/
theorem FileDiff.Spares.isSome (happly : apply.IsLawful) (hs : FileDiff.Spares known d d')
    (hkeeps : d'.Keeps known) (hx : Known known x) (h : (apply d.reverse x).isSome)
    (h' : apply d' x = some x') : (apply d.reverse x').isSome := by
  match d, hs with
  | .modify hunks, hs =>
      obtain ⟨hframed, c, rfl, hlead, htrail, hclear⟩ := hs
      obtain ⟨y, hy⟩ := Option.isSome_iff_exists.1 h
      have hback := happly.sound hy
      have hforth := happly.sound h'
      match x, x', y, hback, hforth with
      | some f, some f', some g, hback, hforth =>
          have hcontains : Contains (hunks.map Hunk.after) f' := by
            refine c.contains hlead htrail ?_ hforth ?_
            · simpa using hclear
            · exact contains_after_iff.2 ⟨g, hback⟩
          obtain ⟨g', hg'⟩ := contains_after_iff.1 hcontains
          have hknown : Known known (some f') := hx.transforms hkeeps hforth
          have hunambiguous : (FileDiff.modify hunks).reverse.Unambiguous (some f') := by
            intro k hk
            obtain ⟨h₀, hmem, rfl⟩ := List.mem_map.1 hk
            obtain ⟨a, ha, hmem'⟩ := (hframed h₀ hmem).2
            refine ⟨(hframed h₀ hmem).1, once_of_count (a := a) ?_ (hknown f' rfl a ha)⟩
            simpa using hmem'
          have htransforms :
              (FileDiff.modify hunks).reverse.Transforms (some f') (some g') := hg'
          exact Option.isSome_of_eq_some (happly.complete htransforms hunambiguous)

end Spares

/-! ### Whole patches -/

/-- The files of a tree by their paths. -/
abbrev Worktree (ι α : Type*) := ι → Option (List α)

structure Patch (ι α : Type*) where
  files : List (ι × FileDiff α)
  nodup : (files.map Prod.fst).Nodup

namespace Patch

variable {ι α : Type*} [DecidableEq ι]

def reverse (p : Patch ι α) : Patch ι α where
  files := p.files.map fun x => (x.1, x.2.reverse)
  nodup := by simpa [Function.comp_def] using p.nodup

variable (apply : Applier α)

def applyFiles : List (ι × FileDiff α) → Worktree ι α → Option (Worktree ι α)
  | [], t => some t
  | x :: xs, t => (apply x.2 (t x.1)).bind fun f => applyFiles xs (Function.update t x.1 f)

/-- All the files, or none. -/
def applyTo (p : Patch ι α) (t : Worktree ι α) : Option (Worktree ι α) :=
  applyFiles apply p.files t

/-- The check that the patch can be taken back. -/
def isApplied (p : Patch ι α) (t : Worktree ι α) : Bool := (p.reverse.applyTo apply t).isSome

variable {apply}

theorem applyFiles_eq_some {xs : List (ι × FileDiff α)} {t t' : Worktree ι α}
    (hnodup : (xs.map Prod.fst).Nodup) :
    applyFiles apply xs t = some t' ↔
      (∀ x ∈ xs, apply x.2 (t x.1) = some (t' x.1)) ∧ ∀ i ∉ xs.map Prod.fst, t' i = t i := by
  induction xs generalizing t with
  | nil => simp [applyFiles, funext_iff, eq_comm]
  | cons x xs ih =>
      rw [List.map_cons, List.nodup_cons] at hnodup
      have hne : ∀ y ∈ xs, y.1 ≠ x.1 := fun y hy heq =>
        hnodup.1 (heq ▸ List.mem_map_of_mem hy)
      simp only [applyFiles, Option.bind_eq_some_iff]
      constructor
      · rintro ⟨f, hf, hrest⟩
        obtain ⟨hfiles, hother⟩ := (ih hnodup.2).1 hrest
        have hx : t' x.1 = f := by rw [hother _ hnodup.1, Function.update_self]
        refine ⟨fun y hy => ?_, fun i hi => ?_⟩
        · rcases List.mem_cons.1 hy with rfl | hy
          · rw [hx, hf]
          · simpa [hne y hy] using hfiles y hy
        · simp only [List.map_cons, List.mem_cons, not_or] at hi
          rw [hother i hi.2, Function.update_of_ne hi.1]
      · rintro ⟨hfiles, hother⟩
        refine ⟨t' x.1, hfiles x (by simp), (ih hnodup.2).2 ⟨fun y hy => ?_, fun i hi => ?_⟩⟩
        · simpa [hne y hy] using hfiles y (by simp [hy])
        · by_cases hix : i = x.1
          · rw [hix, Function.update_self]
          · rw [Function.update_of_ne hix]
            exact hother i (by simpa [hix] using hi)

theorem applyFiles_isSome {xs : List (ι × FileDiff α)} {t : Worktree ι α}
    (hnodup : (xs.map Prod.fst).Nodup) :
    (applyFiles apply xs t).isSome ↔ ∀ x ∈ xs, (apply x.2 (t x.1)).isSome := by
  induction xs generalizing t with
  | nil => simp [applyFiles]
  | cons x xs ih =>
      rw [List.map_cons, List.nodup_cons] at hnodup
      have hne : ∀ y ∈ xs, y.1 ≠ x.1 := fun y hy heq =>
        hnodup.1 (heq ▸ List.mem_map_of_mem hy)
      rw [List.forall_mem_cons, applyFiles]
      cases hx : apply x.2 (t x.1) with
      | none => simp
      | some f =>
          simp only [Option.bind_some, Option.isSome_some, true_and, ih hnodup.2]
          refine forall₂_congr fun y hy => ?_
          rw [Function.update_of_ne (hne y hy)]

theorem isApplied_iff {p : Patch ι α} {t : Worktree ι α} :
    p.isApplied apply t ↔ ∀ x ∈ p.files, (apply x.2.reverse (t x.1)).isSome := by
  rw [isApplied, applyTo, applyFiles_isSome p.reverse.nodup]
  exact List.forall_mem_map

theorem isApplied_of_applyTo (happly : apply.IsLawful) {p : Patch ι α} {t t' : Worktree ι α}
    (h : p.applyTo apply t = some t') : p.isApplied apply t' :=
  isApplied_iff.2 fun x hx =>
    happly.undo (((applyFiles_eq_some p.nodup).1 h).1 x hx)

section Spares

variable [DecidableEq α] (known : ι → List α)

def Keeps (p : Patch ι α) : Prop := ∀ x ∈ p.files, x.2.Keeps (known x.1)

/-- In the files that they have in common. -/
def Spares (p q : Patch ι α) : Prop :=
  ∀ x ∈ p.files, ∀ y ∈ q.files, x.1 = y.1 → FileDiff.Spares (known x.1) x.2 y.2

variable {known} {p q : Patch ι α} {t t' : Worktree ι α}

omit [DecidableEq ι] [DecidableEq α] in
theorem spares_of_disjoint (h : ∀ i ∈ p.files.map Prod.fst, i ∉ q.files.map Prod.fst) :
    p.Spares known q := by
  intro x hx y hy hxy
  exact (h x.1 (List.mem_map_of_mem hx) (hxy ▸ List.mem_map_of_mem hy)).elim

theorem known_of_applyTo (happly : apply.IsLawful) (hp : p.Keeps known)
    (ht : ∀ i, Known (known i) (t i)) (h : p.applyTo apply t = some t') (i : ι) :
    Known (known i) (t' i) := by
  obtain ⟨hfiles, hother⟩ := (applyFiles_eq_some p.nodup).1 h
  by_cases hi : i ∈ p.files.map Prod.fst
  · obtain ⟨x, hx, rfl⟩ := List.mem_map.1 hi
    exact (ht x.1).transforms (hp x hx) (happly.sound (hfiles x hx))
  · rw [hother i hi]
    exact ht i

/-- A patch stays in the tree when another one that spares it is applied. -/
theorem isApplied_of_spares (happly : apply.IsLawful) (hpq : p.Spares known q)
    (hq : q.Keeps known) (ht : ∀ i, Known (known i) (t i)) (hp : p.isApplied apply t)
    (h : q.applyTo apply t = some t') : p.isApplied apply t' := by
  obtain ⟨hfiles, hother⟩ := (applyFiles_eq_some q.nodup).1 h
  refine isApplied_iff.2 fun x hx => ?_
  have hback := isApplied_iff.1 hp x hx
  by_cases hmem : x.1 ∈ q.files.map Prod.fst
  · obtain ⟨y, hy, hyx⟩ := List.mem_map.1 hmem
    have hspares := hpq x hx y hy hyx.symm
    have hkeeps := hq y hy
    have hy' := hfiles y hy
    rw [hyx] at hkeeps hy'
    exact hspares.isSome happly hkeeps (ht x.1) hback hy'
  · rwa [hother x.1 hmem]

end Spares

end Patch

end Diff
