import MozartLineage.Patching.Worktree
import MozartLineage.Transition.Resume

/-!
# One patch after the other

`applyOnce` is what the script does with one patch: nothing if the patch can be taken back,
and otherwise it is applied, or the script stops. It may be started again on what an earlier
run has left, also one that was interrupted, if every patch spares those before it.
-/

namespace MozartLineage.Patching

open Diff Transition

/-- The arguments of `apply_once`, and the patch with that name. -/
structure Application (ι α : Type*) where
  repo : String
  name : String
  patch : Patch ι α

/-- What is printed and written under. -/
def Application.key {ι α : Type*} (a : Application ι α) : String × String := (a.repo, a.name)

/-- The repositories of the checkout by their directories. -/
abbrev Repositories (ι α : Type*) := String → Option (Worktree ι α)

section ApplyOnce

variable {ι α : Type*} [DecidableEq ι] (apply : Applier α)

/-- With the exit status if the script stops there. -/
def applyOnce (a : Application ι α) (r : Repositories ι α) : Repositories ι α × Option ℕ :=
  match r a.repo with
  | none => (r, some 3)
  | some t =>
      if a.patch.isApplied apply t then (r, none)
      else
        match a.patch.applyTo apply t with
        | none => (r, some 1)
        | some t' => (Function.update r a.repo (some t'), none)

def output (a : Application ι α) (r : Repositories ι α) : List String :=
  match r a.repo with
  | none => ["error: missing Android repository: " ++ a.repo]
  | some t =>
      if a.patch.isApplied apply t then ["skip: already applied: " ++ a.repo ++ "/" ++ a.name]
      else ["apply: " ++ a.repo ++ "/" ++ a.name]

/-- The patches that are written to the tree. -/
def written (a : Application ι α) (r : Repositories ι α) : List (String × String) :=
  match r a.repo with
  | none => []
  | some t =>
      if a.patch.isApplied apply t then []
      else
        match a.patch.applyTo apply t with
        | none => []
        | some _ => [a.key]

variable {apply} {a : Application ι α} {r : Repositories ι α}

/-- What `apply_once` can do. -/
theorem applyOnce_cases (apply : Applier α) (a : Application ι α) (r : Repositories ι α) :
    (r a.repo = none ∧ applyOnce apply a r = (r, some 3) ∧ written apply a r = []) ∨
      ∃ t, r a.repo = some t ∧
        ((a.patch.isApplied apply t ∧ applyOnce apply a r = (r, none) ∧
            written apply a r = []) ∨
          (¬ a.patch.isApplied apply t ∧ a.patch.applyTo apply t = none ∧
            applyOnce apply a r = (r, some 1) ∧ written apply a r = []) ∨
          ∃ t', ¬ a.patch.isApplied apply t ∧ a.patch.applyTo apply t = some t' ∧
            applyOnce apply a r = (Function.update r a.repo (some t'), none) ∧
            written apply a r = [a.key]) := by
  cases ht : r a.repo with
  | none => exact Or.inl ⟨rfl, by simp [applyOnce, ht], by simp [written, ht]⟩
  | some t =>
      refine Or.inr ⟨t, rfl, ?_⟩
      by_cases happlied : a.patch.isApplied apply t
      · exact Or.inl ⟨happlied, by simp [applyOnce, ht, happlied],
          by simp [written, ht, happlied]⟩
      · cases ht' : a.patch.applyTo apply t with
        | none =>
            exact Or.inr (Or.inl ⟨happlied, rfl, by simp [applyOnce, ht, happlied, ht'],
              by simp [written, ht, happlied, ht']⟩)
        | some t' =>
            exact Or.inr (Or.inr ⟨t', happlied, rfl, by simp [applyOnce, ht, happlied, ht'],
              by simp [written, ht, happlied, ht']⟩)

/-- A patch has nothing to do if it is in the tree. -/
theorem settled_iff (happly : apply.IsLawful) :
    Settled (applyOnce apply) a r ↔ ∃ t, r a.repo = some t ∧ a.patch.isApplied apply t := by
  rcases applyOnce_cases apply a r with
    ⟨hr, heq, -⟩ | ⟨t, ht, ⟨happlied, heq, -⟩ | ⟨hnot, -, heq, -⟩ | ⟨t', hnot, ht', heq, -⟩⟩
  · simp [Settled, heq, hr]
  · simp [Settled, heq, ht, happlied]
  · simp [Settled, heq, ht, hnot]
  · have hne : Function.update r a.repo (some t') ≠ r := by
      intro hsame
      have htt : t' = t := by simpa [ht] using congrFun hsame a.repo
      exact hnot (htt ▸ Patch.isApplied_of_applyTo happly ht')
    simp [Settled, heq, ht, hnot, hne]

/-- Once more, `apply_once` does the same. -/
theorem applyOnce_applyOnce (happly : apply.IsLawful) (a : Application ι α)
    (r : Repositories ι α) :
    applyOnce apply a (applyOnce apply a r).1 = applyOnce apply a r := by
  rcases applyOnce_cases apply a r with
    ⟨-, heq, -⟩ | ⟨t, ht, ⟨-, heq, -⟩ | ⟨-, -, heq, -⟩ | ⟨t', -, ht', heq, -⟩⟩
  · rw [heq, heq]
  · rw [heq, heq]
  · rw [heq, heq]
  · rw [heq]
    exact (settled_iff happly).2 ⟨t', by simp, Patch.isApplied_of_applyTo happly ht'⟩

theorem written_sublist (a : Application ι α) (r : Repositories ι α) :
    (written apply a r).Sublist [a.key] := by
  rcases applyOnce_cases apply a r with
    ⟨-, -, hw⟩ | ⟨t, -, ⟨-, -, hw⟩ | ⟨-, -, -, hw⟩ | ⟨t', -, -, -, hw⟩⟩ <;> simp [hw]

theorem output_of_settled (happly : apply.IsLawful) (h : Settled (applyOnce apply) a r) :
    output apply a r = ["skip: already applied: " ++ a.repo ++ "/" ++ a.name] := by
  obtain ⟨t, ht, happlied⟩ := (settled_iff happly).1 h
  simp [output, ht, happlied]

end ApplyOnce

section Stack

variable {ι α : Type*} [DecidableEq ι] [DecidableEq α]

/-- The lines of `known` are in the files of the checkout, each once. -/
def AllKnown (known : String → ι → List α) (r : Repositories ι α) : Prop :=
  ∀ repo, ∀ t ∈ r repo, ∀ i, Known (known repo i) (t i)

/-- The patches of one repository follow each other. -/
structure Compatible (known : String → ι → List α) (stack : List (Application ι α)) :
    Prop where
  keeps : ∀ a ∈ stack, a.patch.Keeps (known a.repo)
  spares : stack.Pairwise fun a b => a.repo = b.repo →
    a.patch.Spares (known a.repo) b.patch

variable {apply : Applier α} {known : String → ι → List α} {stack : List (Application ι α)}
  {r : Repositories ι α} {a b : Application ι α}

theorem AllKnown.applyOnce (happly : apply.IsLawful) (hr : AllKnown known r)
    (ha : a.patch.Keeps (known a.repo)) : AllKnown known (applyOnce apply a r).1 := by
  rcases applyOnce_cases apply a r with
    ⟨-, heq, -⟩ | ⟨t, ht, ⟨-, heq, -⟩ | ⟨-, -, heq, -⟩ | ⟨t', -, ht', heq, -⟩⟩
  · rwa [heq]
  · rwa [heq]
  · rwa [heq]
  · rw [heq]
    intro repo u hu
    by_cases hrepo : repo = a.repo
    · subst hrepo
      obtain rfl : t' = u := by simpa using hu
      exact Patch.known_of_applyTo happly ha (hr a.repo t ht) ht'
    · exact hr repo u (by simpa [hrepo] using hu)

theorem settled_applyOnce (happly : apply.IsLawful) (hr : AllKnown known r)
    (hb : b.patch.Keeps (known b.repo))
    (hspares : a.repo = b.repo → a.patch.Spares (known a.repo) b.patch)
    (h : Settled (applyOnce apply) a r) :
    Settled (applyOnce apply) a (applyOnce apply b r).1 := by
  rcases applyOnce_cases apply b r with
    ⟨-, heq, -⟩ | ⟨t, ht, ⟨-, heq, -⟩ | ⟨-, -, heq, -⟩ | ⟨t', -, ht', heq, -⟩⟩
  · rwa [heq]
  · rwa [heq]
  · rwa [heq]
  · obtain ⟨u, hu, happlied⟩ := (settled_iff happly).1 h
    rw [heq]
    refine (settled_iff happly).2 ?_
    by_cases hrepo : a.repo = b.repo
    · obtain rfl : t = u := by simpa [hrepo, ht] using hu
      have hspares := hspares hrepo
      rw [hrepo] at hspares
      exact ⟨t', by simp [hrepo], 
        Patch.isApplied_of_spares happly hspares hb (hr b.repo t ht) happlied ht'⟩
    · exact ⟨u, by simpa [hrepo] using hu, happlied⟩

theorem Compatible.resumable (happly : apply.IsLawful) (h : Compatible known stack) :
    Resumable (applyOnce apply) (written apply) (AllKnown known) stack where
  inv a ha _ hr := hr.applyOnce happly (h.keeps a ha)
  again a _ r _ := applyOnce_applyOnce happly a r
  frame := by
    refine h.spares.imp_of_mem fun _ hb hspares r hr hsettled => ?_
    exact settled_applyOnce happly hr (h.keeps _ hb) hspares hsettled
  quiet a _ r _ hsame := by
    rcases applyOnce_cases apply a r with
      ⟨-, -, hw⟩ | ⟨t, ht, ⟨-, -, hw⟩ | ⟨-, -, -, hw⟩ | ⟨t', hnot, ht', heq, -⟩⟩
    · exact hw
    · exact hw
    · exact hw
    · have htt : t' = t := by
        rw [heq] at hsame
        simpa [ht] using congrFun hsame a.repo
      exact (hnot (htt ▸ Patch.isApplied_of_applyTo happly ht')).elim

/-- In whatever way the script is interrupted and started again, no patch is written twice. -/
theorem Compatible.nodup_written (happly : apply.IsLawful) (h : Compatible known stack)
    (hr : AllKnown known r) (hkeys : (stack.map Application.key).Nodup) {ks : List ℕ}
    {p : Progress (Repositories ι α) ℕ} {os : List (String × String)}
    (hrun : (attempt (applyOnce apply) (written apply) stack).run ⟨r, none⟩ ks = some (p, os)) :
    os.Nodup := by
  obtain ⟨n, q, hq, -⟩ := (h.resumable happly).attempts_eq_take hr hrun
  have hsub := script_run_sublist (f := fun a => [a.key]) written_sublist hq
  have hmap : ((stack.take n).flatMap fun a => [a.key]) = (stack.map Application.key).take n := by
    rw [← List.map_eq_flatMap, List.map_take]
  rw [hmap] at hsub
  exact (hkeys.sublist (List.take_sublist n _)).sublist hsub

end Stack

end MozartLineage.Patching
