import Mathlib.Data.List.Infix
import Mathlib.Data.List.TakeWhile
import Mathlib.Tactic.SplitIfs

/-!
# Fields and keys

A list is cut into fields at a separator, and searched for a key with elements of a class
behind it. `firstGroup` gives these elements at the first place where there are any, as a
regular expression `key([p]+)` without anchors does. When the separator is neither in the
key nor in the class no match crosses it, and so the search goes from field to field.
-/

namespace Fields

variable {α : Type*} [DecidableEq α]

/-- The elements of the class `p` behind the first key that has any. -/
def firstGroup (key : List α) (p : α → Bool) : List α → Option (List α)
  | [] => none
  | c :: t =>
      let group := ((c :: t).drop key.length).takeWhile p
      if key <+: c :: t ∧ group ≠ [] then some group else firstGroup key p t

variable {key t u g : List α} {p : α → Bool} {c s : α}

theorem firstGroup_cons_pos (h : key <+: c :: t)
    (hg : ((c :: t).drop key.length).takeWhile p = g) (hne : g ≠ []) :
    firstGroup key p (c :: t) = some g := by
  subst hg
  exact if_pos ⟨h, hne⟩

theorem firstGroup_cons_neg (h : ¬ key <+: c :: t) :
    firstGroup key p (c :: t) = firstGroup key p t :=
  if_neg fun hk => h hk.1

/-- A group is not empty, and what is in it is in the class. -/
theorem of_firstGroup_eq_some (h : firstGroup key p t = some g) : g ≠ [] ∧ ∀ c ∈ g, p c := by
  fun_induction firstGroup key p t with
  | case1 => cases h
  | case2 c t group hgroup =>
      rw [← Option.some.inj h]
      exact ⟨hgroup.2, fun c hc => List.mem_takeWhile_imp hc⟩
  | case3 c t group hgroup ih => exact ih h

theorem infix_of_firstGroup (h : firstGroup key p t = some g) : key <:+: t := by
  fun_induction firstGroup key p t with
  | case1 => cases h
  | case2 c t group hgroup => exact hgroup.1.isInfix
  | case3 c t group hgroup ih => exact (ih h).trans (List.suffix_cons c t).isInfix

/-- A key with nothing but its group behind it. -/
theorem firstGroup_append (hkey : key ≠ []) (hne : g ≠ []) (hg : ∀ c ∈ g, p c) :
    firstGroup key p (key ++ g) = some g := by
  obtain ⟨c, key, rfl⟩ := List.exists_cons_of_ne_nil hkey
  have hgroup : ((c :: key ++ g).drop (c :: key).length).takeWhile p = g := by
    rw [List.drop_left]
    exact List.takeWhile_eq_self_iff.2 hg
  exact firstGroup_cons_pos (List.prefix_append _ _) hgroup hne

/-- Where there is a key with an element of the class behind it there is a group. -/
theorem firstGroup_isSome (h : key ++ c :: u <:+: t) (hc : p c) :
    (firstGroup key p t).isSome := by
  fun_induction firstGroup key p t with
  | case1 => simp at h
  | case2 a t group hgroup => rfl
  | case3 a t group hgroup ih =>
      rcases List.infix_cons_iff.1 h with hpre | htail
      · refine (hgroup ⟨(List.prefix_append key _).trans hpre, ?_⟩).elim
        obtain ⟨rest, hrest⟩ := hpre
        have hdrop : (a :: t).drop key.length = c :: (u ++ rest) := by
          rw [← hrest, List.append_assoc, List.drop_left]
          rfl
        simp [group, hdrop, hc]
      · exact ih htail

/-! ### Separators -/

omit [DecidableEq α] in
/-- A list has no separator, or a first one. -/
theorem separator_induction {P : List α → Prop} (s : α) (hlast : ∀ f, s ∉ f → P f)
    (hcons : ∀ f u, s ∉ f → P u → P (f ++ s :: u)) (t : List α) : P t := by
  by_cases h : s ∈ t
  · obtain ⟨f, u, rfl, hf⟩ := List.eq_append_cons_of_mem h
    exact hcons f u hf (separator_induction s hlast hcons u)
  · exact hlast t h
termination_by t.length
decreasing_by
  subst_vars
  simp only [List.length_append, List.length_cons]
  omega

omit [DecidableEq α] in
theorem takeWhile_append_separator (hp : p s = false) :
    (t ++ s :: u).takeWhile p = t.takeWhile p := by
  induction t with
  | nil => simp [hp]
  | cons c t ih => simp [List.takeWhile_cons, ih]

section Separator

variable (hs : s ∉ key)

include hs

omit [DecidableEq α] in
theorem prefix_append_separator : key <+: t ++ s :: u ↔ key <+: t := by
  constructor
  · intro h
    rcases List.prefix_or_prefix_of_prefix h (List.prefix_append t (s :: u)) with ht | ht
    · exact ht
    · obtain ⟨rest, rfl⟩ := ht
      cases rest with
      | nil => simp
      | cons b rest =>
          rw [List.prefix_append_right_inj, List.cons_prefix_cons] at h
          simp [h.1] at hs
  · intro h
    exact h.trans (List.prefix_append t _)

variable (hkey : key ≠ []) (hp : p s = false)

include hkey hp

/-- No match crosses the separator. -/
theorem firstGroup_append_separator :
    firstGroup key p (t ++ s :: u) = (firstGroup key p t).or (firstGroup key p u) := by
  induction t with
  | nil =>
      refine firstGroup_cons_neg fun h => ?_
      obtain ⟨b, key, rfl⟩ := List.exists_cons_of_ne_nil hkey
      simp [(List.cons_prefix_cons.1 h).1] at hs
  | cons c t ih =>
      have hgroup (hpre : key <+: c :: t) :
          ((c :: (t ++ s :: u)).drop key.length).takeWhile p =
            ((c :: t).drop key.length).takeWhile p := by
        rw [← List.cons_append, List.drop_append_of_le_length hpre.length_le]
        exact takeWhile_append_separator hp
      by_cases h : key <+: c :: t ∧ ((c :: t).drop key.length).takeWhile p ≠ []
      · rw [firstGroup_cons_pos h.1 rfl h.2]
        exact firstGroup_cons_pos ((prefix_append_separator hs).2 h.1) (hgroup h.1) h.2
      · have h' : ¬ (key <+: c :: (t ++ s :: u) ∧
            ((c :: (t ++ s :: u)).drop key.length).takeWhile p ≠ []) := by
          rintro ⟨hpre, hne⟩
          have hpre' := (prefix_append_separator (t := c :: t) hs).1 hpre
          exact h ⟨hpre', hgroup hpre' ▸ hne⟩
        rw [List.cons_append, firstGroup, if_neg h', ih, firstGroup, if_neg h]

/-- The search goes from field to field. -/
theorem firstGroup_eq_findSome? (t : List α) :
    firstGroup key p t = (t.splitOn s).findSome? (firstGroup key p) := by
  induction t using separator_induction s with
  | hlast f hf =>
      rw [List.splitOn_eq_singleton hf]
      cases h : firstGroup key p f <;> simp [h]
  | hcons f u hf ih =>
      rw [firstGroup_append_separator hs hkey hp, ih,
        List.splitOn_append_cons_self_of_not_mem hf, List.findSome?_cons]
      cases firstGroup key p f <;> rfl

end Separator

theorem dropWhile_eq_nil_of_not_mem {f : List α} (hf : s ∉ f) :
    f.dropWhile (· ≠ s) = [] :=
  List.dropWhile_eq_nil_iff.2 fun _ hc => decide_eq_true fun heq => hf (heq ▸ hc)

theorem dropWhile_append_separator {f : List α} (hf : s ∉ f) :
    (f ++ s :: u).dropWhile (· ≠ s) = s :: u := by
  rw [List.dropWhile_append, dropWhile_eq_nil_of_not_mem hf]
  simp

theorem takeWhile_eq_self_of_not_mem {f : List α} (hf : s ∉ f) :
    f.takeWhile (· ≠ s) = f :=
  List.takeWhile_eq_self_iff.2 fun _ hc => decide_eq_true fun heq => hf (heq ▸ hc)

/-- What is behind the first field has an empty field first. -/
theorem splitOn_dropWhile (s : α) (t : List α) :
    (t.dropWhile (· ≠ s)).splitOn s = [] :: ((t.dropWhile (· ≠ s)).splitOn s).tail := by
  induction t using separator_induction s with
  | hlast f hf =>
      rw [dropWhile_eq_nil_of_not_mem hf, List.splitOn_nil]
      rfl
  | hcons f u hf ih =>
      rw [dropWhile_append_separator hf]
      simp [List.splitOn_cons_eq_if_modifyHead]

/-- The first field, and the fields of the rest with the separator in front. -/
theorem splitOn_eq_cons (s : α) (t : List α) :
    t.splitOn s = t.takeWhile (· ≠ s) :: ((t.dropWhile (· ≠ s)).splitOn s).tail := by
  induction t using separator_induction s with
  | hlast f hf =>
      rw [List.splitOn_eq_singleton hf, takeWhile_eq_self_of_not_mem hf,
        dropWhile_eq_nil_of_not_mem hf, List.splitOn_nil]
      rfl
  | hcons f u hf ih =>
      rw [List.splitOn_append_cons_self_of_not_mem hf, dropWhile_append_separator hf,
        takeWhile_append_separator (by simp), takeWhile_eq_self_of_not_mem hf]
      simp [List.splitOn_cons_eq_if_modifyHead]

/-- A field is found in the list. -/
theorem infix_of_mem_splitOn {f : List α} (h : f ∈ t.splitOn s) : f <:+: t := by
  induction t using separator_induction s with
  | hlast t ht =>
      rw [List.splitOn_eq_singleton ht, List.mem_singleton] at h
      rw [h]
  | hcons f' u hf ih =>
      rw [List.splitOn_append_cons_self_of_not_mem hf, List.mem_cons] at h
      rcases h with rfl | h
      · exact (List.prefix_append f _).isInfix
      · exact (ih h).trans ((List.suffix_cons s u).trans (List.suffix_append f' _)).isInfix

end Fields
