import Mathlib.Data.List.Infix
import Mathlib.Data.Nat.Find
import Mathlib.Tactic.Common

/-!
# Words in a text, and their replacement

`replaceAll old new` replaces a word from left to right by another one. When the words have
the same length every place of the text keeps its number, and the result is described place
by place: the new word is where the old one was, and the other letters are as they were.

What becomes of other words follows from how words can overlap. Two words are `Apart` if
none ends with a part that the other one begins with; a word is `Unbordered` if it is so
with itself.
-/

namespace Occurrence

variable {α : Type*}

def FoundAt (w : List α) (i : ℕ) (f : List α) : Prop := w <+: f.drop i

instance [DecidableEq α] (w : List α) (i : ℕ) (f : List α) : Decidable (FoundAt w i f) :=
  inferInstanceAs (Decidable (_ <+: _))

/-- No end of the one word is the beginning of the other, and none has the other in it. -/
def Apart (u w : List α) : Prop :=
  (∀ s ∈ u.tails, s ≠ [] → ¬ s <+: w ∧ ¬ w <+: s) ∧
    ∀ s ∈ w.tails, s ≠ [] → ¬ s <+: u ∧ ¬ u <+: s

instance [DecidableEq α] (u w : List α) : Decidable (Apart u w) :=
  inferInstanceAs (Decidable (_ ∧ _))

def Unbordered (w : List α) : Prop := ∀ s ∈ w.tails, s ≠ [] → s ≠ w → ¬ s <+: w

instance [DecidableEq α] (w : List α) : Decidable (Unbordered w) :=
  inferInstanceAs (Decidable (∀ _ ∈ _, _))

theorem Apart.symm {u w : List α} (h : Apart u w) : Apart w u := ⟨h.2, h.1⟩

theorem foundAt_iff {w f : List α} {i : ℕ} :
    FoundAt w i f ↔ ∀ k, k < w.length → f[i + k]? = w[k]? := by
  unfold FoundAt
  constructor
  · rintro ⟨r, hr⟩ k hk
    rw [← List.getElem?_drop, ← hr, List.getElem?_append_left hk]
  · intro h
    rw [List.prefix_iff_eq_take]
    refine List.ext_getElem? fun k => ?_
    rw [List.getElem?_take]
    split_ifs with hk
    · rw [List.getElem?_drop, h k hk]
    · exact List.getElem?_eq_none (Nat.le_of_not_lt hk)

theorem FoundAt.congr {w f g : List α} {i : ℕ} (h : FoundAt w i f)
    (hfg : ∀ k, k < w.length → g[i + k]? = f[i + k]?) : FoundAt w i g :=
  foundAt_iff.2 fun k hk => (hfg k hk).trans (foundAt_iff.1 h k hk)

theorem FoundAt.lt_length {w f : List α} {i : ℕ} (hw : w ≠ []) (h : FoundAt w i f) :
    i < f.length := by
  by_contra hle
  rw [FoundAt, List.drop_eq_nil_of_le (Nat.le_of_not_lt hle), List.prefix_nil] at h
  exact hw h

theorem foundAt_append_right {w l f : List α} {i : ℕ} :
    FoundAt w (l.length + i) (l ++ f) ↔ FoundAt w i f := by
  rw [FoundAt, FoundAt, ← List.drop_drop, List.drop_left]

/-- A word that begins inside of another one shares letters with an end of it. -/
theorem FoundAt.end_prefix {u w f : List α} {i j : ℕ} (hu : FoundAt u i f)
    (hw : FoundAt w j f) (hij : i ≤ j) (hj : j < i + u.length) :
    u.drop (j - i) <+: w ∨ w <+: u.drop (j - i) := by
  obtain ⟨r, hr⟩ := hu
  have hdrop : f.drop j = u.drop (j - i) ++ r := by
    rw [← List.drop_append_of_le_length (by omega), hr, List.drop_drop]
    congr 1
    omega
  rw [FoundAt, hdrop] at hw
  exact List.prefix_or_prefix_of_prefix (List.prefix_append _ r) hw

theorem drop_mem_tails (u : List α) (n : ℕ) : u.drop n ∈ u.tails :=
  (List.mem_tails _ _).2 (List.drop_suffix n u)

theorem drop_ne_nil {u : List α} {n : ℕ} (h : n < u.length) : u.drop n ≠ [] := by
  simpa using h

/-- Two words that are apart are found at places apart. -/
theorem Apart.disjoint {u w f : List α} {i j : ℕ} (h : Apart u w) (hu : FoundAt u i f)
    (hw : FoundAt w j f) : i + u.length ≤ j ∨ j + w.length ≤ i := by
  by_contra hoverlap
  rw [not_or, not_le, not_le] at hoverlap
  rcases Nat.le_total i j with hij | hji
  · have hs := h.1 _ (drop_mem_tails u (j - i)) (drop_ne_nil (by omega))
    rcases hu.end_prefix hw hij hoverlap.1 with hp | hp
    · exact hs.1 hp
    · exact hs.2 hp
  · have hs := h.2 _ (drop_mem_tails w (i - j)) (drop_ne_nil (by omega))
    rcases hw.end_prefix hu hji hoverlap.2 with hp | hp
    · exact hs.1 hp
    · exact hs.2 hp

theorem Unbordered.eq_or_le {w f : List α} {i j : ℕ} (h : Unbordered w) (hi : FoundAt w i f)
    (hj : FoundAt w j f) (hij : i ≤ j) : i = j ∨ i + w.length ≤ j := by
  by_contra hoverlap
  rw [not_or, not_le] at hoverlap
  have hlt : i < j := Nat.lt_of_le_of_ne hij hoverlap.1
  have hlength : (w.drop (j - i)).length < w.length := by
    rw [List.length_drop]
    omega
  have hne : w.drop (j - i) ≠ w := fun heq => Nat.ne_of_lt hlength (congrArg List.length heq)
  have hs := h _ (drop_mem_tails w (j - i)) (drop_ne_nil (by omega)) hne
  rcases hi.end_prefix hj hij hoverlap.2 with hp | hp
  · exact hs hp
  · exact Nat.not_lt_of_le hp.length_le hlength

theorem Unbordered.disjoint {w f : List α} {i j : ℕ} (h : Unbordered w) (hi : FoundAt w i f)
    (hj : FoundAt w j f) : i = j ∨ i + w.length ≤ j ∨ j + w.length ≤ i := by
  rcases Nat.le_total i j with hij | hji
  · exact (h.eq_or_le hi hj hij).imp_right Or.inl
  · exact (h.eq_or_le hj hi hji).imp Eq.symm Or.inr

/-! ### Replacement -/

section Replace

variable [DecidableEq α] (old new : List α)

/-- With the number of letters that are still to be passed over. -/
def replaceFrom : ℕ → List α → List α
  | _, [] => []
  | n + 1, _ :: f => replaceFrom n f
  | 0, a :: f =>
      if old <+: a :: f then new ++ replaceFrom (old.length - 1) f else a :: replaceFrom 0 f

def replaceAll (f : List α) : List α := replaceFrom old new 0 f

variable {old new}

theorem replaceFrom_append {l f : List α} :
    replaceFrom old new l.length (l ++ f) = replaceFrom old new 0 f := by
  induction l with
  | nil => rfl
  | cons a l ih => simpa [replaceFrom] using ih

theorem replaceAll_of_not_found {f : List α} (h : ∀ i, i < f.length → ¬ FoundAt old i f) :
    replaceAll old new f = f := by
  induction f with
  | nil => rfl
  | cons a f ih =>
      have hhead : ¬ old <+: a :: f := h 0 (by simp)
      have htail := ih fun i hi => h (i + 1) (by simpa using hi)
      rw [replaceAll, replaceFrom, if_neg hhead, ← replaceAll, htail]

/-- The first place where the old word is found. -/
theorem replaceAll_first (hold : old ≠ []) {l r : List α}
    (h : ∀ i, i < l.length → ¬ FoundAt old i (l ++ old ++ r)) :
    replaceAll old new (l ++ old ++ r) = l ++ new ++ replaceAll old new r := by
  induction l with
  | nil =>
      obtain ⟨a, w, rfl⟩ := List.exists_cons_of_ne_nil hold
      have hhead : a :: w <+: a :: (w ++ r) := List.prefix_append (a :: w) r
      simp only [List.nil_append, List.cons_append, replaceAll, replaceFrom, if_pos hhead]
      rw [List.length_cons, Nat.add_sub_cancel, replaceFrom_append]
  | cons a l ih =>
      have hhead : ¬ old <+: a :: (l ++ old ++ r) := h 0 (by simp)
      have htail := ih fun i hi => h (i + 1) (by simpa using hi)
      rw [List.cons_append, List.cons_append, replaceAll, replaceFrom, if_neg hhead,
        ← replaceAll, htail]
      rfl

/-- Either the old word is not found, or there is a first place. -/
theorem first_cases (old f : List α) : (∀ i, i < f.length → ¬ FoundAt old i f) ∨
    ∃ l r, f = l ++ old ++ r ∧ ∀ i, i < l.length → ¬ FoundAt old i f := by
  by_cases hfound : ∃ i, i < f.length ∧ FoundAt old i f
  · right
    obtain ⟨hlt, r, hr⟩ := Nat.find_spec hfound
    have hlength : (f.take (Nat.find hfound)).length = Nat.find hfound := by
      rw [List.length_take, Nat.min_eq_left hlt.le]
    refine ⟨f.take (Nat.find hfound), r, ?_, fun i hi hat => ?_⟩
    · rw [List.append_assoc, hr, List.take_append_drop]
    · rw [hlength] at hi
      exact Nat.find_min hfound hi ⟨hi.trans hlt, hat⟩
  · left
    intro i hi hat
    exact hfound ⟨i, hi, hat⟩

/-- What a replacement by a word of the same length is. -/
structure Replaces (old new f g : List α) : Prop where
  length_eq : g.length = f.length
  new_of_old : ∀ i, FoundAt old i f → FoundAt new i g
  other : ∀ i, (∀ j, FoundAt old j f → i < j ∨ j + old.length ≤ i) → g[i]? = f[i]?

theorem replaces_replaceAll (hold : old ≠ []) (hlength : new.length = old.length)
    (hself : Unbordered old) (f : List α) : Replaces old new f (replaceAll old new f) := by
  induction hn : f.length using Nat.strong_induction_on generalizing f with
  | _ n ih =>
      rcases first_cases old f with hnone | ⟨l, r, rfl, hfirst⟩
      · rw [replaceAll_of_not_found hnone]
        exact ⟨rfl, fun i hi => (hnone i (hi.lt_length hold) hi).elim, fun _ _ => rfl⟩
      · have hpos := List.length_pos_of_ne_nil hold
        have hr := ih r.length (by simp only [← hn, List.length_append]; omega) r rfl
        have hat : FoundAt old l.length (l ++ old ++ r) := by
          rw [List.append_assoc]
          exact foundAt_append_right (i := 0) |>.2 (List.prefix_append old r)
        rw [replaceAll_first hold hfirst]
        refine ⟨by simp [hlength, hr.length_eq], fun i hi => ?_, fun i hi => ?_⟩
        · rcases hself.disjoint hat hi with rfl | hle | hle
          · rw [List.append_assoc]
            exact foundAt_append_right (i := 0) |>.2 (List.prefix_append new _)
          · obtain ⟨k, rfl⟩ := Nat.exists_eq_add_of_le hle
            rw [← List.length_append, foundAt_append_right] at hi
            have hk := hr.new_of_old k hi
            rw [← hlength, ← List.length_append]
            exact foundAt_append_right.2 hk
          · exact (hfirst i (by omega) hi).elim
        · rcases hi l.length hat with hlt | hle
          · rw [List.append_assoc, List.append_assoc, List.getElem?_append_left hlt,
              List.getElem?_append_left hlt]
          · obtain ⟨k, rfl⟩ := Nat.exists_eq_add_of_le hle
            have hk := hr.other k fun j hj => by
              have := hi (l.length + old.length + j)
                (by rw [← List.length_append]; exact foundAt_append_right.2 hj)
              omega
            rw [List.getElem?_append_right (by simp [hlength]),
              List.getElem?_append_right (by simp)]
            simpa [hlength] using hk

end Replace

section Spec

variable {old new w f g : List α} {i : ℕ}

/-- A stretch that no old word reaches into is as it was. -/
theorem Replaces.getElem?_eq (h : Replaces old new f g) {n : ℕ}
    (hclear : ∀ j, FoundAt old j f → i + n ≤ j ∨ j + old.length ≤ i) :
    ∀ k, k < n → g[i + k]? = f[i + k]? := by
  intro k hk
  refine h.other (i + k) fun j hj => ?_
  rcases hclear j hj with hle | hle <;> omega

/-- A word that is apart from both is found where it was. -/
theorem Replaces.foundAt_iff (h : Replaces old new f g) (hlength : new.length = old.length)
    (hold : Apart old w) (hnew : Apart new w) : FoundAt w i g ↔ FoundAt w i f := by
  constructor
  · intro hw
    refine hw.congr fun k hk => (h.getElem?_eq (n := w.length) (fun j hj => ?_) k hk).symm
    have hdisjoint := hnew.disjoint (h.new_of_old j hj) hw
    rw [hlength] at hdisjoint
    exact hdisjoint.symm
  · intro hw
    refine hw.congr (h.getElem?_eq fun j hj => ?_)
    exact (hold.disjoint hj hw).symm

/-- The old word is nowhere. -/
theorem Replaces.not_foundAt_old (h : Replaces old new f g) (hold : old ≠ [])
    (hlength : new.length = old.length) (hapart : Apart new old) : ¬ FoundAt old i g := by
  intro hi
  have hpos := List.length_pos_of_ne_nil hold
  have hf : FoundAt old i f := by
    refine hi.congr fun k hk => (h.getElem?_eq (n := old.length) (fun j hj => ?_) k hk).symm
    have hdisjoint := hapart.disjoint (h.new_of_old j hj) hi
    omega
  have hdisjoint := hapart.disjoint (h.new_of_old i hf) hi
  omega

/-- The new word is where it was, and where the old one was. -/
theorem Replaces.foundAt_new (h : Replaces old new f g) (hlength : new.length = old.length)
    (hself : Unbordered new) (hapart : Apart new old) :
    FoundAt new i g ↔ FoundAt old i f ∨ FoundAt new i f := by
  constructor
  · intro hi
    by_cases hold : FoundAt old i f
    · exact Or.inl hold
    · right
      refine hi.congr fun k hk => (h.getElem?_eq (n := new.length) (fun j hj => ?_) k hk).symm
      rcases hself.disjoint (h.new_of_old j hj) hi with rfl | hle | hle
      · exact (hold hj).elim
      · exact Or.inr (by omega)
      · exact Or.inl hle
  · rintro (hi | hi)
    · exact h.new_of_old i hi
    · refine hi.congr (h.getElem?_eq fun j hj => ?_)
      have hdisjoint := hapart.disjoint hi hj
      omega

end Spec

end Occurrence
