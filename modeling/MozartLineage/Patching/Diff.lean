import Mathlib.Data.List.Infix
import Mathlib.Tactic.Common

/-!
# Unified diffs

A hunk is a block of lines, each of which is kept, deleted or inserted. `Rewrites hs f f'`
says that the hunks turn the text `f` into `f'`, each where its old lines are found, in
order and without an overlap. It says nothing of the line numbers, so a text may be
rewritten in more than one way; with hunks whose old lines are found only once there is
one way. `rewrite?` takes the leftmost one.

A block of lines survives a change of the text that does not reach into it. That the
contexts overlap is no harm.
-/

namespace Diff

inductive Edit (α : Type*) where
  | keep (a : α)
  | delete (a : α)
  | insert (a : α)
  deriving DecidableEq

namespace Edit

variable {α : Type*}

def before? : Edit α → Option α
  | keep a | delete a => some a
  | insert _ => none

def after? : Edit α → Option α
  | keep a | insert a => some a
  | delete _ => none

def reverse : Edit α → Edit α
  | keep a => keep a
  | delete a => insert a
  | insert a => delete a

@[simp] theorem reverse_reverse (e : Edit α) : e.reverse.reverse = e := by
  cases e <;> rfl

@[simp] theorem before?_reverse (e : Edit α) : e.reverse.before? = e.after? := by
  cases e <;> rfl

@[simp] theorem after?_reverse (e : Edit α) : e.reverse.after? = e.before? := by
  cases e <;> rfl

def isKeep : Edit α → Bool
  | keep _ => true
  | _ => false

end Edit

/-- The lines below `@@ -oldStart +newStart @@`. -/
structure Hunk (α : Type*) where
  oldStart : ℕ
  newStart : ℕ
  edits : List (Edit α)
  deriving DecidableEq

namespace Hunk

variable {α : Type*}

def before (h : Hunk α) : List α := h.edits.filterMap Edit.before?

def after (h : Hunk α) : List α := h.edits.filterMap Edit.after?

def reverse (h : Hunk α) : Hunk α := ⟨h.newStart, h.oldStart, h.edits.map Edit.reverse⟩

@[simp] theorem reverse_reverse (h : Hunk α) : h.reverse.reverse = h := by
  simp [reverse, Function.comp_def]

@[simp] theorem before_reverse (h : Hunk α) : h.reverse.before = h.after := by
  simp [before, after, reverse, List.filterMap_map]

@[simp] theorem after_reverse (h : Hunk α) : h.reverse.after = h.before := by
  simp [before, after, reverse, List.filterMap_map]

/-- Context on both sides, below the first line: no end of the file is asked for. -/
def Framed (h : Hunk α) : Prop :=
  1 < h.oldStart ∧ h.edits.head?.any Edit.isKeep ∧ h.edits.getLast?.any Edit.isKeep

instance (h : Hunk α) : Decidable h.Framed := inferInstanceAs (Decidable (_ ∧ _))

end Hunk

variable {α : Type*}

/-- The blocks are found in the text, in order. -/
def Contains : List (List α) → List α → Prop
  | [], _ => True
  | b :: bs, f => ∃ l r, f = l ++ b ++ r ∧ Contains bs r

def Rewrites : List (Hunk α) → List α → List α → Prop
  | [], f, f' => f = f'
  | h :: hs, f, f' =>
      ∃ l r r', f = l ++ h.before ++ r ∧ f' = l ++ h.after ++ r' ∧ Rewrites hs r r'

theorem Rewrites.reverse {hs : List (Hunk α)} {f f' : List α} (h : Rewrites hs f f') :
    Rewrites (hs.map Hunk.reverse) f' f := by
  induction hs generalizing f f' with
  | nil => exact Eq.symm h
  | cons h₀ hs ih =>
      obtain ⟨l, r, r', rfl, rfl, hrest⟩ := h
      exact ⟨l, r', r, by simp, by simp, ih hrest⟩

/-- What can be rewritten are the texts that contain the old blocks. -/
theorem contains_iff_exists_rewrites {hs : List (Hunk α)} {f : List α} :
    Contains (hs.map Hunk.before) f ↔ ∃ f', Rewrites hs f f' := by
  induction hs generalizing f with
  | nil => exact ⟨fun _ => ⟨f, rfl⟩, fun _ => trivial⟩
  | cons h hs ih =>
      constructor
      · rintro ⟨l, r, rfl, hrest⟩
        obtain ⟨r', hr'⟩ := ih.1 hrest
        exact ⟨_, l, r, r', rfl, rfl, hr'⟩
      · rintro ⟨f', l, r, r', rfl, -, hrest⟩
        exact ⟨l, r, rfl, ih.2 ⟨r', hrest⟩⟩

/-- What can be taken back are the texts that contain the new blocks. -/
theorem contains_after_iff {hs : List (Hunk α)} {f : List α} :
    Contains (hs.map Hunk.after) f ↔ ∃ f', Rewrites (hs.map Hunk.reverse) f f' := by
  have hcomp : Hunk.before ∘ Hunk.reverse = (Hunk.after : Hunk α → List α) :=
    funext Hunk.before_reverse
  rw [← contains_iff_exists_rewrites, List.map_map, hcomp]

theorem Rewrites.count_eq [BEq α] {hs : List (Hunk α)} {f f' : List α} {a : α}
    (ha : ∀ h ∈ hs, h.before.count a = h.after.count a) (h : Rewrites hs f f') :
    f.count a = f'.count a := by
  induction hs generalizing f f' with
  | nil => rw [show f = f' from h]
  | cons h₀ hs ih =>
      obtain ⟨l, r, r', rfl, rfl, hrest⟩ := h
      have htail := ih (fun h₁ hh => ha h₁ (by simp [hh])) hrest
      simp only [List.count_append, ha h₀ (by simp), htail]

/-! ### Blocks that are found once -/

def Once (b f : List α) : Prop :=
  ∀ l r l' r', f = l ++ b ++ r → f = l' ++ b ++ r' → l = l'

theorem Once.of_append {b c l r : List α} (h : Once b (l ++ c ++ r)) : Once b r := by
  rintro p s p' s' rfl hr
  have heq := h (l ++ c ++ p) s (l ++ c ++ p') s' (by simp) (by rw [hr]; simp)
  exact List.append_cancel_left heq

/-- A line that is in the text once splits it in one way. -/
theorem eq_of_count [DecidableEq α] {a : α} {p s p' s' : List α}
    (hcount : (p ++ a :: s).count a = 1) (h : p ++ a :: s = p' ++ a :: s') : p = p' := by
  have hp : a ∉ p := by
    intro hmem
    have hpos := List.count_pos_iff.2 hmem
    simp only [List.count_append, List.count_cons_self] at hcount
    omega
  have hp' : a ∉ p' := by
    intro hmem
    have hpos := List.count_pos_iff.2 hmem
    rw [h] at hcount
    simp only [List.count_append, List.count_cons_self] at hcount
    omega
  have hidx := congrArg (List.idxOf a) h
  rw [List.idxOf_append_of_notMem hp, List.idxOf_append_of_notMem hp'] at hidx
  simp only [List.idxOf_cons_self, Nat.add_zero] at hidx
  exact List.append_inj_left h hidx

/-- A block with a line that is in the text once is itself found once. -/
theorem once_of_count [DecidableEq α] {a : α} {b f : List α} (ha : a ∈ b)
    (hcount : f.count a = 1) : Once b f := by
  obtain ⟨b₁, b₂, rfl⟩ := List.append_of_mem ha
  rintro l r l' r' rfl hf
  have hsplit : (l ++ b₁) ++ a :: (b₂ ++ r) = (l' ++ b₁) ++ a :: (b₂ ++ r') := by
    simpa using hf
  exact List.append_cancel_right (eq_of_count (by simpa using hcount) hsplit)

theorem Rewrites.unique {hs : List (Hunk α)} {f f' f'' : List α}
    (honce : ∀ h ∈ hs, Once h.before f) (h : Rewrites hs f f') (h' : Rewrites hs f f'') :
    f' = f'' := by
  induction hs generalizing f f' f'' with
  | nil => exact (show f = f' from h).symm.trans h'
  | cons h₀ hs ih =>
      obtain ⟨l, r, r', rfl, rfl, hrest⟩ := h
      obtain ⟨l', s, s', heq, rfl, hrest'⟩ := h'
      obtain rfl := honce h₀ (by simp) l r l' s rfl heq
      obtain rfl := List.append_cancel_left heq
      have htail := ih (fun h₁ hh => (honce h₁ (by simp [hh])).of_append) hrest hrest'
      rw [htail]

/-! ### The leftmost rewriting -/

section Search

variable [DecidableEq α]

/-- Puts `c` for the first `b` after which the rest `k` succeeds. -/
def place (b c : List α) (k : List α → Option (List α)) : List α → Option (List α)
  | [] => if b = [] then (k []).map (c ++ ·) else none
  | a :: f =>
      let here := if b <+: a :: f then (k ((a :: f).drop b.length)).map (c ++ ·) else none
      here <|> (place b c k f).map (a :: ·)

def rewrite? : List (Hunk α) → List α → Option (List α)
  | [] => some
  | h :: hs => place h.before h.after (rewrite? hs)

theorem of_place {b c : List α} {k : List α → Option (List α)} {f g : List α}
    (h : place b c k f = some g) :
    ∃ l r r', f = l ++ b ++ r ∧ g = l ++ c ++ r' ∧ k r = some r' := by
  induction f generalizing g with
  | nil =>
      simp only [place, Option.ite_none_right_eq_some, Option.map_eq_some_iff] at h
      obtain ⟨rfl, r', hk, rfl⟩ := h
      exact ⟨[], [], r', rfl, rfl, hk⟩
  | cons a f ih =>
      simp only [place, Option.orElse_eq_orElse, Option.orElse_eq_or, Option.or_eq_some_iff,
        Option.ite_none_right_eq_some, Option.map_eq_some_iff] at h
      rcases h with ⟨⟨r, hr⟩, r', hk, rfl⟩ | ⟨-, g', hg', rfl⟩
      · refine ⟨[], r, r', by simpa using hr.symm, rfl, ?_⟩
        rwa [← hr, List.drop_left] at hk
      · obtain ⟨l, r, r', rfl, rfl, hk⟩ := ih hg'
        exact ⟨a :: l, r, r', rfl, rfl, hk⟩

theorem place_isSome {b c : List α} {k : List α → Option (List α)} {l r : List α}
    (h : (k r).isSome) : (place b c k (l ++ b ++ r)).isSome := by
  induction l with
  | nil =>
      cases b with
      | nil => cases r <;> simp [place, h]
      | cons a b => simp [place, h]
  | cons a l ih =>
      have hrest : ((place b c k (l ++ b ++ r)).map (a :: ·)).isSome := by simpa using ih
      simp only [List.cons_append, place]
      split_ifs <;> simp_all

theorem rewrites_of_rewrite? {hs : List (Hunk α)} {f f' : List α}
    (h : rewrite? hs f = some f') : Rewrites hs f f' := by
  induction hs generalizing f f' with
  | nil => exact Option.some.inj h
  | cons h₀ hs ih =>
      obtain ⟨l, r, r', hf, hf', hk⟩ := of_place h
      exact ⟨l, r, r', hf, hf', ih hk⟩

theorem rewrite?_isSome {hs : List (Hunk α)} {f f' : List α} (h : Rewrites hs f f') :
    (rewrite? hs f).isSome := by
  induction hs generalizing f f' with
  | nil => rfl
  | cons h₀ hs ih =>
      obtain ⟨l, r, r', rfl, rfl, hrest⟩ := h
      exact place_isSome (ih hrest)

end Search

/-! ### A change elsewhere in the text -/

/-- The lines `old` between `x` and `y` do not reach into the block, and if there are none
the place between `x` and `y` is not inside of it. -/
structure Clear (x old y b : List α) : Prop where
  block_ne : b ≠ []
  deleted : ∀ a ∈ old, a ∉ b
  inserted : old = [] → ∀ u ∈ x.getLast?, ∀ v ∈ y.head?, ¬ [u, v] <:+: b

instance [DecidableEq α] (x old y b : List α) : Decidable (Clear x old y b) :=
  decidable_of_iff (b ≠ [] ∧ (∀ a ∈ old, a ∉ b) ∧
      (old = [] → ∀ u ∈ x.getLast?, ∀ v ∈ y.head?, ¬ [u, v] <:+: b))
    ⟨fun h => ⟨h.1, h.2.1, h.2.2⟩, fun h => ⟨h.block_ne, h.deleted, h.inserted⟩⟩

/-- The block lies on one side of the change. -/
theorem Clear.sides {x old y l b r : List α} (h : Clear x old y b)
    (heq : x ++ old ++ y = l ++ b ++ r) :
    (∃ m, l = x ++ old ++ m ∧ y = m ++ b ++ r) ∨
      ∃ m, x = l ++ b ++ m ∧ r = m ++ old ++ y := by
  obtain ⟨v, b', hb⟩ := List.exists_cons_of_ne_nil h.block_ne
  rw [List.append_assoc, List.append_assoc, List.append_eq_append_iff] at heq
  rcases heq with ⟨m, hl, hm⟩ | ⟨m, hx, hm⟩
  · -- the block begins behind `x`
    rcases List.append_eq_append_iff.1 hm with ⟨e, rfl, hy⟩ | ⟨e, hold, hbr⟩
    · exact Or.inl ⟨e, by simp [hl], by simp [hy]⟩
    · cases e with
      | nil => exact Or.inl ⟨[], by simpa [hold] using hl, by simpa using hbr.symm⟩
      | cons z e =>
          rw [hb, List.cons_append, List.cons_append, List.cons.injEq] at hbr
          exact (h.deleted z (by simp [hold]) (by simp [hb, hbr.1])).elim
  · -- the block begins in `x`
    rcases List.append_eq_append_iff.1 hm with ⟨e, hme, hrest⟩ | ⟨e, hbe, hrest⟩
    · exact Or.inr ⟨e, by simp [hx, hme], by simp [hrest]⟩
    · cases e with
      | nil => exact Or.inr ⟨[], by simpa [hbe] using hx, by simpa using hrest.symm⟩
      | cons z e =>
          cases old with
          | cons w old =>
              rw [List.cons_append, List.cons_append, List.cons.injEq] at hrest
              exact (h.deleted w (by simp) (by simp [hbe, hrest.1])).elim
          | nil =>
              rcases List.eq_nil_or_concat m with rfl | ⟨m', u, rfl⟩
              · exact Or.inl ⟨[], by simpa using hx.symm, by simpa [hbe] using hrest⟩
              · refine (h.inserted rfl u (by simp [hx]) z (by simpa using congrArg List.head? hrest)
                  ?_).elim
                exact ⟨m', e, by simp [hbe]⟩

theorem Clear.of_append {l x old y b : List α} (h : Clear (l ++ x) old y b) :
    Clear x old y b := by
  refine ⟨h.block_ne, h.deleted, fun hold u hu => h.inserted hold u ?_⟩
  rw [Option.mem_def] at hu ⊢
  rw [List.getLast?_append, hu]
  rfl

/-- Blocks are found after a change that does not reach into any of them. -/
theorem Contains.change {bs : List (List α)} {x old y : List α} (new : List α)
    (h : Contains bs (x ++ old ++ y)) (hclear : ∀ b ∈ bs, Clear x old y b) :
    Contains bs (x ++ new ++ y) := by
  induction bs generalizing x with
  | nil => trivial
  | cons b bs ih =>
      obtain ⟨l, r, heq, hrest⟩ := h
      rcases (hclear b (by simp)).sides heq with ⟨m, rfl, rfl⟩ | ⟨m, rfl, rfl⟩
      · exact ⟨x ++ new ++ m, r, by simp, hrest⟩
      · exact ⟨l, m ++ new ++ y, by simp,
          ih hrest fun c hc => (hclear c (by simp [hc])).of_append⟩

/-- One change, with its context. -/
structure Change (α : Type*) where
  oldStart : ℕ
  newStart : ℕ
  lead : List α
  old : List α
  new : List α
  trail : List α

namespace Change

def hunk (c : Change α) : Hunk α where
  oldStart := c.oldStart
  newStart := c.newStart
  edits := c.lead.map .keep ++ c.old.map .delete ++ c.new.map .insert ++ c.trail.map .keep

theorem before_hunk (c : Change α) : c.hunk.before = c.lead ++ c.old ++ c.trail := by
  simp [hunk, Hunk.before, List.filterMap_append, List.filterMap_map, Function.comp_def,
    Edit.before?]

theorem after_hunk (c : Change α) : c.hunk.after = c.lead ++ c.new ++ c.trail := by
  simp [hunk, Hunk.after, List.filterMap_append, List.filterMap_map, Function.comp_def,
    Edit.after?]

/-- The context goes on to the lines of the text around it. -/
theorem clear_of_lead {c : Change α} {l r b : List α} (hlead : c.lead ≠ [])
    (htrail : c.trail ≠ []) (h : Clear c.lead c.old c.trail b) :
    Clear (l ++ c.lead) c.old (c.trail ++ r) b := by
  refine ⟨h.block_ne, h.deleted, fun hold u hu v hv => h.inserted hold u ?_ v ?_⟩
  · rwa [List.getLast?_append_of_ne_nil _ hlead] at hu
  · rwa [List.head?_append_of_ne_nil _ htrail] at hv

/-- What has been patched in is found after the change. -/
theorem contains {c : Change α} {bs : List (List α)} {f f' : List α}
    (hlead : c.lead ≠ []) (htrail : c.trail ≠ [])
    (hclear : ∀ b ∈ bs, Clear c.lead c.old c.trail b) (hrw : Rewrites [c.hunk] f f')
    (h : Contains bs f) : Contains bs f' := by
  obtain ⟨l, r, r', rfl, rfl, rfl⟩ := hrw
  have htext : Contains bs ((l ++ c.lead) ++ c.old ++ (c.trail ++ r)) := by
    simpa [before_hunk] using h
  have hchange := htext.change c.new fun b hb => clear_of_lead hlead htrail (hclear b hb)
  simpa [after_hunk] using hchange

end Change

end Diff
