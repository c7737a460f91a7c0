import Mathlib.Logic.Function.Basic
import Mathlib.Data.List.Induction

/-!
# Runs of a machine

A machine takes an action in a state, when the action is enabled there, and
emits a list of events. `run m s as` takes the actions of `as` in order from
`s`: it is `none` as soon as one of them is not enabled, and otherwise gives the
state reached together with everything that was emitted on the way. Since every
prefix of a run is a run, a statement about the end of every run is a statement
about every state that is ever reached.

The invariant rules carry the events emitted so far next to the state, so that an
invariant may relate the two; `run_induction` carries the actions as well. There
is a rule for runs whose actions all meet a guard on the state they are taken in.
-/

namespace Transition

/-- A partial step function with events: `none` where the action is disabled. -/
abbrev Machine (σ α ω : Type*) := σ → α → Option (σ × List ω)

namespace Machine

variable {σ α ω : Type*}

/-- The state reached by the actions of a list and the events they emit. -/
def run (m : Machine σ α ω) : σ → List α → Option (σ × List ω)
  | s, [] => some (s, [])
  | s, a :: as =>
      (m s a).bind fun p => (run m p.1 as).map fun q => (q.1, p.2 ++ q.2)

@[simp] theorem run_nil (m : Machine σ α ω) (s : σ) :
    m.run s [] = some (s, []) := rfl

theorem run_cons (m : Machine σ α ω) (s : σ) (a : α) (as : List α) :
    m.run s (a :: as) =
      (m s a).bind fun p =>
        (m.run p.1 as).map fun q => (q.1, p.2 ++ q.2) := rfl

theorem run_cons_eq_some {m : Machine σ α ω} {s u : σ} {a : α} {as : List α}
    {os : List ω} :
    m.run s (a :: as) = some (u, os) ↔
      ∃ t o os', m s a = some (t, o) ∧ m.run t as = some (u, os') ∧
        o ++ os' = os := by
  rw [run_cons]
  constructor
  · intro h
    obtain ⟨⟨t, o⟩, ht, h⟩ := Option.bind_eq_some_iff.1 h
    obtain ⟨⟨u', os'⟩, hu, h⟩ := Option.map_eq_some_iff.1 h
    cases h
    exact ⟨t, o, os', ht, hu, rfl⟩
  · rintro ⟨t, o, os', ht, hu, rfl⟩
    simp [ht, hu]

/-- A machine on which every action is enabled runs on every list of them. -/
theorem run_isSome {m : Machine σ α ω} (h : ∀ s a, (m s a).isSome) (s : σ) (as : List α) :
    (m.run s as).isSome := by
  induction as generalizing s with
  | nil => rfl
  | cons a as ih =>
      obtain ⟨p, hp⟩ := Option.isSome_iff_exists.1 (h s a)
      simpa [run_cons, hp] using ih p.1

/-- A run splits at every point of its list of actions. -/
theorem run_append_eq_some {m : Machine σ α ω} {s u : σ} {as bs : List α}
    {os : List ω} :
    m.run s (as ++ bs) = some (u, os) ↔
      ∃ t o o', m.run s as = some (t, o) ∧ m.run t bs = some (u, o') ∧
        o ++ o' = os := by
  induction as generalizing s os with
  | nil =>
      simp only [List.nil_append, run_nil, Option.some.injEq, Prod.mk.injEq]
      constructor
      · intro h
        exact ⟨s, [], os, ⟨rfl, rfl⟩, h, rfl⟩
      · rintro ⟨t, o, o', ⟨rfl, rfl⟩, h, rfl⟩
        exact h
  | cons a as ih =>
      rw [List.cons_append, run_cons_eq_some]
      constructor
      · rintro ⟨t, o, os', ht, hu, rfl⟩
        obtain ⟨v, o₁, o₂, hv, hb, rfl⟩ := ih.1 hu
        exact ⟨v, o ++ o₁, o₂, run_cons_eq_some.2 ⟨t, o, o₁, ht, hv, rfl⟩, hb,
          List.append_assoc o o₁ o₂⟩
      · rintro ⟨v, o₁, o₂, hv, hb, rfl⟩
        obtain ⟨t, o, os', ht, hw, rfl⟩ := run_cons_eq_some.1 hv
        exact ⟨t, o, os' ++ o₂, ht, ih.2 ⟨v, os', o₂, hw, hb, rfl⟩,
          (List.append_assoc o os' o₂).symm⟩

/-- The last action of a run, split off. -/
theorem run_concat_eq_some {m : Machine σ α ω} {s u : σ} {as : List α} {a : α}
    {os : List ω} :
    m.run s (as ++ [a]) = some (u, os) ↔
      ∃ t o o', m.run s as = some (t, o) ∧ m t a = some (u, o') ∧
        o ++ o' = os := by
  rw [run_append_eq_some]
  constructor
  · rintro ⟨t, o, o', ht, hu, rfl⟩
    obtain ⟨v, o₁, o₂, hv, hn, rfl⟩ := run_cons_eq_some.1 hu
    simp only [run_nil, Option.some.injEq, Prod.mk.injEq] at hn
    obtain ⟨rfl, rfl⟩ := hn
    exact ⟨t, o, o₁, ht, hv, by simp⟩
  · rintro ⟨t, o, o', ht, hu, rfl⟩
    exact ⟨t, o, o', ht, run_cons_eq_some.2 ⟨u, o', [], hu, rfl, by simp⟩, rfl⟩

/-- Induction along a run, for what relates its actions, its events and the state
that it has reached. -/
theorem run_induction {m : Machine σ α ω} {P : List α → σ → List ω → Prop} {s t : σ}
    {as : List α} {os : List ω} (h₀ : P [] s [])
    (hstep : ∀ as u os a v o, P as u os → m u a = some (v, o) → P (as ++ [a]) v (os ++ o))
    (hrun : m.run s as = some (t, os)) : P as t os := by
  induction as using List.reverseRecOn generalizing t os with
  | nil =>
      simp only [run_nil, Option.some.injEq, Prod.mk.injEq] at hrun
      obtain ⟨rfl, rfl⟩ := hrun
      exact h₀
  | append_singleton as a ih =>
      obtain ⟨u, o, o', hu, ht, rfl⟩ := run_concat_eq_some.1 hrun
      exact hstep as u o a t o' (ih hu) ht

/-- What holds at the start and is preserved by every step holds at the end of
every run. -/
theorem run_invariant {m : Machine σ α ω} {P : σ → List ω → Prop}
    (hstep : ∀ s os a t o, P s os → m s a = some (t, o) → P t (os ++ o))
    {s t : σ} {as : List α} {os : List ω} (h₀ : P s [])
    (hrun : m.run s as = some (t, os)) : P t os :=
  run_induction (P := fun _ s os => P s os) h₀ (fun _ => hstep) hrun

/-- Every action of the list meets the guard `G` in the state the run takes it
in. -/
def Meets (m : Machine σ α ω) (G : σ → α → Prop) : σ → List α → Prop
  | _, [] => True
  | s, a :: as =>
      G s a ∧ match m s a with
        | none => True
        | some p => Meets m G p.1 as

theorem meets_cons {m : Machine σ α ω} {G : σ → α → Prop} {s : σ} {a : α}
    {as : List α} :
    m.Meets G s (a :: as) ↔
      G s a ∧ ∀ t o, m s a = some (t, o) → m.Meets G t as := by
  rw [Meets]
  refine and_congr_right fun _ => ?_
  cases h : m s a with
  | none => simp
  | some p =>
      constructor
      · rintro hp t o heq
        cases heq
        exact hp
      · intro hp
        exact hp p.1 p.2 rfl

instance Meets.decidable (m : Machine σ α ω) (G : σ → α → Prop)
    [∀ s a, Decidable (G s a)] : ∀ s as, Decidable (m.Meets G s as)
  | _, [] => .isTrue trivial
  | s, a :: as =>
      match h : m s a with
      | none => decidable_of_iff (G s a) (by simp [Meets, h])
      | some p =>
          have := Meets.decidable m G p.1 as
          decidable_of_iff (G s a ∧ m.Meets G p.1 as) (by simp [Meets, h])

/-- A guard that every action satisfies everywhere puts no limit on a run. -/
theorem meets_of_forall {m : Machine σ α ω} {G : σ → α → Prop}
    {as : List α} (h : ∀ a ∈ as, ∀ s, G s a) (s : σ) : m.Meets G s as := by
  induction as generalizing s with
  | nil => trivial
  | cons a as ih =>
      refine meets_cons.2 ⟨h a (by simp) s, fun t _ _ => ?_⟩
      exact ih (fun b hb => h b (by simp [hb])) t

/-- A run meets a guard if each of its actions does. -/
theorem meets_iff_forall {m : Machine σ α ω} {G : σ → α → Prop} {s : σ} {as : List α} :
    m.Meets G s as ↔ ∀ as₁ a as₂ t o, as = as₁ ++ a :: as₂ →
      m.run s as₁ = some (t, o) → G t a := by
  constructor
  · rintro h as₁ a as₂ t o rfl hrun
    induction as₁ generalizing s o with
    | nil =>
        simp only [run_nil, Option.some.injEq, Prod.mk.injEq] at hrun
        obtain ⟨rfl, rfl⟩ := hrun
        exact (meets_cons.1 h).1
    | cons a' as₁ ih =>
        obtain ⟨u, o', os', hu, htail, rfl⟩ := run_cons_eq_some.1 hrun
        exact ih os' ((meets_cons.1 h).2 u o' hu) htail
  · intro h
    induction as generalizing s with
    | nil => trivial
    | cons a as ih =>
        refine meets_cons.2 ⟨h [] a as s [] rfl rfl, fun u o hu => ih ?_⟩
        rintro as₁ b as₂ t o' rfl hrun
        exact h (a :: as₁) b as₂ t (o ++ o') rfl (run_cons_eq_some.2 ⟨u, o, o', hu, hrun, rfl⟩)

theorem Meets.and {m : Machine σ α ω} {G H : σ → α → Prop} {s : σ}
    {as : List α} (hG : m.Meets G s as) (hH : m.Meets H s as) :
    m.Meets (fun s a => G s a ∧ H s a) s as := by
  induction as generalizing s with
  | nil => trivial
  | cons a as ih =>
      obtain ⟨hGa, hG⟩ := meets_cons.1 hG
      obtain ⟨hHa, hH⟩ := meets_cons.1 hH
      exact meets_cons.2 ⟨⟨hGa, hHa⟩, fun t o ht => ih (hG t o ht) (hH t o ht)⟩

/-- The invariant rule for runs whose actions all meet a guard. -/
theorem run_invariant_of_meets {m : Machine σ α ω} {G : σ → α → Prop}
    {P : σ → List ω → Prop}
    (hstep : ∀ s os a t o, P s os → G s a → m s a = some (t, o) →
      P t (os ++ o))
    {s t : σ} {as : List α} {os : List ω} (h₀ : P s []) (hG : m.Meets G s as)
    (hrun : m.run s as = some (t, os)) : P t os := by
  suffices h : ∀ pre, P s pre → P t (pre ++ os) by simpa using h [] h₀
  clear h₀
  induction as generalizing s os with
  | nil =>
      intro pre hpre
      simp only [run_nil, Option.some.injEq, Prod.mk.injEq] at hrun
      obtain ⟨rfl, rfl⟩ := hrun
      simpa using hpre
  | cons a as ih =>
      intro pre hpre
      obtain ⟨u, o, os', hu, htail, rfl⟩ := run_cons_eq_some.1 hrun
      obtain ⟨hGa, hG⟩ := meets_cons.1 hG
      rw [← List.append_assoc]
      exact ih (hG u o hu) htail (pre ++ o) (hstep s pre a u o hpre hGa hu)

/-- What every step of a run shows of an event and the events before it holds of
every event of the run. -/
theorem run_events_of_meets {m : Machine σ α ω} {G : σ → α → Prop}
    {P : σ → List ω → Prop} {Q : List ω → ω → Prop}
    (hstep : ∀ s os a p, P s os → G s a → m s a = some p → P p.1 (os ++ p.2))
    (hevent : ∀ s os a p, P s os → G s a → m s a = some p →
      ∀ o₁ e o₂, p.2 = o₁ ++ e :: o₂ → Q (os ++ o₁) e)
    {s t : σ} {as : List α} {os : List ω} (h₀ : P s []) (hG : m.Meets G s as)
    (hrun : m.run s as = some (t, os)) :
    ∀ pre e post, os = pre ++ e :: post → Q pre e := by
  refine (run_invariant_of_meets (P := fun s os =>
    P s os ∧ ∀ pre e post, os = pre ++ e :: post → Q pre e) ?_ ⟨h₀, by simp⟩ hG hrun).2
  rintro s os a t o ⟨hs, hos⟩ hGa h
  refine ⟨hstep s os a (t, o) hs hGa h, fun pre e post hsplit => ?_⟩
  rcases List.append_eq_append_iff.1 hsplit with ⟨o₁, rfl, ho⟩ | ⟨o₁, rfl, ho⟩
  · exact hevent s os a (t, o) hs hGa h o₁ e post ho
  · cases o₁ with
    | nil => simpa using hevent s _ a (t, o) hs hGa h [] e post (by simpa using ho.symm)
    | cons e' o₁ =>
        obtain ⟨rfl, -⟩ := List.cons.inj ho
        exact hos pre e o₁ rfl

/-- The rule for the events of every run. -/
theorem run_events {m : Machine σ α ω} {P : σ → List ω → Prop} {Q : List ω → ω → Prop}
    (hstep : ∀ s os a p, P s os → m s a = some p → P p.1 (os ++ p.2))
    (hevent : ∀ s os a p, P s os → m s a = some p →
      ∀ o₁ e o₂, p.2 = o₁ ++ e :: o₂ → Q (os ++ o₁) e)
    {s t : σ} {as : List α} {os : List ω} (h₀ : P s [])
    (hrun : m.run s as = some (t, os)) :
    ∀ pre e post, os = pre ++ e :: post → Q pre e :=
  run_events_of_meets (G := fun _ _ => True) (fun s os a p hs _ => hstep s os a p hs)
    (fun s os a p hs _ => hevent s os a p hs) h₀
    (meets_of_forall (fun _ _ _ => trivial) s) hrun

/-! ### What holds all along a run -/

/-- Every state on the way has the property, the first and the last one included. -/
def Throughout (m : Machine σ α ω) (P : σ → Prop) (s : σ) (as : List α) : Prop :=
  ∀ as₁ t o, as₁ <+: as → m.run s as₁ = some (t, o) → P t

@[simp] theorem throughout_nil {m : Machine σ α ω} {P : σ → Prop} {s : σ} :
    m.Throughout P s [] ↔ P s := by
  constructor
  · intro h
    exact h [] s [] List.prefix_rfl rfl
  · intro hs as₁ t o hpre hrun
    obtain rfl := List.prefix_nil.1 hpre
    simp only [run_nil, Option.some.injEq, Prod.mk.injEq] at hrun
    exact hrun.1 ▸ hs

theorem throughout_cons {m : Machine σ α ω} {P : σ → Prop} {s : σ} {a : α} {as : List α} :
    m.Throughout P s (a :: as) ↔
      P s ∧ ∀ t o, m s a = some (t, o) → m.Throughout P t as := by
  constructor
  · intro h
    refine ⟨h [] s [] List.nil_prefix rfl, fun t o ht as₁ u o' hpre hrun => ?_⟩
    exact h (a :: as₁) u (o ++ o') ((List.prefix_cons_inj a).2 hpre)
      (run_cons_eq_some.2 ⟨t, o, o', ht, hrun, rfl⟩)
  · rintro ⟨hs, h⟩ as₁ u os hpre hrun
    cases as₁ with
    | nil =>
        simp only [run_nil, Option.some.injEq, Prod.mk.injEq] at hrun
        exact hrun.1 ▸ hs
    | cons b as₁ =>
        obtain ⟨rfl, htail⟩ := List.cons_prefix_cons.1 hpre
        obtain ⟨t, o, o', ht, hrun, -⟩ := run_cons_eq_some.1 hrun
        exact h t o ht as₁ u o' htail hrun

theorem Throughout.of_append {m : Machine σ α ω} {P : σ → Prop} {s : σ} {as bs : List α}
    (h : m.Throughout P s (as ++ bs)) : m.Throughout P s as :=
  fun as₁ t o hpre hrun => h as₁ t o (hpre.trans (List.prefix_append as bs)) hrun

theorem Throughout.last {m : Machine σ α ω} {P : σ → Prop} {s t : σ} {as : List α}
    {os : List ω} (h : m.Throughout P s as) (hrun : m.run s as = some (t, os)) : P t :=
  h as t os List.prefix_rfl hrun

/-! ### Logs -/

variable {ω' : Type*}

/-- The machine with a log in place of its events. What a step adds to the log may depend
on the state and on the action too. -/
def logged (m : Machine σ α ω) (log : σ → α → List ω → List ω') : Machine σ α ω' :=
  fun s a => (m s a).map fun p => (p.1, log s a p.2)

theorem logged_eq_some {m : Machine σ α ω} {log : σ → α → List ω → List ω'} {s t : σ} {a : α}
    {o : List ω'} :
    m.logged log s a = some (t, o) ↔ ∃ o', m s a = some (t, o') ∧ log s a o' = o := by
  simp [logged]

/-- A log does not change the runs. -/
theorem run_of_run_logged {m : Machine σ α ω} {log : σ → α → List ω → List ω'} {s t : σ}
    {as : List α} {os : List ω'} (h : (m.logged log).run s as = some (t, os)) :
    ∃ os', m.run s as = some (t, os') := by
  induction as generalizing s os with
  | nil =>
      simp only [run_nil, Option.some.injEq, Prod.mk.injEq] at h
      exact ⟨[], by rw [run_nil, h.1]⟩
  | cons a as ih =>
      obtain ⟨u, o, os', hu, htail, rfl⟩ := run_cons_eq_some.1 h
      obtain ⟨o', ho', -⟩ := logged_eq_some.1 hu
      obtain ⟨os'', hos''⟩ := ih htail
      exact ⟨o' ++ os'', run_cons_eq_some.2 ⟨u, o', os'', ho', hos'', rfl⟩⟩

end Machine

end Transition
