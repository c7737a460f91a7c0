import MozartLineage.Transition.Run
import Mathlib.Order.BooleanAlgebra.Set

/-!
# Monitors

A monitor reads a history event by event. It has a state of its own, and in each state
it allows some events and not others; `Accepts` says that every event of a history was
allowed when it came.

`ownership` is the monitor of the resources that a component holds. A resource that is
held is not taken again, and one that is not held is neither given up nor touched.
-/

namespace Transition

structure Monitor (ω μ : Type*) where
  next : μ → ω → μ
  Allowed : μ → ω → Prop

namespace Monitor

variable {σ α ω μ : Type*} {M : Monitor ω μ} {x : μ} {e : ω} {os os' : List ω}

/-- The state of the monitor after a history. -/
def after (M : Monitor ω μ) (x : μ) (os : List ω) : μ := os.foldl M.next x

def Accepts (M : Monitor ω μ) : μ → List ω → Prop
  | _, [] => True
  | x, e :: os => M.Allowed x e ∧ M.Accepts (M.next x e) os

instance Accepts.decidable (M : Monitor ω μ) [∀ x e, Decidable (M.Allowed x e)] :
    ∀ x os, Decidable (M.Accepts x os)
  | _, [] => .isTrue trivial
  | x, e :: os =>
      have := Accepts.decidable M (M.next x e) os
      inferInstanceAs (Decidable (_ ∧ _))

@[simp] theorem after_nil : M.after x [] = x := rfl

@[simp] theorem after_cons : M.after x (e :: os) = M.after (M.next x e) os := rfl

@[simp] theorem after_append : M.after x (os ++ os') = M.after (M.after x os) os' :=
  List.foldl_append

@[simp] theorem accepts_nil : M.Accepts x [] := trivial

@[simp] theorem accepts_cons :
    M.Accepts x (e :: os) ↔ M.Allowed x e ∧ M.Accepts (M.next x e) os := Iff.rfl

@[simp] theorem accepts_append :
    M.Accepts x (os ++ os') ↔ M.Accepts x os ∧ M.Accepts (M.after x os) os' := by
  induction os generalizing x with
  | nil => simp
  | cons e os ih =>
      rw [List.cons_append, accepts_cons, accepts_cons, after_cons, ih, and_assoc]

/-- A monitor whose state is read off the state of the machine, and which accepts the
steps that meet a guard, accepts the runs that meet it. -/
theorem run_accepts_iff {m : Machine σ α ω} {G : σ → α → Prop} {P : σ → Prop}
    (view : σ → μ)
    (hstep : ∀ s a p, P s → m s a = some p →
      P p.1 ∧ M.after (view s) p.2 = view p.1 ∧ (M.Accepts (view s) p.2 ↔ G s a))
    {s t : σ} {as : List α} (h₀ : P s) (hrun : m.run s as = some (t, os)) :
    P t ∧ M.after (view s) os = view t ∧ (M.Accepts (view s) os ↔ m.Meets G s as) := by
  induction as generalizing s os with
  | nil =>
      simp only [Machine.run_nil, Option.some.injEq, Prod.mk.injEq] at hrun
      obtain ⟨rfl, rfl⟩ := hrun
      exact ⟨h₀, rfl, Iff.rfl⟩
  | cons a as ih =>
      obtain ⟨u, o, os', hu, htail, rfl⟩ := Machine.run_cons_eq_some.1 hrun
      obtain ⟨hP, hafter, haccepts⟩ := hstep s a (u, o) h₀ hu
      obtain ⟨hPt, hafter', haccepts'⟩ := ih hP htail
      rw [after_append, accepts_append, hafter]
      refine ⟨hPt, hafter', ?_⟩
      rw [haccepts, haccepts', Machine.meets_cons]
      refine and_congr_right fun _ => ⟨fun h v o' hv => ?_, fun h => h u o hu⟩
      obtain ⟨rfl, rfl⟩ : u = v ∧ o = o' := by simpa [hu] using hv
      exact h

/-! ### One monitor for each of many -/

section Each

variable {ι : Type*} [DecidableEq ι]

/-- Every event comes with the one that it is about. -/
def each (M : Monitor ω μ) : Monitor (ι × ω) (ι → μ) where
  next x e := Function.update x e.1 (M.next (x e.1) e.2)
  Allowed x e := M.Allowed (x e.1) e.2

theorem after_each (x : ι → μ) (i : ι) (os : List ω) :
    M.each.after x (os.map (Prod.mk i)) = Function.update x i (M.after (x i) os) := by
  induction os generalizing x with
  | nil => simp
  | cons e os ih =>
      rw [List.map_cons, after_cons, ih]
      simp [each]

theorem accepts_each (x : ι → μ) (i : ι) (os : List ω) :
    M.each.Accepts x (os.map (Prod.mk i)) ↔ M.Accepts (x i) os := by
  induction os generalizing x with
  | nil => simp
  | cons e os ih =>
      rw [List.map_cons, accepts_cons, accepts_cons, ih]
      simp [each]

end Each

end Monitor

/-- What an event does with a resource. -/
inductive Use (ρ : Type*) where
  | take (r : ρ)
  | give (r : ρ)
  | touch (r : ρ)

namespace Use

variable {ρ : Type*}

def next (held : Set ρ) : Use ρ → Set ρ
  | take r => insert r held
  | give r => held \ {r}
  | touch _ => held

def Allowed (held : Set ρ) : Use ρ → Prop
  | take r => r ∉ held
  | give r | touch r => r ∈ held

end Use

/-- The monitor of what is held, for events with the uses `use`. -/
def ownership {ω ρ : Type*} (use : ω → Option (Use ρ)) : Monitor ω (Set ρ) where
  next held e := (use e).elim held (Use.next held)
  Allowed held e := ∀ u ∈ use e, u.Allowed held

end Transition
