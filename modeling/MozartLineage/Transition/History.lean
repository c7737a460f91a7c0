import Mathlib.Data.List.Basic

/-!
# What a history says last

Some events of a history set a value. `latest f b os` is the value that was set
last, or `b` if none was set.
-/

namespace Transition

variable {ω β : Type*}

/-- The last value that an event of `os` has set, `b` before all of them. -/
def latest (f : ω → Option β) (b : β) (os : List ω) : β :=
  os.foldl (fun b e => (f e).getD b) b

@[simp] theorem latest_nil (f : ω → Option β) (b : β) : latest f b [] = b := rfl

@[simp] theorem latest_cons (f : ω → Option β) (b : β) (e : ω) (os : List ω) :
    latest f b (e :: os) = latest f ((f e).getD b) os := rfl

theorem latest_append (f : ω → Option β) (b : β) (os os' : List ω) :
    latest f b (os ++ os') = latest f (latest f b os) os' := by
  simp [latest]

/-- Events that set nothing leave the value. -/
theorem latest_of_forall_eq_none {f : ω → Option β} {os : List ω}
    (h : ∀ e ∈ os, f e = none) (b : β) : latest f b os = b := by
  induction os with
  | nil => rfl
  | cons e os ih =>
      rw [latest_cons, h e (by simp), Option.getD_none]
      exact ih fun e' he' => h e' (by simp [he'])

theorem latest_append_of_forall_eq_none {f : ω → Option β} {os' : List ω}
    (h : ∀ e ∈ os', f e = none) (b : β) (os : List ω) :
    latest f b (os ++ os') = latest f b os := by
  rw [latest_append, latest_of_forall_eq_none h]

end Transition
