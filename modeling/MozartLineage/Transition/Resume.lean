import MozartLineage.Transition.Run

/-!
# Scripts that are started again

A script is a list of commands, of which the first one that fails stops it. It may be
interrupted between two commands, and it is always started again from its beginning.

If every command, given once more, does the same again to what it has left, and no command
unsettles what an earlier one has done, all that comes of such a history is a run of the
commands up to some point, and a run to the end ends as it would have without the history.
-/

namespace Transition

structure Progress (σ ε : Type*) where
  state : σ
  stopped : Option ε

section Script

variable {σ α ε ω : Type*} (exec : α → σ → σ × Option ε) (log : α → σ → List ω)

/-- A command after which the script has stopped does nothing. -/
def script : Machine (Progress σ ε) α ω := fun p a =>
  if p.stopped.isSome then some (p, [])
  else some (⟨(exec a p.state).1, (exec a p.state).2⟩, log a p.state)

/-- The script is started, and interrupted after `k` commands if it is not at its end. -/
def attempt (as : List α) : Machine (Progress σ ε) ℕ ω := fun p k =>
  (script exec log).run ⟨p.state, none⟩ (as.take k)

/-- The whole script, without what it logs. -/
def runAll : List α → σ → σ × Option ε
  | [], s => (s, none)
  | a :: as, s =>
      match exec a s with
      | (t, none) => runAll as t
      | (t, some e) => (t, some e)

/-- The command has nothing to do, and does not fail. -/
def Settled (a : α) (s : σ) : Prop := exec a s = (s, none)

/-- What is asked of the commands, in the states that satisfy `Inv`. -/
structure Resumable (Inv : σ → Prop) (as : List α) : Prop where
  inv : ∀ a ∈ as, ∀ s, Inv s → Inv (exec a s).1
  again : ∀ a ∈ as, ∀ s, Inv s → exec a (exec a s).1 = exec a s
  frame : as.Pairwise fun a b => ∀ s, Inv s → Settled exec a s →
    Settled exec a (exec b s).1
  quiet : ∀ a ∈ as, ∀ s, Inv s → (exec a s).1 = s → log a s = []

end Script

section Runs

variable {σ α ε ω : Type*} {exec : α → σ → σ × Option ε} {log : α → σ → List ω}
  {Inv : σ → Prop} {as bs : List α} {s t : σ} {p q : Progress σ ε} {os : List ω}

theorem script_run_isSome (exec : α → σ → σ × Option ε) (log : α → σ → List ω)
    (p : Progress σ ε) (as : List α) :
    ((script exec log).run p as).isSome := by
  refine Machine.run_isSome (fun p a => ?_) p as
  unfold script
  split <;> rfl

@[simp] theorem script_stopped {e : ε} (a : α) :
    script exec log ⟨s, some e⟩ a = some (⟨s, some e⟩, []) := by
  simp [script]

theorem script_running (a : α) :
    script exec log ⟨s, none⟩ a = some (⟨(exec a s).1, (exec a s).2⟩, log a s) := by
  simp [script]

theorem script_run_stopped {e : ε} (as : List α) :
    (script exec log).run ⟨s, some e⟩ as = some (⟨s, some e⟩, []) := by
  induction as with
  | nil => rfl
  | cons a as ih => simp [Machine.run_cons, ih]

theorem script_run_eq (exec : α → σ → σ × Option ε) (log : α → σ → List ω) (s : σ)
    (as : List α) :
    ∃ os, (script exec log).run ⟨s, none⟩ as =
      some (⟨(runAll exec as s).1, (runAll exec as s).2⟩, os) := by
  induction as generalizing s with
  | nil => exact ⟨[], rfl⟩
  | cons a as ih =>
      rcases hexec : exec a s with ⟨t, status⟩
      cases status with
      | none =>
          obtain ⟨os, hos⟩ := ih t
          refine ⟨log a s ++ os, Machine.run_cons_eq_some.2 ⟨⟨t, none⟩, log a s, os, ?_, ?_, rfl⟩⟩
          · rw [script_running, hexec]
          · simpa [runAll, hexec] using hos
      | some e =>
          refine ⟨log a s ++ [], Machine.run_cons_eq_some.2 ⟨⟨t, some e⟩, log a s, [], ?_, ?_, rfl⟩⟩
          · rw [script_running, hexec]
          · rw [script_run_stopped]
            simp [runAll, hexec]

/-- What is logged has no influence. -/
theorem script_run_log {ω' : Type*} (log' : α → σ → List ω')
    (hrun : (script exec log).run p as = some (q, os)) :
    ∃ os', (script exec log').run p as = some (q, os') := by
  induction as generalizing p os with
  | nil =>
      cases hrun
      exact ⟨[], rfl⟩
  | cons a as ih =>
      obtain ⟨r, o, o', hr, hrest, rfl⟩ := Machine.run_cons_eq_some.1 hrun
      obtain ⟨os', hos'⟩ := ih hrest
      have hstep : ∃ o₁, script exec log' p a = some (r, o₁) := by
        unfold script at hr ⊢
        split at hr
        · next hstopped =>
          cases hr
          exact ⟨[], if_pos hstopped⟩
        · next hrunning =>
          cases hr
          exact ⟨log' a p.state, if_neg hrunning⟩
      obtain ⟨o₁, ho₁⟩ := hstep
      exact ⟨o₁ ++ os', Machine.run_cons_eq_some.2 ⟨r, o₁, os', ho₁, hos', rfl⟩⟩

theorem Resumable.of_append (h : Resumable exec log Inv (as ++ bs)) :
    Resumable exec log Inv as where
  inv a ha := h.inv a (by simp [ha])
  again a ha := h.again a (by simp [ha])
  frame := (List.pairwise_append.1 h.frame).1
  quiet a ha := h.quiet a (by simp [ha])

theorem Resumable.take (h : Resumable exec log Inv as) (n : ℕ) :
    Resumable exec log Inv (as.take n) := by
  rw [← List.take_append_drop n as] at h
  exact h.of_append

/-- A run that has not stopped has settled all its commands. -/
theorem Resumable.settled (h : Resumable exec log Inv as) (hs : Inv s)
    (hrun : (script exec log).run ⟨s, none⟩ as = some (⟨t, none⟩, os)) :
    Inv t ∧ ∀ a ∈ as, Settled exec a t := by
  induction as using List.reverseRecOn generalizing t os with
  | nil =>
      cases hrun
      exact ⟨hs, by simp⟩
  | append_singleton as b ih =>
      obtain ⟨⟨u, status⟩, o, o', hu, hb, -⟩ := Machine.run_concat_eq_some.1 hrun
      cases status with
      | some e => simp at hb
      | none =>
          obtain ⟨hinv, hsettled⟩ := ih h.of_append hu
          rw [script_running, Option.some.injEq, Prod.mk.injEq, Progress.mk.injEq] at hb
          obtain ⟨⟨rfl, hstatus⟩, -⟩ := hb
          refine ⟨h.inv b (by simp) u hinv, fun a ha => ?_⟩
          rcases List.mem_append.1 ha with ha | ha
          · have hframe := (List.pairwise_append.1 h.frame).2.2 a ha b (by simp)
            exact hframe u hinv (hsettled a ha)
          · obtain rfl := List.mem_singleton.1 ha
            exact (h.again a (by simp) u hinv).trans (Prod.ext rfl hstatus)

theorem script_run_settled (hsettled : ∀ a ∈ as, Settled exec a s) :
    (script exec log).run ⟨s, none⟩ as = some (⟨s, none⟩, as.flatMap fun a => log a s) := by
  induction as with
  | nil => rfl
  | cons a as ih =>
      have ha : exec a s = (s, none) := hsettled a (by simp)
      simp [Machine.run_cons, script_running, ha, ih fun b hb => hsettled b (by simp [hb])]

/-- The log of a run has a part of what each command may write to it. -/
theorem script_run_sublist {f : α → List ω} (hlog : ∀ a s, (log a s).Sublist (f a))
    (hrun : (script exec log).run p as = some (q, os)) : os.Sublist (as.flatMap f) := by
  induction as generalizing p os with
  | nil =>
      cases hrun
      exact List.Sublist.slnil
  | cons a as ih =>
      obtain ⟨r, o, o', hr, hrest, rfl⟩ := Machine.run_cons_eq_some.1 hrun
      refine List.Sublist.append ?_ (ih hrest)
      unfold script at hr
      split at hr
      · cases hr
        exact List.nil_sublist _
      · cases hr
        exact hlog a p.state

/-- Settled commands may be given again. -/
theorem Resumable.run_settled (h : Resumable exec log Inv as) (hs : Inv s)
    (hsettled : ∀ a ∈ as, Settled exec a s) :
    (script exec log).run ⟨s, none⟩ as = some (⟨s, none⟩, []) := by
  have hquiet : (as.flatMap fun a => log a s) = [] :=
    List.flatMap_eq_nil_iff.2 fun a ha => h.quiet a ha s hs (by rw [hsettled a ha])
  rw [script_run_settled hsettled, hquiet]

/-- Where a run has stopped: the commands before are settled. -/
theorem Resumable.stopped (h : Resumable exec log Inv as) (hs : Inv s) {e : ε}
    (hrun : (script exec log).run ⟨s, none⟩ as = some (⟨t, some e⟩, os)) :
    ∃ as₁ a as₂, as = as₁ ++ a :: as₂ ∧ Inv t ∧ (∀ b ∈ as₁, Settled exec b t) ∧
      exec a t = (t, some e) := by
  induction as using List.reverseRecOn generalizing t os with
  | nil => cases hrun
  | append_singleton as b ih =>
      obtain ⟨⟨u, status⟩, o, o', hu, hb, -⟩ := Machine.run_concat_eq_some.1 hrun
      cases status with
      | some e' =>
          rw [script_stopped] at hb
          cases hb
          obtain ⟨as₁, a, as₂, rfl, hstop⟩ := ih h.of_append hu
          exact ⟨as₁, a, as₂ ++ [b], by simp, hstop⟩
      | none =>
          obtain ⟨hinv, hsettled⟩ := h.of_append.settled hs hu
          rw [script_running, Option.some.injEq, Prod.mk.injEq, Progress.mk.injEq] at hb
          obtain ⟨⟨rfl, hstatus⟩, -⟩ := hb
          refine ⟨as, b, [], rfl, h.inv b (by simp) u hinv, fun a ha => ?_, ?_⟩
          · have hframe := (List.pairwise_append.1 h.frame).2.2 a ha b (by simp)
            exact hframe u hinv (hsettled a ha)
          · exact (h.again b (by simp) u hinv).trans (Prod.ext rfl hstatus)

/-- A command that fails again is where the script stops again. -/
theorem Resumable.run_failing {as₁ as₂ : List α} {a : α} {e : ε}
    (h : Resumable exec log Inv (as₁ ++ a :: as₂)) (ht : Inv t)
    (hsettled : ∀ b ∈ as₁, Settled exec b t) (ha : exec a t = (t, some e)) :
    (script exec log).run ⟨t, none⟩ (as₁ ++ a :: as₂) = some (⟨t, some e⟩, []) := by
  have hfirst := h.of_append.run_settled ht hsettled
  have hquiet := h.quiet a (by simp) t ht (by rw [ha])
  refine Machine.run_append_eq_some.2 ⟨_, [], [], hfirst, ?_, rfl⟩
  refine Machine.run_cons_eq_some.2 ⟨⟨t, some e⟩, [], [], ?_, script_run_stopped as₂, rfl⟩
  rw [script_running, ha, hquiet]

/-- A script that is started again comes as far as it was. -/
theorem Resumable.rerun (h : Resumable exec log Inv as) (hs : Inv s)
    (hrun : (script exec log).run ⟨s, none⟩ as = some (p, os)) :
    (script exec log).run ⟨p.state, none⟩ as = some (p, []) := by
  obtain ⟨t, status⟩ := p
  cases status with
  | none =>
      obtain ⟨hinv, hsettled⟩ := h.settled hs hrun
      exact h.run_settled hinv hsettled
  | some e =>
      obtain ⟨as₁, a, as₂, rfl, hinv, hsettled, ha⟩ := h.stopped hs hrun
      exact h.run_failing hinv hsettled ha

/-- Up to an earlier point it changes nothing. -/
theorem Resumable.rerun_take (h : Resumable exec log Inv (as ++ bs)) (hs : Inv s)
    (hrun : (script exec log).run ⟨s, none⟩ (as ++ bs) = some (p, os)) :
    ∃ status, (script exec log).run ⟨p.state, none⟩ as = some (⟨p.state, status⟩, []) := by
  obtain ⟨t, status⟩ := p
  cases status with
  | none =>
      obtain ⟨hinv, hsettled⟩ := h.settled hs hrun
      exact ⟨none, h.of_append.run_settled hinv fun a ha => hsettled a (by simp [ha])⟩
  | some e =>
      obtain ⟨as₁, a, as₂, hsplit, hinv, hsettled, ha⟩ := h.stopped hs hrun
      rcases List.append_eq_append_iff.1 hsplit with ⟨m, rfl, -⟩ | ⟨m, rfl, hm⟩
      · exact ⟨none, h.of_append.run_settled hinv fun b hb => hsettled b (by simp [hb])⟩
      · cases m with
        | nil =>
            refine ⟨none, h.of_append.run_settled hinv fun b hb => hsettled b ?_⟩
            simpa using hb
        | cons b m =>
            obtain ⟨rfl, -⟩ := List.cons.inj hm
            exact ⟨some e, h.of_append.run_failing hinv hsettled ha⟩

theorem take_eq_append_drop {k n : ℕ} (as : List α) (h : k ≤ n) :
    as.take n = as.take k ++ (as.take n).drop k := by
  have hsplit := (List.take_append_drop k (as.take n)).symm
  rwa [List.take_take, Nat.min_eq_left h] at hsplit

/-- All that comes of any number of attempts is a run up to some point. -/
theorem Resumable.attempts_eq_take (h : Resumable exec log Inv as) (hs : Inv s) {ks : List ℕ}
    (hrun : (attempt exec log as).run ⟨s, none⟩ ks = some (p, os)) :
    ∃ n q, (script exec log).run ⟨s, none⟩ (as.take n) = some (q, os) ∧ q.state = p.state := by
  refine Machine.run_induction (P := fun _ p os => ∃ n q,
    (script exec log).run ⟨s, none⟩ (as.take n) = some (q, os) ∧ q.state = p.state) ?_ ?_ hrun
  · exact ⟨0, ⟨s, none⟩, rfl, rfl⟩
  · rintro - u os k v o ⟨n, q, hq, hqu⟩ hk
    rw [attempt, ← hqu] at hk
    rcases Nat.le_total k n with hle | hle
    · have hsplit := take_eq_append_drop as hle
      have hn := h.take n
      have hq' := hq
      rw [hsplit] at hn hq'
      obtain ⟨status, hagain⟩ := hn.rerun_take hs hq'
      rw [hagain] at hk
      cases hk
      exact ⟨n, q, by simpa using hq, rfl⟩
    · have hsplit := take_eq_append_drop as hle
      rw [hsplit] at hk
      obtain ⟨r, o₁, o₂, hr, hrest, rfl⟩ := Machine.run_append_eq_some.1 hk
      rw [(h.take n).rerun hs hq] at hr
      cases hr
      refine ⟨k, v, ?_, rfl⟩
      rw [hsplit]
      exact Machine.run_append_eq_some.2 ⟨q, os, o₂, hq, hrest, by simp⟩

/-- After any number of attempts the script ends as it would have without them. -/
theorem Resumable.run_after_attempts (h : Resumable exec log Inv as) (hs : Inv s)
    {ks : List ℕ} (hrun : (attempt exec log as).run ⟨s, none⟩ ks = some (p, os)) :
    ∃ q os', (script exec log).run ⟨p.state, none⟩ as = some (q, os') ∧
      (script exec log).run ⟨s, none⟩ as = some (q, os ++ os') := by
  obtain ⟨n, r, hr, hrp⟩ := h.attempts_eq_take hs hrun
  obtain ⟨⟨q, os'⟩, hrest⟩ := Option.isSome_iff_exists.1
    (script_run_isSome exec log r (as.drop n))
  have hagain := (h.take n).rerun hs hr
  rw [hrp] at hagain
  rw [← List.take_append_drop n as]
  exact ⟨q, os', Machine.run_append_eq_some.2 ⟨r, [], os', hagain, hrest, rfl⟩,
    Machine.run_append_eq_some.2 ⟨r, os, os', hr, hrest, rfl⟩⟩

end Runs

end Transition
