import MozartLineage.Location.HandlerThread
import MozartLineage.Transition.Monitor

/-!
# Effects of calls that were reported as failed

A call that times out or is interrupted returns false, and its future task stays in the
queue: the handler thread comes to it later. Only where the callable has already returned
when the caller gives up, nothing follows.
-/

namespace MozartLineage.Location

open Transition

/-- The caller did not get to see what has become of the callable. -/
def Return.GivesUp : Return → Prop
  | interruptedException | timeoutException => True
  | value _ | executionException => False

instance : DecidablePred Return.GivesUp
  | .interruptedException | .timeoutException => isTrue trivial
  | .value _ | .executionException => isFalse id

/-- The monitor of the calls that were given up: their callables have no effects. -/
def lateEffects : Monitor Event (List ℕ) where
  next givenUp
    | .returned n how => if how.GivesUp then n :: givenUp else givenUp
    | .effect _ => givenUp
  Allowed givenUp
    | .effect n => n ∉ givenUp
    | .returned _ _ => True

variable {ι : Type*} [DecidableEq ι]

/-- The callable that the caller waits for has returned, or will never be run. -/
def State.Returned (s : State ι) (i : ι) : Prop :=
  ∀ n ∈ (s.callers i).call, n ∉ s.pending

instance (s : State ι) (i : ι) : Decidable (s.Returned i) :=
  Option.decidableForallMem (s.callers i).call

/-- No caller gives up before its callable has returned. -/
def GivesUpLate (s : State ι) : Action ι → Prop
  | .interrupt i | .timeOut i => s.Returned i
  | _ => True

instance (s : State ι) (a : Action ι) : Decidable (GivesUpLate s a) :=
  match a with
  | .interrupt i | .timeOut i => inferInstanceAs (Decidable (s.Returned i))
  | .elapse _ | .setInterrupted _ _ | .postOther | .call _ _ | .await _ | .get _ | .take
  | .effect | .callOnHandler | .finish _ | .set => isTrue trivial

/-- What only the handler thread does. -/
def Action.IsHandler : Action ι → Prop
  | .take | .effect | .callOnHandler | .finish _ | .set => True
  | _ => False

variable {s t : State ι} {a : Action ι} {p : State ι × List Event} {n : ℕ}

/-! ### What is given up stays without effect -/

omit [DecidableEq ι] in
theorem mem_pending : n ∈ s.pending ↔
    (∃ f ∈ s.stack, f.call = some n) ∨ ∃ m ∈ s.queue, m.call = some n := by
  simp [State.pending, State.running]

/-- A step makes no other callable pending than that of a new call. -/
theorem pending_of_step (h : step s a = some p) (hn : n ∈ p.1.pending) :
    n ∈ s.pending ∨ n = s.calls ∧ p.1.calls = s.calls + 1 := by
  cases step_spec h with
  | elapse | setInterrupted | await | get | interrupt | timeOut | effect => exact Or.inl hn
  | postOther =>
      left
      rw [mem_pending] at hn ⊢
      simpa [Message.call, or_and_right, exists_or] using hn
  | @call i accepted hidle =>
      rw [mem_pending] at hn ⊢
      rcases hn with hn | ⟨m, hm, hcall⟩
      · exact Or.inl (Or.inl hn)
      · cases accepted with
        | false => exact Or.inl (Or.inr ⟨m, hm, hcall⟩)
        | true =>
            rcases List.mem_append.1 hm with hm | hm
            · exact Or.inl (Or.inr ⟨m, hm, hcall⟩)
            · obtain rfl := List.mem_singleton.1 hm
              exact Or.inr ⟨(Option.some.inj hcall).symm, rfl⟩
  | @take m queue hstack hqueue =>
      left
      rw [mem_pending] at hn ⊢
      rcases hn with ⟨f, hf, hcall⟩ | ⟨m', hm', hcall⟩
      · obtain rfl := List.mem_singleton.1 hf
        exact Or.inr ⟨m, by simp [hqueue], by cases m <;> exact hcall⟩
      · exact Or.inr ⟨m', by simp [hqueue, hm'], hcall⟩
  | callOnHandler hruns =>
      rw [mem_pending] at hn ⊢
      rcases hn with ⟨f, hf, hcall⟩ | hn
      · rcases List.mem_cons.1 hf with rfl | hf
        · exact Or.inr ⟨(Option.some.inj hcall).symm, rfl⟩
        · exact Or.inl (Or.inl ⟨f, hf, hcall⟩)
      · exact Or.inl (Or.inr hn)
  | finishTask hstack =>
      left
      rw [mem_pending] at hn ⊢
      rcases hn with ⟨f, hf, hcall⟩ | hn
      · rcases List.mem_cons.1 hf with rfl | hf
        · cases hcall
        · exact Or.inl ⟨f, by simp [hstack, hf], hcall⟩
      · exact Or.inr hn
  | finishDirect hstack | finishOther hstack | set hstack =>
      left
      rw [mem_pending] at hn ⊢
      rcases hn with ⟨f, hf, hcall⟩ | hn
      · exact Or.inl ⟨f, by simp [hstack, hf], hcall⟩
      · exact Or.inr hn

theorem calls_le_of_step (h : step s a = some p) : s.calls ≤ p.1.calls := by
  cases step_spec h with
  | call | callOnHandler => exact Nat.le_succ _
  | _ => exact le_rfl

/-- The numbers of the calls that threads wait for are given out. -/
def State.Numbered (s : State ι) : Prop := ∀ i, ∀ n ∈ (s.callers i).call, n < s.calls

theorem State.Numbered.setCaller (hs : s.Numbered) {i : ι} {c : Caller}
    (hc : ∀ n ∈ c.call, n < s.calls) : (s.setCaller i c).Numbered := by
  intro j n hn
  by_cases hj : j = i
  · subst hj
    exact hc n (by simpa [State.setCaller] using hn)
  · exact hs j n (by simpa [State.setCaller, hj] using hn)

theorem step_numbered (hs : s.Numbered) (h : step s a = some p) : p.1.Numbered := by
  cases step_spec h with
  | elapse | setInterrupted | postOther | take | effect | finishTask | finishDirect
  | finishOther | set => exact hs
  | callOnHandler => exact fun i n hn => Nat.lt_succ_of_lt (hs i n hn)
  | @call i accepted hidle =>
      have hold : ({ s with calls := s.calls + 1 } : State ι).Numbered := fun j n hn =>
        Nat.lt_succ_of_lt (hs j n hn)
      refine hold.setCaller (i := i) (c := .posted s.calls) fun n hn => ?_
      obtain rfl := Option.some.inj hn
      exact Nat.lt_succ_self _
  | @await i n hposted =>
      exact hs.setCaller fun m hm => hs i m (by rw [hposted]; exact hm)
  | get | interrupt | timeOut => exact hs.setCaller fun m hm => by cases hm

/-- The calls that were given up are past, and so are their callables. -/
structure State.Past (s : State ι) (givenUp : List ℕ) : Prop where
  numbered : s.Numbered
  lt_calls : ∀ n ∈ givenUp, n < s.calls
  not_pending : ∀ n ∈ givenUp, n ∉ s.pending

omit [DecidableEq ι] in
theorem not_givesUp_return (outcome : Outcome) : ¬ outcome.return.GivesUp := by
  cases outcome <;> exact id

/-- Effects of callables that were not given up. -/
theorem accepts_effects (givenUp ns : List ℕ) (h : ∀ n ∈ ns, n ∉ givenUp) :
    lateEffects.Accepts givenUp (ns.map .effect) ∧
      lateEffects.after givenUp (ns.map .effect) = givenUp := by
  induction ns with
  | nil => exact ⟨trivial, rfl⟩
  | cons n ns ih =>
      obtain ⟨haccepts, hafter⟩ := ih fun m hm => h m (by simp [hm])
      exact ⟨⟨h n (by simp), haccepts⟩, hafter⟩

theorem step_past {givenUp : List ℕ} (hs : s.Past givenUp) (ha : GivesUpLate s a)
    (h : step s a = some p) :
    lateEffects.Accepts givenUp p.2 ∧ p.1.Past (lateEffects.after givenUp p.2) := by
  have hold : p.1.Past givenUp := by
    refine ⟨step_numbered hs.numbered h, fun n hn =>
      (hs.lt_calls n hn).trans_le (calls_le_of_step h), fun n hn hpending => ?_⟩
    rcases pending_of_step h hpending with hpending | ⟨rfl, -⟩
    · exact hs.not_pending n hn hpending
    · exact absurd (hs.lt_calls _ hn) (lt_irrefl _)
  have hgivenUp : ∀ i how, (s.setCaller i .idle).Past givenUp → ∀ n ∈ (s.callers i).call,
      s.Returned i → (s.setCaller i .idle).Past
        (lateEffects.after givenUp [.returned n how]) := by
    intro i how hpast n hn hreturned
    simp only [Monitor.after_cons, Monitor.after_nil, lateEffects]
    split_ifs
    · exact ⟨hpast.numbered, List.forall_mem_cons.2 ⟨hs.numbered i n hn, hpast.lt_calls⟩,
        List.forall_mem_cons.2 ⟨hreturned n hn, hpast.not_pending⟩⟩
    · exact hpast
  cases step_spec h with
  | elapse | setInterrupted | postOther | call | await | take | callOnHandler | finishTask
  | finishOther | set => exact ⟨trivial, hold⟩
  | get | finishDirect =>
      refine ⟨⟨trivial, trivial⟩, ?_⟩
      simpa [lateEffects, not_givesUp_return] using hold
  | @interrupt i n since hwaiting | @timeOut i n since hwaiting =>
      exact ⟨⟨trivial, trivial⟩, hgivenUp i _ hold n (by simp [hwaiting, Caller.call]) ha⟩
  | effect hruns =>
      have heffects := accepts_effects givenUp s.running fun n hn hgiven =>
        hs.not_pending n hgiven (List.mem_append_left _ hn)
      rw [heffects.2]
      exact ⟨heffects.1, hold⟩

theorem run_past {givenUp : List ℕ} {as : List (Action ι)} {os : List Event}
    (hs : s.Past givenUp) (hlate : step.Meets GivesUpLate s as)
    (hrun : step.run s as = some (t, os)) :
    lateEffects.Accepts givenUp os ∧ t.Past (lateEffects.after givenUp os) := by
  refine Machine.run_invariant_of_meets (P := fun t os =>
    lateEffects.Accepts givenUp os ∧ t.Past (lateEffects.after givenUp os)) ?_
    ⟨trivial, hs⟩ hlate hrun
  rintro s os a t o ⟨haccepts, hpast⟩ ha h
  rw [Monitor.accepts_append, Monitor.after_append]
  obtain ⟨hstep, hpast'⟩ := step_past hpast ha h
  exact ⟨⟨haccepts, hstep⟩, hpast'⟩

omit [DecidableEq ι] in
theorem init_past : (init ι).Past [] :=
  ⟨fun i n hn => (by cases hn), by simp, by simp⟩

/-! ### What is pending can take effect -/

/-- The handler thread does these one after the other. -/
def Reaches (s : State ι) (t : State ι) (os : List Event) : Prop :=
  ∃ bs, (∀ b ∈ bs, Action.IsHandler b) ∧ step.run s bs = some (t, os)

theorem Reaches.refl (s : State ι) : Reaches s s [] := ⟨[], by simp, rfl⟩

/-- One step of the handler thread, and then the others. -/
theorem Reaches.head {u : State ι} {o os : List Event} (h : step s a = some (u, o))
    (ha : a.IsHandler) (hu : Reaches u t os) : Reaches s t (o ++ os) := by
  obtain ⟨bs, hbs, hrun⟩ := hu
  exact ⟨a :: bs, List.forall_mem_cons.2 ⟨ha, hbs⟩,
    Machine.run_cons_eq_some.2 ⟨u, o, os, h, hrun, rfl⟩⟩

theorem Reaches.trans {u : State ι} {o os : List Event} (h : Reaches s u o)
    (hu : Reaches u t os) : Reaches s t (o ++ os) := by
  obtain ⟨bs, hbs, hrun⟩ := h
  obtain ⟨bs', hbs', hrun'⟩ := hu
  exact ⟨bs ++ bs', fun b hb => (List.mem_append.1 hb).elim (hbs b) (hbs' b),
    Machine.run_append_eq_some.2 ⟨u, o, os, hrun, hrun', rfl⟩⟩

/-- The handler thread gets done with the innermost of what it is about. -/
theorem exists_popped {f : Frame} {stack : List Frame} (hstack : s.stack = f :: stack) :
    ∃ t os, Reaches s t os ∧ t.stack = stack ∧ t.queue = s.queue := by
  cases f with
  | task n =>
      let u : State ι := { s with stack := .result n none :: stack }
      let v : State ι :=
        { s with futures := Function.update s.futures n (some none), stack := stack }
      have hfinish : step s (.finish none) = some (u, []) := by simp only [step, hstack, u]
      have hset : step u .set = some (v, []) := rfl
      exact ⟨v, _, .head hfinish trivial (.head hset trivial (.refl v)), rfl, rfl⟩
  | result n outcome =>
      let v : State ι :=
        { s with futures := Function.update s.futures n (some outcome), stack := stack }
      have hset : step s .set = some (v, []) := by simp only [step, hstack, v]
      exact ⟨v, _, .head hset trivial (.refl v), rfl, rfl⟩
  | direct n =>
      let v : State ι := { s with stack := stack }
      have hfinish : step s (.finish none) = some (v, [.returned n .executionException]) := by
        simp only [step, hstack, v, Outcome.return]
      exact ⟨v, _, .head hfinish trivial (.refl v), rfl, rfl⟩
  | other =>
      let v : State ι := { s with stack := stack }
      have hfinish : step s (.finish none) = some (v, []) := by simp only [step, hstack, v]
      exact ⟨v, _, .head hfinish trivial (.refl v), rfl, rfl⟩

/-- The handler thread gets done with all that it is about. -/
theorem exists_drained (s : State ι) :
    ∃ t os, Reaches s t os ∧ t.stack = [] ∧ t.queue = s.queue := by
  generalize hstack : s.stack = stack
  induction stack generalizing s with
  | nil => exact ⟨s, [], .refl s, hstack, rfl⟩
  | cons f stack ih =>
      obtain ⟨u, o, hpopped, hrest, hqueue⟩ := exists_popped hstack
      obtain ⟨t, os, hdrained, hempty, hqueue'⟩ := ih u hrest
      exact ⟨t, _, hpopped.trans hdrained, hempty, hqueue'.trans hqueue⟩

theorem effect_of_runs (hruns : s.runs) (hn : n ∈ s.running) :
    ∃ t os, Reaches s t os ∧ .effect n ∈ os := by
  refine ⟨s, _, .head (a := .effect) (if_pos hruns) trivial (.refl s), ?_⟩
  simpa using hn

theorem exists_effect_of_running (hn : n ∈ s.running) :
    ∃ t os, Reaches s t os ∧ .effect n ∈ os := by
  generalize hstack : s.stack = stack
  induction stack generalizing s with
  | nil => simp [State.running, hstack] at hn
  | cons f stack ih =>
      cases f with
      | result m outcome =>
          let v : State ι :=
            { s with futures := Function.update s.futures m (some outcome), stack := stack }
          have hset : step s .set = some (v, []) := by simp only [step, hstack, v]
          have hn' : n ∈ v.running := by simpa [State.running, hstack, Frame.call] using hn
          obtain ⟨t, os, hreach, heffect⟩ := ih hn' rfl
          exact ⟨t, _, .head hset trivial hreach, heffect⟩
      | task | direct | other => exact effect_of_runs (by simp [State.runs, hstack]) hn

theorem exists_effect_of_queued (hn : n ∈ s.queue.filterMap Message.call) :
    ∃ t os, Reaches s t os ∧ .effect n ∈ os := by
  generalize hqueue : s.queue = queue at hn
  induction queue generalizing s with
  | nil => simp at hn
  | cons m queue ih =>
      obtain ⟨u, o, hdrained, hempty, hkept⟩ := exists_drained s
      have htake : step u .take =
          some ({ u with queue := queue, stack := [m.frame] }, []) := by
        simp only [step, hempty, hkept, hqueue]
      obtain ⟨t, os, hreach, heffect⟩ : ∃ t os,
          Reaches { u with queue := queue, stack := [m.frame] } t os ∧ .effect n ∈ os := by
        cases m with
        | other => exact ih rfl (by simpa [Message.call] using hn)
        | task k =>
            by_cases hk : k = n
            · subst hk
              exact effect_of_runs rfl (by simp [State.running, Message.frame, Frame.call])
            · exact ih rfl (by simpa [Message.call, Ne.symm hk] using hn)
      exact ⟨t, _, hdrained.trans (.head htake trivial hreach), by simp [heffect]⟩

/-- What is pending takes effect when the handler thread comes to it. -/
theorem exists_effect (hn : n ∈ s.pending) : ∃ t os, Reaches s t os ∧ .effect n ∈ os :=
  (List.mem_append.1 hn).elim exists_effect_of_running exists_effect_of_queued

theorem not_accepts_of_effect {givenUp : List ℕ} {os : List Event} (hn : n ∈ givenUp)
    (heffect : .effect n ∈ os) : ¬ lateEffects.Accepts givenUp os := by
  induction os generalizing givenUp with
  | nil => cases heffect
  | cons e os ih =>
      rintro ⟨hallowed, haccepts⟩
      rcases List.mem_cons.1 heffect with rfl | heffect
      · exact hallowed hn
      · refine ih ?_ heffect haccepts
        cases e with
        | effect => exact hn
        | returned m how =>
            simp only [lateEffects]
            split_ifs
            · exact List.mem_cons_of_mem _ hn
            · exact hn

/-- A caller that gives up too early leaves its callable pending. -/
theorem pending_of_not_givesUpLate {givenUp : List ℕ} (ha : ¬ GivesUpLate s a)
    (h : step s a = some p) :
    ∃ n ∈ lateEffects.after givenUp p.2, n ∈ p.1.pending := by
  have hpending : ∀ i n since, s.callers i = .waiting n since → ¬ s.Returned i →
      n ∈ s.pending := by
    intro i n since hwaiting hnot
    by_contra hn
    refine hnot fun m hm => ?_
    obtain rfl : n = m := by simpa [hwaiting, Caller.call] using hm
    exact hn
  cases step_spec h with
  | @interrupt i n since hwaiting | @timeOut i n since hwaiting =>
      refine ⟨n, ?_, hpending i n since hwaiting ha⟩
      simp [lateEffects, Return.GivesUp]
  | _ => exact absurd trivial ha

/-- In every run, with any threads that call, any interrupts and timeouts and anything else
on the handler thread: at no point of the run, whatever the handler thread goes on to do, is
there an effect of a call that was given up, if and only if no caller gives up before its
callable has returned. -/
theorem run_lateEffects_iff {as : List (Action ι)} {os : List Event}
    (hrun : step.run (init ι) as = some (s, os)) :
    (∀ as₁ as₂ t o, as = as₁ ++ as₂ → step.run (init ι) as₁ = some (t, o) →
      ∀ u o', Reaches t u o' → lateEffects.Accepts [] (o ++ o')) ↔
    step.Meets GivesUpLate (init ι) as := by
  constructor
  · intro haccepts
    refine Machine.meets_iff_forall.2 fun as₁ a as₂ t o hsplit hrun₁ => ?_
    by_contra ha
    subst hsplit
    obtain ⟨t', o₁, o₂, hrun₁', hrest, -⟩ := Machine.run_append_eq_some.1 hrun
    obtain ⟨rfl, rfl⟩ : t = t' ∧ o = o₁ := by simpa [hrun₁] using hrun₁'
    obtain ⟨u, o₃, -, hstep, -, -⟩ := Machine.run_cons_eq_some.1 hrest
    obtain ⟨n, hgiven, hpending⟩ := pending_of_not_givesUpLate (p := (u, o₃)) ha hstep
    obtain ⟨v, o', hreach, heffect⟩ := exists_effect hpending
    have hprefix := haccepts (as₁ ++ [a]) as₂ u (o ++ o₃) (by simp)
      (Machine.run_concat_eq_some.2 ⟨t, o, o₃, hrun₁, hstep, rfl⟩) v o' hreach
    rw [Monitor.accepts_append, Monitor.after_append] at hprefix
    exact not_accepts_of_effect hgiven heffect hprefix.2
  · rintro hlate as₁ as₂ t o rfl hrun₁ u o' ⟨bs, hbs, hrun₂⟩
    have hlate₁ : step.Meets GivesUpLate (init ι) as₁ :=
      Machine.meets_iff_forall.2 fun bs₁ b bs₂ v o₁ hsplit hv =>
        Machine.meets_iff_forall.1 hlate bs₁ b (bs₂ ++ as₂) v o₁ (by simp [hsplit]) hv
    obtain ⟨haccepts, hpast⟩ := run_past init_past hlate₁ hrun₁
    have hlate₂ : step.Meets GivesUpLate t bs := by
      refine Machine.meets_of_forall (fun b hb v => ?_) t
      have hhandler := hbs b hb
      cases b with
      | interrupt | timeOut => cases hhandler
      | _ => trivial
    exact Monitor.accepts_append.2 ⟨haccepts, (run_past hpast hlate₂ hrun₂).1⟩

/-! ### Runs of one call -/

/-- The caller gives up in the moment in which the result is to be set. -/
def givesUpLast : List (Action Unit) :=
  [.call () true, .await (), .take, .effect, .finish (some true), .elapse 5000,
    .timeOut (), .set]

theorem lateEffects_givesUpLast :
    ∃ s, step.run (init Unit) givesUpLast =
        some (s, [.effect 0, .returned 0 .timeoutException]) ∧
      lateEffects.Accepts [] [.effect 0, .returned 0 .timeoutException] := by
  have hrun : ∃ s, step.run (init Unit) givesUpLast =
      some (s, [.effect 0, .returned 0 .timeoutException]) := ⟨_, rfl⟩
  obtain ⟨s, hrun⟩ := hrun
  exact ⟨s, hrun, (run_lateEffects_iff hrun).2 (by decide) givesUpLast [] s _ (by simp) hrun s []
    (.refl s)⟩

/-- The handler thread comes to the call when the caller has given up. -/
def givesUpFirst : List (Action Unit) :=
  [.call () true, .await (), .elapse 5000, .timeOut (), .take, .effect]

theorem not_lateEffects_givesUpFirst :
    ∃ s, step.run (init Unit) givesUpFirst =
        some (s, [.returned 0 .timeoutException, .effect 0]) ∧
      Return.timeoutException.result = false ∧
      ¬ lateEffects.Accepts [] [.returned 0 .timeoutException, .effect 0] := by
  have hgiven : 0 ∈ lateEffects.after [] [.returned 0 .timeoutException] := by decide
  exact ⟨_, rfl, rfl, fun haccepts => not_accepts_of_effect hgiven (by simp) haccepts.2⟩

end MozartLineage.Location
