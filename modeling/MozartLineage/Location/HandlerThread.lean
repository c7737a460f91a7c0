import MozartLineage.Transition.Run

/-!
# Calls that run on the handler thread

`runOnHandlerThread` posts a callable to the queue of the handler thread and waits for
its result, five seconds at most. On the handler thread itself the callable is called at
once.

Threads call, wait and are interrupted in any order; time passes at any time. The
handler thread takes one message after the other. What a callable does while it runs is
one effect after the other.
-/

namespace MozartLineage.Location

open Transition

def nativeCallTimeoutMillis : ℕ := 5000

/-- What a callable comes to, `none` for an exception. -/
abbrev Outcome := Option Bool

/-- What is in the queue: a future task, or what somebody else has posted. -/
inductive Message where
  | task (n : ℕ)
  | other
  deriving DecidableEq

/-- What the handler thread is about: the callable of a future task, the result of such a
callable, which is still to be set, a callable that is called directly, or something
else. -/
inductive Frame where
  | task (n : ℕ)
  | result (n : ℕ) (outcome : Outcome)
  | direct (n : ℕ)
  | other
  deriving DecidableEq

/-- What a thread is about, other than the handler thread. -/
inductive Caller where
  | idle
  | posted (n : ℕ)
  | waiting (n : ℕ) (since : ℕ)
  deriving DecidableEq

/-- How `runOnHandlerThread` returns. -/
inductive Return where
  | value (b : Bool)
  | executionException
  | interruptedException
  | timeoutException
  deriving DecidableEq

def Return.result : Return → Bool
  | value b => b
  | executionException | interruptedException | timeoutException => false

def Outcome.return : Outcome → Return
  | some b => .value b
  | none => .executionException

inductive Event where
  /-- a callable has an effect -/
  | effect (n : ℕ)
  | returned (n : ℕ) (how : Return)
  deriving DecidableEq

inductive Action (ι : Type*) where
  | elapse (millis : ℕ)
  /-- somebody interrupts the thread, or the thread clears its flag between its calls -/
  | setInterrupted (i : ι) (interrupted : Bool)
  | postOther
  /-- the post may be refused -/
  | call (i : ι) (accepted : Bool)
  | await (i : ι)
  | get (i : ι)
  | interrupt (i : ι)
  | timeOut (i : ι)
  /-- the handler thread takes a message -/
  | take
  | effect
  | callOnHandler
  | finish (outcome : Outcome)
  /-- it sets the result of a future task -/
  | set

def Message.frame : Message → Frame
  | task n => .task n
  | other => .other

def Message.call : Message → Option ℕ
  | task n => some n
  | other => none

/-- The call whose callable is running. -/
def Frame.call : Frame → Option ℕ
  | task n | direct n => some n
  | result _ _ | other => none

def Caller.call : Caller → Option ℕ
  | idle => none
  | posted n | waiting n _ => some n

/-- Every call has a number of its own, and `calls` is the next one. -/
structure State (ι : Type*) where
  clock : ℕ
  queue : List Message
  /-- innermost first -/
  stack : List Frame
  futures : ℕ → Option Outcome
  callers : ι → Caller
  interrupted : ι → Bool
  calls : ℕ

variable {ι : Type*} [DecidableEq ι]

namespace State

def setCaller (s : State ι) (i : ι) (c : Caller) : State ι :=
  { s with callers := Function.update s.callers i c }

def post (s : State ι) (i : ι) (accepted : Bool) : State ι :=
  { s.setCaller i (.posted s.calls) with
    queue := if accepted then s.queue ++ [.task s.calls] else s.queue
    calls := s.calls + 1 }

/-- The calls whose callables are running. -/
def running (s : State ι) : List ℕ := s.stack.filterMap Frame.call

/-- The calls whose callables have not returned yet. -/
def pending (s : State ι) : List ℕ := s.running ++ s.queue.filterMap Message.call

/-- The handler thread is running something that may go on. -/
def runs (s : State ι) : Bool :=
  match s.stack with
  | [] | .result _ _ :: _ => false
  | _ => true

end State

def step : Machine (State ι) (Action ι) Event
  | s, .elapse millis => some ({ s with clock := s.clock + millis }, [])
  | s, .setInterrupted i interrupted =>
      if interrupted = true ∨ s.callers i = .idle then
        some ({ s with interrupted := Function.update s.interrupted i interrupted }, [])
      else none
  | s, .postOther => some ({ s with queue := s.queue ++ [.other] }, [])
  | s, .call i accepted => if s.callers i = .idle then some (s.post i accepted, []) else none
  | s, .await i =>
      match s.callers i with
      | .posted n => some (s.setCaller i (.waiting n s.clock), [])
      | _ => none
  | s, .get i =>
      (s.callers i).call.bind fun n => (s.futures n).map fun outcome =>
        (s.setCaller i .idle, [.returned n outcome.return])
  | s, .interrupt i =>
      match s.callers i with
      | .waiting n _ =>
          -- the flag is cleared with the exception, and set again
          if s.interrupted i then
            some (s.setCaller i .idle, [.returned n .interruptedException])
          else none
      | _ => none
  | s, .timeOut i =>
      match s.callers i with
      | .waiting n since =>
          if s.futures n = none ∧ since + nativeCallTimeoutMillis ≤ s.clock then
            some (s.setCaller i .idle, [.returned n .timeoutException])
          else none
      | _ => none
  | s, .take =>
      match s.stack, s.queue with
      | [], m :: queue => some ({ s with queue := queue, stack := [m.frame] }, [])
      | _, _ => none
  | s, .effect => if s.runs then some (s, s.running.map .effect) else none
  | s, .callOnHandler =>
      if s.runs then
        some ({ s with stack := .direct s.calls :: s.stack, calls := s.calls + 1 }, [])
      else none
  | s, .finish outcome =>
      match s.stack with
      | .task n :: stack => some ({ s with stack := .result n outcome :: stack }, [])
      | .direct n :: stack => some ({ s with stack := stack }, [.returned n outcome.return])
      | .other :: stack => some ({ s with stack := stack }, [])
      | _ => none
  | s, .set =>
      match s.stack with
      | .result n outcome :: stack =>
          some ({ s with
            futures := Function.update s.futures n (some outcome), stack := stack }, [])
      | _ => none

def init (ι : Type*) : State ι where
  clock := 0
  queue := []
  stack := []
  futures _ := none
  callers _ := .idle
  interrupted _ := false
  calls := 0

/-- Everything that a step can be. -/
inductive Step (s : State ι) : Action ι → State ι × List Event → Prop where
  | elapse {millis} : Step s (.elapse millis) ({ s with clock := s.clock + millis }, [])
  | setInterrupted {i interrupted} (h : interrupted = true ∨ s.callers i = .idle) :
      Step s (.setInterrupted i interrupted)
        ({ s with interrupted := Function.update s.interrupted i interrupted }, [])
  | postOther : Step s .postOther ({ s with queue := s.queue ++ [.other] }, [])
  | call {i accepted} (hidle : s.callers i = .idle) :
      Step s (.call i accepted) (s.post i accepted, [])
  | await {i n} (hposted : s.callers i = .posted n) :
      Step s (.await i) (s.setCaller i (.waiting n s.clock), [])
  | get {i n outcome} (hcall : (s.callers i).call = some n)
      (hdone : s.futures n = some outcome) :
      Step s (.get i) (s.setCaller i .idle, [.returned n outcome.return])
  | interrupt {i n since} (hwaiting : s.callers i = .waiting n since)
      (hflag : s.interrupted i) :
      Step s (.interrupt i) (s.setCaller i .idle, [.returned n .interruptedException])
  | timeOut {i n since} (hwaiting : s.callers i = .waiting n since)
      (hnone : s.futures n = none) (hlate : since + nativeCallTimeoutMillis ≤ s.clock) :
      Step s (.timeOut i) (s.setCaller i .idle, [.returned n .timeoutException])
  | take {m queue} (hstack : s.stack = []) (hqueue : s.queue = m :: queue) :
      Step s .take ({ s with queue := queue, stack := [m.frame] }, [])
  | effect (hruns : s.runs) : Step s .effect (s, s.running.map .effect)
  | callOnHandler (hruns : s.runs) :
      Step s .callOnHandler
        ({ s with stack := .direct s.calls :: s.stack, calls := s.calls + 1 }, [])
  | finishTask {n outcome stack} (hstack : s.stack = .task n :: stack) :
      Step s (.finish outcome) ({ s with stack := .result n outcome :: stack }, [])
  | finishDirect {n outcome stack} (hstack : s.stack = .direct n :: stack) :
      Step s (.finish outcome) ({ s with stack := stack }, [.returned n outcome.return])
  | finishOther {outcome stack} (hstack : s.stack = .other :: stack) :
      Step s (.finish outcome) ({ s with stack := stack }, [])
  | set {n outcome stack} (hstack : s.stack = .result n outcome :: stack) :
      Step s .set
        ({ s with futures := Function.update s.futures n (some outcome), stack := stack }, [])

theorem step_spec {s : State ι} {a : Action ι} {p : State ι × List Event}
    (h : step s a = some p) : Step s a p := by
  cases a with
  | elapse millis => cases h; exact .elapse
  | setInterrupted i interrupted =>
      simp only [step] at h
      split at h <;> cases h
      exact .setInterrupted ‹_›
  | postOther => cases h; exact .postOther
  | call i accepted =>
      simp only [step] at h
      split at h <;> cases h
      exact .call ‹_›
  | await i =>
      simp only [step] at h
      split at h <;> cases h
      exact .await ‹_›
  | get i =>
      simp only [step] at h
      obtain ⟨n, hn, h⟩ := Option.bind_eq_some_iff.1 h
      obtain ⟨outcome, houtcome, rfl⟩ := Option.map_eq_some_iff.1 h
      exact .get hn houtcome
  | interrupt i =>
      simp only [step] at h
      split at h
      · split at h <;> cases h
        exact .interrupt ‹_› ‹_›
      · cases h
  | timeOut i =>
      simp only [step] at h
      split at h
      · split at h <;> cases h
        exact .timeOut ‹_› (And.left ‹_›) (And.right ‹_›)
      · cases h
  | take =>
      simp only [step] at h
      split at h <;> cases h
      exact .take ‹_› ‹_›
  | effect =>
      simp only [step] at h
      split at h <;> cases h
      exact .effect ‹_›
  | callOnHandler =>
      simp only [step] at h
      split at h <;> cases h
      exact .callOnHandler ‹_›
  | finish outcome =>
      simp only [step] at h
      split at h <;> cases h
      · exact .finishTask ‹_›
      · exact .finishDirect ‹_›
      · exact .finishOther ‹_›
  | set =>
      simp only [step] at h
      split at h <;> cases h
      exact .set ‹_›

end MozartLineage.Location
