import Mathlib.Algebra.Group.Basic
import Mathlib.Algebra.Group.Int.Defs
import Mathlib.Data.Int.Order.Basic
import Mathlib.Order.Lattice
import WorkflowStudio.Proofs.LoopTimers

/-!
Which calls a debouncer runs, and when. A call runs by itself once its delay has passed, or with
the next request if that is a flush; any other request before takes it away. The times are exact:
a timer fires when the clock reaches the time of its call and the delay.
-/
namespace WorkflowStudio

/-- Timers and clocks that reach the times they are set to. -/
structure Timer.Exact (τ : Type) [Add τ] [LE τ] [Timer τ τ] : Prop where
  after (now delay : τ) : Timer.after now delay = .ok (now + delay)
  advance (now step : τ) : Timer.advance now step = .ok (now + step)
  reached (due now : τ) : Timer.reached due now = true ↔ due ≤ now

namespace DebouncedRun

/-- What can be asked of a debouncer. -/
inductive Request (α : Type) where
  | call (args : α)
  | flush
  | cancel

variable {τ α : Type}

def Request.toStep : Request α → DebounceStep τ α
  | .call args => .call args
  | .flush => .flush
  | .cancel => .cancel

/-- The steps that make each request at its time and then let time pass until now. -/
def stepsUntil [Sub τ] (now clock : τ) : List (τ × Request α) → List (DebounceStep τ α)
  | [] => [.advance (now - clock)]
  | (time, request) :: rest =>
      .advance (time - clock) :: request.toStep :: stepsUntil now time rest

/-- A debouncer that was started at a time, as it is after timed requests at a later time. -/
def observed [Sub τ] [Timer τ τ] (delay begin : τ) (requests : List (τ × Request α)) (now : τ) :
    DebouncedRun τ τ α :=
  (start delay (some begin)).run (stepsUntil now begin requests)

/-! The calls that are run, each with its time. -/

section Runs

variable [Add τ] [LinearOrder τ]

/-- The call that a request leaves waiting, with the time at which it is due. -/
def Request.left (delay time : τ) : Request α → Option (τ × α)
  | .call args => some (time + delay, args)
  | .flush | .cancel => none

/-- When a call runs that is due at a time, given the request that comes next. -/
def runTime (due : τ) : Option (τ × Request α) → Option τ
  | none => some due
  | some (time, request) =>
      if due ≤ time then some due
      else match request with
        | .flush => some time
        | .call _ | .cancel => none

/-- The run of a waiting call, given the request that comes next. -/
def runOf (waiting : Option (τ × α)) (next : Option (τ × Request α)) : List (τ × α) :=
  match waiting with
  | some (due, args) => ((runTime due next).map fun time => (time, args)).toList
  | none => []

/-- The runs of the calls among timed requests. -/
def runs (delay : τ) : List (τ × Request α) → List (τ × α)
  | [] => []
  | (time, request) :: rest => runOf (request.left delay time) rest.head? ++ runs delay rest

/-- The calls that are run by a time. -/
def ranBy (now : τ) (timed : List (τ × α)) : List α := (timed.filter (·.1 ≤ now)).map (·.2)

/-- The call that still waits at a time after timed requests. Every request replaces what the one
before left. -/
def waitingAt (delay now : τ) (waiting : Option (τ × α)) (requests : List (τ × Request α)) :
    Option (τ × α) :=
  (requests.foldl (fun _ request => request.2.left delay request.1) waiting).filter (now < ·.1)

end Runs

section Times

variable [LinearOrder τ] {now time : τ} {waiting : Option (τ × α)}

theorem ranBy_append (now : τ) (first second : List (τ × α)) :
    ranBy now (first ++ second) = ranBy now first ++ ranBy now second := by
  simp [ranBy]

/-- Without a next request, a waiting call runs when it is due. -/
theorem runOf_none : runOf waiting (none : Option (τ × Request α)) = waiting.toList := by
  cases waiting with
  | none => rfl
  | some call => rfl

/-- By the time of the next request a waiting call has run if it was due, and with the request it
runs if that is a flush. -/
theorem ranBy_runOf (request : Request α) (hle : time ≤ now) :
    ranBy now (runOf waiting (some (time, request))) = ranBy time waiting.toList ++
      match request with
      | .flush => ((waiting.filter (time < ·.1)).map (·.2)).toList
      | .call _ | .cancel => [] := by
  cases waiting with
  | none => cases request <;> simp [runOf, ranBy]
  | some call =>
    obtain ⟨due, args⟩ := call
    by_cases hdue : due ≤ time
    · have hnow : due ≤ now := le_trans hdue hle
      have hpast : ¬time < due := not_lt_of_ge hdue
      cases request <;> simp [runOf, runTime, ranBy, Option.filter_some, hdue, hnow, hpast]
    · have hahead : time < due := lt_of_not_ge hdue
      cases request <;> simp [runOf, runTime, ranBy, Option.filter_some, hdue, hahead, hle]

/-- A call waits when it was the last request and is not yet due. -/
theorem isSome_waitingAt_iff [Add τ] {delay : τ} {requests : List (τ × Request α)} :
    (waitingAt delay now none requests).isSome ↔ ∃ earlier time args,
      requests = earlier ++ [(time, .call args)] ∧ now < time + delay := by
  rcases requests.eq_nil_or_concat with rfl | ⟨earlier, ⟨time, request⟩, rfl⟩
  · simp [waitingAt]
  · rw [List.concat_eq_append]
    cases request with
    | call args =>
      have hlast : (waitingAt delay now none (earlier ++ [(time, .call args)])).isSome ↔
          now < time + delay := by
        by_cases hdue : now < time + delay <;>
          simp [waitingAt, Request.left, Option.filter_some, hdue]
      constructor
      · intro h
        exact ⟨earlier, time, args, rfl, hlast.mp h⟩
      · rintro ⟨_, _, _, heq, hdue⟩
        obtain ⟨-, hsame⟩ := List.append_inj' heq rfl
        cases hsame
        exact hlast.mpr hdue
    | flush => simp [waitingAt, Request.left]
    | cancel => simp [waitingAt, Request.left]

end Times

/-! States of a run. -/

/-- A run whose clock shows a time, with the call that waits and the time at which it is due. -/
def holding (delay clock : τ) (waiting : Option (τ × α)) (ran : List α) : DebouncedRun τ τ α :=
  ⟨⟨delay, waiting.map (·.2), waiting.map (·.1)⟩, some clock, ran⟩

theorem step_flush [Timer τ τ] {delay clock : τ} {waiting : Option (τ × α)} {ran : List α} :
    (holding delay clock waiting ran).step .flush =
      (holding delay clock none (ran ++ (waiting.map (·.2)).toList),
        .ok (some waiting.isSome)) := by
  simp [step, holding, collect, Debouncer.flush, Debouncer.cancel, Debouncer.pending]

variable [AddCommGroup τ] [LinearOrder τ] [Timer τ τ] {delay clock now time : τ}
  {waiting : Option (τ × α)} {ran : List α}

/-- While time passes, a waiting call runs if it is due by then. -/
theorem step_advance (hexact : Timer.Exact τ) :
    (holding delay clock waiting ran).step (.advance (now - clock)) =
      (holding delay now (waiting.filter (now < ·.1)) (ran ++ ranBy now waiting.toList),
        .ok none) := by
  have hclock : clock + (now - clock) = now := add_sub_cancel clock now
  cases waiting with
  | none =>
    simp [holding, step, advance, hexact.advance, hclock, collect, Debouncer.expire, ranBy,
      Except.map]
  | some call =>
    obtain ⟨due, args⟩ := call
    by_cases hdue : due ≤ now
    · have hreached : Timer.reached due now = true := (hexact.reached due now).mpr hdue
      simp [holding, step, advance, hexact.advance, hclock, collect, Debouncer.expire, hreached,
        Debouncer.flush, Debouncer.cancel, hdue, ranBy, Option.filter_some, Except.map]
    · have hreached : Timer.reached due now = false := by
        rw [← Bool.not_eq_true, hexact.reached]
        exact hdue
      simp [holding, step, advance, hexact.advance, hclock, collect, Debouncer.expire, hreached,
        hdue, ranBy, Option.filter_some, lt_of_not_ge hdue, Except.map]

/-- A request replaces the waiting call, after the call has run if its time has come. -/
theorem step_request (hexact : Timer.Exact τ) (request : Request α) (hle : time ≤ now) :
    ((holding delay time (waiting.filter (time < ·.1)) (ran ++ ranBy time waiting.toList)).step
        request.toStep).1 =
      holding delay time (request.left delay time)
        (ran ++ ranBy now (runOf waiting (some (time, request)))) := by
  rw [ranBy_runOf request hle, ← List.append_assoc]
  cases request with
  | call args =>
    simp [Request.toStep, Request.left, step, holding, Debouncer.call, Debouncer.hold,
      hexact.after]
  | flush =>
    rw [Request.toStep, step_flush]
    rfl
  | cancel =>
    rw [List.append_nil]
    rfl

/-- A run of timed requests, from any call that waits before. -/
theorem run_stepsUntil (hexact : Timer.Exact τ) {requests : List (τ × Request α)}
    (hnow : ∀ request ∈ requests, request.1 ≤ now) :
    (holding delay clock waiting ran).run (stepsUntil now clock requests) =
      holding delay now (waitingAt delay now waiting requests)
        (ran ++ ranBy now (runOf waiting requests.head? ++ runs delay requests)) := by
  induction requests generalizing clock waiting ran with
  | nil =>
    rw [stepsUntil, run, List.foldl_cons, List.foldl_nil, step_advance hexact, List.head?_nil,
      runOf_none, runs, List.append_nil]
    rfl
  | cons first rest ih =>
    obtain ⟨time, request⟩ := first
    rw [List.forall_mem_cons] at hnow
    rw [stepsUntil, run, List.foldl_cons, List.foldl_cons, step_advance hexact,
      step_request hexact request hnow.1, ← run, ih hnow.2, List.head?_cons, runs,
      ranBy_append now (runOf waiting _), List.append_assoc]
    rfl

/-- At any time after timed requests, the debouncer has run each call whose time has come: when its
delay had passed without a request, or with the flush that came before. The timers of an event loop
run the same calls. A call is pending when it was the last request and is not due yet, and a flush
runs the pending call and says whether there was one. -/
theorem observed_calls (hexact : Timer.Exact τ) (delay begin now : τ)
    (requests : List (τ × Request α)) (hnow : ∀ request ∈ requests, request.1 ≤ now) :
    (observed delay begin requests now).ran = ranBy now (runs delay requests) ∧
    ((LoopedRun.start delay (some begin)).run (stepsUntil now begin requests)).ran =
      ranBy now (runs delay requests) ∧
    ((observed delay begin requests now).debouncer.pending = true ↔
      ∃ earlier time args, requests = earlier ++ [(time, .call args)] ∧ now < time + delay) ∧
    ∃ called : Option α,
      ((observed delay begin requests now).step .flush).2 = .ok (some called.isSome) ∧
      ((observed delay begin requests now).step .flush).1.ran =
        (observed delay begin requests now).ran ++ called.toList := by
  have hstate : observed delay begin requests now = holding delay now
      (waitingAt delay now none requests) (ranBy now (runs delay requests)) := by
    have hstart : start delay (some begin) = holding delay begin (none : Option (τ × α)) [] := rfl
    rw [observed, hstart, run_stepsUntil hexact hnow]
    rfl
  have hloop := (LoopedRun.mirrors_start delay (some begin)).run (stepsUntil now begin requests)
  refine ⟨by rw [hstate]; rfl, ?_, ?_, (waitingAt delay now none requests).map (·.2), ?_, ?_⟩
  · rw [← hloop.ran, ← observed, hstate]
    rfl
  · rw [← isSome_waitingAt_iff, hstate]
    simp [holding, Debouncer.pending]
  · rw [hstate, step_flush, Option.isSome_map]
  · rw [hstate, step_flush]
    rfl

/-! Whole seconds. -/

instance wholeSeconds : Timer ℤ ℤ where
  after now delay := .ok (now + delay)
  advance now step := .ok (now + step)
  reached due now := decide (due ≤ now)

theorem exact_wholeSeconds : Timer.Exact ℤ where
  after _ _ := rfl
  advance _ _ := rfl
  reached _ _ := decide_eq_true_iff

/-- A call that is replaced by another, which is flushed, a call that is cancelled, and one that
waits for its time. -/
def burst : List (ℤ × Request Nat) :=
  [(0, .call 1), (1, .call 2), (2, .flush), (4, .call 3), (5, .cancel), (6, .call 4)]

theorem observed_calls_burst : (observed 3 0 burst 9).ran = [2, 4] ∧
    (observed 3 0 burst 8).ran = [2] ∧ (observed 3 0 burst 8).debouncer.pending = true := by
  have hlate := observed_calls exact_wholeSeconds 3 0 9 burst (by decide)
  have hearly := observed_calls exact_wholeSeconds 3 0 8 burst (by decide)
  refine ⟨?_, ?_, hearly.2.2.1.mpr ⟨burst.dropLast, 6, 4, rfl, by decide⟩⟩
  · rw [hlate.1]
    decide
  · rw [hearly.1]
    decide

end DebouncedRun
end WorkflowStudio
