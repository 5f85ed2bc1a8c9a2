import WorkflowStudio.Debouncer

/-!
The timers behind a debouncer. An event loop keeps every timer that was set until it fires or is
cancelled, and a debouncer knows the number of its last timer only. No timer is left behind: the
loop keeps one exactly as long as a call waits with a due time, and it is the one that the
debouncer knows. So the debouncer that keeps no more than this time runs the same calls.
-/
namespace WorkflowStudio

theorem Debouncer.cancel_eq_self {δ τ α : Type} {d : Debouncer δ τ α} (hwaiting : d.waiting = none)
    (hdue : d.due = none) : d.cancel = d := by
  obtain ⟨delay, waiting, due⟩ := d
  dsimp only at hwaiting hdue
  rw [hwaiting, hdue]
  rfl

def DebouncedRun.run {δ τ α : Type} [Timer δ τ] (r : DebouncedRun δ τ α)
    (steps : List (DebounceStep δ α)) : DebouncedRun δ τ α :=
  steps.foldl (fun r action => (r.step action).1) r

/-- A debouncer in an event loop, with the calls that it has run. -/
structure LoopedRun (δ τ α : Type) where
  delay : δ
  /-- The number of the timer that was set last. -/
  handle : Option Nat
  waiting : Option α
  /-- The timers that can still fire, each with its number and its time. -/
  timers : List (Nat × τ)
  /-- How many timers have been set. -/
  count : Nat
  clock : Option τ
  ran : List α

namespace LoopedRun

variable {δ τ α : Type}

def start (delay : δ) (clock : Option τ) : LoopedRun δ τ α := ⟨delay, none, none, [], 0, clock, []⟩

/-- Takes a timer from the loop. -/
def remove (l : LoopedRun δ τ α) (number : Nat) : LoopedRun δ τ α :=
  { l with timers := l.timers.filter (·.1 != number) }

def cancelTimer (l : LoopedRun δ τ α) : LoopedRun δ τ α :=
  match l.handle with
  | some number => { l.remove number with handle := none }
  | none => l

/-- Runs the waiting call, if there is one. -/
def fire (l : LoopedRun δ τ α) : LoopedRun δ τ α :=
  let l := l.cancelTimer
  { l with waiting := none, ran := l.ran ++ l.waiting.toList }

/-- Sets a timer and remembers its number. -/
def setTimer (l : LoopedRun δ τ α) (due : τ) : LoopedRun δ τ α :=
  { l with timers := l.timers ++ [(l.count, due)], count := l.count + 1, handle := some l.count }

section Steps

variable [Timer δ τ]

def call (l : LoopedRun δ τ α) (args : α) : LoopedRun δ τ α × Except Fault Unit :=
  let l := { l.cancelTimer with waiting := some args }
  match l.clock with
  | none => (l, .ok ())
  | some now => match Timer.after now l.delay with
      | .ok due => (l.setTimer due, .ok ())
      | .error fault => (l, .error fault)

/-- Lets a timer fire when its time has been reached, unless it was cancelled meanwhile. -/
def tick (now : τ) (l : LoopedRun δ τ α) (timer : Nat × τ) : LoopedRun δ τ α :=
  if l.timers.any (·.1 == timer.1) && Timer.reached timer.2 now then (l.remove timer.1).fire else l

def advance (l : LoopedRun δ τ α) (time : δ) : LoopedRun δ τ α × Except Fault Unit :=
  match l.clock with
  | none => (l, .ok ())
  | some clock => match Timer.advance clock time with
      | .error fault => (l, .error fault)
      | .ok now => (l.timers.foldl (tick now) { l with clock := some now }, .ok ())

def step (l : LoopedRun δ τ α) : DebounceStep δ α → LoopedRun δ τ α × Except Fault (Option Bool)
  | .call args =>
      let (next, result) := l.call args
      (next, result.map fun _ => none)
  | .flush => if l.waiting.isSome then (l.fire, .ok (some true)) else (l, .ok (some false))
  | .cancel => ({ l.cancelTimer with waiting := none }, .ok none)
  | .advance time =>
      let (next, result) := l.advance time
      (next, result.map fun _ => none)

def run (l : LoopedRun δ τ α) (steps : List (DebounceStep δ α)) : LoopedRun δ τ α :=
  steps.foldl (fun l action => (l.step action).1) l

end Steps

/-- The timer that a debouncer knows, the timers of the loop and the time of the waiting call. -/
inductive Armed : Option Nat → List (Nat × τ) → Option α → Option τ → Prop where
  | idle (waiting : Option α) : Armed none [] waiting none
  | set (number : Nat) (args : α) (due : τ) :
      Armed (some number) [(number, due)] (some args) (some due)

/-- The loop keeps no timer but the one of the waiting call, which fires when the call is due. -/
structure Mirrors (l : LoopedRun δ τ α) (r : DebouncedRun δ τ α) : Prop where
  delay : r.debouncer.delay = l.delay
  waiting : r.debouncer.waiting = l.waiting
  clock : r.clock = l.clock
  ran : r.ran = l.ran
  armed : Armed l.handle l.timers l.waiting r.debouncer.due

variable {l : LoopedRun δ τ α} {r : DebouncedRun δ τ α}

theorem mirrors_start (delay : δ) (clock : Option τ) :
    Mirrors (start delay clock : LoopedRun δ τ α) (.start delay clock) :=
  ⟨rfl, rfl, rfl, rfl, .idle none⟩

namespace Mirrors

/-- Either no timer can fire, or only that of the waiting call. -/
theorem idle_or_set (h : Mirrors l r) :
    (l.handle = none ∧ l.timers = [] ∧ r.debouncer.due = none) ∨
      ∃ number args due, l.handle = some number ∧ l.timers = [(number, due)] ∧
        l.waiting = some args ∧ r.debouncer.due = some due := by
  have harmed := h.armed
  generalize l.handle = handle, l.timers = timers, l.waiting = waiting, r.debouncer.due = due
    at harmed ⊢
  cases harmed with
  | idle => exact Or.inl ⟨rfl, rfl, rfl⟩
  | set number args due => exact Or.inr ⟨number, args, due, rfl, rfl, rfl, rfl⟩

/-- Without its timer the loop is empty. -/
theorem cancelTimer_eq (h : Mirrors l r) :
    l.cancelTimer = { l with handle := none, timers := [] } := by
  rcases h.idle_or_set with ⟨hhandle, htimers, -⟩ | ⟨number, _, due, hhandle, htimers, -⟩
  · have hself : { l with handle := none, timers := [] } = l := by rw [← hhandle, ← htimers]
    rw [hself, cancelTimer, hhandle]
  · simp [cancelTimer, remove, hhandle, htimers]

theorem fire (h : Mirrors l r) : Mirrors l.fire (r.collect r.debouncer.flush) := by
  rw [LoopedRun.fire, h.cancelTimer_eq]
  refine ⟨h.delay, rfl, h.clock, ?_, .idle none⟩
  simp [DebouncedRun.collect, Debouncer.flush, h.ran, h.waiting]

variable [Timer δ τ]

theorem call (h : Mirrors l r) (args : α) :
    Mirrors (l.call args).1 { r with debouncer := (r.debouncer.call r.clock args).1 } ∧
      (l.call args).2 = (r.debouncer.call r.clock args).2 := by
  unfold LoopedRun.call Debouncer.call
  rw [h.cancelTimer_eq, h.clock, h.delay]
  cases hclock : l.clock with
  | none => exact ⟨⟨h.delay, rfl, rfl, h.ran, .idle _⟩, rfl⟩
  | some now =>
    dsimp only
    cases Timer.after now l.delay with
    | ok due => exact ⟨⟨h.delay, rfl, rfl, h.ran, .set l.count args due⟩, rfl⟩
    | error fault => exact ⟨⟨h.delay, rfl, rfl, h.ran, .idle _⟩, rfl⟩

/-- The timers that fire when the clock moves run the call that is due by then. -/
theorem ticks (h : Mirrors l r) (now : τ) :
    Mirrors (l.timers.foldl (tick now) l) (r.collect (r.debouncer.expire now)) := by
  have hkept : r.collect (r.debouncer, none) = r := by simp [DebouncedRun.collect]
  rcases h.idle_or_set with
    ⟨-, htimers, hdue⟩ | ⟨number, args, due, hhandle, htimers, hwaiting, hdue⟩
  · rw [htimers, List.foldl_nil, Debouncer.expire, hdue]
    dsimp only
    rw [hkept]
    exact h
  · rw [htimers, List.foldl_cons, List.foldl_nil, Debouncer.expire, hdue]
    dsimp only
    have harmed : l.timers.any (·.1 == number) = true := by simp [htimers]
    by_cases hreached : Timer.reached due now = true
    · have hfired : (l.remove number).fire = l.fire := by
        simp [LoopedRun.fire, cancelTimer, remove, hhandle]
      rw [tick, harmed, hreached, Bool.true_and, if_pos rfl, if_pos rfl, hfired]
      exact h.fire
    · rw [tick, harmed, Bool.true_and, if_neg hreached, if_neg hreached, hkept]
      exact h

theorem advance (h : Mirrors l r) (time : δ) :
    Mirrors (l.advance time).1 (r.advance time).1 ∧ (l.advance time).2 = (r.advance time).2 := by
  unfold LoopedRun.advance DebouncedRun.advance
  rw [h.clock]
  cases hclock : l.clock with
  | none => exact ⟨h, rfl⟩
  | some clock =>
    dsimp only
    cases Timer.advance clock time with
    | error fault => exact ⟨h, rfl⟩
    | ok now =>
      have hmoved : Mirrors { l with clock := some now } { r with clock := some now } :=
        ⟨h.delay, h.waiting, rfl, h.ran, h.armed⟩
      exact ⟨hmoved.ticks now, rfl⟩

/-- Each step leaves the loop as the debouncer has it, and gives the same result. -/
theorem step (h : Mirrors l r) (action : DebounceStep δ α) :
    Mirrors (l.step action).1 (r.step action).1 ∧ (l.step action).2 = (r.step action).2 := by
  cases action with
  | call args =>
    obtain ⟨hnext, hresult⟩ := h.call args
    exact ⟨hnext, congrArg (Except.map fun _ => none) hresult⟩
  | flush =>
    have hpending : r.debouncer.pending = l.waiting.isSome := by
      rw [Debouncer.pending, h.waiting]
    cases hwaiting : l.waiting with
    | some args =>
      rw [LoopedRun.step, hwaiting, Option.isSome_some, if_pos rfl, DebouncedRun.step, hpending,
        hwaiting]
      exact ⟨h.fire, rfl⟩
    | none =>
      have hdue : r.debouncer.due = none := by
        rcases h.idle_or_set with ⟨-, -, hdue⟩ | ⟨_, _, _, -, -, hargs, -⟩
        · exact hdue
        · rw [hwaiting] at hargs
          cases hargs
      have hflush : r.collect r.debouncer.flush = r := by
        have hnone : r.debouncer.waiting = none := h.waiting.trans hwaiting
        simp [DebouncedRun.collect, Debouncer.flush, Debouncer.cancel_eq_self hnone hdue, hnone]
      rw [LoopedRun.step, hwaiting, Option.isSome_none, if_neg (by simp), DebouncedRun.step,
        hpending, hwaiting, hflush]
      exact ⟨h, rfl⟩
  | cancel =>
    rw [LoopedRun.step, h.cancelTimer_eq]
    exact ⟨⟨h.delay, rfl, h.clock, h.ran, .idle none⟩, rfl⟩
  | advance time =>
    obtain ⟨hnext, hresult⟩ := h.advance time
    exact ⟨hnext, congrArg (Except.map fun _ => none) hresult⟩

theorem run (h : Mirrors l r) (steps : List (DebounceStep δ α)) :
    Mirrors (l.run steps) (r.run steps) := by
  induction steps generalizing l r with
  | nil => exact h
  | cons action rest ih => exact ih (h.step action).1

end Mirrors
end LoopedRun
end WorkflowStudio
