import WorkflowStudio.Fault

/-!
Debouncing. Of calls that follow each other quickly only the last one runs, when
no further call has come for the length of the delay. Without a running clock no
timer is set, and a call waits until it is flushed.
-/
namespace WorkflowStudio

/-- Times, and the delays that lead from one to another. -/
class Timer (δ : outParam Type) (τ : Type) where
  /-- The time at which a call is due after a delay. -/
  after : τ → δ → Except Fault τ
  /-- The time to which the clock moves in a step. -/
  advance : τ → δ → Except Fault τ
  /-- Whether a time is reached now. -/
  reached : τ → τ → Bool

structure Debouncer (δ τ α : Type) where
  delay : δ
  /-- The arguments of the call that waits to run. -/
  waiting : Option α
  /-- The time at which the waiting call runs by itself. -/
  due : Option τ

namespace Debouncer

variable {δ τ α : Type}

def idle (delay : δ) : Debouncer δ τ α := ⟨delay, none, none⟩

def pending (d : Debouncer δ τ α) : Bool := d.waiting.isSome

/-- Replaces the waiting call, which has no timer yet. -/
def hold (d : Debouncer δ τ α) (args : α) : Debouncer δ τ α :=
  { d with waiting := some args, due := none }

/-- Replaces the waiting call and sets its timer. The clock is missing when none
is running. A call whose timer cannot be set waits without one. -/
def call [Timer δ τ] (d : Debouncer δ τ α) (clock : Option τ) (args : α) :
    Debouncer δ τ α × Except Fault Unit :=
  match clock with
  | none => (d.hold args, .ok ())
  | some now => match Timer.after now d.delay with
      | .ok due => ({ d.hold args with due := some due }, .ok ())
      | .error fault => (d.hold args, .error fault)

def cancel (d : Debouncer δ τ α) : Debouncer δ τ α := { d with waiting := none, due := none }

/-- Takes the waiting call out to be run at once. -/
def flush (d : Debouncer δ τ α) : Debouncer δ τ α × Option α := (d.cancel, d.waiting)

/-- Takes the waiting call out when its time has been reached. -/
def expire [Timer δ τ] (d : Debouncer δ τ α) (now : τ) : Debouncer δ τ α × Option α :=
  match d.due with
  | some due => if Timer.reached due now then d.flush else (d, none)
  | none => (d, none)

end Debouncer

/-- A debouncer with its clock and the calls that it has run. -/
structure DebouncedRun (δ τ α : Type) where
  debouncer : Debouncer δ τ α
  clock : Option τ
  ran : List α

inductive DebounceStep (δ α : Type) where
  | call (args : α)
  | flush
  | cancel
  /-- Lets time pass. -/
  | advance (time : δ)

namespace DebouncedRun

variable {δ τ α : Type}

def start (delay : δ) (clock : Option τ) : DebouncedRun δ τ α := ⟨.idle delay, clock, []⟩

def collect (r : DebouncedRun δ τ α) (result : Debouncer δ τ α × Option α) :
    DebouncedRun δ τ α :=
  { r with debouncer := result.1, ran := r.ran ++ result.2.toList }

variable [Timer δ τ]

/-- Moves the clock, if one is running, and then runs the call whose time has been
reached. -/
def advance (r : DebouncedRun δ τ α) (time : δ) : DebouncedRun δ τ α × Except Fault Unit :=
  match r.clock with
  | none => (r, .ok ())
  | some clock => match Timer.advance clock time with
      | .error fault => (r, .error fault)
      | .ok now => ({ r with clock := some now }.collect (r.debouncer.expire now), .ok ())

/-- Performs a step; flushing says whether a call was run. -/
def step (r : DebouncedRun δ τ α) :
    DebounceStep δ α → DebouncedRun δ τ α × Except Fault (Option Bool)
  | .call args =>
      let (debouncer, result) := r.debouncer.call r.clock args
      ({ r with debouncer := debouncer }, result.map fun _ => none)
  | .flush => (r.collect r.debouncer.flush, .ok (some r.debouncer.pending))
  | .cancel => ({ r with debouncer := r.debouncer.cancel }, .ok none)
  | .advance time =>
      let (next, result) := r.advance time
      (next, result.map fun _ => none)

end DebouncedRun
end WorkflowStudio
