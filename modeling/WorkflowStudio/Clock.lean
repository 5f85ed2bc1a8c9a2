import WorkflowStudio.Debouncer
import WorkflowStudio.Json.Arithmetic

/-!
Clocks that run in seconds. A clock tells no difference below its resolution.
Delays and steps are values of unknown kind; they have to be numbers.
-/
namespace WorkflowStudio.Clock

/-- Where a clock starts. -/
def start : Double := Double.zero false

/-- The resolution of a clock, a billionth of a second. -/
def resolution : Double := Double.ofDecimal false 1 (-9)

/-- The time a delay from now. -/
def after (now : Double) (delay : Json) : Except Fault Double :=
  if delay == .null then .error .delayRequired
  else match delay.amount? with
    | none => .error (.noSum (.num now) delay)
    | some amount => amount.asDouble.map now.add

/-- Whether a time is reached now. A time that is no number is always reached. -/
def reached (due now : Double) : Bool := !(now.add resolution).le due

/-- The time after a step of the clock. -/
def advance (now : Double) (step : Json) : Except Fault Double :=
  match step.amount? with
  | none => .error (.noAdvance (.num now) step)
  | some amount => amount.asDouble.map now.add

instance : Timer Json Double := ⟨after, advance, reached⟩

/-- The whole milliseconds in a number of seconds, if they can be written. -/
def millis (seconds : Json) : Except Fault Int := do
  let n ← (← seconds.times (.int 1000)).toWhole
  if Nat.pow 10 Numeral.digitLimit ≤ n.natAbs then .error .unwritableWhole else .ok n

end WorkflowStudio.Clock
