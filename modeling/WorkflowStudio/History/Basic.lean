import WorkflowStudio.ChangeLabel
import WorkflowStudio.Clock
import WorkflowStudio.Editing.Mutation
import WorkflowStudio.History.Timeline
import WorkflowStudio.Json.Key
import WorkflowStudio.Settings

/-!
The history of an editor. It collects the mutations of a batch and decides at
the end of the batch how they are recorded: edits that coalesce wait for a quiet
period, and all others are recorded at once. While an entry is being applied the
history takes no notice of the editor.
-/
namespace WorkflowStudio

structure History where
  limit : Nat
  debouncer : Debouncer Json Double Json
  /-- Missing until something was recorded. -/
  timeline : Option Timeline
  mode : HistoryMode
  batch : List Mutation
  /-- The truth value that the cursor was chosen by, for as long as it stays. -/
  chosen : Option Bool

/-- What becomes of the mutations of a batch at its end. -/
inductive BatchEnd where
  | nothing
  | wait (label : Json)
  | record (label : Json)
deriving DecidableEq

namespace History

def initialLabel : String := "Initialize"

def unknownLabel : String := "Unknown change"

def applyLabel : String := "Restore history"

/-- A limit that keeps every entry. -/
def unbounded : Nat := 0x8000000000000000

/-- The number of entries kept under a bound, at least one. -/
def limitUnder : Amount → Nat
  | .whole n => (max 1 n).toNat
  | .real x =>
      if x.isFinite then (max 1 x.floor).toNat
      else if x.isNaN || x.isNegative then 1 else unbounded

/-- The number of entries kept; a bound that is not present stands for that of the
settings. -/
def limitOf (settings : Settings) (bound : Json) : Except Fault Nat :=
  if bound.isPresent then
    match bound.amount? with
    | some amount => .ok (limitUnder amount)
    | none => .error (.notComparable ">" bound (.int 1))
  else .ok (limitUnder (.whole settings.historyLimit))

def empty (limit : Nat) (delay : Json) : History := ⟨limit, .idle delay, none, .idle, [], none⟩

/-- A history for which the settings stand in where nothing is given. -/
def start (settings : Settings) (bound delay : Json) : Except Fault History := do
  return empty (← limitOf settings bound)
    (if delay == .null then .num settings.quietPeriod else delay)

def entries (h : History) : List HistoryEntry := (h.timeline.map (·.entries)).getD []

def current? (h : History) : Option HistoryEntry := h.timeline.bind Timeline.current?

def canUndo (h : History) : Bool := (h.timeline.map Timeline.canUndo).getD false

def canRedo (h : History) : Bool := (h.timeline.map Timeline.canRedo).getD false

def pending (h : History) : Bool := h.debouncer.pending

def isApplying (h : History) : Bool := h.mode == .applying

/-- The index of the cursor; before anything was recorded it is one below zero. -/
def index (h : History) : Int := (h.timeline.map fun t => (t.cursor : Int)).getD (-1)

/-- The index as it was chosen. -/
def shownIndex (h : History) : Json := (h.chosen.map Json.bool).getD (.int h.index)

def summary (h : History) : String :=
  "WorkflowHistory(entries=" ++ toString h.entries.length ++ ", index=" ++
    h.shownIndex.display ++ ", mode=" ++ h.mode.text ++ ")"

/-- Points at an entry of a timeline. -/
def follow (h : History) (timeline : Timeline) : History :=
  { h with
    timeline := some timeline
    chosen := if h.timeline.map (·.cursor) = some timeline.cursor then h.chosen else none }

/-- Drops what waits to be recorded. -/
def dropWaiting (h : History) : History := { h with debouncer := h.debouncer.cancel }

/-- Starts over with the given graph as the only entry. -/
def init (h : History) (snapshot : Except Fault String) (label : Json) :
    History × Except Fault Unit :=
  let cleared := { h.dropWaiting with batch := [] }
  match snapshot.bind fun text => HistoryEntry.of (.str text) label with
  | .ok entry => ({ cleared with timeline := some (.start entry), chosen := none }, .ok ())
  | .error fault => (cleared, .error fault)

/-- A label that says nothing gives way to a description of the change. -/
def entryLabel (current : Option HistoryEntry) (snapshot : String) (label : Json) : Json :=
  match current, label with
  | some entry, .str text =>
      .str (if isGenericLabel text then
        (Change.describeTexts entry.snapshot snapshot).getD text else text)
  | _, label => label

/-- Adds an entry after the cursor. -/
def add (h : History) (entry : HistoryEntry) : History :=
  match h.timeline with
  | some t => h.follow (t.record h.limit entry)
  | none => h.follow (.start entry)

/-- Records the given graph, unless it is the one at the cursor. The entries after
the cursor are dropped before the label is looked at. -/
def record (h : History) (snapshot : String) (label : Json) : History × Except Fault Bool :=
  if (h.current?.map (·.snapshot)) = some snapshot then (h, .ok false)
  else
    let kept := { h with timeline := h.timeline.map Timeline.dropFuture }
    match label.toKey, HistoryEntry.of (.str snapshot) (entryLabel h.current? snapshot label) with
    | .error fault, _ => (h, .error fault)
    | .ok _, .error fault => (kept, .error fault)
    | .ok _, .ok entry => (h.add entry, .ok true)

/-- Lets an edit wait to be recorded. -/
def schedule (h : History) (clock : Option Double) (label : Json) :
    History × Except Fault Unit :=
  let (debouncer, result) := h.debouncer.call clock label
  ({ h with debouncer := debouncer }, result)

/-- Takes out the label of the edit that waits. -/
def takeWaiting (h : History) : History × Option Json :=
  let (debouncer, label) := h.debouncer.flush
  ({ h with debouncer := debouncer }, label)

/-- Takes out the label of the edit that waits when its time has been reached. -/
def takeExpired (h : History) (now : Double) : History × Option Json :=
  let (debouncer, label) := h.debouncer.expire now
  ({ h with debouncer := debouncer }, label)

def onMutation (h : History) (mutation : Mutation) : History :=
  if h.isApplying || h.timeline.isNone then h
  else { h with batch := h.batch ++ [mutation] }

def changesNodes (mutation : Mutation) : Bool :=
  mutation.kind == .nodeAdded || mutation.kind == .nodeRemoved

/-- The label for the mutations of one batch. -/
def batchLabel : List Mutation → Json
  | [mutation] => mutation.label
  | mutations => .str (if mutations.any changesNodes then nodeChangeLabel else updateLabel)

/-- The end of a batch also ends the applying of an entry. -/
def onBatchEnd (h : History) : History × BatchEnd :=
  if h.isApplying then ({ h with mode := .idle, batch := [] }, .nothing)
  else if h.batch.isEmpty then (h, .nothing)
  else
    let label := batchLabel h.batch
    let cleared := { h with batch := [] }
    if h.batch.all (·.coalesces) then (cleared, .wait label)
    else (cleared.dropWaiting, .record label)

/-- The entry that an index of unknown kind points at, within bounds. Only a whole
number points at one. -/
def choose (h : History) (index : Json) : Except Fault (Option (Nat × Option Bool)) :=
  match index.amount? with
  | none => .error (.notComparable "<" index (.int 0))
  | some (.whole n) =>
      .ok (if n < 0 ∨ (h.entries.length : Int) ≤ n then none
        else some (n.toNat, match index with
          | .bool b => some b
          | _ => none))
  | some (.real x) =>
      if !x.isNaN && (!Amount.le (.whole 0) (.real x) ||
          Amount.le (.whole h.entries.length) (.real x)) then .ok none
      else .error (.indexRequired index)

/-- Points at an entry that is about to be applied. -/
def beginApply (h : History) (index : Nat) (chosen : Option Bool) : History :=
  { h with
    timeline := h.timeline.map (·.moveTo index)
    chosen := chosen
    mode := .applying }

def endApply (h : History) : History := { h with mode := .idle }

end History
end WorkflowStudio
