import WorkflowStudio.Editing.Outcome
import WorkflowStudio.History.Basic

/-!
A workspace: an editor, the history that observes it, and a recorder of
everything observers are told. Commands run inside batches; batches nest, and
observers are told of the end of the outermost one only. A fault of an observer
is a fault of the command that it was told of.
-/
namespace WorkflowStudio

/-- What an observer is told. -/
inductive Notice where
  | mutation (mutation : Mutation)
  | batchEnd
deriving DecidableEq

inductive Observer where
  | recorder
  | history
deriving DecidableEq

structure Workspace (ε : Type) where
  editor : ε
  history : Option History
  /-- The number of open batches. -/
  depth : Nat
  /-- Who observes the editor, in the order in which they are told. -/
  observers : List Observer
  notices : List Notice
  /-- The clock that timers run on, if one is running. -/
  clock : Option Double

namespace Workspace

variable {ε α : Type}

def start (editor : ε) (history : Option History) (clock : Option Double) : Workspace ε :=
  ⟨editor, history, 0, .recorder :: (history.map fun _ => Observer.history).toList, [], clock⟩

def inBatch (w : Workspace ε) : Bool := 0 < w.depth

def observe (w : Workspace ε) (observer : Observer) : Workspace ε :=
  if w.observers.contains observer then w else { w with observers := w.observers ++ [observer] }

def ignore (w : Workspace ε) (observer : Observer) : Workspace ε :=
  { w with observers := w.observers.erase observer }

def note (w : Workspace ε) (notice : Notice) : Workspace ε :=
  { w with notices := w.notices ++ [notice] }

def withHistory (w : Workspace ε) (h : History) : Workspace ε := { w with history := some h }

def openBatch (w : Workspace ε) : Workspace ε := { w with depth := w.depth + 1 }

/-- Schedules an edit of the history. -/
def schedule (w : Workspace ε) (h : History) (label : Json) : Workspace ε × Except Fault Unit :=
  let (h, result) := h.schedule w.clock label
  (w.withHistory h, result)

/-- Tells an observer of a mutation. -/
def tellMutation (mutation : Mutation) (w : Workspace ε) :
    Observer → Workspace ε × Except Fault Unit
  | .recorder => (w.note (.mutation mutation), .ok ())
  | .history => match w.history with
      | some h => (w.withHistory (h.onMutation mutation), .ok ())
      | none => (w, .error (.noAttribute .null "on_mutation"))

/-- Tells observers one after the other, up to the first fault. -/
def tellAll (tell : Workspace ε → Observer → Workspace ε × Except Fault Unit) (w : Workspace ε) :
    List Observer → Workspace ε × Except Fault Unit
  | [] => (w, .ok ())
  | observer :: rest => match tell w observer with
      | (next, .ok ()) => tellAll tell next rest
      | (next, .error fault) => (next, .error fault)

variable [GraphEditor ε]

/-- Records the graph, unless an entry is being applied. -/
def record (w : Workspace ε) (h : History) (label : Json) : Workspace ε × Except Fault Bool :=
  if h.isApplying then (w.withHistory h, .ok false)
  else
    let editor := GraphEditor.settled w.editor
    let seen := { w with editor := editor }
    match GraphEditor.snapshot editor with
    | .error fault => (seen.withHistory h, .error fault)
    | .ok text =>
        let (h, result) := h.record text label
        (seen.withHistory h, result)

/-- Tells an observer of the end of a batch. -/
def tellBatchEnd (w : Workspace ε) : Observer → Workspace ε × Except Fault Unit
  | .recorder => (w.note .batchEnd, .ok ())
  | .history => match w.history.map History.onBatchEnd with
      | some (h, .nothing) => (w.withHistory h, .ok ())
      | some (h, .wait label) => w.schedule h label
      | some (h, .record label) =>
          let (next, result) := w.record h label
          (next, result.map fun _ => ())
      | none => (w, .error (.noAttribute .null "on_batch_end"))

def closeBatch (w : Workspace ε) : Workspace ε × Except Fault Unit :=
  let closed := { w with depth := w.depth - 1 }
  if closed.depth = 0 then closed.tellAll tellBatchEnd closed.observers else (closed, .ok ())

/-- Tells the observers of a mutation, in a batch of its own. The batch ends also
after a fault, and a fault of its end is the one that counts. -/
def emit (w : Workspace ε) (mutation : Mutation) : Workspace ε × Except Fault Unit :=
  let (told, result) := w.openBatch.tellAll (tellMutation mutation) w.observers
  match told.closeBatch with
  | (closed, .ok ()) => (closed, result)
  | (closed, .error fault) => (closed, .error fault)

/-- Runs a command of the editor. -/
def perform (w : Workspace ε) (command : ε → Outcome ε α) : Workspace ε × Except Fault α :=
  let outcome := command w.editor
  let changed := { w with editor := outcome.editor }
  match outcome.mutation with
  | none => (changed, outcome.result)
  | some mutation => match changed.emit mutation with
      | (next, .ok ()) => (next, outcome.result)
      | (next, .error fault) => (next, .error fault)

/-- Replaces the graph by a restored one. The history takes no notice until the
batch ends; without observing the editor it cannot wait for that. -/
def restore (w : Workspace ε) (h : History) (index : Nat) (chosen : Option Bool) (g : Graph) :
    Workspace ε × Except Fault Bool :=
  let (replaced, result) := (w.withHistory (h.beginApply index chosen)).perform
    fun e => GraphEditor.replaceGraph e g (.str History.applyLabel) true
  (if replaced.inBatch then replaced
    else { replaced with history := replaced.history.map History.endApply },
   result.map fun _ => true)

/-- Applies an entry; one that cannot be read leaves everything as it is. -/
def applyEntry (w : Workspace ε) (h : History) (index : Nat) (chosen : Option Bool) :
    Workspace ε × Except Fault Bool :=
  match (h.entries[index]?).map fun entry => Graph.ofSnapshot entry.snapshot with
  | some (.ok g) => w.restore h index chosen g
  | _ => (w, .ok false)

/-- Records a waiting edit, and says whether there was one. -/
def flush (w : Workspace ε) (h : History) : Workspace ε × Except Fault Bool :=
  match h.takeWaiting with
  | (_, none) => (w, .ok false)
  | (taken, some label) =>
      let (next, result) := w.record taken label
      (next, result.map fun _ => true)

/-- Records a waiting edit, then goes to the entry that is chosen. -/
def navigate (w : Workspace ε) (h : History)
    (choose : History → Except Fault (Option (Nat × Option Bool))) :
    Workspace ε × Except Fault Bool :=
  let (flushed, result) := w.flush h
  match result, flushed.history with
  | .error fault, _ => (flushed, .error fault)
  | .ok _, none => (flushed, .ok false)
  | .ok _, some h => match choose h with
      | .error fault => (flushed, .error fault)
      | .ok none => (flushed, .ok false)
      | .ok (some (index, chosen)) => flushed.applyEntry h index chosen

def undo (w : Workspace ε) (h : History) : Workspace ε × Except Fault Bool :=
  w.navigate h fun h => .ok (if h.canUndo then some ((h.index - 1).toNat, none) else none)

def redo (w : Workspace ε) (h : History) : Workspace ε × Except Fault Bool :=
  w.navigate h fun h => .ok (if h.canRedo then some ((h.index + 1).toNat, none) else none)

def jump (w : Workspace ε) (h : History) (index : Json) : Workspace ε × Except Fault Bool :=
  w.navigate h fun h => h.choose index

def initHistory (w : Workspace ε) (h : History) (label : Json) : Workspace ε × Except Fault Unit :=
  let editor := GraphEditor.settled w.editor
  let (h, result) := h.init (GraphEditor.snapshot editor) label
  ({ w with editor := editor }.withHistory h, result)

/-- Records a waiting edit whose time has been reached. Nobody is told when that
fails. -/
def expire (w : Workspace ε) (now : Double) : Workspace ε :=
  match w.history.map (·.takeExpired now) with
  | some (h, some label) => (w.record h label).1
  | _ => w

/-- Lets time pass on a running clock. -/
def advance (w : Workspace ε) (time : Json) : Workspace ε × Except Fault Unit :=
  match w.clock with
  | none => (w, .ok ())
  | some clock => match Clock.advance clock time with
      | .error fault => (w, .error fault)
      | .ok now => ({ w with clock := some now }.expire now, .ok ())

end Workspace
end WorkflowStudio
