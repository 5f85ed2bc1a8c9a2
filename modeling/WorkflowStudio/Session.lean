import WorkflowStudio.Editing.Command
import WorkflowStudio.Editing.Poke
import WorkflowStudio.Workspace

/-!
Sessions: runs of actions on a workspace. Each action answers with its result
and a view of the workspace after it. An action that fails answers with its
fault, and the session goes on. A session starts with an editor that keeps the
declared kinds, and goes on with a loose one as soon as a value of another kind
may come into play.
-/
namespace WorkflowStudio

/-- What a session does with the history and with the observers. -/
inductive Control where
  | snapshot
  | summary
  | observe (observer : Observer)
  | ignore (observer : Observer)
  | advance (seconds : Json)
  | init (label : Json)
  | take (label : Json)
  | schedule (label : Json)
  | flush
  | undo
  | redo
  | jump (index : Json)
  | corrupt (index : Json) (entry : HistoryEntry)

inductive Action where
  | rejected (fault : Fault)
  | control (control : Control)
  | command (command : Command)
  | poke (poke : Poke)
  | batch (actions : List Action) (raises : Bool)

instance : Inhabited Action := ⟨.rejected .indexOutOfRange⟩

/-- The history as a session shows it. -/
structure HistoryView where
  labels : List String
  index : Json
  mode : HistoryMode
  pending : Bool
  canUndo : Bool
  canRedo : Bool
  current : Option String

/-- The workspace as a session shows it, with what observers were told since
the last answer. -/
structure View where
  nodes : List (List Json)
  edges : List (List Json)
  dirty : Bool
  inBatch : Bool
  notices : List Notice
  history : Option HistoryView

inductive Answer where
  | single (result : Except Fault Json) (view : View)
  | batch (raised : Bool) (steps : List Answer) (view : View)

def History.view (h : History) : HistoryView :=
  ⟨h.entries.map (·.label), h.shownIndex, h.mode, h.pending, h.canUndo, h.canRedo,
   h.current?.map (·.label)⟩

/-- Replaces the entry at an index of unknown kind. -/
def History.replaceEntry (h : History) (index : Json) (entry : HistoryEntry) :
    Except Fault History :=
  match index.whole? with
  | none => .error (.indexRequired index)
  | some n =>
      if n < -0x8000000000000000 ∨ 0x8000000000000000 ≤ n then .error .indexTooLarge
      else match h.timeline.bind fun t => (t.index? n).map fun i => t.replaceAt i entry with
        | some t => .ok { h with timeline := some t }
        | none => .error .indexOutOfRange

namespace Workspace

variable {ε : Type} [GraphEditor ε]

def view (w : Workspace ε) : View :=
  ⟨GraphEditor.nodeRows w.editor, GraphEditor.edgeRows w.editor, GraphEditor.dirty w.editor,
   w.inBatch, w.notices, w.history.map History.view⟩

/-- Takes the notices out that an answer has shown. -/
def shown (w : Workspace ε) : Workspace ε := { w with notices := [] }

/-- A changed workspace and the result of an action on it. -/
abbrev Step (ε : Type) := Workspace ε × Except Fault Json

def nothing (step : Workspace ε × Except Fault Unit) : Step ε :=
  (step.1, step.2.map fun _ => .null)

def flag (step : Workspace ε × Except Fault Bool) : Step ε := (step.1, step.2.map Json.bool)

/-- Uses the history under the name of the action that needs it. -/
def onHistory (w : Workspace ε) (action : String) (use : History → Step ε) : Step ε :=
  match w.history with
  | some h => use h
  | none => (w, .error (.noAttribute .null action))

/-- The stored text of the graph, which gives ids to what has none. -/
def takeText (w : Workspace ε) : Step ε :=
  let editor := GraphEditor.settled w.editor
  ({ w with editor := editor }, (GraphEditor.snapshot editor).map Json.str)

def summaries (w : Workspace ε) : Json :=
  .arr [.str (GraphEditor.summary w.editor), Json.ofOption (fun h => .str (History.summary h))
    w.history]

def control (w : Workspace ε) : Control → Step ε
  | .snapshot => w.takeText
  | .summary => (w, .ok w.summaries)
  | .observe observer => (w.observe observer, .ok .null)
  | .ignore observer => (w.ignore observer, .ok .null)
  | .advance seconds => nothing (w.advance seconds)
  | .init label => w.onHistory "init_history" fun h => nothing (w.initHistory h label)
  | .take label => w.onHistory "take_snapshot" fun h => flag (w.record h label)
  | .schedule label => w.onHistory "schedule_snapshot" fun h => nothing (w.schedule h label)
  | .flush => w.onHistory "flush" fun h => flag (w.flush h)
  | .undo => w.onHistory "undo" fun h => flag (w.undo h)
  | .redo => w.onHistory "redo" fun h => flag (w.redo h)
  | .jump index => w.onHistory "jump_to_history" fun h => flag (w.jump h index)
  | .corrupt index entry => w.onHistory "_stack" fun h =>
      match h.replaceEntry index entry with
      | .ok h => (w.withHistory h, .ok .null)
      | .error fault => (w, .error fault)

/-- The final form of the graph. -/
def final (w : Workspace ε) : Except Fault Json :=
  GraphEditor.dump (GraphEditor.settled w.editor)

end Workspace

/-- A workspace whose editor keeps the declared kinds, or one that takes any. -/
inductive Session where
  | checked (w : Workspace Editor)
  | loose (w : Workspace LooseEditor)

namespace Session

def start (editor : Editor) (history : Option History) (clock : Option Double) : Session :=
  .checked (.start editor history clock)

/-- The workspace with an editor that takes values of any kind. -/
def loosened : Session → Workspace LooseEditor
  | .checked w => { w with editor := .ofEditor w.editor }
  | .loose w => w

def view : Session → View
  | .checked w => w.view
  | .loose w => w.view

def shown : Session → Session
  | .checked w => .checked w.shown
  | .loose w => .loose w.shown

def final : Session → Except Fault Json
  | .checked w => w.final
  | .loose w => w.final

def control (s : Session) (c : Control) : Session × Except Fault Json :=
  match s with
  | .checked w => let (w, result) := w.control c; (.checked w, result)
  | .loose w => let (w, result) := w.control c; (.loose w, result)

/-- Runs a command on the loosened workspace. -/
def loosely (s : Session) (command : Command) : Session × Except Fault Json :=
  let (w, result) := s.loosened.perform (·.perform command)
  (.loose w, result)

/-- Runs a command, on a checked workspace for as long as its editor performs it. -/
def command (s : Session) (command : Command) : Session × Except Fault Json :=
  match s with
  | .loose _ => s.loosely command
  | .checked w => match w.editor.perform? command with
      | none => s.loosely command
      | some outcome =>
          let (w, result) := w.perform fun _ => outcome
          (.checked w, result)

def poke (s : Session) (poke : Poke) : Session × Except Fault Json :=
  let w := s.loosened
  let (editor, result) := w.editor.poke poke
  (.loose { w with editor := editor }, result.map fun _ => .null)

def openBatch : Session → Session
  | .checked w => .checked w.openBatch
  | .loose w => .loose w.openBatch

def closeBatch : Session → Session × Except Fault Unit
  | .checked w => let (w, result) := w.closeBatch; (.checked w, result)
  | .loose w => let (w, result) := w.closeBatch; (.loose w, result)

def single (step : Session × Except Fault Json) : Session × Answer :=
  (step.1.shown, .single step.2 step.1.view)

mutual

/-- Performs an action. The batch of a batch action ends also when its body is
broken off. A workspace that cannot be shown any more breaks the session off. -/
def answer (s : Session) : Action → Except Fault (Session × Answer)
  | .rejected fault => .ok (single (s, .error fault))
  | .control c => .ok (single (s.control c))
  | .command c => .ok (single (s.command c))
  | .poke p => match s.loosened.editor.brokenBy? p with
      | some fault => .error fault
      | none => .ok (single (s.poke p))
  | .batch actions raises => do
      let (inner, steps) ← answers s.openBatch actions
      return match inner.closeBatch with
        | (closed, .ok ()) => (closed.shown, .batch raises steps closed.view)
        | (closed, .error fault) => single (closed, .error fault)

def answers (s : Session) : List Action → Except Fault (Session × List Answer)
  | [] => .ok (s, [])
  | action :: rest => do
      let (next, first) ← answer s action
      let (last, others) ← answers next rest
      return (last, first :: others)

end

end Session
end WorkflowStudio
