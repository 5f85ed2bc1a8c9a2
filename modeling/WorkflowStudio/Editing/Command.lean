import WorkflowStudio.Editing.LooseEditor

/-!
Commands as data, with arguments of any kind, and what they show. An editor that
keeps the declared kinds performs those whose arguments are of these kinds; a loose
editor performs all of them.
-/
namespace WorkflowStudio

inductive Command where
  | addNode (node : Node)
  | createNode (type : Json) (position : Position) (config id : Json)
  | duplicateNode (id offset : Json)
  | moveNode (id x y : Json)
  | removeNode (id : Json)
  | updateNode (id : Json) (update : LooseUpdate)
  | updateConfig (id changes : Json) (replace : Bool)
  | setBinding (id : Json) (binding : ParamBinding)
  | removeBinding (id paramKey : Json)
  | connect (connection : Connection)
  | reconnect (id : Json) (connection : Connection)
  | removeEdge (id : Json)
  | replaceGraph (graph : Graph) (label : Json) (markDirty : Bool)
  | clear
  | markDirty
  | markSaved (saved : Bool)
  | generateLabel (base : Json)
  | getNode (id : Json)
  | getEdge (id : Json)
  | setClock (seconds : Json)

namespace Outcome

variable {ε α : Type}

/-- The outcome with its value in the form in which it is shown. -/
def showing (o : Outcome ε α) (form : α → Except Fault Json) : Outcome ε Json :=
  { o with result := o.result.bind form }

def showingFlag (o : Outcome ε Bool) : Outcome ε Json := o.showing fun flag => .ok (.bool flag)

def showingNothing (o : Outcome ε Unit) : Outcome ε Json := o.showing fun _ => .ok .null

/-- A change that nobody is told of. -/
def silent (editor : ε) : Outcome ε Json := ⟨editor, .ok .null, none⟩

/-- An answer that leaves the editor as it is. -/
def answer (editor : ε) (result : Except Fault Json) : Outcome ε Json := ⟨editor, result, none⟩

end Outcome

def shownOption {α : Type} (form : α → Except Fault Json) : Option α → Except Fault Json
  | some a => form a
  | none => .ok .null

def LooseUpdate.checked? (u : LooseUpdate) : Option Editor.NodeUpdate :=
  (u.label.optionalText?).map fun label => ⟨label, u.status, u.customInputs, u.customOutputs⟩

namespace Editor

/-- Performs a command whose arguments are of the declared kinds. -/
def perform? (e : Editor) : Command → Option (Outcome Editor Json)
  | .addNode node => (e.addNode node).showing (shownOption Record.dump)
  | .createNode type position config id => do
      let type ← type.text?
      let config ← config.optionalFields?
      let id ← id.optionalText?
      return (e.createNode type position config id).showing (shownOption Record.dump)
  | .duplicateNode id offset => do
      let id ← id.text?
      let offset ← (← offset.amount?).asDouble.toOption
      return (e.duplicateNode id offset).showing (shownOption Record.dump)
  | .moveNode id x y => do return (e.moveNode (← id.text?) x y).showingFlag
  | .removeNode id => do return (e.removeNode (← id.text?)).showingFlag
  | .updateNode id update => do
      return (e.updateNode (← id.text?) (← update.checked?)).showingFlag
  | .updateConfig id (.obj changes) replace => do
      return (e.updateConfig (← id.text?) changes replace).showingFlag
  | .updateConfig _ _ _ => none
  | .setBinding id binding => do return (e.setBinding (← id.text?) binding).showingFlag
  | .removeBinding id paramKey => do
      return (e.removeBinding (← id.text?) (← paramKey.text?)).showingFlag
  | .connect connection => (e.connect connection).showing (shownOption Record.dump)
  | .reconnect id connection => do
      return (e.reconnect (← id.text?) connection).showing (shownOption Record.dump)
  | .removeEdge id => do return (e.removeEdge (← id.text?)).showingFlag
  | .replaceGraph graph label markDirty => (e.replaceGraph graph label markDirty).showingNothing
  | .clear => e.clear.showingNothing
  | .markDirty => Outcome.silent e.markDirty
  | .markSaved saved => Outcome.silent (e.markSaved saved)
  | .generateLabel base => do return .answer e ((e.nextLabel (← base.text?)).map .str)
  | .getNode id => do return .answer e (shownOption Record.dump (e.node? (← id.text?)))
  | .getEdge id => do return .answer e (shownOption Record.dump (e.edge? (← id.text?)))
  | .setClock seconds => do
      return Outcome.silent { e with millis := ← (Clock.millis seconds).toOption }

end Editor

namespace LooseEditor

def perform (e : LooseEditor) : Command → Outcome LooseEditor Json
  | .addNode node => (e.addNode (.ofNode node)).showing (shownOption dumpNode)
  | .createNode type position config id =>
      (e.createNode type position config id).showing (shownOption dumpNode)
  | .duplicateNode id offset => (e.duplicateNode id offset).showing (shownOption dumpNode)
  | .moveNode id x y => (e.moveNode id x y).showingFlag
  | .removeNode id => (e.removeNode id).showingFlag
  | .updateNode id update => (e.updateNode id update).showingFlag
  | .updateConfig id changes replace => (e.updateConfig id changes replace).showingFlag
  | .setBinding id binding => (e.setBinding id binding).showingFlag
  | .removeBinding id paramKey => (e.removeBinding id paramKey).showingFlag
  | .connect connection => (e.connect connection).showing (shownOption dumpEdge)
  | .reconnect id connection => (e.reconnect id connection).showing (shownOption dumpEdge)
  | .removeEdge id => (e.removeEdge id).showingFlag
  | .replaceGraph graph label markDirty => (e.replaceGraph graph label markDirty).showingNothing
  | .clear => e.clear.showingNothing
  | .markDirty => Outcome.silent { e with dirty := true }
  | .markSaved saved => Outcome.silent { e with dirty := e.dirty && !saved }
  | .generateLabel base => .answer e ((e.generateLabel base).map .str)
  | .getNode id => .answer e (shownOption dumpNode (e.node? id))
  | .getEdge id => .answer e (shownOption dumpEdge (e.edge? id))
  | .setClock seconds => Outcome.silent (e.setClock seconds)

end LooseEditor
end WorkflowStudio
