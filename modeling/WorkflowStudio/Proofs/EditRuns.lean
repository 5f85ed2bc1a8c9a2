import Mathlib.Logic.Relation
import WorkflowStudio.Session

/-!
Runs of a workspace whose editor keeps the declared kinds. An edit is a command on the
graph with arguments of these kinds. A workspace responds to edits, to the opening and
closing of batches and to calls of its history; a run is any sequence of such events that
are allowed where they occur. The commands of a session perform nothing but edits.
-/
namespace WorkflowStudio

inductive Edit where
  | addNode (node : Node)
  | createNode (type : String) (position : Position) (config : Fields) (id : Option String)
  | duplicateNode (id : String) (offset : Double)
  | moveNode (id : String) (x y : Json)
  | removeNode (id : String)
  | updateNode (id : String) (update : Editor.NodeUpdate)
  | updateConfig (id : String) (changes : Fields) (replace : Bool)
  | setBinding (id : String) (binding : ParamBinding)
  | removeBinding (id paramKey : String)
  | connect (connection : Connection)
  | reconnect (id : String) (connection : Connection)
  | removeEdge (id : String)
  | replaceGraph (graph : Graph) (label : Json) (markDirty : Bool)
  | clear
  | markDirty
  | markSaved (saved : Bool)
  /-- Time passes, from which new ids are made. -/
  | setClock (millis : Int)

namespace Outcome

variable {ε α : Type}

/-- Whether a command gave anything; a refused one gives nothing. -/
def accepted (o : Outcome ε (Option α)) : Outcome ε Bool :=
  ⟨o.editor, o.result.map Option.isSome, o.mutation⟩

/-- A command that is never refused. -/
def done (o : Outcome ε Unit) : Outcome ε Bool := ⟨o.editor, o.result.map fun _ => true, o.mutation⟩

end Outcome

namespace Editor

/-- Performs an edit and says whether it was accepted. -/
def apply (e : Editor) : Edit → Outcome Editor Bool
  | .addNode node => (e.addNode node).accepted
  | .createNode type position config id => (e.createNode type position config id).accepted
  | .duplicateNode id offset => (e.duplicateNode id offset).accepted
  | .moveNode id x y => e.moveNode id x y
  | .removeNode id => e.removeNode id
  | .updateNode id update => e.updateNode id update
  | .updateConfig id changes replace => e.updateConfig id changes replace
  | .setBinding id binding => e.setBinding id binding
  | .removeBinding id paramKey => e.removeBinding id paramKey
  | .connect connection => (e.connect connection).accepted
  | .reconnect id connection => (e.reconnect id connection).accepted
  | .removeEdge id => e.removeEdge id
  | .replaceGraph graph label markDirty => (e.replaceGraph graph label markDirty).done
  | .clear => e.clear.done
  | .markDirty => ⟨e.markDirty, .ok true, none⟩
  | .markSaved saved => ⟨e.markSaved saved, .ok true, none⟩
  | .setClock millis => ⟨{ e with millis := millis }, .ok true, none⟩

/-- What a command does to the editor and tells its observers is what an edit does; a
command that only looks at the graph does nothing. -/
theorem perform?_eq_apply {e : Editor} {command : Command} {o : Outcome Editor Json}
    (h : e.perform? command = some o) :
    (o.editor = e ∧ o.mutation = none) ∨
      ∃ edit, o.editor = (e.apply edit).editor ∧ o.mutation = (e.apply edit).mutation := by
  cases command with
  | addNode node =>
    cases h
    exact Or.inr ⟨.addNode node, rfl, rfl⟩
  | createNode type position config id =>
    simp only [perform?, Option.bind_eq_bind, Option.bind_eq_some_iff] at h
    obtain ⟨type, -, config, -, id, -, h⟩ := h
    cases h
    exact Or.inr ⟨.createNode type position config id, rfl, rfl⟩
  | duplicateNode id offset =>
    simp only [perform?, Option.bind_eq_bind, Option.bind_eq_some_iff] at h
    obtain ⟨id, -, -, -, offset, -, h⟩ := h
    cases h
    exact Or.inr ⟨.duplicateNode id offset, rfl, rfl⟩
  | moveNode id x y =>
    simp only [perform?, Option.bind_eq_bind, Option.bind_eq_some_iff] at h
    obtain ⟨id, -, h⟩ := h
    cases h
    exact Or.inr ⟨.moveNode id x y, rfl, rfl⟩
  | removeNode id =>
    simp only [perform?, Option.bind_eq_bind, Option.bind_eq_some_iff] at h
    obtain ⟨id, -, h⟩ := h
    cases h
    exact Or.inr ⟨.removeNode id, rfl, rfl⟩
  | updateNode id update =>
    simp only [perform?, Option.bind_eq_bind, Option.bind_eq_some_iff] at h
    obtain ⟨id, -, update, -, h⟩ := h
    cases h
    exact Or.inr ⟨.updateNode id update, rfl, rfl⟩
  | updateConfig id changes replace =>
    cases changes with
    | obj changes =>
      simp only [perform?, Option.bind_eq_bind, Option.bind_eq_some_iff] at h
      obtain ⟨id, -, h⟩ := h
      cases h
      exact Or.inr ⟨.updateConfig id changes replace, rfl, rfl⟩
    | _ => cases h
  | setBinding id binding =>
    simp only [perform?, Option.bind_eq_bind, Option.bind_eq_some_iff] at h
    obtain ⟨id, -, h⟩ := h
    cases h
    exact Or.inr ⟨.setBinding id binding, rfl, rfl⟩
  | removeBinding id paramKey =>
    simp only [perform?, Option.bind_eq_bind, Option.bind_eq_some_iff] at h
    obtain ⟨id, -, paramKey, -, h⟩ := h
    cases h
    exact Or.inr ⟨.removeBinding id paramKey, rfl, rfl⟩
  | connect connection =>
    cases h
    exact Or.inr ⟨.connect connection, rfl, rfl⟩
  | reconnect id connection =>
    simp only [perform?, Option.bind_eq_bind, Option.bind_eq_some_iff] at h
    obtain ⟨id, -, h⟩ := h
    cases h
    exact Or.inr ⟨.reconnect id connection, rfl, rfl⟩
  | removeEdge id =>
    simp only [perform?, Option.bind_eq_bind, Option.bind_eq_some_iff] at h
    obtain ⟨id, -, h⟩ := h
    cases h
    exact Or.inr ⟨.removeEdge id, rfl, rfl⟩
  | replaceGraph graph label markDirty =>
    cases h
    exact Or.inr ⟨.replaceGraph graph label markDirty, rfl, rfl⟩
  | clear =>
    cases h
    exact Or.inr ⟨.clear, rfl, rfl⟩
  | markDirty =>
    cases h
    exact Or.inr ⟨.markDirty, rfl, rfl⟩
  | markSaved saved =>
    cases h
    exact Or.inr ⟨.markSaved saved, rfl, rfl⟩
  | setClock seconds =>
    simp only [perform?, Option.bind_eq_bind, Option.bind_eq_some_iff] at h
    obtain ⟨millis, -, h⟩ := h
    cases h
    exact Or.inr ⟨.setClock millis, rfl, rfl⟩
  | generateLabel base =>
    simp only [perform?, Option.bind_eq_bind, Option.bind_eq_some_iff] at h
    obtain ⟨base, -, h⟩ := h
    cases h
    exact Or.inl ⟨rfl, rfl⟩
  | getNode id =>
    simp only [perform?, Option.bind_eq_bind, Option.bind_eq_some_iff] at h
    obtain ⟨id, -, h⟩ := h
    cases h
    exact Or.inl ⟨rfl, rfl⟩
  | getEdge id =>
    simp only [perform?, Option.bind_eq_bind, Option.bind_eq_some_iff] at h
    obtain ⟨id, -, h⟩ := h
    cases h
    exact Or.inl ⟨rfl, rfl⟩

end Editor

inductive Event where
  | edit (edit : Edit)
  | openBatch
  | closeBatch
  | call (control : Control)

namespace Workspace

def respond (w : Workspace Editor) : Event → Workspace Editor × Except Fault Unit
  | .edit edit =>
      let (next, result) := w.perform (·.apply edit)
      (next, result.map fun _ => ())
  | .openBatch => (w.openBatch, .ok ())
  | .closeBatch => w.closeBatch
  | .call control => nothingBut (w.control control)
where
  nothingBut (step : Workspace Editor × Except Fault Json) : Workspace Editor × Except Fault Unit :=
    (step.1, step.2.map fun _ => ())

/-- A workspace that is reached from another by events that are allowed where they occur. -/
def Reaches (allowed : Workspace Editor → Event → Prop) :
    Workspace Editor → Workspace Editor → Prop :=
  Relation.ReflTransGen fun w next => ∃ event, allowed w event ∧ next = (w.respond event).1

/-! Observers look at the editor and leave it as it is. -/

theorem tellAll_editor {tell : Workspace Editor → Observer → Workspace Editor × Except Fault Unit}
    (htell : ∀ w observer, (tell w observer).1.editor = w.editor) (w : Workspace Editor)
    (observers : List Observer) : (w.tellAll tell observers).1.editor = w.editor := by
  induction observers generalizing w with
  | nil => rfl
  | cons observer rest ih =>
    have hfirst := htell w observer
    rw [tellAll]
    split
    · rename_i next hnext
      rw [ih next, ← hfirst, hnext]
    · rename_i next fault hnext
      rw [← hfirst, hnext]

theorem tellMutation_editor (mutation : Mutation) (w : Workspace Editor) (observer : Observer) :
    (tellMutation mutation w observer).1.editor = w.editor := by
  cases observer with
  | recorder => rfl
  | history => cases hw : w.history <;> simp only [tellMutation, hw, withHistory]

theorem record_editor (w : Workspace Editor) (h : History) (label : Json) :
    (w.record h label).1.editor = w.editor := by
  unfold record
  dsimp only
  split
  · rfl
  · split <;> rfl

theorem tellBatchEnd_editor (w : Workspace Editor) (observer : Observer) :
    (w.tellBatchEnd observer).1.editor = w.editor := by
  cases observer with
  | recorder => rfl
  | history =>
    rw [tellBatchEnd]
    split
    · rfl
    · rfl
    · exact record_editor w _ _
    · rfl

theorem closeBatch_editor (w : Workspace Editor) : w.closeBatch.1.editor = w.editor := by
  unfold closeBatch
  dsimp only
  split
  · exact tellAll_editor tellBatchEnd_editor _ _
  · rfl

theorem emit_editor (w : Workspace Editor) (mutation : Mutation) :
    (w.emit mutation).1.editor = w.editor := by
  have htold := tellAll_editor (tellMutation_editor mutation) w.openBatch w.observers
  have hclosed := closeBatch_editor (w.openBatch.tellAll (tellMutation mutation) w.observers).1
  unfold emit
  dsimp only
  split <;> rename_i heq <;> rw [heq] at hclosed <;> exact hclosed.trans htold

/-- A command leaves the editor as it says, whatever its observers do. -/
theorem perform_editor {α : Type} (w : Workspace Editor) (command : Editor → Outcome Editor α) :
    (w.perform command).1.editor = (command w.editor).editor := by
  unfold perform
  dsimp only
  split
  · rfl
  · rename_i mutation _
    have hemit := emit_editor { w with editor := (command w.editor).editor } mutation
    split <;> rename_i heq <;> rw [heq] at hemit <;> exact hemit

theorem respond_edit_editor (w : Workspace Editor) (edit : Edit) :
    (w.respond (.edit edit)).1.editor = (w.editor.apply edit).editor :=
  perform_editor w (·.apply edit)

/-- What the allowed edits keep holds of the editor after any run without calls of the history. -/
theorem editor_of_reaches {allowed : Workspace Editor → Event → Prop} (holds : Editor → Prop)
    (hcall : ∀ w control, ¬allowed w (.call control))
    (hedit : ∀ w edit, holds w.editor → allowed w (.edit edit) → holds (w.editor.apply edit).editor)
    {start w : Workspace Editor} (h : holds start.editor) (hrun : Reaches allowed start w) :
    holds w.editor := by
  induction hrun with
  | refl => exact h
  | @tail w next _ hstep ih =>
    obtain ⟨event, hallowed, rfl⟩ := hstep
    cases event with
    | edit edit =>
      rw [respond_edit_editor]
      exact hedit w edit ih hallowed
    | openBatch => exact ih
    | closeBatch =>
      have hsame : (w.respond .closeBatch).1.editor = w.editor := closeBatch_editor w
      rwa [hsame]
    | call control => exact absurd hallowed (hcall w control)

end Workspace
end WorkflowStudio
