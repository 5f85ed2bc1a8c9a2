import WorkflowStudio.Proofs.CommandEffects
import WorkflowStudio.Proofs.GraphText

/-!
Saved edits. Along any run of commands that do not raise, of batches and of calls of the history,
the graph of an editor without unsaved edits is the one it had right after it was last saved. A
command that is refused changes nothing and tells nothing.
-/
namespace WorkflowStudio
namespace Editor

variable {e : Editor} {edit : Edit}

/-- The editor saves its graph, or takes a graph over as its saved one. -/
def Saves (e : Editor) : Edit → Prop
  | .markSaved saved => saved = true
  | .replaceGraph _ _ markDirty => markDirty = false ∧ e.dirty = false
  | _ => False

/-- What follows an editor without a save: there is something to save, or the graph is the same
one. -/
def Carries (e next : Editor) : Prop :=
  next.dirty = true ∨ (next.graph = e.graph ∧ next.dirty = e.dirty)

theorem Carries.refl (e : Editor) : e.Carries e := Or.inr ⟨rfl, rfl⟩

theorem Carries.of_eq {next : Editor} (h : next = e) : e.Carries next := h ▸ .refl e

theorem carries_replaceGraph (g : Graph) (label : Json) {markDirty : Bool}
    (h : ¬(markDirty = false ∧ e.dirty = false)) :
    e.Carries (e.replaceGraph g label markDirty).editor := by
  refine Or.inl ?_
  rw [not_and_or, Bool.not_eq_false, Bool.not_eq_false] at h
  exact Bool.or_eq_true_iff.mpr h.symm

/-- A command that does not raise and does not save leaves something to save or the graph as it
is. -/
theorem carries_apply {accepted : Bool} (hok : (e.apply edit).result = .ok accepted)
    (hkept : ¬e.Saves edit) : e.Carries (e.apply edit).editor := by
  have heffect := e.effect_apply edit
  generalize e.apply edit = o at hok heffect
  cases heffect with
  | refused => exact .refl e
  | still => exact .refl e
  | failed => cases hok
  | brokenOff => cases hok
  | edited => exact Or.inl rfl
  | replaced graph label => exact carries_replaceGraph graph label hkept
  | cleared => exact Or.inl (Bool.or_true _)
  | dirtied => exact Or.inl rfl
  | saved saved =>
    refine .of_eq ?_
    exact if_neg hkept
  | timed => exact Or.inr ⟨rfl, rfl⟩

/-- A refused command leaves the editor as it is, and there is nothing to tell. -/
theorem apply_of_refused (h : (e.apply edit).result = .ok false) :
    (e.apply edit).editor = e ∧ (e.apply edit).mutation = none := by
  have heffect := e.effect_apply edit
  generalize e.apply edit = o at h heffect
  cases heffect with
  | refused => exact ⟨rfl, rfl⟩
  | _ => cases h

end Editor

namespace Workspace

variable {w : Workspace Editor} {h : History}

/-! What calls of the history do to the editor. -/

theorem flush_editor (w : Workspace Editor) (h : History) : (w.flush h).1.editor = w.editor := by
  unfold flush
  split
  · rfl
  · exact record_editor w _ _

theorem expire_editor (w : Workspace Editor) (now : Double) : (w.expire now).editor = w.editor := by
  unfold expire
  split
  · exact record_editor w _ _
  · rfl

theorem advance_editor (w : Workspace Editor) (time : Json) :
    (w.advance time).1.editor = w.editor := by
  unfold advance
  split
  · rfl
  · split
    · rfl
    · exact expire_editor _ _

theorem carries_restore (w : Workspace Editor) (h : History) (index : Nat) (chosen : Option Bool)
    (g : Graph) : w.editor.Carries (w.restore h index chosen g).1.editor := by
  have hreplaced := perform_editor (w.withHistory (h.beginApply index chosen))
    fun e => GraphEditor.replaceGraph e g (.str History.applyLabel) true
  have hcarries :
      w.editor.Carries (w.editor.replaceGraph g (.str History.applyLabel) true).editor :=
    Editor.carries_replaceGraph g _ (by simp)
  unfold restore
  dsimp only
  split
  · rw [hreplaced]
    exact hcarries
  · rw [hreplaced]
    exact hcarries

theorem carries_applyEntry (w : Workspace Editor) (h : History) (index : Nat)
    (chosen : Option Bool) : w.editor.Carries (w.applyEntry h index chosen).1.editor := by
  unfold applyEntry
  split
  · exact carries_restore w h index chosen _
  · exact .refl _

theorem carries_navigate (w : Workspace Editor) (h : History)
    (choose : History → Except Fault (Option (Nat × Option Bool))) :
    w.editor.Carries (w.navigate h choose).1.editor := by
  have hflush := flush_editor w h
  unfold navigate
  dsimp only
  split
  · exact .of_eq hflush
  · exact .of_eq hflush
  · split
    · exact .of_eq hflush
    · exact .of_eq hflush
    · rw [← hflush]
      exact carries_applyEntry _ _ _ _

theorem carries_onHistory {w : Workspace Editor} {action : String} {use : History → Step Editor}
    (huse : ∀ h, w.editor.Carries (use h).1.editor) :
    w.editor.Carries (w.onHistory action use).1.editor := by
  unfold onHistory
  split
  · exact huse _
  · exact .refl _

theorem carries_control (w : Workspace Editor) (control : Control) :
    w.editor.Carries (w.control control).1.editor := by
  cases control with
  | snapshot => exact .refl _
  | summary => exact .refl _
  | observe observer =>
    refine .of_eq ?_
    change (w.observe observer).editor = _
    unfold observe
    split <;> rfl
  | ignore observer => exact .refl _
  | advance seconds => exact .of_eq (advance_editor w seconds)
  | init label => exact carries_onHistory fun h => .refl _
  | take label => exact carries_onHistory fun h => .of_eq (record_editor w h label)
  | schedule label => exact carries_onHistory fun h => .refl _
  | flush => exact carries_onHistory fun h => .of_eq (flush_editor w h)
  | undo => exact carries_onHistory fun h => carries_navigate w h _
  | redo => exact carries_onHistory fun h => carries_navigate w h _
  | jump index => exact carries_onHistory fun h => carries_navigate w h _
  | corrupt index entry =>
    refine carries_onHistory fun h => ?_
    split <;> exact .refl _

/-! Runs with the workspace as it was right after the last save. -/

def Saves (w : Workspace Editor) : Event → Prop
  | .edit edit => w.editor.Saves edit
  | _ => False

/-- The commands that do not raise, and everything that is not a command. -/
def Passes (w : Workspace Editor) : Event → Prop
  | .edit edit => ¬w.Raises edit
  | _ => True

/-- A run from a workspace, with the workspace right after the last save. The start counts as
saved. -/
inductive RunsSince (start : Workspace Editor) : Workspace Editor → Workspace Editor → Prop
  | start : RunsSince start start start
  | save {saved w : Workspace Editor} {event : Event} (hrun : RunsSince start saved w)
      (hpasses : w.Passes event) (hsaves : w.Saves event) :
      RunsSince start (w.respond event).1 (w.respond event).1
  | step {saved w : Workspace Editor} {event : Event} (hrun : RunsSince start saved w)
      (hpasses : w.Passes event) (hkept : ¬w.Saves event) :
      RunsSince start saved (w.respond event).1

theorem apply_of_not_raises {edit : Edit} (h : ¬w.Raises edit) :
    ∃ accepted, (w.editor.apply edit).result = .ok accepted := by
  cases hresult : (w.perform (·.apply edit)).2 with
  | ok accepted => exact ⟨accepted, result_of_perform hresult⟩
  | error fault => exact absurd ⟨fault, congrArg (Except.map fun _ => ()) hresult⟩ h

theorem carries_respond {event : Event} (hpasses : w.Passes event) (hkept : ¬w.Saves event) :
    w.editor.Carries (w.respond event).1.editor := by
  cases event with
  | edit edit =>
    obtain ⟨accepted, hok⟩ := apply_of_not_raises hpasses
    rw [respond_edit_editor]
    exact Editor.carries_apply hok hkept
  | openBatch => exact .refl _
  | closeBatch => exact .of_eq (closeBatch_editor w)
  | call control => exact carries_control w control

/-- Along a run there is something to save, or the graph is the saved one. -/
theorem RunsSince.dirty_or_graph_eq {start saved : Workspace Editor}
    (hrun : RunsSince start saved w) :
    w.editor.dirty = true ∨ w.editor.graph = saved.editor.graph := by
  induction hrun with
  | start => exact Or.inr rfl
  | save => exact Or.inr rfl
  | step _ hpasses hkept ih =>
    rcases carries_respond hpasses hkept with hdirty | ⟨hgraph, hsame⟩
    · exact Or.inl hdirty
    · rw [hgraph, hsame]
      exact ih

/-- Along any run in which no command raises, the stored text of an editor without unsaved edits
is the one right after the last save. And a command that is refused changes nothing at all and
has nothing to tell. -/
theorem snapshot_eq_saved {start saved : Workspace Editor} (hrun : RunsSince start saved w) :
    (w.editor.dirty = false →
      GraphEditor.snapshot w.editor = GraphEditor.snapshot saved.editor) ∧
    ∀ (v next : Workspace Editor) (edit : Edit), v.perform (·.apply edit) = (next, .ok false) →
      next = v ∧ (v.editor.apply edit).mutation = none := by
  constructor
  · intro hclean
    rcases hrun.dirty_or_graph_eq with hdirty | hgraph
    · rw [hclean] at hdirty
      cases hdirty
    · exact congrArg Record.stored hgraph
  · intro v next edit hperform
    have hrefused := result_of_perform (congrArg Prod.snd hperform)
    obtain ⟨heditor, huntold⟩ := Editor.apply_of_refused hrefused
    rw [perform_of_untold huntold, heditor] at hperform
    exact ⟨(congrArg Prod.fst hperform).symm, huntold⟩

/-! A node is added and saved, and then a command is refused. -/

def freshWorkspace : Workspace Editor :=
  start (Editor.empty .builtIn ⟨[]⟩ (.str "") 0) none none

def addingStart : Event := .edit (.addNode (.plain "s" .start .origin))

def startSaved : Workspace Editor :=
  ((freshWorkspace.respond addingStart).1.respond (.edit (.markSaved true))).1

theorem passes_of_ok {edit : Edit} (h : (w.respond (.edit edit)).2 = .ok ()) :
    w.Passes (.edit edit) := by
  rintro ⟨fault, hfault⟩
  rw [h] at hfault
  cases hfault

theorem snapshot_eq_saved_refused : ∃ w, RunsSince freshWorkspace startSaved w ∧
    startSaved.editor.graph = ⟨[.plain "s" .start .origin], []⟩ ∧ w.editor.dirty = false ∧
    GraphEditor.snapshot w.editor = GraphEditor.snapshot startSaved.editor := by
  have hadded : RunsSince freshWorkspace freshWorkspace (freshWorkspace.respond addingStart).1 :=
    .step .start (passes_of_ok rfl) not_false
  have hsaved : RunsSince freshWorkspace startSaved startSaved :=
    .save hadded (passes_of_ok rfl) rfl
  have hrefused : RunsSince freshWorkspace startSaved
      (startSaved.respond (.edit (.removeEdge "e"))).1 :=
    .step hsaved (passes_of_ok rfl) not_false
  exact ⟨_, hrefused, rfl, rfl, (snapshot_eq_saved hrefused).1 rfl⟩

end Workspace
end WorkflowStudio
