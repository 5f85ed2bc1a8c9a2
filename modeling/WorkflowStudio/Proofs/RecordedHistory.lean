import WorkflowStudio.Proofs.ObservedHistory

/-!
No edit of a graph that can be stored is lost by the history. As long as it observes the editor,
everything that happened to the graph since the entry at the cursor is known to it: it was
collected in the open batch, or it waits to be recorded, or the entry at the cursor holds the
graph. A graph that cannot be stored is in no entry.
-/
namespace WorkflowStudio

namespace History

variable {h next : History} {g : Graph}

/-- What happened to the graph since the entry at the cursor is known. -/
def Covers (h : History) (g : Graph) : Prop := h.batch ≠ [] ∨ h.pending = true ∨ h.Holds g

theorem Takes.holds {result : Except Fault Bool} (htakes : h.Takes g next result)
    (hidle : h.mode = .idle) : next.Holds g := by
  cases htakes with
  | deaf happlying => exact absurd happlying (not_applying hidle)
  | unwritable _ hstored =>
    intro text hsame
    rw [hstored] at hsame
    cases hsame
  | recorded _ hstored hrecorded => exact hrecorded.holds hstored

theorem Flushes.covers {result : Except Fault Bool} (hflushes : h.Flushes g next result)
    (hidle : h.mode = .idle) (hcovers : h.Covers g) : next.mode = .idle ∧ next.Covers g := by
  cases hflushes with
  | still hpending => exact ⟨hidle, hcovers⟩
  | taken hpending htakes =>
    exact ⟨htakes.mode_batch.1.trans hidle, Or.inr (Or.inr (htakes.holds hidle))⟩

theorem Ends.covers {result : Except Fault Unit} (hends : h.Ends g next result)
    (hidle : h.mode = .idle) (hcovers : h.Covers g) : next.mode = .idle ∧ next.Covers g := by
  cases hends with
  | applied happlying => exact absurd happlying (not_applying hidle)
  | nothing => exact ⟨hidle, hcovers⟩
  | waits _ _ _ _ hmode _ hpending => exact ⟨hmode, Or.inr (Or.inl hpending)⟩
  | recorded _ _ htakes =>
    exact ⟨htakes.mode_batch.1.trans hidle, Or.inr (Or.inr (htakes.holds hidle))⟩

end History

namespace Workspace

variable {w : Workspace Editor} {h : History} {label : Json}

structure Tracked (w : Workspace Editor) (h : History) : Prop extends Observed w where
  history : w.history = some h
  kept : h.Kept
  closed : w.depth = 0 → h.batch = []
  /-- What happened to the graph since the entry at the cursor is known. -/
  covered : h.batch ≠ [] ∨ h.pending = true ∨ h.Holds w.editor.graph

theorem Tracked.watched (ht : w.Tracked h) : w.Watched h :=
  ⟨ht.toObserved, ht.history, ht.kept.sound, fun hzero => ⟨ht.kept.idle, ht.closed hzero⟩⟩

theorem Watched.tracked (hw : w.Watched h) (hidle : h.mode = .idle)
    (hcovers : h.Covers w.editor.graph) : w.Tracked h :=
  ⟨hw.toObserved, hw.history, hw.sound.kept hidle, fun hzero => (hw.closed hzero).2, hcovers⟩

/-- Without an open batch, an edit waits or the entry at the cursor holds the graph. -/
theorem Tracked.holds (ht : w.Tracked h) (hdepth : w.depth = 0) (hpending : h.pending = false) :
    h.Holds w.editor.graph := by
  rcases ht.covered with hbatch | hwaiting | hholds
  · exact absurd (ht.closed hdepth) hbatch
  · rw [hpending] at hwaiting
    cases hwaiting
  · exact hholds

/-! Batches and edits. -/

theorem Tracked.openBatch (ht : w.Tracked h) : w.openBatch.Tracked h :=
  ht.watched.openBatch.tracked ht.kept.idle ht.covered

theorem Tracked.closeBatch (ht : w.Tracked h) (hin : w.inBatch) :
    ∃ next, w.closeBatch.1.Tracked next := by
  have hdepth : 0 < w.depth := by simpa [inBatch] using hin
  by_cases hone : w.depth = 1
  · obtain ⟨next, notices, result, hclose, hnext, hends⟩ := ht.watched.closeBatch_of_outer hone
    obtain ⟨hidle, hcovers⟩ := hends.covers ht.kept.idle ht.covered
    rw [hclose]
    exact ⟨next, hnext.tracked hidle hcovers⟩
  · obtain ⟨hclose, hnext⟩ := ht.watched.closeBatch_of_inner (by omega)
    rw [hclose]
    exact ⟨h, hnext.tracked ht.kept.idle ht.covered⟩

/-- An edit that succeeds is known to the history. -/
theorem Tracked.edit (ht : w.Tracked h) {edit : Edit} (hedit : edit.Sound)
    (hok : (w.respond (.edit edit)).2 = .ok ()) :
    ∃ next, (w.respond (.edit edit)).1.Tracked next := by
  obtain ⟨next, hnext, -, hedits⟩ := ht.watched.edit hedit
  have heditor := respond_edit_editor w edit
  have hcollected (mutation : Mutation) (g : Graph) : (h.onMutation mutation).mode = .idle ∧
      (h.onMutation mutation).Covers g := by
    rw [ht.kept.onMutation]
    exact ⟨ht.kept.idle, Or.inl (List.append_ne_nil_of_right_ne_nil _ (List.cons_ne_nil _ _))⟩
  refine ⟨next, ?_⟩
  generalize hmutation : (w.editor.apply edit).mutation = mutation at hedits
  cases hedits with
  | untold =>
    have hgraph : (w.respond (.edit edit)).1.editor.graph = w.editor.graph := by
      have hperform : w.perform (·.apply edit) =
          ({ w with editor := (w.editor.apply edit).editor }, (w.editor.apply edit).result) := by
        rw [perform, hmutation]
      have hresponse : (w.respond (.edit edit)).2 =
          (w.perform (·.apply edit)).2.map fun _ => () := rfl
      rw [hresponse, hperform] at hok
      obtain ⟨accepted, hresult, -⟩ := Except.map_eq_ok.mp hok
      rw [heditor]
      exact (Editor.keeps_apply ht.graph hedit).told accepted hresult hmutation
    refine hnext.tracked ht.kept.idle ?_
    rw [hgraph]
    exact ht.covered
  | inner hdepth =>
    obtain ⟨hidle, hcovers⟩ := hcollected _ (w.respond (.edit edit)).1.editor.graph
    exact hnext.tracked hidle hcovers
  | outer hdepth hends =>
    obtain ⟨hcollectedIdle, hknown⟩ := hcollected _ (w.editor.apply edit).editor.graph
    obtain ⟨hidle, hcovers⟩ := hends.covers hcollectedIdle hknown
    rw [← heditor] at hcovers
    exact hnext.tracked hidle hcovers

/-! Calls of the history. -/

theorem Tracked.flush (ht : w.Tracked h) : ∃ next result,
    w.flush h = (w.told next w.notices, result) ∧ (w.told next w.notices).Tracked next := by
  obtain ⟨next, result, hflush, hnext, hflushes⟩ := ht.watched.flush_eq
  obtain ⟨hidle, hcovers⟩ := hflushes.covers ht.kept.idle ht.covered
  exact ⟨next, result, hflush, hnext.tracked hidle hcovers⟩

theorem Tracked.advance (ht : w.Tracked h) (time : Json) :
    ∃ next, (w.advance time).1.Tracked next := by
  obtain ⟨next, hnext, heditor, hflushes⟩ := ht.watched.advance time
  refine ⟨next, ?_⟩
  have hcovers : next.mode = .idle ∧ next.Covers w.editor.graph := by
    rcases hflushes with rfl | ⟨result, hflushes⟩
    · exact ⟨ht.kept.idle, ht.covered⟩
    · exact hflushes.covers ht.kept.idle ht.covered
  rw [← heditor] at hcovers
  exact hnext.tracked hcovers.1 hcovers.2

/-- Starting over needs no more of the history than that it is idle. -/
theorem Observed.initHistory (hw : w.Observed) (hidle : h.mode = .idle) (hlabel : label.IsText)
    {text : String} (hstored : Record.stored w.editor.graph = .ok text) :
    ∃ next, w.initHistory h label = (w.told next w.notices, .ok ()) ∧
      (w.told next w.notices).Tracked next := by
  rcases hw.initHistory_eq (h := h) hlabel with
    ⟨next, hinit, hsound, hholds, hbatch, hmode⟩ | ⟨fault, hfault, -⟩
  · have hnext : (w.told next w.notices).Watched next :=
      ⟨hw.told _ _, rfl, hsound, fun _ => ⟨hmode.trans hidle, hbatch⟩⟩
    exact ⟨next, hinit, hnext.tracked (hmode.trans hidle) (Or.inr (Or.inr hholds))⟩
  · rw [hstored] at hfault
    cases hfault

theorem Observed.tracked_of_init {first start : Workspace Editor} (hfirst : first.Observed)
    (hhistory : first.history = some h) (hidle : h.mode = .idle) (hlabel : label.IsText)
    (hinit : first.respond (.call (.init label)) = (start, .ok ())) :
    ∃ begun, start.Tracked begun := by
  have hrespond : first.respond (.call (.init label)) = respond.nothingBut
      (nothing (first.initHistory h label)) := by
    rw [respond, control, onHistory, hhistory]
  rw [hrespond] at hinit
  cases hstored : Record.stored first.editor.graph with
  | ok text =>
    obtain ⟨begun, hbegin, hbegun⟩ := hfirst.initHistory hidle hlabel hstored
    rw [hbegin] at hinit
    cases hinit
    exact ⟨begun, hbegun⟩
  | error fault =>
    have hsnapshot : GraphEditor.snapshot first.editor = .error fault := hstored
    rw [Workspace.initHistory] at hinit
    dsimp only [GraphEditor.settled] at hinit
    rw [hsnapshot] at hinit
    cases hinit

/-- Without an open batch the history is idle again after an entry was applied, and the entry
holds the graph. -/
theorem Applies.tracked {index : Nat} {next : Workspace Editor} {after : History}
    (happlies : Applies w h index next after) (hdepth : w.depth = 0) : next.Tracked after := by
  obtain ⟨entry, hentry, hstored⟩ := happlies.stored
  refine happlies.watched.tracked (happlies.watched.closed ?_).1 (Or.inr (Or.inr ?_))
  · exact happlies.depth.trans hdepth
  · intro text hsame
    rw [hstored] at hsame
    cases hsame
    rw [happlies.current?, hentry]
    rfl

theorem Tracked.navigate (ht : w.Tracked h) (hdepth : w.depth = 0)
    (choose : History → Except Fault (Option (Nat × Option Bool))) :
    ∃ next, (w.navigate h choose).1.Tracked next := by
  obtain ⟨mid, flushed, after, hflushes, hafter, -, hturns⟩ := ht.watched.navigate choose
  refine ⟨after, ?_⟩
  generalize (w.navigate h choose).1 = next, (w.navigate h choose).2 = result at hafter hturns
  cases hturns with
  | stays =>
    obtain ⟨hidle, hcovers⟩ := hflushes.covers ht.kept.idle ht.covered
    exact hafter.tracked hidle hcovers
  | goes happlies => exact happlies.tracked hdepth

/-! Runs. -/

/-- Edits that succeed, batches in any nesting, and calls of the history at any moment, of
which only those that go to another entry need all batches to be closed. Labels are texts. Nobody
changes who observes the editor or puts entries of their own into the history. -/
def Recording (w : Workspace Editor) : Event → Prop
  | .edit edit => edit.Sound ∧ (w.respond (.edit edit)).2 = .ok ()
  | .openBatch => True
  | .closeBatch => w.inBatch
  | .call (.init label) | .call (.take label) | .call (.schedule label) => label.IsText
  | .call .undo | .call .redo | .call (.jump _) => w.depth = 0
  | .call .flush | .call (.advance _) | .call .snapshot | .call .summary => True
  | .call (.observe _) | .call (.ignore _) | .call (.corrupt _ _) => False

theorem Tracked.control (ht : w.Tracked h) {control : Control}
    (hallowed : Recording w (.call control)) : ∃ next, (w.control control).1.Tracked next := by
  have hnavigates (hcontrol : control.Navigates) (hdepth : w.depth = 0) :
      ∃ next, (w.control control).1.Tracked next := by
    obtain ⟨choose, hcalled⟩ := control_eq_navigate ht.history hcontrol
    rw [hcalled]
    exact ht.navigate hdepth choose
  cases control with
  | snapshot => exact ⟨h, ht⟩
  | summary => exact ⟨h, ht⟩
  | observe observer => exact absurd hallowed not_false
  | ignore observer => exact absurd hallowed not_false
  | corrupt index entry => exact absurd hallowed not_false
  | advance seconds => exact ht.advance seconds
  | init label =>
    rw [Workspace.control, onHistory, ht.history]
    obtain ⟨next, hinit, hnext, hholds, hmode⟩ := ht.watched.initHistory hallowed
    refine ⟨next, hinit ▸ hnext.tracked (hmode.trans ht.kept.idle) (Or.inr (Or.inr hholds))⟩
  | take label =>
    rw [Workspace.control, onHistory, ht.history]
    obtain ⟨next, result, hrecord, hnext, htakes⟩ :=
      ht.watched.record_eq ht.kept.sound rfl rfl hallowed
    refine ⟨next, ?_⟩
    dsimp only
    rw [hrecord]
    exact hnext.tracked (htakes.mode_batch.1.trans ht.kept.idle)
      (Or.inr (Or.inr (htakes.holds ht.kept.idle)))
  | schedule label =>
    rw [Workspace.control, onHistory, ht.history]
    obtain ⟨next, hschedule, hnext, -, -, hmode, -, hpending⟩ := ht.watched.schedule hallowed
    exact ⟨next, hschedule ▸ hnext.tracked (hmode.trans ht.kept.idle) (Or.inr (Or.inl hpending))⟩
  | flush =>
    rw [Workspace.control, onHistory, ht.history]
    obtain ⟨next, result, hflush, hnext⟩ := ht.flush
    refine ⟨next, ?_⟩
    dsimp only
    rw [hflush]
    exact hnext
  | undo => exact hnavigates trivial hallowed
  | redo => exact hnavigates trivial hallowed
  | jump index => exact hnavigates trivial hallowed

theorem Tracked.respond (ht : w.Tracked h) {event : Event} (hallowed : Recording w event) :
    ∃ next, (w.respond event).1.Tracked next := by
  cases event with
  | edit edit => exact ht.edit hallowed.1 hallowed.2
  | openBatch => exact ⟨h, ht.openBatch⟩
  | closeBatch => exact ht.closeBatch hallowed
  | call control => exact ht.control hallowed

theorem tracked_of_reaches {start : Workspace Editor} (ht : start.Tracked h)
    (hrun : Reaches Recording start w) : ∃ next, w.Tracked next := by
  induction hrun with
  | refl => exact ⟨h, ht⟩
  | tail _ hstep ih =>
    obtain ⟨next, hnext⟩ := ih
    obtain ⟨event, hallowed, rfl⟩ := hstep
    exact hnext.respond hallowed

theorem watched_of_init {first start : Workspace Editor} {before : History}
    (hfirst : first.Observed) (hhistory : first.history = some h) (hidle : h.mode = .idle)
    (hlabel : label.IsText) (hinit : first.respond (.call (.init label)) = (start, .ok ()))
    (hrun : Reaches Calm start w) (hbefore : w.history = some before) : w.Watched before := by
  obtain ⟨begun, hbegun⟩ := hfirst.tracked_of_init hhistory hidle hlabel hinit
  obtain ⟨found, hfound⟩ := watched_of_reaches hbegun.watched hrun
  obtain rfl : found = before := Option.some.inj (hfound.history.symm.trans hbefore)
  exact hfound

theorem bounded_of_init {first start : Workspace Editor} {before : History}
    (hfirst : first.Observed) (hhistory : first.history = some h) (hidle : h.mode = .idle)
    (hlimit : 1 ≤ h.limit) (hlabel : label.IsText)
    (hinit : first.respond (.call (.init label)) = (start, .ok ())) (hrun : Reaches Calm start w)
    (hbefore : w.history = some before) :
    before.limit = h.limit ∧ ∃ t, before.timeline = some t ∧ t.Bounded before.limit := by
  obtain ⟨begun, hbegun⟩ := hfirst.tracked_of_init hhistory hidle hlabel hinit
  have hoperate := (respond_eq_operate first (.call (.init label))).symm.trans hinit
  have hbounds := (inBounds_of_init hfirst.nodup hhistory hlimit hoperate).runs hlimit
    (runs_of_reaches hbegun.watched hrun)
  obtain ⟨found, t, hfound, hsame, -, ht, hbounded⟩ := hbounds.history
  obtain rfl : found = before := Option.some.inj (hfound.symm.trans hbefore)
  exact ⟨hsame, t, ht, hsame.symm ▸ hbounded⟩

/-- However edits, batches, calls of the history and quiet periods follow each other after the
history was started, when no batch is open and nothing waits to be recorded, the history is
idle. The entry at its cursor then holds the stored text of the graph if and only if the graph can
be stored. -/
theorem entry_eq_snapshot_iff {first start : Workspace Editor} (hfirst : first.Observed)
    (hhistory : first.history = some h) (hidle : h.mode = .idle) (hlabel : label.IsText)
    (hinit : first.respond (.call (.init label)) = (start, .ok ()))
    (hrun : Reaches Recording start w) :
    ∃ last, w.history = some last ∧ (w.depth = 0 → last.pending = false →
      last.mode = .idle ∧ ∃ entry, last.current? = some entry ∧
        (GraphEditor.snapshot w.editor = .ok entry.snapshot ↔ w.editor.graph.Storable)) := by
  obtain ⟨begun, hbegun⟩ := hfirst.tracked_of_init hhistory hidle hlabel hinit
  obtain ⟨last, hlast⟩ := tracked_of_reaches hbegun hrun
  refine ⟨last, hlast.history, fun hdepth hpending => ⟨hlast.kept.idle, ?_⟩⟩
  obtain ⟨entry, hentry, -⟩ := hlast.kept.current
  refine ⟨entry, hentry, fun hsnapshot => (Graph.stored_eq_ok_iff.mp hsnapshot).1,
    fun hstorable => ?_⟩
  have hstored : GraphEditor.snapshot w.editor = .ok w.editor.graph.snapshot :=
    Graph.stored_eq_ok_iff.mpr ⟨hstorable, rfl⟩
  have hheld := hlast.holds hdepth hpending _ hstored
  rw [hentry] at hheld
  rw [hstored, ← Option.some.inj hheld]

/-- A graph of one edge whose ends are missing. -/
def danglingEdge : Graph := ⟨[], [Connection.toEdge ⟨"a", "b", none, none⟩ none]⟩

theorem sound_danglingEdge : danglingEdge.Sound where
  nodes := fun _ hn => absurd hn List.not_mem_nil
  edges := List.forall_mem_singleton.mpr (Connection.sound_toEdge _ _)

def begun : Workspace Editor := (fresh.respond (.call (.init (.str History.initialLabel)))).1

def drawing : Event := .edit (.replaceGraph danglingEdge (.str "Load") true)

theorem isText_initialLabel : (Json.str History.initialLabel).IsText := ⟨_, rfl⟩

theorem observed_fresh : fresh.Observed where
  nodup := by decide
  observed := by decide
  graph := ⟨fun _ hn => absurd hn List.not_mem_nil, fun _ he => absurd he List.not_mem_nil⟩

theorem respond_fresh :
    fresh.respond (.call (.init (.str History.initialLabel))) = (begun, .ok ()) :=
  Prod.ext rfl (Except.eq_ok_of_toOption (by decide +kernel))

theorem sound_drawing : (Edit.replaceGraph danglingEdge (.str "Load") true).Sound :=
  ⟨sound_danglingEdge, ⟨_, rfl⟩⟩

theorem reaches_drawing (hok : (begun.respond drawing).2 = .ok ()) :
    Reaches Recording begun (begun.respond drawing).1 :=
  .single ⟨drawing, ⟨sound_drawing, hok⟩, rfl⟩

theorem snapshot_replaceGraph (w : Workspace Editor) {g : Graph}
    (hcheck : Record.checkText g = .ok ()) (label : Json) (markDirty : Bool) :
    GraphEditor.snapshot (w.respond (.edit (.replaceGraph g label markDirty))).1.editor =
      .ok g.snapshot := by
  have hgraph : (w.respond (.edit (.replaceGraph g label markDirty))).1.editor.graph = g := by
    rw [respond_edit_editor]
    rfl
  change Record.stored (w.respond (.edit (.replaceGraph g label markDirty))).1.editor.graph = _
  rw [hgraph, Record.stored, hcheck]
  rfl

theorem snapshot_drawing (w : Workspace Editor) :
    GraphEditor.snapshot (w.respond drawing).1.editor = .ok danglingEdge.snapshot :=
  snapshot_replaceGraph w rfl _ _

/-! A setting that nests too deep is waiting to be recorded when its time has come. -/

def timed : Workspace Editor := { fresh with clock := some Clock.start }

def timedBegun : Workspace Editor :=
  (timed.respond (.call (.init (.str History.initialLabel)))).1

def creating : Event := .edit (.createNode "START" .origin [] (some "s"))

def configuring : Event := .edit (.updateConfig "s" [("note", Json.bracketed 255)] false)

def configured : Workspace Editor := ((timedBegun.respond creating).1.respond configuring).1

/-- The workspace after the quiet period of the setting. -/
def quieted : Workspace Editor := (configured.respond (.call (.advance (.int 2)))).1

theorem observed_timed : timed.Observed := { observed_fresh with }

theorem reaches_quieted : Reaches Recording timedBegun quieted := by
  have hcreated : (timedBegun.respond creating).2.toOption = some () := by decide +kernel
  have hset : ((timedBegun.respond creating).1.respond configuring).2.toOption = some () := by
    decide +kernel
  have hcreate : Recording timedBegun creating := ⟨rfl, Except.eq_ok_of_toOption hcreated⟩
  have hconfigure : Recording (timedBegun.respond creating).1 configuring :=
    ⟨(by decide +kernel : Json.proper (.obj [("note", Json.bracketed 255)]) = true),
      Except.eq_ok_of_toOption hset⟩
  have hadvance : Recording configured (.call (.advance (.int 2))) := trivial
  exact ((Relation.ReflTransGen.single ⟨creating, hcreate, rfl⟩).tail
    ⟨configuring, hconfigure, rfl⟩).tail ⟨_, hadvance, rfl⟩

theorem entry_eq_snapshot_iff_quieted : ∃ last entry, quieted.history = some last ∧
    last.pending = false ∧ last.mode = .idle ∧ last.current? = some entry ∧
      entry.label = "Add node [Start 1]" ∧
        GraphEditor.snapshot quieted.editor ≠ .ok entry.snapshot := by
  have hinit : timed.respond (.call (.init (.str History.initialLabel))) = (timedBegun, .ok ()) :=
    Prod.ext rfl (Except.eq_ok_of_toOption (by decide +kernel))
  have hstate : quieted.depth = 0 ∧ quieted.history.map History.pending = some false ∧
      (quieted.history.bind History.current?).map (·.label) = some "Add node [Start 1]" ∧
        (Record.checkText quieted.editor.graph).toOption = none := by decide +kernel
  obtain ⟨hdepth, hpending, hlabel, hfault⟩ := hstate
  obtain ⟨last, hlast, hheld⟩ :=
    entry_eq_snapshot_iff observed_timed rfl rfl isText_initialLabel hinit reaches_quieted
  rw [hlast] at hpending hlabel
  have hpending : last.pending = false := Option.some.inj hpending
  obtain ⟨hidle, entry, hentry, hiff⟩ := hheld hdepth hpending
  rw [Option.bind_some, hentry] at hlabel
  refine ⟨last, entry, hlast, hpending, hidle, hentry, Option.some.inj hlabel, fun hsnapshot => ?_⟩
  rw [Graph.checkText_eq_ok_iff.mpr (hiff.mp hsnapshot)] at hfault
  cases hfault

end Workspace
end WorkflowStudio
