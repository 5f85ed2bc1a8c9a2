import WorkflowStudio.Proofs.RecordedHistory

/-!
Batches in which another entry is gone to. From then on until the outermost batch is closed the
history takes no notice of the editor, so the entry at the cursor holds the graph of the closed
batch exactly when its text is still the one that the last such step has left.
-/
namespace WorkflowStudio

namespace History

variable {h : History}

/-- The history is applying the entry at its cursor, whose text is the one of the graph. -/
structure Turned (h : History) (g : Graph) : Prop where
  applying : h.mode = .applying
  pending : h.pending = false
  stored : ∃ entry, h.current? = some entry ∧ Record.stored g = .ok entry.snapshot

theorem Turned.onMutation {g : Graph} (ht : h.Turned g) (mutation : Mutation) :
    h.onMutation mutation = h := by
  rw [History.onMutation, isApplying, ht.applying]
  rfl

end History

namespace Workspace

variable {w opened inner next : Workspace Editor} {h : History} {last : Option (Workspace Editor)}
  {label : Json}

/-- What happens in a batch: edits that succeed, batches inside of it, and calls that may go to
another entry. Along with the workspace it is known what it was when an entry was last applied. -/
inductive Browses (opened : Workspace Editor) :
    Workspace Editor → Option (Workspace Editor) → Prop
  | opened : Browses opened opened none
  | edit {w : Workspace Editor} {last : Option (Workspace Editor)} {edit : Edit}
      (hbrowses : Browses opened w last) (hedit : edit.Sound)
      (hok : (w.respond (.edit edit)).2 = .ok ()) :
      Browses opened (w.respond (.edit edit)).1 last
  | openBatch {w : Workspace Editor} {last : Option (Workspace Editor)}
      (hbrowses : Browses opened w last) : Browses opened w.openBatch last
  | closeBatch {w : Workspace Editor} {last : Option (Workspace Editor)}
      (hbrowses : Browses opened w last) (hdepth : 1 < w.depth) :
      Browses opened w.closeBatch.1 last
  | applied {w next : Workspace Editor} {last : Option (Workspace Editor)} {control : Control}
      (hbrowses : Browses opened w last) (hnavigates : control.Navigates)
      (hnext : w.control control = (next, .ok (.bool true))) : Browses opened next (some next)
  | declined {w next : Workspace Editor} {last : Option (Workspace Editor)} {control : Control}
      (hbrowses : Browses opened w last) (hnavigates : control.Navigates)
      (hnext : w.control control = (next, .ok (.bool false))) : Browses opened next last

/-! Steps to other entries inside of a batch. -/

theorem Watched.turned_of_control (hw : w.Watched h) (hopen : 0 < w.depth) {control : Control}
    (hnavigates : control.Navigates) (hnext : w.control control = (next, .ok (.bool true))) :
    ∃ after, next.Watched after ∧ next.depth = w.depth ∧ after.Turned next.editor.graph := by
  obtain ⟨choose, hcalled⟩ := control_eq_navigate hw.history hnavigates
  obtain ⟨mid, flushed, after, hflushes, hafter, hdepth, hturns⟩ := hw.navigate choose
  rw [flag_eq.mp (hcalled.symm.trans hnext)] at hafter hdepth hturns
  refine ⟨after, hafter, hdepth, ?_⟩
  cases hturns with
  | stays hstays => exact absurd rfl hstays
  | goes happlies =>
    obtain ⟨entry, hentry, hstored⟩ := happlies.stored
    refine ⟨?_, ?_, entry, happlies.current?.trans hentry, hstored⟩
    · rcases happlies.mode with hclosed | happlying
      · exact absurd hclosed (Nat.ne_of_gt hopen)
      · exact happlying
    · rw [History.pending, happlies.debouncer]
      exact hflushes.pending_eq_false

/-- When no entry is applied, all that happens is that a waiting edit is recorded. -/
theorem Watched.control_eq_of_declined (hw : w.Watched h) {control : Control}
    (hnavigates : control.Navigates) (hnext : w.control control = (next, .ok (.bool false))) :
    ∃ mid result, h.Flushes w.editor.graph mid result ∧ next = w.told mid w.notices ∧
      next.Watched mid := by
  obtain ⟨choose, hcalled⟩ := control_eq_navigate hw.history hnavigates
  obtain ⟨mid, flushed, after, hflushes, hafter, -, hturns⟩ := hw.navigate choose
  rw [flag_eq.mp (hcalled.symm.trans hnext)] at hafter hturns
  cases hturns with
  | stays => exact ⟨mid, flushed, hflushes, rfl, hafter⟩

/-! Batches. -/

/-- As long as no entry is applied, a batch is like any other. -/
theorem Browses.tracked (hbrowses : Browses opened inner none) (ht : opened.Tracked h) :
    ∃ after, inner.Tracked after := by
  generalize hnone : (none : Option (Workspace Editor)) = last at hbrowses
  induction hbrowses with
  | opened => exact ⟨h, ht⟩
  | edit _ hedit hok ih =>
    obtain ⟨before, hbefore⟩ := ih hnone
    exact hbefore.edit hedit hok
  | openBatch _ ih =>
    obtain ⟨before, hbefore⟩ := ih hnone
    exact ⟨before, hbefore.openBatch⟩
  | closeBatch _ hdepth ih =>
    obtain ⟨before, hbefore⟩ := ih hnone
    have hin : inBatch _ = true := decide_eq_true (Nat.lt_of_succ_lt hdepth)
    exact hbefore.closeBatch hin
  | applied => cases hnone
  | declined _ hnavigates hnext ih =>
    obtain ⟨before, hbefore⟩ := ih hnone
    obtain ⟨mid, result, hflushes, rfl, hmid⟩ :=
      hbefore.watched.control_eq_of_declined hnavigates hnext
    obtain ⟨hidle, hcovers⟩ := hflushes.covers hbefore.kept.idle hbefore.covered
    exact ⟨mid, hmid.tracked hidle hcovers⟩

/-- Once an entry is applied, the history goes on applying it, whatever is done to the graph. -/
theorem Browses.watched (hbrowses : Browses opened inner last) (hw : opened.Watched h)
    (hopen : 0 < opened.depth) :
    ∃ after, inner.Watched after ∧ 0 < inner.depth ∧
      ∀ applied, last = some applied → after.Turned applied.editor.graph := by
  induction hbrowses with
  | opened => exact ⟨h, hw, hopen, fun applied hlast => absurd hlast.symm (Option.some_ne_none _)⟩
  | edit _ hedit hok ih =>
    obtain ⟨before, hbefore, hdepth, hturned⟩ := ih
    obtain ⟨after, hafter, hsame, hedits⟩ := hbefore.edit hedit
    refine ⟨after, hafter, hsame ▸ hdepth, fun applied hlast => ?_⟩
    have hturned := hturned applied hlast
    generalize (Editor.apply _ _).mutation = mutation at hedits
    cases hedits with
    | untold => exact hturned
    | inner =>
      rw [hturned.onMutation]
      exact hturned
    | outer hzero => exact absurd hzero (Nat.ne_of_gt hdepth)
  | openBatch _ ih =>
    obtain ⟨before, hbefore, hdepth, hturned⟩ := ih
    exact ⟨before, hbefore.openBatch, Nat.succ_pos _, hturned⟩
  | closeBatch _ hdepth ih =>
    obtain ⟨before, hbefore, -, hturned⟩ := ih
    obtain ⟨hclose, hafter⟩ := hbefore.closeBatch_of_inner hdepth
    rw [hclose]
    exact ⟨before, hafter, Nat.sub_pos_of_lt hdepth, hturned⟩
  | applied _ hnavigates hnext ih =>
    obtain ⟨before, hbefore, hdepth, -⟩ := ih
    obtain ⟨after, hafter, hsame, hturned⟩ := hbefore.turned_of_control hdepth hnavigates hnext
    refine ⟨after, hafter, hsame ▸ hdepth, fun applied hlast => ?_⟩
    cases hlast
    exact hturned
  | declined _ hnavigates hnext ih =>
    obtain ⟨before, hbefore, hdepth, hturned⟩ := ih
    obtain ⟨mid, result, hflushes, rfl, hmid⟩ := hbefore.control_eq_of_declined hnavigates hnext
    refine ⟨mid, hmid, hdepth, fun applied hlast => ?_⟩
    have hturned := hturned applied hlast
    rw [hflushes.eq_self hturned.pending]
    exact hturned

/-- The end of the outermost batch leaves the entry that was applied at the cursor. -/
theorem Watched.closeBatch_of_turned (hw : w.Watched h) (hdepth : w.depth = 1) {g : Graph}
    (hturned : h.Turned g) :
    ∃ done entry, w.closeBatch.1.history = some done ∧ done.mode = .idle ∧
      done.current? = some entry ∧ Record.stored g = .ok entry.snapshot := by
  obtain ⟨done, notices, result, hclose, hdone, hends⟩ := hw.closeBatch_of_outer hdepth
  rw [hclose]
  obtain ⟨entry, hentry, hstored⟩ := hturned.stored
  have happlying := hturned.applying
  cases hends with
  | applied => exact ⟨_, entry, rfl, rfl, hentry, hstored⟩
  | nothing hidle | waits hidle | recorded hidle =>
    exact absurd happlying (History.not_applying hidle)

/-- The entry at the cursor holds the graph, or an edit waits to be recorded. -/
def InStep (w : Workspace Editor) : Prop :=
  ∀ h, w.history = some h → h.pending = true ∨ h.Holds w.editor.graph

theorem Watched.tracked_of_inStep (hw : w.Watched h) (hdepth : w.depth = 0) (hstep : w.InStep) :
    w.Tracked h := by
  refine hw.tracked (hw.closed hdepth).1 (Or.inr ?_)
  exact hstep h hw.history

/-- When a batch was closed and nothing waits to be recorded, the entry at the cursor holds the
stored text of the graph if and only if this text is the one that the graph had when an entry was
last applied in the batch. A batch in which no entry is applied loses nothing. -/
theorem holds_closed_batch_iff {first start : Workspace Editor} (hfirst : first.Observed)
    (hhistory : first.history = some h) (hidle : h.mode = .idle) (hlabel : label.IsText)
    (hinit : first.respond (.call (.init label)) = (start, .ok ()))
    (hrun : Reaches Calm start w) (hdepth : w.depth = 0)
    (hbrowses : Browses w.openBatch inner last) (hinner : inner.depth = 1)
    (hstep : last = none → w.InStep) :
    ∃ done entry, inner.closeBatch.1.history = some done ∧ done.mode = .idle ∧
      done.current? = some entry ∧ (done.pending = false →
        ∀ text, GraphEditor.snapshot inner.closeBatch.1.editor = .ok text →
          (entry.snapshot = text ↔ ∀ applied, last = some applied →
            GraphEditor.snapshot applied.editor = .ok text)) := by
  obtain ⟨begun, hbegun⟩ := hfirst.tracked_of_init hhistory hidle hlabel hinit
  obtain ⟨before, hbefore⟩ := watched_of_reaches hbegun.watched hrun
  cases last with
  | none =>
    have hopened : w.openBatch.Tracked before :=
      (hbefore.tracked_of_inStep hdepth (hstep rfl)).openBatch
    obtain ⟨after, hafter⟩ := hbrowses.tracked hopened
    have hin : inner.inBatch := decide_eq_true (hinner ▸ Nat.zero_lt_one)
    obtain ⟨done, hdone⟩ := hafter.closeBatch hin
    obtain ⟨entry, hentry, -⟩ := hdone.kept.current
    refine ⟨done, entry, hdone.history, hdone.kept.idle, hentry, fun hpending text htext => ?_⟩
    have hzero : inner.closeBatch.1.depth = 0 := by
      obtain ⟨next, notices, result, hclose, -⟩ := hafter.watched.closeBatch_of_outer hinner
      rw [hclose]
      rfl
    have hheld := hdone.holds hzero hpending text htext
    rw [hentry] at hheld
    exact ⟨fun _ _ hlast => (by cases hlast), fun _ => Option.some.inj hheld⟩
  | some applied =>
    obtain ⟨after, hafter, -, hturned⟩ := hbrowses.watched hbefore.openBatch (Nat.succ_pos _)
    obtain ⟨done, entry, hdone, hmode, hentry, hstored⟩ :=
      hafter.closeBatch_of_turned hinner (hturned applied rfl)
    refine ⟨done, entry, hdone, hmode, hentry, fun _ text _ => ?_⟩
    have hsnapshot : GraphEditor.snapshot applied.editor = .ok entry.snapshot := hstored
    constructor
    · rintro rfl other hlast
      cases hlast
      exact hsnapshot
    · intro hsame
      rw [hsame applied rfl] at hsnapshot
      exact (Except.ok.inj hsnapshot).symm

/-! A graph is drawn, and then a batch goes back to the graph before it. -/

/-- From there the batch goes forth again, or draws the graph again. -/
structure Retraced (drawn back forth lost : Workspace Editor) : Prop where
  draw : begun.respond drawing = (drawn, .ok ())
  closed : drawn.depth = 0
  undo : drawn.openBatch.control .undo = (back, .ok (.bool true))
  redo : back.control .redo = (forth, .ok (.bool true))
  forth_depth : forth.depth = 1
  forth_pending : forth.closeBatch.1.history.map History.pending = some false
  forth_text : (GraphEditor.snapshot forth.editor).toOption = some danglingEdge.snapshot
  redraw : back.respond drawing = (lost, .ok ())
  lost_depth : lost.depth = 1
  lost_result : lost.closeBatch.2.toOption = some ()
  lost_pending : lost.closeBatch.1.history.map History.pending = some false
  lost_entry : (lost.closeBatch.1.history.bind History.current?).map
    (decide <| ·.snapshot = danglingEdge.snapshot) = some false

theorem exists_retraced : ∃ drawn back forth lost, Retraced drawn back forth lost := by
  let drawn := (begun.respond drawing).1
  let back := (drawn.openBatch.control .undo).1
  let forth := (back.control .redo).1
  let lost := (back.respond drawing).1
  -- All of it is evaluated at once, because every part begins with the same steps.
  have hall : ((begun.respond drawing).2.toOption = some () ∧ drawn.depth = 0 ∧
      (drawn.openBatch.control .undo).2.toOption = some (.bool true)) ∧
        ((back.control .redo).2.toOption = some (.bool true) ∧ forth.depth = 1 ∧
          forth.closeBatch.1.history.map History.pending = some false ∧
            (GraphEditor.snapshot forth.editor).toOption = some danglingEdge.snapshot) ∧
          (back.respond drawing).2.toOption = some () ∧ lost.depth = 1 ∧
            lost.closeBatch.2.toOption = some () ∧
              lost.closeBatch.1.history.map History.pending = some false ∧
                (lost.closeBatch.1.history.bind History.current?).map
                  (decide <| ·.snapshot = danglingEdge.snapshot) = some false := by decide +kernel
  obtain ⟨⟨hdraw, hclosed, hundo⟩, ⟨hredo, hforth⟩, hredraw, hlost⟩ := hall
  exact ⟨drawn, back, forth, lost, Except.prod_eq_of_toOption hdraw, hclosed,
    Except.prod_eq_of_toOption hundo, Except.prod_eq_of_toOption hredo, hforth.1, hforth.2.1,
    hforth.2.2, Except.prod_eq_of_toOption hredraw, hlost.1, hlost.2.1, hlost.2.2.1, hlost.2.2.2⟩

/-- When the graph is drawn again in the batch, the entry at the cursor does not hold it. -/
theorem not_holds_closed_batch : ¬∀ (first start w inner : Workspace Editor) (h : History)
    (label : Json) (last : Option (Workspace Editor)), first.Observed → first.history = some h →
      h.mode = .idle → label.IsText → first.respond (.call (.init label)) = (start, .ok ()) →
        Reaches Recording start w → w.depth = 0 → Browses w.openBatch inner last →
          inner.depth = 1 → inner.closeBatch.2 = .ok () → ∀ done entry,
            inner.closeBatch.1.history = some done → done.pending = false →
              done.current? = some entry →
                ∀ text, GraphEditor.snapshot inner.closeBatch.1.editor = .ok text →
                  entry.snapshot = text := by
  intro hclaim
  obtain ⟨drawn, back, _, lost, hsteps⟩ := exists_retraced
  have hundo : Control.Navigates .undo := trivial
  have hrun : Reaches Recording begun drawn := by
    have hreached := reaches_drawing (congrArg Prod.snd hsteps.draw)
    rw [hsteps.draw] at hreached
    exact hreached
  have hbrowses : Browses drawn.openBatch lost (some back) := by
    have hok : (back.respond drawing).2 = .ok () := congrArg Prod.snd hsteps.redraw
    have hsame : (back.respond drawing).1 = lost := congrArg Prod.fst hsteps.redraw
    rw [← hsame]
    exact .edit (.applied .opened hundo hsteps.undo) sound_drawing hok
  have hsnapshot : GraphEditor.snapshot lost.closeBatch.1.editor = .ok danglingEdge.snapshot := by
    have hdrawing := snapshot_drawing back
    rw [hsteps.redraw] at hdrawing
    rw [closeBatch_editor]
    exact hdrawing
  obtain ⟨done, hdone, hwaits⟩ := Option.map_eq_some_iff.mp hsteps.lost_pending
  have hentry := hsteps.lost_entry
  rw [hdone, Option.bind_some] at hentry
  obtain ⟨entry, hcurrent, hdiffers⟩ := Option.map_eq_some_iff.mp hentry
  have hheld := hclaim fresh begun drawn lost _ _ _ observed_fresh rfl rfl isText_initialLabel
    respond_fresh hrun hsteps.closed hbrowses hsteps.lost_depth
    (Except.eq_ok_of_toOption hsteps.lost_result) done entry hdone hwaits hcurrent _ hsnapshot
  exact of_decide_eq_false hdiffers hheld

/-- When the batch goes forth again, the entry at the cursor holds the graph. -/
theorem holds_closed_batch_undo_redo : ∃ drawn back forth done entry,
    begun.respond drawing = (drawn, .ok ()) ∧
      drawn.openBatch.control .undo = (back, .ok (.bool true)) ∧
        back.control .redo = (forth, .ok (.bool true)) ∧
          forth.closeBatch.1.history = some done ∧ done.current? = some entry ∧
            entry.snapshot = danglingEdge.snapshot := by
  obtain ⟨drawn, back, forth, _, hsteps⟩ := exists_retraced
  have hundo : Control.Navigates .undo := trivial
  have hredo : Control.Navigates .redo := trivial
  have hrun : Reaches Calm begun drawn :=
    .single ⟨drawing, sound_drawing, (congrArg Prod.fst hsteps.draw).symm⟩
  have hbrowses : Browses drawn.openBatch forth (some forth) :=
    .applied (.applied .opened hundo hsteps.undo) hredo hsteps.redo
  have htext := Except.eq_ok_of_toOption hsteps.forth_text
  obtain ⟨done, entry, hdone, -, hentry, hiff⟩ :=
    holds_closed_batch_iff observed_fresh rfl rfl isText_initialLabel respond_fresh hrun
      hsteps.closed hbrowses hsteps.forth_depth (fun hnone => absurd hnone (Option.some_ne_none _))
  have hpending := hsteps.forth_pending
  rw [hdone] at hpending
  refine ⟨drawn, back, forth, done, entry, hsteps.draw, hsteps.undo, hsteps.redo, hdone, hentry, ?_⟩
  refine (hiff (Option.some.inj hpending) _ ?_).mpr fun applied hlast => ?_
  · rw [closeBatch_editor]
    exact htext
  · rw [← Option.some.inj hlast]
    exact htext

end Workspace
end WorkflowStudio
