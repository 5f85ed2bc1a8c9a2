import WorkflowStudio.Proofs.RecordedHistory

/-!
Undoing the last edit. Whether it was recorded at once or waits, and also when the oldest entry
has to go, the entry before the recorded one is the one that held the graph. So undoing leads
back to it and redoing leads on again, exactly when the history was told of the edit and both
texts can be read.
-/
namespace WorkflowStudio

namespace History

variable {h : History}

theorem Ends.eq_self {g : Graph} {next : History} {result : Except Fault Unit}
    (hends : h.Ends g next result) (hidle : h.mode = .idle) (hempty : h.batch = []) : next = h := by
  cases hends with
  | applied happlying => exact absurd happlying (not_applying hidle)
  | nothing => rfl
  | waits _ hcollected => exact absurd hempty hcollected
  | recorded _ hcollected => exact absurd hempty hcollected

/-- Once a waiting edit was recorded, a batch in which something was told has an entry. -/
theorem Ends.timeline_eq {g : Graph} {told : List Mutation} {after mid : History}
    {result : Except Fault Unit} {flushed : Except Fault Bool}
    (hends : Ends g { h with batch := told } after result) (hflushes : after.Flushes g mid flushed)
    (hidle : h.mode = .idle) (htold : told ≠ []) {text : String}
    (hstored : Record.stored g = .ok text) {t : Timeline} (ht : h.timeline = some t)
    (hdiffers : t.current?.map (·.snapshot) ≠ some text) :
    ∃ label, mid.timeline = some (t.record h.limit ⟨text, label⟩) := by
  cases hends with
  | applied happlying => exact absurd happlying (not_applying hidle)
  | nothing _ hempty => exact absurd hempty htold
  | waits _ _ htimeline hlimit hmode _ hpending =>
    cases hflushes with
    | still hstill =>
      rw [hpending] at hstill
      cases hstill
    | taken _ htakes =>
      obtain ⟨label, hadded⟩ := htakes.timeline_eq hmode hstored (htimeline.trans ht) hdiffers
      have hlimit : after.dropWaiting.limit = h.limit := hlimit
      rw [hlimit] at hadded
      exact ⟨label, hadded⟩
  | recorded _ _ htakes =>
    obtain ⟨label, hadded⟩ := htakes.timeline_eq hidle hstored ht hdiffers
    have hstill : after.pending = false := htakes.pending_eq_false rfl
    rw [hflushes.eq_self hstill]
    exact ⟨label, hadded⟩

end History

namespace Workspace

variable {w opened inner next : Workspace Editor} {h before : History} {told : List Mutation}
  {label : Json}

/-- Edits in a batch and in batches inside of it, with the mutations that observers are told.
An edit may fail, and may then have changed the graph. -/
inductive Gathers (opened : Workspace Editor) : Workspace Editor → List Mutation → Prop
  | opened : Gathers opened opened []
  | edit {w : Workspace Editor} {told : List Mutation} {edit : Edit}
      (hgathers : Gathers opened w told) (hedit : edit.Sound) :
      Gathers opened (w.respond (.edit edit)).1 (told ++ (w.editor.apply edit).mutation.toList)
  | openBatch {w : Workspace Editor} {told : List Mutation} (hgathers : Gathers opened w told) :
      Gathers opened w.openBatch told
  | closeBatch {w : Workspace Editor} {told : List Mutation} (hgathers : Gathers opened w told)
      (hdepth : 1 < w.depth) : Gathers opened w.closeBatch.1 told

/-- A single edit, or an outermost batch of edits. -/
inductive Makes (w : Workspace Editor) : Workspace Editor → List Mutation → Prop
  | single {edit : Edit} (hedit : edit.Sound) :
      Makes w (w.respond (.edit edit)).1 (w.editor.apply edit).mutation.toList
  | batch {inner : Workspace Editor} {told : List Mutation}
      (hgathers : Gathers w.openBatch inner told) (hdepth : inner.depth = 1) :
      Makes w inner.closeBatch.1 told

/-- Everything that is told in a batch is collected. -/
theorem Gathers.watched (hgathers : Gathers opened inner told)
    (hw : opened.Watched { before with batch := [] }) (hidle : before.mode = .idle)
    (hopen : 0 < opened.depth) :
    inner.Watched { before with batch := told } ∧ 0 < inner.depth := by
  induction hgathers with
  | opened => exact ⟨hw, hopen⟩
  | @edit w told edit _ hedit ih =>
    obtain ⟨hbefore, hdepth⟩ := ih
    obtain ⟨after, hafter, hsame, hedits⟩ := hbefore.edit hedit
    rw [hsame]
    refine ⟨?_, hdepth⟩
    generalize (w.editor.apply edit).mutation = mutation at hedits
    cases hedits with
    | untold =>
      rw [Option.toList_none, List.append_nil]
      exact hafter
    | inner =>
      have hkept : History.Kept { before with batch := told } := hbefore.sound.kept hidle
      rw [hkept.onMutation] at hafter
      exact hafter
    | outer hzero => exact absurd hzero (Nat.ne_of_gt hdepth)
  | openBatch _ ih =>
    obtain ⟨hbefore, -⟩ := ih
    exact ⟨hbefore.openBatch, Nat.succ_pos _⟩
  | closeBatch _ hdepth ih =>
    obtain ⟨hbefore, -⟩ := ih
    obtain ⟨hclose, hafter⟩ := hbefore.closeBatch_of_inner hdepth
    rw [hclose]
    exact ⟨hafter, Nat.sub_pos_of_lt hdepth⟩

theorem Makes.ends (hmakes : Makes w next told) (hw : w.Watched before) (hdepth : w.depth = 0) :
    ∃ after result, next.Watched after ∧ next.depth = 0 ∧
      History.Ends next.editor.graph { before with batch := told } after result := by
  obtain ⟨hidle, hempty⟩ := hw.closed hdepth
  have hclear : { before with batch := [] } = before := by rw [← hempty]
  cases hmakes with
  | @single edit hedit =>
    obtain ⟨after, hafter, hsame, hedits⟩ := hw.edit hedit
    rw [respond_edit_editor]
    rw [hdepth] at hsame hedits
    generalize (w.editor.apply edit).mutation = mutation at hedits
    cases hedits with
    | untold =>
      refine ⟨before, .ok (), hafter, hsame, ?_⟩
      rw [Option.toList_none, hclear]
      exact .nothing hidle hempty
    | inner hopen => exact absurd hopen (Nat.lt_irrefl 0)
    | outer _ hends =>
      rw [(hw.sound.kept hidle).onMutation, hempty] at hends
      exact ⟨after, _, hafter, hsame, hends⟩
  | batch hgathers hone =>
    have hopened : w.openBatch.Watched { before with batch := [] } := by
      rw [hclear]
      exact hw.openBatch
    obtain ⟨hinner, -⟩ := hgathers.watched hopened hidle (Nat.succ_pos _)
    obtain ⟨after, notices, result, hclose, hafter, hends⟩ := hinner.closeBatch_of_outer hone
    rw [hclose]
    exact ⟨after, result, hafter, rfl, hends⟩

/-! Steps back and forth. -/

variable {mid : History} {taken : Bool} {t : Timeline}

theorem undo_eq (hhistory : w.history = some h)
    (hflush : w.flush h = (w.told mid w.notices, .ok taken)) (ht : mid.timeline = some t) :
    w.control .undo = flag (if 0 < t.cursor
      then (w.told mid w.notices).applyEntry mid (t.cursor - 1) none
      else (w.told mid w.notices, .ok false)) := by
  have hcan : mid.canUndo = decide (0 < t.cursor) := by
    rw [History.canUndo, ht]
    rfl
  have hindex : (mid.index - 1).toNat = t.cursor - 1 := by
    rw [History.index, ht, Option.map_some, Option.getD_some]
    omega
  rw [Workspace.control, onHistory, hhistory]
  dsimp only
  rw [Workspace.undo, navigate_eq hflush, hcan, hindex]
  by_cases hpos : 0 < t.cursor
  · rw [decide_eq_true hpos, if_pos hpos]
    rfl
  · rw [decide_eq_false hpos, if_neg hpos]
    rfl

theorem redo_eq (hhistory : w.history = some h)
    (hflush : w.flush h = (w.told mid w.notices, .ok taken)) (ht : mid.timeline = some t) :
    w.control .redo = flag (if t.cursor + 1 < t.entries.length
      then (w.told mid w.notices).applyEntry mid (t.cursor + 1) none
      else (w.told mid w.notices, .ok false)) := by
  have hcan : mid.canRedo = decide (t.cursor + 1 < t.entries.length) := by
    rw [History.canRedo, ht]
    rfl
  have hindex : (mid.index + 1).toNat = t.cursor + 1 := by
    rw [History.index, ht, Option.map_some, Option.getD_some]
    omega
  rw [Workspace.control, onHistory, hhistory]
  dsimp only
  rw [Workspace.redo, navigate_eq hflush, hcan, hindex]
  by_cases hlt : t.cursor + 1 < t.entries.length
  · rw [decide_eq_true hlt, if_pos hlt]
    rfl
  · rw [decide_eq_false hlt, if_neg hlt]
    rfl

theorem Watched.flush_of_not_pending (hw : w.Watched h) (hpending : h.pending = false) :
    w.flush h = (w.told h w.notices, .ok false) := by
  have hwaiting : h.debouncer.waiting = none := Option.not_isSome_iff_eq_none.mp (by
    rw [Bool.not_eq_true]
    exact hpending)
  rw [Workspace.flush, History.takeWaiting_eq, hwaiting, hw.told_eq]

/-- The entry that holds a graph can be gone to if and only if the text of the graph can be read
and its positions are finite. -/
theorem Watched.applyEntry_iff_placed (hw : w.Watched h) {index : Nat} {entry : HistoryEntry}
    (hentry : h.entries[index]? = some entry) {g : Graph} (hg : g.Sound)
    (hstored : Record.stored g = .ok entry.snapshot) :
    (w.applyEntry h index none).2 = .ok true ↔ g.Readable ∧ g.Placed := by
  have hiff (loaded : Graph) : Graph.ofSnapshot entry.snapshot = .ok loaded ↔
      g.Readable ∧ g.Placed ∧ loaded = g.finite := by
    rw [(Graph.stored_eq_ok_iff.mp hstored).2]
    exact Graph.ofSnapshot_snapshot_iff hg
  unfold Workspace.applyEntry
  rw [hentry, Option.map_some]
  constructor
  · intro hok
    cases hread : Graph.ofSnapshot entry.snapshot with
    | ok loaded =>
      obtain ⟨hreadable, hplaced, -⟩ := (hiff loaded).mp hread
      exact ⟨hreadable, hplaced⟩
    | bad problems =>
      rw [hread] at hok
      cases hok
  · rintro ⟨hreadable, hplaced⟩
    have hread := (hiff g.finite).mpr ⟨hreadable, hplaced, rfl⟩
    rw [hread]
    exact (hw.restore none hentry hread).1

theorem Watched.applyEntry_iff (hw : w.Watched h) {index : Nat} {entry : HistoryEntry}
    (hentry : h.entries[index]? = some entry) {g : Graph} (hg : g.Sound) (hplaced : g.Placed)
    (hstored : Record.stored g = .ok entry.snapshot) :
    (w.applyEntry h index none).2 = .ok true ↔ g.Readable :=
  (hw.applyEntry_iff_placed hentry hg hstored).trans (and_iff_left hplaced)

/-- Undoing leads to one text, and redoing then to another. Neither changes an entry that there
is once a waiting edit was recorded. -/
def UndoneAndRedone (w : Workspace Editor) (old new : String) : Prop :=
  ∃ back forth : Workspace Editor,
    w.control .undo = (back, .ok (.bool true)) ∧ GraphEditor.snapshot back.editor = .ok old ∧
      back.control .redo = (forth, .ok (.bool true)) ∧
        GraphEditor.snapshot forth.editor = .ok new ∧
          back.history.map History.entries = (w.control .flush).1.history.map History.entries ∧
            forth.history.map History.entries = (w.control .flush).1.history.map History.entries

/-- After a step back from the entry at the cursor, a step forth leads to it again. -/
theorem Applies.redo {back : Workspace Editor} {after : History}
    (happlies : Applies w mid (t.cursor - 1) back after) (ht : mid.timeline = some t)
    (hpending : mid.pending = false) (hpos : 0 < t.cursor) (hlt : t.cursor < t.entries.length) :
    back.control .redo = flag (back.applyEntry after t.cursor none) := by
  have hstill : after.pending = false := by
    rw [History.pending, happlies.debouncer]
    exact hpending
  have hmoved : after.timeline = some (t.moveTo (t.cursor - 1)) := by
    rw [happlies.timeline, ht]
    rfl
  have hnext : (t.moveTo (t.cursor - 1)).cursor + 1 = t.cursor := Nat.sub_add_cancel hpos
  have hlt : t.cursor < (t.moveTo (t.cursor - 1)).entries.length := hlt
  have hredo := redo_eq happlies.watched.history
    (happlies.watched.flush_of_not_pending hstill) hmoved
  rw [hnext, if_pos hlt, happlies.watched.told_eq] at hredo
  exact hredo

theorem Applies.entries {index : Nat} {back : Workspace Editor} {after : History}
    (happlies : Applies w mid index back after) : after.entries = mid.entries := by
  rw [History.entries, happlies.timeline, History.entries]
  cases mid.timeline with
  | none => rfl
  | some t => rfl

theorem Applies.snapshot {index : Nat} {back : Workspace Editor} {after : History}
    (happlies : Applies w mid index back after) {entry : HistoryEntry}
    (hentry : mid.entries[index]? = some entry) :
    GraphEditor.snapshot back.editor = .ok entry.snapshot := by
  obtain ⟨found, hfound, hstored⟩ := happlies.stored
  rw [hentry] at hfound
  cases hfound
  exact hstored

/-- When the last entry holds one graph and the entry before it another, undoing and redoing
depend on nothing but that both texts can be read. -/
theorem Watched.undoneAndRedone_iff (hw : w.Watched h)
    (hflush : w.flush h = (w.told mid w.notices, .ok taken))
    (hmid : (w.told mid w.notices).Watched mid) (hpending : mid.pending = false)
    (ht : mid.timeline = some t) (hpos : 0 < t.cursor) {old new : HistoryEntry}
    (hold : t.entries[t.cursor - 1]? = some old) (hnew : t.current? = some new) {g g' : Graph}
    (hg : g.Sound) (hplaced : g.Placed) (hstored : Record.stored g = .ok old.snapshot)
    (hg' : g'.Sound) (hplaced' : g'.Placed) (hstored' : Record.stored g' = .ok new.snapshot) :
    w.UndoneAndRedone old.snapshot new.snapshot ↔ g.Readable ∧ g'.Readable := by
  have hentries : mid.entries = t.entries := by
    rw [History.entries, ht]
    rfl
  have hlt : t.cursor < t.entries.length := Timeline.lt_of_current? hnew
  have hundo : w.control .undo =
      flag ((w.told mid w.notices).applyEntry mid (t.cursor - 1) none) := by
    rw [undo_eq hw.history hflush ht, if_pos hpos]
  have hold : mid.entries[t.cursor - 1]? = some old := hentries.symm ▸ hold
  have hback := hmid.applyEntry_iff hold hg hplaced hstored
  -- The step forth starts from wherever the step back has led.
  have hforth {back : Workspace Editor} {after : History}
      (happlies : Applies (w.told mid w.notices) mid (t.cursor - 1) back after) :
      after.entries[t.cursor]? = some new ∧
        ((back.applyEntry after t.cursor none).2 = .ok true ↔ g'.Readable) := by
    have hentry : after.entries[t.cursor]? = some new := by
      rw [happlies.entries, hentries]
      exact hnew
    exact ⟨hentry, happlies.watched.applyEntry_iff hentry hg' hplaced' hstored'⟩
  have hgone := hmid.applyEntry (t.cursor - 1) none
  generalize (w.told mid w.notices).applyEntry mid (t.cursor - 1) none = step at hundo hback hgone
  obtain ⟨back, result⟩ := step
  constructor
  · rintro ⟨found, forth, hundone, -, hredone, -⟩
    rw [hundo, flag_eq] at hundone
    cases hundone
    rcases hgone with hsame | ⟨-, after, happlies⟩
    · cases hsame
    · rw [happlies.redo ht hpending hpos hlt, flag_eq] at hredone
      exact ⟨hback.mp rfl, (hforth happlies).2.mp (congrArg Prod.snd hredone)⟩
  · rintro ⟨hreadable, hreadable'⟩
    have hresult : result = .ok true := hback.mpr hreadable
    subst hresult
    rcases hgone with hsame | ⟨-, after, happlies⟩
    · cases hsame
    · have hredo := happlies.redo ht hpending hpos hlt
      obtain ⟨hentry, hstep⟩ := hforth happlies
      have hstep := hstep.mpr hreadable'
      have hgone := happlies.watched.applyEntry t.cursor none
      generalize back.applyEntry after t.cursor none = step at hredo hstep hgone
      obtain ⟨forth, result⟩ := step
      subst hstep
      rcases hgone with hsame | ⟨-, last, hagain⟩
      · cases hsame
      · have hrecorded : (w.control .flush).1.history = some mid := by
          rw [Workspace.control, onHistory, hw.history]
          dsimp only
          rw [hflush]
          rfl
        refine ⟨back, forth, hundo, happlies.snapshot hold, hredo, hagain.snapshot hentry, ?_, ?_⟩
        · rw [hrecorded, happlies.watched.history, Option.map_some, Option.map_some,
            happlies.entries]
        · rw [hrecorded, hagain.watched.history, Option.map_some, Option.map_some, hagain.entries,
            happlies.entries]

/-- An edit that nobody was told of is not undone, because the entry before the one at the cursor
holds another graph. -/
theorem not_undoneAndRedone_of_bounded (hw : w.Watched h) (hpending : h.pending = false)
    {limit : Nat} (ht : h.timeline = some t) (hbounded : t.Bounded limit) {old new : String}
    (hold : t.current?.map (·.snapshot) = some old) : ¬w.UndoneAndRedone old new := by
  rintro ⟨back, -, hundone, hsnapshot, -⟩
  rw [undo_eq hw.history (hw.flush_of_not_pending hpending) ht, hw.told_eq, flag_eq] at hundone
  by_cases hpos : 0 < t.cursor
  · rw [if_pos hpos] at hundone
    rcases hw.applyEntry (t.cursor - 1) none with hsame | ⟨-, after, happlies⟩
    · rw [hsame] at hundone
      cases hundone
    · rw [hundone] at happlies
      obtain ⟨entry, hentry, hstored⟩ := happlies.stored
      have hstored : GraphEditor.snapshot back.editor = .ok entry.snapshot := hstored
      rw [hsnapshot] at hstored
      cases hstored
      rw [History.entries, ht] at hentry
      exact hbounded.ne_previous hpos hentry hold
  · rw [if_neg hpos] at hundone
    cases hundone

/-- After an edit, or an outermost batch of edits, that has changed the stored text of the graph
from the one at the cursor, undoing leads to the old text and redoing to the new one if and only
if a mutation was told and both texts can be read. -/
theorem undoneAndRedone_iff_told {first start : Workspace Editor} (hfirst : first.Observed)
    (hhistory : first.history = some h) (hidle : h.mode = .idle) (hlimit : 2 ≤ h.limit)
    (hlabel : label.IsText) (hinit : first.respond (.call (.init label)) = (start, .ok ()))
    (hrun : Reaches Calm start w) (hdepth : w.depth = 0) (hbefore : w.history = some before)
    (hpending : before.pending = false) {entry : HistoryEntry}
    (hentry : before.current? = some entry)
    (hold : GraphEditor.snapshot w.editor = .ok entry.snapshot) (hmakes : Makes w next told)
    {text : String} (hnew : GraphEditor.snapshot next.editor = .ok text)
    (hdiffers : text ≠ entry.snapshot) (hplaced : w.editor.graph.Placed)
    (hplaced' : next.editor.graph.Placed) :
    next.UndoneAndRedone entry.snapshot text ↔
      told ≠ [] ∧ w.editor.graph.Readable ∧ next.editor.graph.Readable := by
  have hone : 1 ≤ h.limit := Nat.le_of_succ_le hlimit
  have hw := watched_of_init hfirst hhistory hidle hlabel hinit hrun hbefore
  obtain ⟨hsame, t, ht, hbounded⟩ :=
    bounded_of_init hfirst hhistory hidle hone hlabel hinit hrun hbefore
  rw [hsame] at hbounded
  have hcurrent : t.current? = some entry := by
    rw [History.current?, ht] at hentry
    exact hentry
  obtain ⟨hmode, hempty⟩ := hw.closed hdepth
  obtain ⟨after, result, hafter, hzero, hends⟩ := hmakes.ends hw hdepth
  by_cases htold : told = []
  · rw [htold] at hends
    have hstill := hends.eq_self hmode rfl
    subst hstill
    have hnot : ¬next.UndoneAndRedone entry.snapshot text := by
      refine not_undoneAndRedone_of_bounded hafter hpending ht hbounded ?_
      rw [hcurrent]
      rfl
    exact ⟨fun hboth => absurd hboth hnot, fun hall => absurd htold hall.1⟩
  · obtain ⟨mid, flushed, hflush, hmid, hflushes⟩ := hafter.flush_eq
    obtain ⟨taken, rfl⟩ := hflushes.eq_ok hnew
    have hchanged : t.current?.map (·.snapshot) ≠ some text := by
      rw [hcurrent]
      exact fun heq => hdiffers (Option.some.inj heq).symm
    obtain ⟨shown, hadded⟩ := hends.timeline_eq hflushes hmode htold hnew ht hchanged
    rw [hsame] at hadded
    have hrecords := Timeline.records_record hbounded.cursor_lt h.limit ⟨text, shown⟩
    have hlast := hrecords.current? hbounded.cursor_lt
    obtain ⟨hpos, hprevious⟩ := hrecords.previous hbounded.cursor_lt hlimit
    rw [hcurrent] at hprevious
    have hiff := hafter.undoneAndRedone_iff hflush hmid hflushes.pending_eq_false hadded hpos
      hprevious hlast hw.graph hplaced hold hafter.graph hplaced' hnew
    rw [hiff]
    exact ⟨fun hreadable => ⟨htold, hreadable⟩, fun hall => hall.2⟩

/-! A note in many brackets is written, and cannot be read again. -/

def remark : Fields := [("note", Json.bracketed 220)]

def remarkedEdge : Graph :=
  ⟨[], [{ Connection.toEdge ⟨"a", "b", none, none⟩ none with extras := remark }]⟩

theorem sound_remarkedEdge : remarkedEdge.Sound where
  nodes := fun _ hn => absurd hn List.not_mem_nil
  edges := by
    intro edge hedge
    have hplain := sound_danglingEdge.edges _ List.mem_cons_self
    have hfree : remark.get? "data" = none := rfl
    have hproper : Json.proper (.obj remark) = true := by decide +kernel
    rw [List.mem_singleton.mp hedge]
    refine { hplain with extras := ⟨?_, hproper⟩, settled := ?_ }
    · intro field hfield
      rw [List.mem_singleton.mp hfield]
      decide
    · intro payload hdata
      rw [hfree] at hdata
      cases hdata

def remarking : Edit := .replaceGraph remarkedEdge (.str "Note") true

theorem sound_remarking : remarking.Sound := ⟨sound_remarkedEdge, ⟨_, rfl⟩⟩

theorem snapshot_remarking (w : Workspace Editor) :
    GraphEditor.snapshot (w.respond (.edit remarking)).1.editor = .ok remarkedEdge.snapshot := by
  have hcheck : (Record.checkText remarkedEdge).toOption = some () := by decide +kernel
  rw [remarking]
  exact snapshot_replaceGraph w (Except.eq_ok_of_toOption hcheck) _ _

theorem not_readable_remarkedEdge : ¬remarkedEdge.Readable := by
  intro hreadable
  have hdeep : Json.legible Json.strict Json.strict.deepest (Graph.write .kept remarkedEdge) =
      false := by decide +kernel
  exact absurd hreadable.legible (Bool.eq_false_iff.mp hdeep)

/-- The empty graph can be read from its text, so its text is another one. -/
theorem snapshot_remarkedEdge_ne : remarkedEdge.snapshot ≠ Graph.empty.snapshot := by
  intro hsame
  have hempty : Graph.empty.Readable ∧ Graph.empty.Placed :=
    ⟨⟨rfl, rfl⟩, fun _ hn => absurd hn List.not_mem_nil⟩
  have hread : Graph.ofSnapshot Graph.empty.snapshot = .ok Graph.empty.finite :=
    (Graph.ofSnapshot_snapshot_iff observed_fresh.graph).mpr ⟨hempty.1, hempty.2, rfl⟩
  rw [← hsame, Graph.ofSnapshot_snapshot_iff sound_remarkedEdge] at hread
  exact not_readable_remarkedEdge hread.1

theorem not_undoneAndRedone_remarkedEdge :
    ¬(begun.respond (.edit remarking)).1.UndoneAndRedone Graph.empty.snapshot
      remarkedEdge.snapshot := by
  have hbegun : begun.depth = 0 ∧ begun.history.map History.pending = some false ∧
      (begun.history.bind History.current?).map (·.snapshot) = some Graph.empty.snapshot ∧
        (GraphEditor.snapshot begun.editor).toOption = some Graph.empty.snapshot := by
    decide +kernel
  obtain ⟨hdepth, hpending, hcurrent, hold⟩ := hbegun
  obtain ⟨before, hbefore, hstill⟩ := Option.map_eq_some_iff.mp hpending
  rw [hbefore, Option.bind_some] at hcurrent
  obtain ⟨entry, hentry, hheld⟩ := Option.map_eq_some_iff.mp hcurrent
  rw [← hheld] at hold ⊢
  have hdiffers : remarkedEdge.snapshot ≠ entry.snapshot := by
    rw [hheld]
    exact snapshot_remarkedEdge_ne
  have hgraph : (begun.respond (.edit remarking)).1.editor.graph = remarkedEdge := by
    rw [respond_edit_editor]
    rfl
  have hplaced : begun.editor.graph.Placed := fun _ hn => absurd hn List.not_mem_nil
  have hplaced' : (begun.respond (.edit remarking)).1.editor.graph.Placed := by
    rw [hgraph]
    exact fun _ hn => absurd hn List.not_mem_nil
  have hiff := undoneAndRedone_iff_told observed_fresh rfl rfl (by decide) isText_initialLabel
    respond_fresh .refl hdepth hbefore hstill hentry (Except.eq_ok_of_toOption hold)
    (.single sound_remarking) (snapshot_remarking begun) hdiffers hplaced hplaced'
  intro hboth
  obtain ⟨-, -, hreadable⟩ := hiff.mp hboth
  rw [hgraph] at hreadable
  exact not_readable_remarkedEdge hreadable

end Workspace
end WorkflowStudio
