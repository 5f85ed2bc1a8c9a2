import WorkflowStudio.Proofs.ObservedHistory

/-!
What an outermost batch makes of the history that observes the editor. The history collects the
mutations of the batch and looks at them once, at its end. Without a mutation it stays as it is,
mutations that all coalesce leave a single edit waiting, and after any others the graph at the end
is recorded in one entry, unless the entry at the cursor holds it. Only a graph that cannot be
stored has no entry, and by then what waited to be recorded is dropped.
-/
namespace WorkflowStudio

/-- A stored graph is filed: the entry at the cursor holds it already and nothing changes, or a
single entry that holds it is recorded. -/
def Timeline.Files (limit : Nat) (text : String) (t later : Timeline) : Prop :=
  (t.current?.map (·.snapshot) = some text ∧ later = t) ∨
    (t.current?.map (·.snapshot) ≠ some text ∧ ∃ label, t.Records limit ⟨text, label⟩ later)

namespace History

variable {h : History} {t : Timeline} {label : Json}

/-- What the end of an outermost batch makes of an idle history, given the graph at that moment and
the mutations that were told in the batch. -/
structure Settles (h : History) (t : Timeline) (g : Graph) (told : List Mutation)
    (after : History) : Prop where
  untold : told = [] → after = h
  coalesced : told ≠ [] → (∀ mutation ∈ told, mutation.coalesces = true) →
    after = { h with debouncer := after.debouncer } ∧
      after.debouncer.waiting = some (batchLabel told)
  recorded : (∃ mutation ∈ told, mutation.coalesces = false) → after.pending = false ∧
    ∃ later, after.timeline = some later ∧ (g.Storable → t.Files h.limit g.snapshot later) ∧
      (¬g.Storable → later = t)

theorem settles_nil (h : History) (t : Timeline) (g : Graph) : h.Settles t g [] h where
  untold _ := rfl
  coalesced hsome := absurd rfl hsome
  recorded := by
    rintro ⟨mutation, hmutation, -⟩
    cases hmutation

theorem files_record (ht : h.timeline = some t) (hcursor : t.cursor < t.entries.length)
    (text : String) (hlabel : label.IsText) :
    ∃ later, (h.record text label).1.timeline = some later ∧ t.Files h.limit text later := by
  have hcurrent : h.current? = t.current? := current?_eq ht
  rcases h.record_of_isText text hlabel with ⟨hheld, hsame⟩ | ⟨hnew, shown, hadded⟩
  · rw [hcurrent] at hheld
    rw [hsame]
    exact ⟨t, ht, Or.inl ⟨hheld, rfl⟩⟩
  · rw [hcurrent] at hnew
    have hadd : (h.add ⟨text, shown⟩).timeline = some (t.record h.limit ⟨text, shown⟩) := by
      rw [add, ht]
      rfl
    have hrecords := Timeline.records_record hcursor h.limit ⟨text, shown⟩
    rw [hadded]
    exact ⟨_, hadd, Or.inr ⟨hnew, shown, hrecords⟩⟩

/-- Recording changes the timeline and the cursor only. -/
theorem record_retains (h : History) (text : String) (label : Json) :
    (h.record text label).1.mode = h.mode ∧ (h.record text label).1.batch = h.batch ∧
      (h.record text label).1.debouncer = h.debouncer := by
  unfold record
  split
  · exact ⟨rfl, rfl, rfl⟩
  · dsimp only
    split
    · exact ⟨rfl, rfl, rfl⟩
    · exact ⟨rfl, rfl, rfl⟩
    · unfold add
      split <;> exact ⟨rfl, rfl, rfl⟩

theorem init_retains (h : History) (stored : Except Fault String) (label : Json) :
    (h.init stored label).1.mode = h.mode ∧ (h.init stored label).1.batch = [] := by
  unfold init
  dsimp only
  split <;> exact ⟨rfl, rfl⟩

/-- At the end of a batch an idle history looks at all that it has collected. -/
theorem onBatchEnd_of_idle (hidle : h.mode = .idle) : h.onBatchEnd =
    if h.batch = [] then (h, .nothing)
    else if ∀ mutation ∈ h.batch, mutation.coalesces = true then
      ({ h with batch := [] }, .wait (batchLabel h.batch))
    else (dropWaiting { h with batch := [] }, .record (batchLabel h.batch)) := by
  unfold onBatchEnd
  rw [isApplying_eq_false_iff.mpr hidle, if_neg Bool.false_ne_true]
  simp only [List.isEmpty_iff, List.all_eq_true]

end History

/-- Whether the operation takes the history off the observers of the editor. -/
def Operation.Dismisses {ε : Type} : Operation ε → Prop
  | .call (.ignore .history) => True
  | _ => False

namespace Workspace

variable {ε : Type} {w next opened inner : Workspace ε} {h : History} {t : Timeline}
  {told : List Mutation}

/-- The history observes the editor. -/
structure Follows (w : Workspace ε) (h : History) : Prop where
  nodup : w.observers.Nodup
  observed : Observer.history ∈ w.observers
  history : w.history = some h

/-- The history observes the editor. Without an open batch it is idle and has collected nothing. -/
structure Rests (w : Workspace ε) (h : History) : Prop extends Follows w h where
  closed : w.depth = 0 → h.mode = .idle ∧ h.batch = []

/-- A call that leaves the batches and the observers alone, and of the history what was collected
and the mode. -/
structure Retains (w : Workspace ε) (h : History) (next : Workspace ε) : Prop where
  observers : next.observers = w.observers
  depth : next.depth = w.depth
  history : ∃ after, next.history = some after ∧ after.mode = h.mode ∧ after.batch = h.batch

theorem Follows.withEditor (hw : w.Follows h) (editor : ε) :
    Follows { w with editor := editor } h := ⟨hw.nodup, hw.observed, hw.history⟩

theorem Follows.rests_of_inBatch (hw : w.Follows h) (hdepth : w.depth ≠ 0) : w.Rests h :=
  ⟨hw, fun hzero => absurd hzero hdepth⟩

theorem Rests.of_retains (hw : w.Rests h) (hnext : w.Retains h next) :
    ∃ after, next.Rests after := by
  obtain ⟨hobservers, hdepth, after, hafter, hmode, hbatch⟩ := hnext
  refine ⟨after, ⟨hobservers ▸ hw.nodup, hobservers ▸ hw.observed, hafter⟩, fun hzero => ?_⟩
  obtain ⟨hidle, hempty⟩ := hw.closed (hdepth.symm.trans hzero)
  exact ⟨hmode.trans hidle, hbatch.trans hempty⟩

variable [GraphEditor ε]

/-! What is recorded. -/

theorem retains_record (w : Workspace ε) (h : History) (label : Json) :
    w.Retains h (w.record h label).1 := by
  unfold record
  split
  · exact ⟨rfl, rfl, h, rfl, rfl, rfl⟩
  · dsimp only
    split
    · exact ⟨rfl, rfl, h, rfl, rfl, rfl⟩
    · rename_i text _
      obtain ⟨hmode, hbatch, -⟩ := h.record_retains text label
      exact ⟨rfl, rfl, _, rfl, hmode, hbatch⟩

theorem exists_filed_record {w : Workspace Editor} (hidle : h.mode = .idle)
    (ht : h.timeline = some t) (hcursor : t.cursor < t.entries.length) {label : Json}
    (hlabel : label.IsText) :
    ∃ after later, (w.record h label).1.history = some after ∧
      after.debouncer = h.debouncer ∧ after.timeline = some later ∧
        (w.editor.graph.Storable → t.Files h.limit w.editor.graph.snapshot later) ∧
          (¬w.editor.graph.Storable → later = t) := by
  have hsnapshot : GraphEditor.snapshot (GraphEditor.settled w.editor) =
      Record.stored w.editor.graph := rfl
  rw [record, History.isApplying_eq_false_iff.mpr hidle, if_neg Bool.false_ne_true]
  dsimp only
  rw [hsnapshot]
  cases hstored : Record.stored w.editor.graph with
  | error fault =>
    refine ⟨h, t, rfl, rfl, ht, fun hstorable => ?_, fun _ => rfl⟩
    rw [Graph.stored_eq_ok_iff.mpr ⟨hstorable, rfl⟩] at hstored
    cases hstored
  | ok text =>
    obtain ⟨hstorable, rfl⟩ := Graph.stored_eq_ok_iff.mp hstored
    obtain ⟨later, hlater, hfiles⟩ := History.files_record ht hcursor _ hlabel
    obtain ⟨-, -, hdebouncer⟩ := h.record_retains w.editor.graph.snapshot label
    exact ⟨_, later, rfl, hdebouncer, hlater, fun _ => hfiles, fun hno => absurd hstorable hno⟩

/-! The end of a batch. -/

theorem exists_settles_tellBatchEnd {w : Workspace Editor}
    (hhistory : w.history = some { h with batch := told }) (hidle : h.mode = .idle)
    (hempty : h.batch = []) (ht : h.timeline = some t) (hcursor : t.cursor < t.entries.length)
    (hlabels : ∀ mutation ∈ told, mutation.label.IsText) :
    ∃ after, (w.tellBatchEnd .history).1.history = some after ∧
      h.Settles t w.editor.graph told after := by
  have hcleared : { h with batch := [] } = h := by rw [← hempty]
  rw [tellBatchEnd, hhistory, Option.map_some,
    History.onBatchEnd_of_idle (h := { h with batch := told }) hidle]
  dsimp only
  rw [hcleared]
  by_cases hnone : told = []
  · rw [if_pos hnone, hnone, hcleared]
    exact ⟨h, rfl, h.settles_nil t _⟩
  rw [if_neg hnone]
  by_cases hall : ∀ mutation ∈ told, mutation.coalesces = true
  · rw [if_pos hall]
    refine ⟨(h.schedule w.clock (History.batchLabel told)).1, rfl, fun hno => absurd hno hnone,
      fun _ _ => ⟨rfl, ?_⟩, ?_⟩
    · exact h.debouncer.waiting_call w.clock _
    · rintro ⟨mutation, hmutation, hstructural⟩
      rw [hall mutation hmutation] at hstructural
      cases hstructural
  · rw [if_neg hall]
    obtain ⟨after, later, hafter, hdebouncer, hlater, hfiled⟩ := exists_filed_record (w := w)
      (h := h.dropWaiting) hidle ht hcursor (History.isText_batchLabel hlabels)
    refine ⟨after, hafter, fun hno => absurd hno hnone, fun _ hcoalesce => absurd hcoalesce hall,
      fun _ => ⟨?_, later, hlater, hfiled⟩⟩
    rw [History.pending, hdebouncer]
    rfl

/-- The end of a batch leaves the history idle, with nothing collected. -/
theorem Follows.retains_tellBatchEnd (hw : w.Follows h) :
    w.Retains { h with mode := .idle, batch := [] } (w.tellBatchEnd .history).1 := by
  rw [tellBatchEnd, hw.history, Option.map_some]
  rcases h.onBatchEnd_cases with ⟨-, hend⟩ | ⟨hawake, hends⟩
  · rw [hend]
    exact ⟨rfl, rfl, _, rfl, rfl, rfl⟩
  have hidle := History.isApplying_eq_false_iff.mp hawake
  rcases hends with ⟨hempty, hend⟩ | ⟨-, hend | hend⟩
  · rw [hend]
    exact ⟨rfl, rfl, h, rfl, hidle, hempty⟩
  · rw [hend]
    exact ⟨rfl, rfl, _, rfl, hidle, rfl⟩
  · rw [hend]
    obtain ⟨hobservers, hdepth, after, hafter, hmode, hbatch⟩ :=
      retains_record w (History.dropWaiting { h with batch := [] }) (History.batchLabel h.batch)
    exact ⟨hobservers, hdepth, after, hafter, hmode.trans hidle, hbatch⟩

/-- Whatever the history has collected, it has settled when the outermost batch is closed. -/
theorem Follows.closeBatch (hw : w.Follows h) :
    w.closeBatch.1.depth = w.depth - 1 ∧ ∃ after, w.closeBatch.1.Rests after := by
  obtain ⟨notices, hclose⟩ := closeBatch_eq hw.nodup
  rw [hclose]
  by_cases hdepth : w.depth ≤ 1
  · have hlast : Follows { w with depth := 0 } h := ⟨hw.nodup, hw.observed, hw.history⟩
    obtain ⟨hobservers, hzero, after, hafter, hmode, hbatch⟩ := hlast.retains_tellBatchEnd
    rw [if_pos ⟨hdepth, hw.observed⟩]
    refine ⟨?_, after, ⟨?_, ?_, hafter⟩, fun _ => ⟨hmode, hbatch⟩⟩
    · exact hzero.trans (Nat.sub_eq_zero_of_le hdepth).symm
    · exact hobservers.symm ▸ hw.nodup
    · exact hobservers.symm ▸ hw.observed
  · rw [if_neg fun hlast => hdepth hlast.1]
    refine ⟨rfl, h, ⟨hw.nodup, hw.observed, hw.history⟩, fun hzero => ?_⟩
    have hzero : w.depth - 1 = 0 := hzero
    omega

theorem Follows.exists_told (hw : w.Follows h) (mutation : Mutation) :
    ∃ told : Workspace ε, w.emit mutation = told.closeBatch ∧ told.editor = w.editor ∧
      told.depth = w.depth + 1 ∧ told.Follows (h.onMutation mutation) := by
  obtain ⟨told, hemit, heditor, hobservers, hdepth, htold⟩ :=
    emit_eq_closeBatch hw.nodup hw.history mutation
  rw [if_pos hw.observed] at htold
  exact ⟨told, hemit, heditor, hdepth, hobservers ▸ hw.nodup, hobservers ▸ hw.observed, htold⟩

theorem Follows.emit (hw : w.Follows h) (mutation : Mutation) :
    (w.emit mutation).1.depth = w.depth ∧ ∃ after, (w.emit mutation).1.Rests after := by
  obtain ⟨told, hemit, -, hdepth, htold⟩ := hw.exists_told mutation
  obtain ⟨hclosed, after, hafter⟩ := htold.closeBatch
  rw [hemit]
  exact ⟨by omega, after, hafter⟩

theorem Rests.perform (hw : w.Rests h) {α : Type} (command : ε → Outcome ε α) :
    (w.perform command).1.depth = w.depth ∧ ∃ after, (w.perform command).1.Rests after := by
  rw [perform_fst]
  split
  · rename_i mutation _
    exact (hw.withEditor _).emit mutation
  · exact ⟨rfl, h, hw.withEditor _, hw.closed⟩

/-! Calls of the history. -/

theorem Rests.flush (hw : w.Rests h) : ∃ after, (w.flush h).1.Rests after := by
  refine hw.of_retains ?_
  unfold Workspace.flush
  rw [History.takeWaiting_eq]
  cases h.debouncer.waiting with
  | none => exact ⟨rfl, rfl, h, hw.history, rfl, rfl⟩
  | some label =>
    obtain ⟨hobservers, hdepth, hafter⟩ := retains_record w h.dropWaiting label
    exact ⟨hobservers, hdepth, hafter⟩

theorem Rests.expire (hw : w.Rests h) (now : Double) : ∃ after, (w.expire now).Rests after := by
  rcases expire_cases hw.history now with hstill | hflush
  · rw [hstill]
    exact ⟨h, hw⟩
  · rw [hflush]
    exact hw.flush

theorem Rests.advance (hw : w.Rests h) (time : Json) :
    ∃ after, (w.advance time).1.Rests after := by
  unfold Workspace.advance
  split
  · exact ⟨h, hw⟩
  · split
    · exact ⟨h, hw⟩
    · rename_i now _
      have hmoved : Rests { w with clock := some now } h :=
        ⟨⟨hw.nodup, hw.observed, hw.history⟩, hw.closed⟩
      exact hmoved.expire now

/-- When the graph was replaced outside of a batch, the history is no longer applying an entry. -/
theorem Rests.restore (hw : w.Rests h) (index : Nat) (chosen : Option Bool) (g : Graph) :
    ∃ after, (w.restore h index chosen g).1.Rests after := by
  let applying := h.beginApply index chosen
  have hended {replaced : Workspace ε} {after : History} (hfollows : replaced.Follows after)
      (hbatch : replaced.depth = 0 → after.batch = []) :
      ∃ last, (if replaced.inBatch then replaced
        else { replaced with history := replaced.history.map History.endApply }).Rests last := by
    split
    · rename_i hin
      have hopen : 0 < replaced.depth := of_decide_eq_true hin
      exact ⟨after, hfollows.rests_of_inBatch (Nat.ne_of_gt hopen)⟩
    · refine ⟨after.endApply, ⟨hfollows.nodup, hfollows.observed, ?_⟩,
        fun hzero => ⟨rfl, hbatch hzero⟩⟩
      exact congrArg (Option.map History.endApply) hfollows.history
  unfold Workspace.restore
  dsimp only
  rw [perform_fst]
  split
  · rename_i mutation _
    have hchanged : Follows { w.withHistory applying with editor := (GraphEditor.replaceGraph
        (w.withHistory applying).editor g (.str History.applyLabel) true).editor } applying :=
      ⟨hw.nodup, hw.observed, rfl⟩
    obtain ⟨-, after, hafter⟩ := hchanged.emit mutation
    exact hended hafter.toFollows fun hzero => (hafter.closed hzero).2
  · exact hended ⟨hw.nodup, hw.observed, rfl⟩ fun hzero => (hw.closed hzero).2

theorem Rests.applyEntry (hw : w.Rests h) (index : Nat) (chosen : Option Bool) :
    ∃ after, (w.applyEntry h index chosen).1.Rests after := by
  unfold Workspace.applyEntry
  split
  · exact hw.restore index chosen _
  · exact ⟨h, hw⟩

theorem Rests.navigate (hw : w.Rests h)
    (choose : History → Except Fault (Option (Nat × Option Bool))) :
    ∃ after, (w.navigate h choose).1.Rests after := by
  obtain ⟨mid, hmid⟩ := hw.flush
  unfold Workspace.navigate
  generalize w.flush h = step at hmid ⊢
  obtain ⟨flushed, result⟩ := step
  dsimp only at hmid ⊢
  split
  · exact ⟨mid, hmid⟩
  · exact ⟨mid, hmid⟩
  · rename_i found hfound
    rw [hmid.history] at hfound
    cases hfound
    split
    · exact ⟨mid, hmid⟩
    · exact ⟨mid, hmid⟩
    · exact hmid.applyEntry _ _

theorem Rests.control (hw : w.Rests h) {control : Control}
    (hdismiss : ¬(Operation.call control : Operation ε).Dismisses)
    (hcorrupt : ¬(Operation.call control : Operation ε).Corrupts) :
    ∃ after, (w.control control).1.Rests after := by
  cases control with
  | snapshot => exact ⟨h, ⟨hw.nodup, hw.observed, hw.history⟩, hw.closed⟩
  | summary => exact ⟨h, hw⟩
  | corrupt index entry => exact absurd trivial hcorrupt
  | advance seconds => exact hw.advance seconds
  | observe observer =>
    rw [Workspace.control, observe]
    split
    · exact ⟨h, hw⟩
    · rename_i hnew
      rw [List.contains_iff_mem] at hnew
      refine ⟨h, ⟨?_, List.mem_append_left _ hw.observed, hw.history⟩, hw.closed⟩
      exact List.nodup_append_comm.mpr (List.nodup_cons.mpr ⟨hnew, hw.nodup⟩)
  | ignore observer =>
    have hkept : Observer.history ≠ observer := by
      rintro rfl
      exact hdismiss trivial
    exact ⟨h, ⟨hw.nodup.erase _, (List.mem_erase_of_ne hkept).mpr hw.observed, hw.history⟩,
      hw.closed⟩
  | init label =>
    rw [Workspace.control, onHistory, hw.history]
    obtain ⟨hmode, hbatch⟩ :=
      h.init_retains (GraphEditor.snapshot (GraphEditor.settled w.editor)) label
    exact ⟨_, ⟨hw.nodup, hw.observed, rfl⟩, fun hzero => ⟨hmode.trans (hw.closed hzero).1, hbatch⟩⟩
  | take label =>
    rw [Workspace.control, onHistory, hw.history]
    exact hw.of_retains (retains_record w h label)
  | schedule label =>
    rw [Workspace.control, onHistory, hw.history]
    exact hw.of_retains ⟨rfl, rfl, _, rfl, rfl, rfl⟩
  | flush =>
    rw [Workspace.control, onHistory, hw.history]
    exact hw.flush
  | undo =>
    rw [Workspace.control, onHistory, hw.history]
    exact hw.navigate _
  | redo =>
    rw [Workspace.control, onHistory, hw.history]
    exact hw.navigate _
  | jump index =>
    rw [Workspace.control, onHistory, hw.history]
    exact hw.navigate _

theorem Rests.operate (hw : w.Rests h) {operation : Operation ε}
    (hdismiss : ¬operation.Dismisses) (hcorrupt : ¬operation.Corrupts) :
    ∃ after, (w.operate operation).1.Rests after := by
  cases operation with
  | command command => exact (hw.perform command).2
  | openBatch =>
    have hopened : w.openBatch.Follows h := ⟨hw.nodup, hw.observed, hw.history⟩
    exact ⟨h, hopened.rests_of_inBatch (Nat.succ_ne_zero _)⟩
  | closeBatch => exact hw.toFollows.closeBatch.2
  | call control => exact hw.control hdismiss hcorrupt

/-! Batches. -/

/-- What is done in a batch until it is closed, with the mutations that are told on the way:
commands with any result, and batches inside of it, which end also when they are broken off. -/
inductive Body (opened : Workspace ε) : Workspace ε → List Mutation → Prop
  | opened : Body opened opened []
  | command {w : Workspace ε} {told : List Mutation} {α : Type} (hbody : Body opened w told)
      (command : ε → Outcome ε α) :
      Body opened (w.perform command).1 (told ++ (command w.editor).mutation.toList)
  | openBatch {w : Workspace ε} {told : List Mutation} (hbody : Body opened w told) :
      Body opened w.openBatch told
  | closeBatch {w : Workspace ε} {told : List Mutation} (hbody : Body opened w told)
      (hdepth : 1 < w.depth) : Body opened w.closeBatch.1 told

/-- An outermost batch, or a single command, with the mutations that are told in it and the editor
that it ends with. -/
inductive Batch (w : Workspace ε) : List Mutation → ε → Workspace ε → Prop
  | command {α : Type} (command : ε → Outcome ε α) :
      Batch w (command w.editor).mutation.toList (command w.editor).editor (w.perform command).1
  | batch {inner : Workspace ε} {told : List Mutation} (hbody : Body w.openBatch inner told)
      (hdepth : inner.depth = 1) : Batch w told inner.editor inner.closeBatch.1

theorem Follows.closeBatch_of_inner (hw : w.Follows h) (hdepth : 1 < w.depth) :
    w.closeBatch.1.Follows h ∧ 0 < w.closeBatch.1.depth := by
  have hopen : w.depth - 1 ≠ 0 := by omega
  have hclose : w.closeBatch = ({ w with depth := w.depth - 1 }, .ok ()) := if_neg hopen
  rw [hclose]
  exact ⟨⟨hw.nodup, hw.observed, hw.history⟩, Nat.sub_pos_of_lt hdepth⟩

/-- Inside of a batch a command adds its mutation to the ones that the history has collected. -/
theorem Follows.perform_of_inBatch (hw : w.Follows h) (hidle : h.mode = .idle)
    (ht : h.timeline = some t) (hdepth : 0 < w.depth) {α : Type} (command : ε → Outcome ε α) :
    (w.perform command).1.Follows
        { h with batch := h.batch ++ (command w.editor).mutation.toList } ∧
      0 < (w.perform command).1.depth := by
  have hchanged := hw.withEditor (command w.editor).editor
  rw [perform_fst]
  cases (command w.editor).mutation with
  | none =>
    rw [Option.toList_none, List.append_nil]
    exact ⟨hchanged, hdepth⟩
  | some mutation =>
    obtain ⟨told, hemit, -, htoldDepth, htold⟩ := hchanged.exists_told mutation
    rw [h.onMutation_of_idle hidle ht] at htold
    have hinner : 1 < told.depth := htoldDepth ▸ Nat.succ_lt_succ hdepth
    dsimp only
    rw [hemit]
    exact htold.closeBatch_of_inner hinner

/-- Until the outermost batch is closed, the history does no more than collect what it is told. -/
theorem Body.follows (hbody : Body opened inner told) (hw : opened.Follows h)
    (hidle : h.mode = .idle) (ht : h.timeline = some t) (hdepth : 0 < opened.depth) :
    inner.Follows { h with batch := h.batch ++ told } ∧ 0 < inner.depth := by
  induction hbody with
  | opened =>
    rw [List.append_nil]
    exact ⟨hw, hdepth⟩
  | command _ command ih =>
    obtain ⟨hfollows, hopen⟩ := ih
    have hnext := hfollows.perform_of_inBatch hidle ht hopen command
    rw [List.append_assoc] at hnext
    exact hnext
  | openBatch _ ih => exact ⟨⟨ih.1.nodup, ih.1.observed, ih.1.history⟩, Nat.succ_pos _⟩
  | closeBatch _ hinner ih => exact ih.1.closeBatch_of_inner hinner

/-- When the outermost batch is closed, what was collected in it is settled. -/
theorem Follows.settles_closeBatch {w : Workspace Editor} (hw : w.Follows { h with batch := told })
    (hdepth : w.depth = 1) (hidle : h.mode = .idle) (hempty : h.batch = [])
    (ht : h.timeline = some t) (hcursor : t.cursor < t.entries.length)
    (hlabels : ∀ mutation ∈ told, mutation.label.IsText) :
    w.closeBatch.1.depth = 0 ∧ ∃ after, w.closeBatch.1.Rests after ∧
      h.Settles t w.editor.graph told after := by
  obtain ⟨hzero, after, hafter⟩ := hw.closeBatch
  obtain ⟨last, hlast, hsettles⟩ := exists_settles_tellBatchEnd (w := { w with depth := 0 })
    hw.history hidle hempty ht hcursor hlabels
  have hsame : after = last := by
    obtain ⟨notices, hclose⟩ := closeBatch_eq hw.nodup
    rw [if_pos ⟨Nat.le_of_eq hdepth, hw.observed⟩] at hclose
    have hhistory := hafter.history
    rw [hclose] at hhistory
    exact Option.some.inj (hhistory.symm.trans hlast)
  rw [hdepth] at hzero
  exact ⟨hzero, after, hafter, hsame ▸ hsettles⟩

theorem Rests.settles {w next : Workspace Editor} (hw : w.Rests h) (hdepth : w.depth = 0)
    (ht : h.timeline = some t) (hcursor : t.cursor < t.entries.length) {editor : Editor}
    (hbatch : w.Batch told editor next) (hlabels : ∀ mutation ∈ told, mutation.label.IsText) :
    next.depth = 0 ∧ ∃ after, next.Rests after ∧ h.Settles t editor.graph told after := by
  obtain ⟨hidle, hempty⟩ := hw.closed hdepth
  cases hbatch with
  | command command =>
    have hchanged := hw.withEditor (command w.editor).editor
    rw [perform_fst]
    cases hmutation : (command w.editor).mutation with
    | none => exact ⟨hdepth, h, ⟨hchanged, hw.closed⟩, h.settles_nil t _⟩
    | some mutation =>
      rw [hmutation] at hlabels
      obtain ⟨told, hemit, heditor, htoldDepth, htold⟩ := hchanged.exists_told mutation
      rw [h.onMutation_of_idle hidle ht, hempty, List.nil_append] at htold
      have hone : told.depth = 1 := htoldDepth.trans (congrArg (· + 1) hdepth)
      have hsettles := htold.settles_closeBatch hone hidle hempty ht hcursor hlabels
      rw [heditor] at hsettles
      dsimp only
      rw [hemit]
      exact hsettles
  | batch hbody hinner =>
    have hopened : w.openBatch.Follows h := ⟨hw.nodup, hw.observed, hw.history⟩
    obtain ⟨hfollows, -⟩ := hbody.follows hopened hidle ht (Nat.succ_pos _)
    rw [hempty, List.nil_append] at hfollows
    exact hfollows.settles_closeBatch hinner hidle hempty ht hcursor hlabels

/-! Runs. -/

/-- A workspace that is reached by any operations under texts, except that the history observes the
editor all along and nobody puts entries of their own into the timeline. -/
def Observing : Workspace ε → Workspace ε → Prop :=
  Relation.ReflTransGen fun w next => ∃ operation : Operation ε, ¬operation.Dismisses ∧
    ¬operation.Corrupts ∧ w.Labels operation ∧ next = (w.operate operation).1

theorem runs_of_observing (hrun : Observing w next) : Runs w next := by
  refine Relation.ReflTransGen.mono (fun before after hstep => ?_) w next hrun
  obtain ⟨operation, -, hcorrupt, hlabels, hafter⟩ := hstep
  exact ⟨operation, hcorrupt, hlabels, hafter⟩

theorem Rests.of_observing (hw : w.Rests h) (hrun : Observing w next) :
    ∃ after, next.Rests after := by
  induction hrun with
  | refl => exact ⟨h, hw⟩
  | tail _ hstep ih =>
    obtain ⟨before, hbefore⟩ := ih
    obtain ⟨operation, hdismiss, hcorrupt, -, rfl⟩ := hstep
    exact hbefore.operate hdismiss hcorrupt

omit [GraphEditor ε] in
theorem rests_start (editor : ε) {settings : Settings} {bound delay : Json}
    (hstart : History.start settings bound delay = .ok h) (clock : Option Double) :
    (start editor (some h) clock).Rests h := by
  have hobservers : [Observer.recorder, Observer.history].Nodup := by decide
  obtain ⟨limit, -, hempty⟩ := Except.bind_eq_ok.mp hstart
  cases hempty
  exact ⟨⟨hobservers, List.mem_cons_of_mem _ List.mem_cons_self, rfl⟩, fun _ => ⟨rfl, rfl⟩⟩

/-- Outside of batches the history that was initialized is idle. A batch, however it is nested and
broken off, leaves it as it is when nothing was told in it. When all that was told coalesces, a
single edit waits and nothing else is changed. Otherwise nothing waits, and the graph at the end of
the batch is filed if it can be stored; if it cannot, the timeline stays as it is. -/
theorem settles_of_batch {w : Workspace Editor} {settings : Settings} {bound delay : Json}
    (hstart : History.start settings bound delay = .ok h) {editor : Editor}
    {clock : Option Double} {before begun : Workspace Editor}
    (hbefore : Observing (start editor (some h) clock) before)
    {label : Json} (hinit : before.operate (.call (.init label)) = (begun, .ok ()))
    (hrun : Observing begun w) (hdepth : w.depth = 0) :
    ∃ now t, w.history = some now ∧ now.mode = .idle ∧ now.limit = h.limit ∧
      now.timeline = some t ∧ t.Bounded h.limit ∧
        ∀ told last next, w.Batch told last next →
          (∀ mutation ∈ told, mutation.label.IsText) → next.depth = 0 ∧
            ∃ after, next.history = some after ∧ now.Settles t last.graph told after := by
  have hfirst := rests_start editor hstart clock
  have hbegun : Observing (start editor (some h) clock) begun := by
    refine hbefore.tail ⟨.call (.init label), not_false, not_false, trivial, ?_⟩
    rw [hinit]
  obtain ⟨now, hnow⟩ := hfirst.of_observing (hbegun.trans hrun)
  have hinBounds :=
    inBounds_of_runs hstart (runs_of_observing hbefore) hinit (runs_of_observing hrun)
  obtain ⟨found, t, hfound, hlimit, -, ht, hbounded⟩ := hinBounds.history
  obtain rfl : found = now := Option.some.inj (hfound.symm.trans hnow.history)
  obtain ⟨hidle, -⟩ := hnow.closed hdepth
  refine ⟨found, t, hfound, hidle, hlimit, ht, hbounded, fun told last next hbatch hlabels => ?_⟩
  obtain ⟨hzero, after, hafter, hsettles⟩ :=
    hnow.settles hdepth ht hbounded.cursor_lt hbatch hlabels
  exact ⟨hzero, after, hafter.history, hsettles⟩

/-! In a batch inside of another one a graph is loaded that can be stored, and one that nests too
deep for that. -/

def notedEdge (depth : Nat) : Graph :=
  ⟨[], [⟨"e", "a", "b", none, none, none, none, [("note", Json.bracketed depth)]⟩]⟩

def loading (depth : Nat) : Operation Editor :=
  .command fun e => e.replaceGraph (notedEdge depth) (.str "Load") true

/-- The inner one of two batches is closed. -/
def loaded (depth : Nat) : Workspace Editor :=
  ((freshBegun.openBatch.openBatch.operate (loading depth)).1.operate .closeBatch).1

theorem body_loaded (depth : Nat)
    (hopen : 1 < (freshBegun.openBatch.openBatch.operate (loading depth)).1.depth) :
    Body freshBegun.openBatch (loaded depth) [Mutation.replacement (.str "Load")] := by
  have hbody : Body freshBegun.openBatch
      (freshBegun.openBatch.openBatch.operate (loading depth)).1
        [Mutation.replacement (.str "Load")] :=
    .command (.openBatch .opened) fun e : Editor =>
      e.replaceGraph (notedEdge depth) (.str "Load") true
  exact .closeBatch hbody hopen

theorem settles_of_batch_notedEdge : ∃ t filed,
    freshBegun.history.bind (·.timeline) = some t ∧
      (loaded 0).closeBatch.1.history.bind (·.timeline) = some filed ∧
        t.Files 50 (notedEdge 0).snapshot filed ∧
          (loaded 255).closeBatch.1.history.bind (·.timeline) = some t ∧
            ¬t.Files 50 (notedEdge 255).snapshot t := by
  have hloaded : (loaded 0).editor.graph = notedEdge 0 ∧
      (loaded 255).editor.graph = notedEdge 255 := by decide +kernel
  have hstorable : (Record.checkText (notedEdge 0)).toOption = some () ∧
      (Record.checkText (notedEdge 255)).toOption = none := by decide +kernel
  have hcurrent : (freshBegun.history.bind History.current?).map (·.snapshot) ≠
      some (notedEdge 255).snapshot := by decide +kernel
  obtain ⟨now, t, hnow, -, hlimit, ht, hbounded, hbatches⟩ :=
    settles_of_batch start_standard .refl operate_initial .refl (by decide +kernel)
  have hlabels : ∀ mutation ∈ [Mutation.replacement (.str "Load")], mutation.label.IsText :=
    List.forall_mem_singleton.mpr ⟨_, rfl⟩
  have hsettles {depth : Nat} {g : Graph} (hgraph : (loaded depth).editor.graph = g)
      (hopen : 1 < (freshBegun.openBatch.openBatch.operate (loading depth)).1.depth)
      (hdepth : (loaded depth).depth = 1) : ∃ later,
        (loaded depth).closeBatch.1.history.bind (·.timeline) = some later ∧
          (g.Storable → t.Files 50 g.snapshot later) ∧ (¬g.Storable → later = t) := by
    obtain ⟨-, after, hafter, hsettled⟩ :=
      hbatches _ _ _ (.batch (body_loaded depth hopen) hdepth) hlabels
    obtain ⟨-, later, hlater, hfiled⟩ := hsettled.recorded ⟨_, List.mem_cons_self, rfl⟩
    rw [hlimit, hgraph] at hfiled
    rw [hafter]
    exact ⟨later, hlater, hfiled⟩
  obtain ⟨filed, hfiled, hfiles, -⟩ :=
    hsettles hloaded.1 (by decide +kernel) (by decide +kernel)
  obtain ⟨lost, hlost, -, hkept⟩ := hsettles hloaded.2 (by decide +kernel) (by decide +kernel)
  have hunstorable : ¬(notedEdge 255).Storable := by
    intro hno
    rw [Graph.checkText_eq_ok_iff.mpr hno] at hstorable
    cases hstorable.2
  have hcheck := Except.eq_ok_of_toOption hstorable.1
  rw [hkept hunstorable] at hlost
  rw [hnow, Option.bind_some, History.current?_eq ht] at hcurrent
  refine ⟨t, filed, ?_, hfiled, hfiles (Graph.checkText_eq_ok_iff.mp hcheck), hlost, ?_⟩
  · rw [hnow]
    exact ht
  · rintro (⟨hheld, -⟩ | ⟨-, label, hrecords⟩)
    · exact hcurrent hheld
    · exact hcurrent (congrArg (Option.map (·.snapshot)) (hrecords.current? hbounded.cursor_lt))

end Workspace
end WorkflowStudio
