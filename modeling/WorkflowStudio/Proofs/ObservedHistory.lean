import WorkflowStudio.Proofs.GraphText
import WorkflowStudio.Proofs.HistoryEntries

/-!
What happens to a history that observes the editor of a sound graph. Each event of its
workspace records the graph, lets it wait, collects a mutation, moves the cursor, or does none of
this; the history can be gone back to all along. Edits may fail here, and other entries may be
gone to inside of batches.
-/
namespace WorkflowStudio

namespace History

variable {h : History}

/-- What recording a graph leads to. A history that applies an entry takes no notice. -/
inductive Takes (g : Graph) (h : History) : History → Except Fault Bool → Prop
  | deaf (happlying : h.mode = .applying) : Takes g h h (.ok false)
  | unwritable {fault : Fault} (hidle : h.mode = .idle) (hstored : Record.stored g = .error fault) :
      Takes g h h (.error fault)
  | recorded {text : String} {next : History} {added : Bool} (hidle : h.mode = .idle)
      (hstored : Record.stored g = .ok text) (hrecorded : h.Recorded text next) :
      Takes g h next (.ok added)

/-- What recording a waiting edit leads to. -/
inductive Flushes (g : Graph) (h : History) : History → Except Fault Bool → Prop
  | still (hpending : h.pending = false) : Flushes g h h (.ok false)
  | taken {next : History} {result : Except Fault Bool} (hpending : h.pending = true)
      (htakes : h.dropWaiting.Takes g next result) : Flushes g h next (result.map fun _ => true)

/-- What the end of the outermost batch leads to. -/
inductive Ends (g : Graph) (h : History) : History → Except Fault Unit → Prop
  | applied (happlying : h.mode = .applying) :
      Ends g h { h with mode := .idle, batch := [] } (.ok ())
  | nothing (hidle : h.mode = .idle) (hempty : h.batch = []) : Ends g h h (.ok ())
  | waits {next : History} {result : Except Fault Unit} (hidle : h.mode = .idle)
      (hcollected : h.batch ≠ []) (htimeline : next.timeline = h.timeline)
      (hlimit : next.limit = h.limit) (hmode : next.mode = .idle) (hbatch : next.batch = [])
      (hpending : next.pending = true) : Ends g h next result
  | recorded {next : History} {result : Except Fault Bool} (hidle : h.mode = .idle)
      (hcollected : h.batch ≠ [])
      (htakes : (dropWaiting { h with batch := [] }).Takes g next result) :
      Ends g h next (result.map fun _ => ())

theorem mode_cases (h : History) : h.mode = .idle ∨ h.mode = .applying := by
  cases h.mode with
  | idle => exact Or.inl rfl
  | applying => exact Or.inr rfl

theorem not_applying (hidle : h.mode = .idle) : h.mode ≠ .applying := by
  rw [hidle]
  exact nofun

theorem eq_of_idle (hidle : h.mode = .idle) : { h with mode := .idle } = h := by
  rw [← hidle]

/-- A history that can be gone back to, whether or not it is applying an entry. -/
abbrev Sound (h : History) : Prop := Kept { h with mode := .idle }

theorem Sound.kept (hs : h.Sound) (hidle : h.mode = .idle) : h.Kept := by
  rw [Sound, eq_of_idle hidle] at hs
  exact hs

theorem Kept.sound (hk : h.Kept) : h.Sound := by
  rw [Sound, eq_of_idle hk.idle]
  exact hk

theorem Sound.onMutation (hs : h.Sound) {mutation : Mutation} (hlabel : mutation.label.IsText) :
    (h.onMutation mutation).Sound := by
  have hl : h.Labelled := ⟨hs.waiting, hs.batch⟩
  have hcollected := hl.onMutation hlabel
  refine ⟨⟨hcollected.waiting, hcollected.batch⟩, rfl, ?_⟩
  rcases h.onMutation_cases mutation with hadded | ⟨hsame, -⟩
  · rw [hadded]
    exact hs.timeline
  · rw [hsame]
    exact hs.timeline

theorem Takes.mode_batch {g : Graph} {next : History} {result : Except Fault Bool}
    (htakes : h.Takes g next result) : next.mode = h.mode ∧ next.batch = h.batch := by
  cases htakes with
  | deaf happlying => exact ⟨rfl, rfl⟩
  | unwritable hidle hstored => exact ⟨rfl, rfl⟩
  | recorded hidle hstored hrecorded => exact ⟨hrecorded.mode, hrecorded.batch⟩

theorem Takes.pending_eq_false {g : Graph} {next : History} {result : Except Fault Bool}
    (htakes : h.Takes g next result) (hpending : h.pending = false) : next.pending = false := by
  cases htakes with
  | deaf => exact hpending
  | unwritable => exact hpending
  | recorded _ _ hrecorded =>
    rw [pending, hrecorded.debouncer]
    exact hpending

theorem Flushes.pending_eq_false {g : Graph} {next : History} {result : Except Fault Bool}
    (hflushes : h.Flushes g next result) : next.pending = false := by
  cases hflushes with
  | still hpending => exact hpending
  | taken _ htakes => exact htakes.pending_eq_false rfl

theorem Flushes.eq_self {g : Graph} {next : History} {result : Except Fault Bool}
    (hflushes : h.Flushes g next result) (hpending : h.pending = false) : next = h := by
  cases hflushes with
  | still => rfl
  | taken hwaiting =>
    rw [hpending] at hwaiting
    cases hwaiting

theorem Takes.eq_ok {g : Graph} {next : History} {result : Except Fault Bool}
    (htakes : h.Takes g next result) {text : String} (hstored : Record.stored g = .ok text) :
    ∃ taken, result = .ok taken := by
  cases htakes with
  | deaf => exact ⟨false, rfl⟩
  | unwritable _ hfault =>
    rw [hfault] at hstored
    cases hstored
  | recorded => exact ⟨_, rfl⟩

theorem Flushes.eq_ok {g : Graph} {next : History} {result : Except Fault Bool}
    (hflushes : h.Flushes g next result) {text : String} (hstored : Record.stored g = .ok text) :
    ∃ taken, result = .ok taken := by
  cases hflushes with
  | still => exact ⟨false, rfl⟩
  | taken _ htakes =>
    obtain ⟨taken, rfl⟩ := htakes.eq_ok hstored
    exact ⟨true, rfl⟩

/-- A graph whose text is not the one at the cursor gets an entry of its own. -/
theorem Takes.timeline_eq {g : Graph} {next : History} {result : Except Fault Bool}
    (htakes : h.Takes g next result) (hidle : h.mode = .idle) {text : String}
    (hstored : Record.stored g = .ok text) {t : Timeline} (ht : h.timeline = some t)
    (hdiffers : t.current?.map (·.snapshot) ≠ some text) :
    ∃ label, next.timeline = some (t.record h.limit ⟨text, label⟩) := by
  cases htakes with
  | deaf happlying => exact absurd happlying (not_applying hidle)
  | unwritable _ hfault =>
    rw [hfault] at hstored
    cases hstored
  | recorded _ hsame hrecorded =>
    rw [hstored] at hsame
    cases hsame
    obtain ⟨found, hfound, -, ⟨hheld, -⟩ | ⟨-, label, hadded⟩⟩ := hrecorded.timeline
    · rw [ht] at hfound
      cases hfound
      exact absurd hheld hdiffers
    · rw [ht] at hfound
      cases hfound
      exact ⟨label, hadded⟩

end History

/-- Calls that may go to another entry. -/
def Control.Navigates : Control → Prop
  | .undo | .redo | .jump _ => True
  | _ => False

namespace Workspace

variable {w : Workspace Editor} {h : History} {label : Json}

/-- A workspace whose history observes the editor of a sound graph. -/
structure Observed (w : Workspace Editor) : Prop where
  nodup : w.observers.Nodup
  observed : Observer.history ∈ w.observers
  graph : w.editor.graph.Sound

/-- The workspace with a history and with what the recorder was told. -/
def told (w : Workspace Editor) (h : History) (notices : List Notice) : Workspace Editor :=
  { w with history := some h, notices := notices }

/-- The history can be gone back to. Without an open batch it is idle and has collected
nothing. -/
structure Watched (w : Workspace Editor) (h : History) : Prop extends Observed w where
  history : w.history = some h
  sound : h.Sound
  closed : w.depth = 0 → h.mode = .idle ∧ h.batch = []

theorem Observed.told (hw : w.Observed) (h : History) (notices : List Notice) :
    (w.told h notices).Observed := ⟨hw.nodup, hw.observed, hw.graph⟩

theorem Watched.told_eq (hw : w.Watched h) : w.told h w.notices = w := by
  obtain ⟨editor, history, depth, observers, notices, clock⟩ := w
  cases hw.history
  rfl

/-! Recording. -/

theorem Observed.record_eq (hw : w.Observed) (hs : h.Sound) (hlabel : label.IsText) :
    ∃ next result, w.record h label = (w.told next w.notices, result) ∧ next.Sound ∧
      h.Takes w.editor.graph next result := by
  rcases h.mode_cases with hidle | happlying
  · have hk := hs.kept hidle
    cases hstored : Record.stored w.editor.graph with
    | error fault =>
      refine ⟨h, .error fault, ?_, hs, .unwritable hidle hstored⟩
      have hsnapshot : GraphEditor.snapshot w.editor = .error fault := hstored
      rw [record, hk.isApplying, if_neg Bool.false_ne_true]
      dsimp only [GraphEditor.settled]
      rw [hsnapshot]
      rfl
    | ok text =>
      obtain ⟨next, added, hrecord, hnext, hrecorded⟩ := hk.record hw.graph hstored hlabel
      refine ⟨next, .ok added, ?_, hnext.sound, .recorded hidle hstored hrecorded⟩
      have hsnapshot : GraphEditor.snapshot w.editor = .ok text := hstored
      rw [record, hk.isApplying, if_neg Bool.false_ne_true]
      dsimp only [GraphEditor.settled]
      rw [hsnapshot]
      dsimp only
      rw [hrecord]
      rfl
  · refine ⟨h, .ok false, ?_, hs, .deaf happlying⟩
    rw [record, History.isApplying, happlying]
    rfl

/-- Recording with what was taken out of the history. -/
theorem Watched.record_eq (hw : w.Watched h) {taken : History} (hs : taken.Sound)
    (hmode : taken.mode = h.mode) (hbatch : taken.batch = h.batch) (hlabel : label.IsText) :
    ∃ next result, w.record taken label = (w.told next w.notices, result) ∧
      (w.told next w.notices).Watched next ∧ taken.Takes w.editor.graph next result := by
  obtain ⟨next, result, hrecord, hnext, htakes⟩ := hw.toObserved.record_eq hs hlabel
  refine ⟨next, result, hrecord, ⟨hw.toObserved.told _ _, rfl, hnext, fun hzero => ?_⟩, htakes⟩
  obtain ⟨hidle, hempty⟩ := hw.closed hzero
  obtain ⟨hnextMode, hnextBatch⟩ := htakes.mode_batch
  exact ⟨hnextMode.trans (hmode.trans hidle), hnextBatch.trans (hbatch.trans hempty)⟩

theorem Watched.flush_eq (hw : w.Watched h) :
    ∃ next result, w.flush h = (w.told next w.notices, result) ∧
      (w.told next w.notices).Watched next ∧ h.Flushes w.editor.graph next result := by
  rw [Workspace.flush, History.takeWaiting_eq]
  cases hwaiting : h.debouncer.waiting with
  | none =>
    refine ⟨h, .ok false, ?_, ?_, .still ?_⟩
    · rw [hw.told_eq]
    · rw [hw.told_eq]
      exact hw
    · rw [History.pending, Debouncer.pending, hwaiting]
      rfl
  | some label =>
    have htaken : h.dropWaiting.Sound := hw.sound.dropWaiting
    obtain ⟨next, result, hrecord, hnext, htakes⟩ :=
      hw.record_eq htaken rfl rfl (hw.sound.waiting label hwaiting)
    refine ⟨next, result.map fun _ => true, ?_, hnext, .taken ?_ htakes⟩
    · dsimp only
      rw [hrecord]
    · rw [History.pending, Debouncer.pending, hwaiting]
      rfl

/-- A waiting edit is recorded when its time has come. -/
theorem Watched.expire_eq (hw : w.Watched h) (now : Double) :
    ∃ next, w.expire now = w.told next w.notices ∧ (w.told next w.notices).Watched next ∧
      (next = h ∨ ∃ result, h.Flushes w.editor.graph next result) := by
  rcases expire_cases hw.history now with hstill | hflush
  · rw [hstill]
    exact ⟨h, hw.told_eq.symm, hw.told_eq.symm ▸ hw, Or.inl rfl⟩
  · obtain ⟨next, result, hflushed, hnext, hflushes⟩ := hw.flush_eq
    rw [hflush, hflushed]
    exact ⟨next, rfl, hnext, Or.inr ⟨result, hflushes⟩⟩

theorem Watched.advance (hw : w.Watched h) (time : Json) :
    ∃ next, (w.advance time).1.Watched next ∧ (w.advance time).1.editor = w.editor ∧
      (next = h ∨ ∃ result, h.Flushes w.editor.graph next result) := by
  unfold Workspace.advance
  split
  · exact ⟨h, hw, rfl, Or.inl rfl⟩
  · split
    · exact ⟨h, hw, rfl, Or.inl rfl⟩
    · rename_i now _
      have hmoved : Watched { w with clock := some now } h :=
        ⟨⟨hw.nodup, hw.observed, hw.graph⟩, hw.history, hw.sound, hw.closed⟩
      obtain ⟨next, hexpire, hnext, hflushes⟩ := hmoved.expire_eq now
      dsimp only
      rw [hexpire]
      exact ⟨next, hnext, rfl, hflushes⟩

theorem Watched.schedule (hw : w.Watched h) (hlabel : label.IsText) :
    ∃ next, (w.schedule h label).1 = w.told next w.notices ∧
      (w.told next w.notices).Watched next ∧ next.timeline = h.timeline ∧
        next.limit = h.limit ∧ next.mode = h.mode ∧ next.batch = h.batch ∧
          next.pending = true := by
  obtain ⟨hkept, -, hpending⟩ := hw.sound.schedule w.clock hlabel
  exact ⟨(h.schedule w.clock label).1, rfl, ⟨hw.toObserved.told _ _, rfl, hkept, hw.closed⟩, rfl,
    rfl, rfl, rfl, hpending⟩

/-- Starting over fails when the graph cannot be stored, and the timeline then stays. -/
theorem Observed.initHistory_eq (hw : w.Observed) (hlabel : label.IsText) :
    (∃ next, w.initHistory h label = (w.told next w.notices, .ok ()) ∧ next.Sound ∧
        next.Holds w.editor.graph ∧ next.batch = [] ∧ next.mode = h.mode) ∨
      ∃ fault, Record.stored w.editor.graph = .error fault ∧ w.initHistory h label =
        (w.told { h.dropWaiting with batch := [] } w.notices, .error fault) := by
  cases hstored : Record.stored w.editor.graph with
  | ok text =>
    obtain ⟨next, hinit, hsound, hholds, hbatch, hmode⟩ :=
      History.init_of_stored (h := h) hw.graph hstored hlabel
    have hsnapshot : GraphEditor.snapshot w.editor = .ok text := hstored
    refine Or.inl ⟨next, ?_, hsound, hholds, hbatch, hmode⟩
    rw [Workspace.initHistory]
    dsimp only [GraphEditor.settled]
    rw [hsnapshot, hinit]
    rfl
  | error fault =>
    have hsnapshot : GraphEditor.snapshot w.editor = .error fault := hstored
    refine Or.inr ⟨fault, rfl, ?_⟩
    rw [Workspace.initHistory]
    dsimp only [GraphEditor.settled]
    rw [hsnapshot]
    rfl

theorem Watched.initHistory (hw : w.Watched h) (hlabel : label.IsText) :
    ∃ next, (w.initHistory h label).1 = w.told next w.notices ∧
      (w.told next w.notices).Watched next ∧ next.Holds w.editor.graph ∧ next.mode = h.mode := by
  rcases hw.toObserved.initHistory_eq (h := h) hlabel with
    ⟨next, hinit, hsound, hholds, hbatch, hmode⟩ | ⟨fault, hstored, hinit⟩
  · refine ⟨next, congrArg Prod.fst hinit, ⟨hw.toObserved.told _ _, rfl, hsound, ?_⟩, hholds, hmode⟩
    exact fun hzero => ⟨hmode.trans (hw.closed hzero).1, hbatch⟩
  · have hempty : ∀ mutation ∈ ([] : List Mutation), mutation.label.IsText :=
      fun mutation hmutation => absurd hmutation List.not_mem_nil
    refine ⟨_, congrArg Prod.fst hinit, ⟨hw.toObserved.told _ _, rfl,
      hw.sound.dropWaiting.withBatch hempty, fun hzero => ⟨(hw.closed hzero).1, rfl⟩⟩, ?_, rfl⟩
    intro text hsame
    rw [hstored] at hsame
    cases hsame

/-! Batches and edits. -/

theorem Watched.closeBatch_of_inner (hw : w.Watched h) (hdepth : 1 < w.depth) :
    w.closeBatch = ({ w with depth := w.depth - 1 }, .ok ()) ∧
      Watched { w with depth := w.depth - 1 } h := by
  have hopen : w.depth - 1 ≠ 0 := by omega
  refine ⟨if_neg hopen, ⟨hw.nodup, hw.observed, hw.graph⟩, hw.history, hw.sound, ?_⟩
  exact fun hzero => absurd hzero hopen

theorem Watched.closeBatch_of_outer (hw : w.Watched h) (hdepth : w.depth = 1) :
    ∃ next notices result, w.closeBatch = (told { w with depth := 0 } next notices, result) ∧
      (told { w with depth := 0 } next notices).Watched next ∧
        h.Ends w.editor.graph next result := by
  let closed := { w with depth := 0 }
  have hclosed : closed.Observed := ⟨hw.nodup, hw.observed, hw.graph⟩
  have hend : ∃ next result, closed.tellBatchEnd .history = (closed.told next w.notices, result) ∧
      next.Sound ∧ next.mode = .idle ∧ next.batch = [] ∧ h.Ends w.editor.graph next result := by
    have hempty : ∀ mutation ∈ ([] : List Mutation), mutation.label.IsText :=
      fun mutation hmutation => absurd hmutation List.not_mem_nil
    have hlabel := History.isText_batchLabel hw.sound.batch
    have hhistory : closed.history = some h := hw.history
    rw [tellBatchEnd, hhistory, Option.map_some]
    rcases h.onBatchEnd_cases with ⟨happlying, hend⟩ | ⟨hidle, hends⟩
    · rw [hend]
      exact ⟨_, _, rfl, hw.sound.withBatch hempty, rfl, rfl, .applied (beq_iff_eq.mp happlying)⟩
    have hmode := History.isApplying_eq_false_iff.mp hidle
    have hcleared : History.Sound { h with batch := [] } := hw.sound.withBatch hempty
    rcases hends with ⟨hnone, hend⟩ | ⟨hsome, hend | hend⟩
    · rw [hend]
      exact ⟨h, .ok (), rfl, hw.sound, hmode, hnone, .nothing hmode hnone⟩
    · obtain ⟨hkept, -, hpending⟩ := hcleared.schedule w.clock hlabel
      rw [hend]
      exact ⟨_, _, rfl, hkept, hmode, rfl, .waits hmode hsome rfl rfl hmode rfl hpending⟩
    · obtain ⟨next, result, hrecord, hnext, htakes⟩ :=
        hclosed.record_eq (h := History.dropWaiting { h with batch := [] })
          hcleared.dropWaiting hlabel
      obtain ⟨hnextMode, hnextBatch⟩ := htakes.mode_batch
      rw [hend]
      dsimp only
      rw [hrecord]
      exact ⟨next, _, rfl, hnext, hnextMode.trans hmode, hnextBatch, .recorded hmode hsome htakes⟩
  obtain ⟨next, result, htell, hsound, hmode, hbatch, hends⟩ := hend
  obtain ⟨notices, hclose⟩ := closeBatch_eq hw.nodup
  rw [if_pos ⟨Nat.le_of_eq hdepth, hw.observed⟩] at hclose
  refine ⟨next, notices, result, hclose.trans (congrArg (notedStep · notices) htell), ?_, hends⟩
  exact ⟨hclosed.told next notices, rfl, hsound, fun _ => ⟨hmode, hbatch⟩⟩

theorem Watched.emit_eq (hw : w.Watched h) {mutation : Mutation} (hlabel : mutation.label.IsText) :
    ∃ told : Workspace Editor, w.emit mutation = told.closeBatch ∧
      told.Watched (h.onMutation mutation) ∧ told.editor = w.editor ∧ told.depth = w.depth + 1 := by
  obtain ⟨told, hemit, heditor, hobservers, hdepth, htold⟩ :=
    emit_eq_closeBatch hw.nodup hw.history mutation
  rw [if_pos hw.observed] at htold
  have hobserved : told.Observed :=
    ⟨hobservers ▸ hw.nodup, hobservers ▸ hw.observed, heditor ▸ hw.graph⟩
  refine ⟨told, hemit, ⟨hobserved, htold, hw.sound.onMutation hlabel, fun hzero => ?_⟩, heditor,
    hdepth⟩
  omega

/-- What an edit leads to. Inside of a batch its mutation is collected, and otherwise it is a
batch of its own. -/
inductive Edits (g : Graph) (depth : Nat) (h : History) : Option Mutation → History → Prop
  | untold : Edits g depth h none h
  | inner {mutation : Mutation} (hdepth : 0 < depth) :
      Edits g depth h (some mutation) (h.onMutation mutation)
  | outer {mutation : Mutation} {next : History} {result : Except Fault Unit} (hdepth : depth = 0)
      (hends : (h.onMutation mutation).Ends g next result) : Edits g depth h (some mutation) next

theorem Watched.edit (hw : w.Watched h) {edit : Edit} (hedit : edit.Sound) :
    ∃ next, (w.respond (.edit edit)).1.Watched next ∧
      (w.respond (.edit edit)).1.depth = w.depth ∧
        Edits (w.editor.apply edit).editor.graph w.depth h (w.editor.apply edit).mutation next := by
  have hkeeps := Editor.keeps_apply hw.graph hedit
  let changed : Workspace Editor := { w with editor := (w.editor.apply edit).editor }
  have hchanged : changed.Watched h :=
    ⟨⟨hw.nodup, hw.observed, hkeeps.graph⟩, hw.history, hw.sound, hw.closed⟩
  have hrespond : (w.respond (.edit edit)).1 = (w.perform (·.apply edit)).1 := rfl
  rw [hrespond, perform_fst]
  cases hmutation : (w.editor.apply edit).mutation with
  | none => exact ⟨h, hchanged, rfl, .untold⟩
  | some mutation =>
    obtain ⟨told, hemit, htold, heditor, hdepth⟩ :=
      hchanged.emit_eq (hkeeps.labels mutation hmutation)
    have hemit : emit { w with editor := (w.editor.apply edit).editor } mutation =
        told.closeBatch := hemit
    dsimp only
    rw [hemit]
    by_cases hzero : w.depth = 0
    · have hone : told.depth = 1 := hdepth.trans (congrArg (· + 1) hzero)
      obtain ⟨next, notices, result, hclose, hnext, hends⟩ := htold.closeBatch_of_outer hone
      rw [hclose]
      rw [heditor] at hends
      exact ⟨next, hnext, hzero.symm, .outer hzero hends⟩
    · have hchangedDepth : changed.depth = w.depth := rfl
      have hinner : 1 < told.depth := by omega
      obtain ⟨hclose, hnext⟩ := htold.closeBatch_of_inner hinner
      rw [hclose]
      refine ⟨h.onMutation mutation, hnext, ?_, .inner (Nat.pos_of_ne_zero hzero)⟩
      dsimp only
      omega

/-! Going to another entry. -/

/-- An entry was applied: the cursor points at it, and the editor has its graph. Inside of a
batch the history goes on applying it. -/
structure Applies (w : Workspace Editor) (h : History) (index : Nat) (next : Workspace Editor)
    (after : History) : Prop where
  watched : next.Watched after
  depth : next.depth = w.depth
  timeline : after.timeline = h.timeline.map (·.moveTo index)
  limit : after.limit = h.limit
  debouncer : after.debouncer = h.debouncer
  mode : w.depth = 0 ∨ after.mode = .applying
  stored : ∃ entry, h.entries[index]? = some entry ∧
    Record.stored next.editor.graph = .ok entry.snapshot

theorem Applies.current? {index : Nat} {next : Workspace Editor} {after : History}
    (happlies : Applies w h index next after) : after.current? = h.entries[index]? := by
  rw [History.current?, happlies.timeline, History.entries]
  cases h.timeline with
  | none => rfl
  | some t => rfl

theorem Watched.restore (hw : w.Watched h) {index : Nat} (chosen : Option Bool)
    {entry : HistoryEntry} (hentry : h.entries[index]? = some entry) {g : Graph}
    (hg : Graph.ofSnapshot entry.snapshot = .ok g) :
    (w.restore h index chosen g).2 = .ok true ∧
      ∃ after, Applies w h index (w.restore h index chosen g).1 after := by
  obtain ⟨t, htimeline, -, hgenuine⟩ := hw.sound.timeline
  have htimeline : h.timeline = some t := htimeline
  have hentries : t.entries[index]? = some entry := by
    rw [History.entries, htimeline] at hentry
    exact hentry
  obtain ⟨stored, hstored, htext⟩ := hgenuine entry (List.mem_of_getElem? hentries)
  -- What is read is the stored graph up to numbers that are not finite, and has the same text.
  rw [(Graph.stored_eq_ok_iff.mp htext).2] at hg
  obtain ⟨-, -, rfl⟩ := (Graph.ofSnapshot_snapshot_iff hstored).mp hg
  let applying := h.beginApply index chosen
  let mutation := Mutation.replacement (.str History.applyLabel)
  let replaced : Workspace Editor := { w.withHistory applying with
    editor := (w.editor.replaceGraph stored.finite (.str History.applyLabel) true).editor }
  have hsound : applying.Sound := by
    refine ⟨⟨hw.sound.waiting, hw.sound.batch⟩, rfl, t.moveTo index, ?_,
      (List.getElem?_eq_some_iff.mp hentries).1, hgenuine⟩
    exact congrArg (Option.map (·.moveTo index)) htimeline
  obtain ⟨opened, hemit, heditor, hobservers, hdepth, hopened⟩ :=
    emit_eq_closeBatch (w := replaced) (h := applying) hw.nodup rfl mutation
  have hdeaf : applying.onMutation mutation = applying := rfl
  rw [hdeaf, ite_self] at hopened
  have hwatched : opened.Watched applying := by
    refine ⟨⟨hobservers ▸ hw.nodup, hobservers ▸ hw.observed, heditor ▸ hstored.finite⟩, hopened,
      hsound, fun hzero => ?_⟩
    omega
  have hperform {next : Workspace Editor} (hclose : opened.closeBatch = (next, .ok ())) :
      (w.withHistory applying).perform (fun e =>
        GraphEditor.replaceGraph e stored.finite (.str History.applyLabel) true) =
          (next, .ok ()) := perform_eq_of_emit rfl (hemit.trans hclose)
  have hreplaced : replaced.depth = w.depth := rfl
  have hfinite : Record.stored stored.finite = .ok entry.snapshot :=
    (Graph.stored_finite stored).trans htext
  unfold Workspace.restore
  dsimp only
  by_cases hzero : w.depth = 0
  · obtain ⟨next, notices, result, hclose, hnext, hends⟩ := hwatched.closeBatch_of_outer (by omega)
    cases hends with
    | applied happlying =>
      rw [hperform hclose]
      refine ⟨rfl, _, hnext, hzero.symm, rfl, rfl, rfl, Or.inl hzero, entry, hentry, ?_⟩
      exact (congrArg (fun e : Editor => Record.stored e.graph) heditor).trans hfinite
    | nothing hidle hempty => cases hidle
    | waits hidle => cases hidle
    | recorded hidle => cases hidle
  · obtain ⟨hclose, hnext⟩ := hwatched.closeBatch_of_inner (by omega)
    rw [hperform hclose]
    have hinBatch : inBatch { opened with depth := opened.depth - 1 } = true :=
      decide_eq_true (by dsimp only; omega)
    rw [hinBatch, if_pos rfl]
    refine ⟨rfl, applying, hnext, ?_, rfl, rfl, rfl, Or.inr rfl, entry, hentry, ?_⟩
    · dsimp only
      omega
    · exact (congrArg (fun e : Editor => Record.stored e.graph) heditor).trans hfinite

theorem Watched.applyEntry (hw : w.Watched h) (index : Nat) (chosen : Option Bool) :
    w.applyEntry h index chosen = (w, .ok false) ∨
      (w.applyEntry h index chosen).2 = .ok true ∧
        ∃ after, Applies w h index (w.applyEntry h index chosen).1 after := by
  unfold Workspace.applyEntry
  split
  · rename_i g hread
    obtain ⟨entry, hentry, hg⟩ := Option.map_eq_some_iff.mp hread
    exact Or.inr (hw.restore chosen hentry hg)
  · exact Or.inl rfl

theorem navigate_eq {mid : History} {flushed : Bool}
    (hflush : w.flush h = (w.told mid w.notices, .ok flushed))
    (choose : History → Except Fault (Option (Nat × Option Bool))) :
    w.navigate h choose = match choose mid with
      | .error fault => (w.told mid w.notices, .error fault)
      | .ok none => (w.told mid w.notices, .ok false)
      | .ok (some (index, chosen)) => (w.told mid w.notices).applyEntry mid index chosen := by
  unfold navigate
  rw [hflush]
  rfl

theorem control_eq_navigate (hhistory : w.history = some h) {control : Control}
    (hnavigates : control.Navigates) :
    ∃ choose, w.control control = flag (w.navigate h choose) := by
  cases control with
  | undo =>
    rw [Workspace.control, onHistory, hhistory]
    exact ⟨_, rfl⟩
  | redo =>
    rw [Workspace.control, onHistory, hhistory]
    exact ⟨_, rfl⟩
  | jump index =>
    rw [Workspace.control, onHistory, hhistory]
    exact ⟨_, rfl⟩
  | _ => exact absurd hnavigates not_false

theorem flag_eq {next : Workspace Editor} {step : Workspace Editor × Except Fault Bool}
    {answer : Bool} : flag step = (next, .ok (.bool answer)) ↔ step = (next, .ok answer) := by
  obtain ⟨after, result⟩ := step
  cases result with
  | error fault => exact ⟨fun h => (by cases h), fun h => (by cases h)⟩
  | ok found => exact ⟨fun h => (by cases h; rfl), fun h => (by cases h; rfl)⟩

/-- Where navigating leads to after a waiting edit was recorded: an entry was applied, or
everything stays as it is. -/
inductive Turns (w : Workspace Editor) (mid : History) :
    Workspace Editor → History → Except Fault Bool → Prop
  | stays {result : Except Fault Bool} (hstays : result ≠ .ok true) :
      Turns w mid (w.told mid w.notices) mid result
  | goes {index : Nat} {next : Workspace Editor} {after : History}
      (happlies : Applies (w.told mid w.notices) mid index next after) :
      Turns w mid next after (.ok true)

theorem Watched.navigate (hw : w.Watched h)
    (choose : History → Except Fault (Option (Nat × Option Bool))) :
    ∃ mid flushed after, h.Flushes w.editor.graph mid flushed ∧
      (w.navigate h choose).1.Watched after ∧ (w.navigate h choose).1.depth = w.depth ∧
        Turns w mid (w.navigate h choose).1 after (w.navigate h choose).2 := by
  obtain ⟨mid, flushed, hflush, hmid, hflushes⟩ := hw.flush_eq
  cases flushed with
  | error fault =>
    have hstop : w.navigate h choose = (w.told mid w.notices, .error fault) := by
      unfold Workspace.navigate
      rw [hflush]
    rw [hstop]
    exact ⟨mid, _, mid, hflushes, hmid, rfl, .stays nofun⟩
  | ok flushed =>
    rw [navigate_eq hflush]
    split
    · exact ⟨mid, _, mid, hflushes, hmid, rfl, .stays nofun⟩
    · exact ⟨mid, _, mid, hflushes, hmid, rfl, .stays nofun⟩
    · rename_i index chosen _
      rcases hmid.applyEntry index chosen with hsame | ⟨hresult, after, happlies⟩
      · rw [hsame]
        exact ⟨mid, _, mid, hflushes, hmid, rfl, .stays nofun⟩
      · rw [hresult]
        exact ⟨mid, _, after, hflushes, happlies.watched, happlies.depth, .goes happlies⟩

/-! Runs. -/

/-- Edits with any result, batches in any nesting, and calls of the history at any moment, under
labels that are texts. Nobody changes who observes the editor or puts entries of their own into the
history. -/
def Calm (w : Workspace Editor) : Event → Prop
  | .edit edit => edit.Sound
  | .closeBatch => w.inBatch
  | .call (.init label) | .call (.take label) | .call (.schedule label) => label.IsText
  | .call (.observe _) | .call (.ignore _) | .call (.corrupt _ _) => False
  | _ => True

theorem Watched.control (hw : w.Watched h) {control : Control} (hcalm : Calm w (.call control)) :
    ∃ next, (w.control control).1.Watched next := by
  have hnavigates (hcontrol : control.Navigates) : ∃ next, (w.control control).1.Watched next := by
    obtain ⟨choose, hcalled⟩ := control_eq_navigate hw.history hcontrol
    obtain ⟨-, -, after, -, hafter, -⟩ := hw.navigate choose
    rw [hcalled]
    exact ⟨after, hafter⟩
  cases control with
  | snapshot => exact ⟨h, hw⟩
  | summary => exact ⟨h, hw⟩
  | observe observer => exact absurd hcalm not_false
  | ignore observer => exact absurd hcalm not_false
  | corrupt index entry => exact absurd hcalm not_false
  | advance seconds =>
    obtain ⟨next, hnext, -⟩ := hw.advance seconds
    exact ⟨next, hnext⟩
  | init label =>
    rw [Workspace.control, onHistory, hw.history]
    obtain ⟨next, hinit, hnext, -⟩ := hw.initHistory hcalm
    exact ⟨next, hinit ▸ hnext⟩
  | take label =>
    rw [Workspace.control, onHistory, hw.history]
    obtain ⟨next, result, hrecord, hnext, -⟩ := hw.record_eq hw.sound rfl rfl hcalm
    refine ⟨next, ?_⟩
    dsimp only
    rw [hrecord]
    exact hnext
  | schedule label =>
    rw [Workspace.control, onHistory, hw.history]
    obtain ⟨next, hschedule, hnext, -⟩ := hw.schedule hcalm
    exact ⟨next, hschedule ▸ hnext⟩
  | flush =>
    rw [Workspace.control, onHistory, hw.history]
    obtain ⟨next, result, hflush, hnext, -⟩ := hw.flush_eq
    refine ⟨next, ?_⟩
    dsimp only
    rw [hflush]
    exact hnext
  | undo => exact hnavigates trivial
  | redo => exact hnavigates trivial
  | jump index => exact hnavigates trivial

theorem Watched.openBatch (hw : w.Watched h) : w.openBatch.Watched h :=
  ⟨⟨hw.nodup, hw.observed, hw.graph⟩, hw.history, hw.sound,
    fun hzero => absurd hzero (Nat.succ_ne_zero _)⟩

theorem Watched.closeBatch (hw : w.Watched h) (hin : w.inBatch) :
    ∃ next, w.closeBatch.1.Watched next := by
  have hdepth : 0 < w.depth := by simpa [inBatch] using hin
  by_cases hone : w.depth = 1
  · obtain ⟨next, notices, result, hclose, hnext, -⟩ := hw.closeBatch_of_outer hone
    exact ⟨next, hclose ▸ hnext⟩
  · obtain ⟨hclose, hnext⟩ := hw.closeBatch_of_inner (by omega)
    exact ⟨h, hclose ▸ hnext⟩

theorem Watched.respond (hw : w.Watched h) {event : Event} (hcalm : Calm w event) :
    ∃ next, (w.respond event).1.Watched next := by
  cases event with
  | edit edit =>
    obtain ⟨next, hnext, -⟩ := hw.edit hcalm
    exact ⟨next, hnext⟩
  | openBatch => exact ⟨h, hw.openBatch⟩
  | closeBatch => exact hw.closeBatch hcalm
  | call control => exact hw.control hcalm

/-- The operation that an event is. -/
def operation : Event → Operation Editor
  | .edit edit => .command (·.apply edit)
  | .openBatch => .openBatch
  | .closeBatch => .closeBatch
  | .call control => .call control

theorem respond_eq_operate (w : Workspace Editor) (event : Event) :
    w.respond event = w.operate (operation event) := by
  cases event <;> rfl

theorem watched_of_reaches {start : Workspace Editor} (hw : start.Watched h)
    (hrun : Reaches Calm start w) : ∃ next, w.Watched next := by
  induction hrun with
  | refl => exact ⟨h, hw⟩
  | tail _ hstep ih =>
    obtain ⟨next, hnext⟩ := ih
    obtain ⟨event, hcalm, rfl⟩ := hstep
    exact hnext.respond hcalm

/-- The operations of a run hand over texts, because the mutations of sound edits have such
labels. -/
theorem runs_of_reaches {start : Workspace Editor} (hw : start.Watched h)
    (hrun : Reaches Calm start w) : Runs start w := by
  induction hrun with
  | refl => exact .refl
  | tail hbefore hstep ih =>
    obtain ⟨now, hnow⟩ := watched_of_reaches hw hbefore
    obtain ⟨event, hcalm, rfl⟩ := hstep
    refine ih.tail ⟨operation event, fun hcorrupts => ?_, ?_,
      congrArg Prod.fst (respond_eq_operate _ _)⟩
    · cases event with
      | call control =>
        cases control with
        | corrupt index entry => exact hcalm
        | _ => exact hcorrupts
      | _ => exact hcorrupts
    · cases event with
      | edit edit => exact (Editor.keeps_apply hnow.graph hcalm).labels
      | openBatch => trivial
      | closeBatch => trivial
      | call control =>
        cases control with
        | take label => exact hcalm
        | schedule label => exact hcalm
        | _ => trivial

end Workspace
end WorkflowStudio
