import WorkflowStudio.Proofs.BoundedTimeline
import WorkflowStudio.Proofs.ObserverOrder
import WorkflowStudio.Proofs.RecordFields
import WorkflowStudio.Session

/-!
The timeline of a history stays in bounds, whatever happens to the workspace. An operation
changes it by recording the graph, and only going to another entry moves the cursor by itself.
-/
namespace WorkflowStudio

open Timeline (Steps)

/-- The call that was made last is the one that waits, also when its timer cannot be set. -/
theorem Debouncer.waiting_call {δ τ α : Type} [Timer δ τ] (d : Debouncer δ τ α) (clock : Option τ)
    (args : α) : (d.call clock args).1.waiting = some args := by
  unfold call
  split
  · rfl
  · split <;> rfl

/-- Any two texts make an entry. -/
theorem HistoryEntry.of_str (text label : String) :
    HistoryEntry.of (.str text) (.str label) = .ok ⟨text, label⟩ := by
  rw [HistoryEntry.of, Checked.orFault_eq_ok, read, Json.asRecord]
  rw [Fields.required_of_get? rfl (rfl : Json.asText (.str text) = .ok text),
    Fields.required_of_get? rfl (rfl : Json.asText (.str label) = .ok label), Checked.map_ok,
    Checked.seq_ok]

namespace History

/-- Every label that is kept for an entry to come is a text. -/
structure Labelled (h : History) : Prop where
  waiting : ∀ label, h.debouncer.waiting = some label → label.IsText
  batch : ∀ mutation ∈ h.batch, mutation.label.IsText

/-- A timeline in bounds changes by steps, after which the cursor may be moved. -/
structure Evolves (moves : Prop) (h next : History) : Prop where
  limit : next.limit = h.limit
  labelled : next.Labelled
  timeline : ∀ t, h.timeline = some t → t.Bounded h.limit → ∃ mid later,
    next.timeline = some later ∧ Steps h.limit t mid ∧ later.entries = mid.entries ∧
      later.cursor < later.entries.length ∧ (¬moves → later = mid)

variable {moves : Prop} {h next : History} {label : Json}

/-! Labels. -/

theorem Labelled.dropWaiting (hl : h.Labelled) : h.dropWaiting.Labelled := ⟨nofun, hl.batch⟩

theorem Labelled.withBatch (hl : h.Labelled) {batch : List Mutation}
    (hbatch : ∀ mutation ∈ batch, mutation.label.IsText) : Labelled { h with batch := batch } :=
  ⟨hl.waiting, hbatch⟩

theorem Labelled.cleared (hl : h.Labelled) : Labelled { h with batch := [] } :=
  hl.withBatch fun _ hmutation => absurd hmutation List.not_mem_nil

theorem Labelled.schedule (hl : h.Labelled) (clock : Option Double) (hlabel : label.IsText) :
    (h.schedule clock label).1.Labelled := by
  refine ⟨fun other hother => ?_, hl.batch⟩
  have hheld := h.debouncer.waiting_call clock label
  rw [History.schedule] at hother
  exact Option.some.inj (hheld.symm.trans hother) ▸ hlabel

/-- A mutation is collected, unless the history takes no notice of the editor. -/
theorem onMutation_cases (h : History) (mutation : Mutation) :
    h.onMutation mutation = { h with batch := h.batch ++ [mutation] } ∨
      h.onMutation mutation = h ∧ (h.isApplying = true ∨ h.timeline = none) := by
  unfold onMutation
  split
  · rename_i hdeaf
    rw [Bool.or_eq_true, Option.isNone_iff_eq_none] at hdeaf
    exact Or.inr ⟨rfl, hdeaf⟩
  · exact Or.inl rfl

theorem Labelled.onMutation (hl : h.Labelled) {mutation : Mutation}
    (hlabel : mutation.label.IsText) : (h.onMutation mutation).Labelled := by
  rcases h.onMutation_cases mutation with hcollected | ⟨hsame, -⟩
  · rw [hcollected]
    refine hl.withBatch fun other hother => ?_
    rcases List.mem_append.mp hother with hold | hnew
    · exact hl.batch other hold
    · rw [List.mem_singleton.mp hnew]
      exact hlabel
  · rw [hsame]
    exact hl

theorem isText_batchLabel {batch : List Mutation}
    (h : ∀ mutation ∈ batch, mutation.label.IsText) : (batchLabel batch).IsText := by
  unfold batchLabel
  split
  · exact h _ List.mem_cons_self
  · exact ⟨_, rfl⟩

/-- What gives way to a description of the change is a text, and a text takes its place. -/
theorem isText_entryLabel (current : Option HistoryEntry) (text : String) (hlabel : label.IsText) :
    (entryLabel current text label).IsText := by
  obtain ⟨shown, rfl⟩ := hlabel
  cases current with
  | none => exact ⟨shown, rfl⟩
  | some entry => exact ⟨_, rfl⟩

/-- Under a text, a graph that is not at the cursor gets an entry. -/
theorem record_of_isText (h : History) (text : String) (hlabel : label.IsText) :
    (h.current?.map (·.snapshot) = some text ∧ h.record text label = (h, .ok false)) ∨
      (h.current?.map (·.snapshot) ≠ some text ∧
        ∃ shown, h.record text label = (h.add ⟨text, shown⟩, .ok true)) := by
  unfold record
  split
  · rename_i hsame
    exact Or.inl ⟨hsame, rfl⟩
  · rename_i hnew
    obtain ⟨shown, hshown⟩ := isText_entryLabel h.current? text hlabel
    obtain ⟨given, rfl⟩ := hlabel
    refine Or.inr ⟨hnew, shown, ?_⟩
    dsimp only
    rw [hshown, HistoryEntry.of_str]
    rfl

/-! Changes of the timeline. -/

theorem one_le_limit_of_start {settings : Settings} {bound delay : Json}
    (hstart : start settings bound delay = .ok h) : 1 ≤ h.limit := by
  have hunder (amount : Amount) : 1 ≤ limitUnder amount := by
    unfold limitUnder
    split
    · omega
    · split
      · omega
      · split
        · exact Nat.le_refl 1
        · decide
  have hlimit : limitOf settings bound = .ok h.limit := by
    cases hof : limitOf settings bound with
    | error fault =>
      rw [start, hof] at hstart
      cases hstart
    | ok limit =>
      rw [start, hof] at hstart
      cases hstart
      rfl
  unfold limitOf at hlimit
  split at hlimit
  · split at hlimit
    · rw [← Except.ok.inj hlimit]
      exact hunder _
    · cases hlimit
  · rw [← Except.ok.inj hlimit]
    exact hunder _

theorem Evolves.of_eq (hl : next.Labelled) (hlimit : next.limit = h.limit)
    (htimeline : next.timeline = h.timeline) : h.Evolves moves next :=
  ⟨hlimit, hl, fun t ht hbounded =>
    ⟨t, t, htimeline.trans ht, .refl, rfl, hbounded.cursor_lt, fun _ => rfl⟩⟩

/-- What precedes the change does not matter as long as the timeline is the same. -/
theorem Evolves.of_timeline_eq {other : History} (hlimit : other.limit = h.limit)
    (htimeline : other.timeline = h.timeline) (hnext : other.Evolves moves next) :
    h.Evolves moves next := by
  refine ⟨hnext.limit.trans hlimit, hnext.labelled, ?_⟩
  rw [← hlimit, ← htimeline]
  exact hnext.timeline

theorem Evolves.mono {moves' : Prop} (hmoves : moves → moves') (hnext : h.Evolves moves next) :
    h.Evolves moves' next := by
  refine ⟨hnext.limit, hnext.labelled, fun t ht hbounded => ?_⟩
  obtain ⟨mid, later, hlater, hsteps, hentries, hcursor, hstay⟩ := hnext.timeline t ht hbounded
  exact ⟨mid, later, hlater, hsteps, hentries, hcursor, fun hno => hstay (hno ∘ hmoves)⟩

/-- A change by steps alone, and then one that moves the cursor. -/
theorem Evolves.trans_move {mid : History} (hmid : h.Evolves False mid)
    (hnext : mid.Evolves True next) : h.Evolves True next := by
  refine ⟨hnext.limit.trans hmid.limit, hnext.labelled, fun t ht hbounded => ?_⟩
  obtain ⟨first, kept, hkept, hfirst, -, -, hstay⟩ := hmid.timeline t ht hbounded
  rw [hstay not_false] at hkept
  have hsame : first.Bounded mid.limit := hmid.limit ▸ hbounded.steps hfirst
  obtain ⟨last, later, hlater, hlast, hentries, hcursor, -⟩ := hnext.timeline first hkept hsame
  rw [hmid.limit] at hlast
  exact ⟨last, later, hlater, hfirst.trans hlast, hentries, hcursor, fun hno => absurd trivial hno⟩

theorem evolves_record (hl : h.Labelled) (text : String) (hlabel : label.IsText) :
    h.Evolves moves (h.record text label).1 := by
  rcases h.record_of_isText text hlabel with ⟨-, hsame⟩ | ⟨hnew, shown, hadded⟩
  · rw [hsame]
    exact .of_eq hl rfl rfl
  · have hkept : (h.add ⟨text, shown⟩).limit = h.limit ∧ (h.add ⟨text, shown⟩).Labelled := by
      rw [add]
      split <;> exact ⟨rfl, hl.waiting, hl.batch⟩
    rw [hadded]
    refine ⟨hkept.1, hkept.2, fun t ht hbounded => ?_⟩
    have htimeline : (h.add ⟨text, shown⟩).timeline = some (t.record h.limit ⟨text, shown⟩) := by
      rw [add, ht]
      rfl
    have hrecords := Timeline.records_record hbounded.cursor_lt h.limit ⟨text, shown⟩
    rw [current?, ht, Option.bind_some] at hnew
    have hstep : Steps h.limit t (t.record h.limit ⟨text, shown⟩) := .single (.record hnew hrecords)
    exact ⟨_, _, htimeline, hstep, rfl, (hbounded.steps hstep).cursor_lt, fun _ => rfl⟩

/-- The end of a batch ends the applying of an entry, or nothing was collected in the batch, or
its edits wait or are recorded. -/
theorem onBatchEnd_cases (h : History) :
    (h.isApplying = true ∧ h.onBatchEnd = ({ h with mode := .idle, batch := [] }, .nothing)) ∨
      h.isApplying = false ∧ ((h.batch = [] ∧ h.onBatchEnd = (h, .nothing)) ∨
        h.batch ≠ [] ∧ (h.onBatchEnd = ({ h with batch := [] }, .wait (batchLabel h.batch)) ∨
          h.onBatchEnd = (dropWaiting { h with batch := [] }, .record (batchLabel h.batch)))) := by
  unfold onBatchEnd
  split
  · rename_i happlying
    exact Or.inl ⟨happlying, rfl⟩
  · rename_i hidle
    refine Or.inr ⟨Bool.eq_false_iff.mpr hidle, ?_⟩
    split
    · rename_i hempty
      exact Or.inl ⟨List.isEmpty_iff.mp hempty, rfl⟩
    · rename_i hcollected
      refine Or.inr ⟨fun hempty => hcollected (List.isEmpty_iff.mpr hempty), ?_⟩
      dsimp only
      split
      · exact Or.inl rfl
      · exact Or.inr rfl

theorem takeWaiting_eq (h : History) :
    h.takeWaiting = (h.dropWaiting, h.debouncer.waiting) := rfl

/-- A call whose time has come is taken out as if it were flushed. -/
theorem takeExpired_eq (h : History) (now : Double) :
    (h.takeExpired now).2 = none ∨ h.takeExpired now = h.takeWaiting := by
  have hexpire : (h.debouncer.expire now).2 = none ∨
      h.debouncer.expire now = h.debouncer.flush := by
    unfold Debouncer.expire
    split
    · split
      · exact Or.inr rfl
      · exact Or.inl rfl
    · exact Or.inl rfl
  rcases hexpire with hnone | hflush
  · exact Or.inl hnone
  · refine Or.inr ?_
    rw [takeExpired, hflush]
    rfl

end History

/-- What can happen to a workspace: any command of its editor, batches, and calls of the history. -/
inductive Operation (ε : Type) where
  | command {α : Type} (command : ε → Outcome ε α)
  | openBatch
  | closeBatch
  | call (control : Control)

namespace Operation

variable {ε : Type}

/-- Whether the operation may go to another entry. -/
def Navigates : Operation ε → Prop
  | .call .undo | .call .redo | .call (.jump _) => True
  | _ => False

/-- Whether the operation starts the timeline over. -/
def Initializes : Operation ε → Prop
  | .call (.init _) => True
  | _ => False

/-- Whether the operation puts an entry of its own into the timeline. -/
def Corrupts : Operation ε → Prop
  | .call (.corrupt _ _) => True
  | _ => False

end Operation

namespace Workspace

variable {ε : Type} [GraphEditor ε] {w next : Workspace ε} {h : History} {label : Json}

def operate (w : Workspace ε) : Operation ε → Workspace ε × Except Fault Unit
  | .command command => done (w.perform command)
  | .openBatch => (w.openBatch, .ok ())
  | .closeBatch => w.closeBatch
  | .call control => done (w.control control)
where
  done {α : Type} (step : Workspace ε × Except Fault α) : Workspace ε × Except Fault Unit :=
    (step.1, step.2.map fun _ => ())

/-- The labels that an operation hands to the history are texts, as they are declared to be. -/
def Labels (w : Workspace ε) : Operation ε → Prop
  | .command command => ∀ mutation, (command w.editor).mutation = some mutation →
      mutation.label.IsText
  | .call (.take label) | .call (.schedule label) => label.IsText
  | _ => True

/-- What an operation may lead to, as far as the history is concerned. -/
structure Leads (moves : Prop) (w : Workspace ε) (h : History) (next : Workspace ε) : Prop where
  observers : next.observers = w.observers
  history : ∃ after, next.history = some after ∧ h.Evolves moves after

omit [GraphEditor ε] in
theorem leads_of_eq {moves : Prop} (hl : h.Labelled) (hobservers : next.observers = w.observers)
    (hhistory : next.history = some h) : w.Leads moves h next :=
  ⟨hobservers, h, hhistory, .of_eq hl rfl rfl⟩

omit [GraphEditor ε] in
theorem Leads.mono {moves moves' : Prop} (hmoves : moves → moves') (hnext : w.Leads moves h next) :
    w.Leads moves' h next := by
  obtain ⟨hobservers, after, hafter, hevolves⟩ := hnext
  exact ⟨hobservers, after, hafter, hevolves.mono hmoves⟩

omit [GraphEditor ε] in
theorem Leads.nodup {moves : Prop} (hnext : w.Leads moves h next) (hnodup : w.observers.Nodup) :
    next.observers.Nodup := hnext.observers.symm ▸ hnodup

/-- Recording after something was taken out of the history. -/
theorem leads_record {taken : History} (hl : taken.Labelled) (hlimit : taken.limit = h.limit)
    (htimeline : taken.timeline = h.timeline) (hlabel : label.IsText) :
    w.Leads False h (w.record taken label).1 := by
  unfold record
  dsimp only
  split
  · exact ⟨rfl, taken, rfl, .of_eq hl hlimit htimeline⟩
  · split
    · exact ⟨rfl, taken, rfl, .of_eq hl hlimit htimeline⟩
    · rename_i text _
      refine ⟨rfl, (taken.record text label).1, rfl, ?_⟩
      exact .of_timeline_eq hlimit htimeline (History.evolves_record hl text hlabel)

theorem leads_tellBatchEnd (hl : h.Labelled) (hhistory : w.history = some h) :
    w.Leads False h (w.tellBatchEnd .history).1 := by
  have hlabel := History.isText_batchLabel hl.batch
  rw [tellBatchEnd, hhistory, Option.map_some]
  rcases h.onBatchEnd_cases with ⟨-, hend⟩ | ⟨-, ⟨-, hend⟩ | ⟨-, hend | hend⟩⟩
  · rw [hend]
    exact ⟨rfl, _, rfl, .of_eq ⟨hl.waiting, hl.cleared.batch⟩ rfl rfl⟩
  · rw [hend]
    exact leads_of_eq hl rfl rfl
  · rw [hend]
    exact ⟨rfl, _, rfl, .of_eq (hl.cleared.schedule w.clock hlabel) rfl rfl⟩
  · rw [hend]
    exact leads_record hl.cleared.dropWaiting rfl rfl hlabel

theorem leads_closeBatch (hl : h.Labelled) (hnodup : w.observers.Nodup)
    (hhistory : w.history = some h) : w.Leads False h w.closeBatch.1 := by
  obtain ⟨notices, hclose⟩ := closeBatch_eq hnodup
  rw [hclose]
  split
  · have hend := leads_tellBatchEnd (w := { w with depth := 0 }) hl hhistory
    exact ⟨hend.observers, hend.history⟩
  · exact leads_of_eq hl rfl hhistory

theorem leads_emit (hl : h.Labelled) (hnodup : w.observers.Nodup) (hhistory : w.history = some h)
    {mutation : Mutation} (hlabel : mutation.label.IsText) :
    w.Leads False h (w.emit mutation).1 := by
  obtain ⟨told, hemit, -, hobservers, -, htold⟩ := emit_eq_closeBatch hnodup hhistory mutation
  have hkept : (if Observer.history ∈ w.observers then h.onMutation mutation else h).Labelled ∧
      (if Observer.history ∈ w.observers then h.onMutation mutation else h).limit = h.limit ∧
        (if Observer.history ∈ w.observers then h.onMutation mutation else h).timeline =
          h.timeline := by
    split
    · refine ⟨hl.onMutation hlabel, ?_⟩
      rcases h.onMutation_cases mutation with hcollected | ⟨hsame, -⟩
      · rw [hcollected]
        exact ⟨rfl, rfl⟩
      · rw [hsame]
        exact ⟨rfl, rfl⟩
    · exact ⟨hl, rfl, rfl⟩
  obtain ⟨hlabelled, hlimit, htimeline⟩ := hkept
  obtain ⟨hclosed, after, hafter, hevolves⟩ :=
    leads_closeBatch hlabelled (hobservers.symm ▸ hnodup) htold
  rw [hemit]
  exact ⟨hclosed.trans hobservers, after, hafter, .of_timeline_eq hlimit htimeline hevolves⟩

theorem leads_perform {α : Type} (hl : h.Labelled) (hnodup : w.observers.Nodup)
    (hhistory : w.history = some h) {command : ε → Outcome ε α}
    (hlabels : w.Labels (.command command)) : w.Leads False h (w.perform command).1 := by
  rw [perform_fst]
  split
  · rename_i mutation hmutation
    obtain ⟨hobservers, hafter⟩ := leads_emit (w := { w with editor := (command w.editor).editor })
      hl hnodup hhistory (hlabels mutation hmutation)
    exact ⟨hobservers, hafter⟩
  · exact leads_of_eq hl rfl hhistory

/-! Calls of the history. -/

theorem leads_flush (hl : h.Labelled) (hhistory : w.history = some h) :
    w.Leads False h (w.flush h).1 := by
  unfold flush
  rw [History.takeWaiting_eq]
  cases hwaiting : h.debouncer.waiting with
  | none => exact leads_of_eq hl rfl hhistory
  | some label => exact leads_record hl.dropWaiting rfl rfl (hl.waiting label hwaiting)

/-- A waiting edit whose time has come is recorded as if it were flushed. -/
theorem expire_cases (hhistory : w.history = some h) (now : Double) :
    w.expire now = w ∨ w.expire now = (w.flush h).1 := by
  rw [expire, hhistory, Option.map_some, flush]
  rcases h.takeExpired_eq now with hnone | htaken
  · cases hexpired : h.takeExpired now with
    | mk taken waiting =>
      rw [hexpired] at hnone
      cases hnone
      exact Or.inl rfl
  · rw [htaken]
    cases h.takeWaiting with
    | mk taken waiting => cases waiting <;> exact Or.inr rfl

theorem leads_expire (hl : h.Labelled) (hhistory : w.history = some h) (now : Double) :
    w.Leads False h (w.expire now) := by
  rcases expire_cases hhistory now with hstill | hflush
  · rw [hstill]
    exact leads_of_eq hl rfl hhistory
  · rw [hflush]
    exact leads_flush hl hhistory

theorem leads_advance (hl : h.Labelled) (hhistory : w.history = some h) (time : Json) :
    w.Leads False h (w.advance time).1 := by
  unfold advance
  split
  · exact leads_of_eq hl rfl hhistory
  · split
    · exact leads_of_eq hl rfl hhistory
    · rename_i now _
      have hexpire := leads_expire (w := { w with clock := some now }) hl hhistory now
      exact ⟨hexpire.observers, hexpire.history⟩

/-- While an entry is applied, telling a mutation leaves the timeline as it is. -/
theorem emit_of_isApplying (hl : h.Labelled) (hnodup : w.observers.Nodup)
    (hhistory : w.history = some h) (happlying : h.isApplying = true) (mutation : Mutation) :
    (w.emit mutation).1.observers = w.observers ∧ ∃ after,
      (w.emit mutation).1.history = some after ∧ after.limit = h.limit ∧
        after.timeline = h.timeline ∧ after.Labelled := by
  obtain ⟨told, hemit, -, hobservers, -, htold⟩ := emit_eq_closeBatch hnodup hhistory mutation
  have hdeaf : h.onMutation mutation = h := by
    rw [History.onMutation, happlying]
    rfl
  rw [hdeaf, ite_self] at htold
  obtain ⟨notices, hclose⟩ := closeBatch_eq (hobservers.symm ▸ hnodup)
  rw [hemit, hclose]
  split
  · have hend : h.onBatchEnd = ({ h with mode := .idle, batch := [] }, .nothing) :=
      if_pos happlying
    rw [tellBatchEnd]
    dsimp only
    rw [htold, Option.map_some, hend]
    exact ⟨hobservers, _, rfl, rfl, rfl, hl.waiting, hl.cleared.batch⟩
  · exact ⟨hobservers, h, htold, rfl, rfl, hl⟩

theorem restore_timeline (hl : h.Labelled) (hnodup : w.observers.Nodup) (index : Nat)
    (chosen : Option Bool) (g : Graph) :
    (w.restore h index chosen g).1.observers = w.observers ∧ ∃ after,
      (w.restore h index chosen g).1.history = some after ∧ after.limit = h.limit ∧
        after.timeline = h.timeline.map (·.moveTo index) ∧ after.Labelled := by
  let applying := w.withHistory (h.beginApply index chosen)
  let replace (e : ε) := GraphEditor.replaceGraph e g (.str History.applyLabel) true
  have hbegun : (h.beginApply index chosen).Labelled := ⟨hl.waiting, hl.batch⟩
  have hperform : (applying.perform replace).1.observers = w.observers ∧ ∃ after,
      (applying.perform replace).1.history = some after ∧ after.limit = h.limit ∧
        after.timeline = h.timeline.map (·.moveTo index) ∧ after.Labelled := by
    rw [perform_fst]
    split
    · rename_i mutation _
      exact emit_of_isApplying (w := { applying with editor := (replace applying.editor).editor })
        hbegun hnodup rfl rfl mutation
    · exact ⟨rfl, _, rfl, rfl, rfl, hbegun⟩
  obtain ⟨hobservers, after, hafter, hlimit, htimeline, hlabelled⟩ := hperform
  unfold restore
  dsimp only
  split
  · exact ⟨hobservers, after, hafter, hlimit, htimeline, hlabelled⟩
  · refine ⟨hobservers, after.endApply, ?_, hlimit, htimeline, hlabelled.waiting, hlabelled.batch⟩
    exact congrArg (Option.map History.endApply) hafter

theorem leads_applyEntry (hl : h.Labelled) (hnodup : w.observers.Nodup)
    (hhistory : w.history = some h) (index : Nat) (chosen : Option Bool) :
    w.Leads True h (w.applyEntry h index chosen).1 := by
  unfold applyEntry
  split
  · rename_i g hread
    obtain ⟨hobservers, after, hafter, hlimit, htimeline, hlabelled⟩ :=
      restore_timeline hl hnodup index chosen g
    refine ⟨hobservers, after, hafter, hlimit, hlabelled, fun t ht _ => ?_⟩
    refine ⟨t, t.moveTo index, ?_, .refl, rfl, ?_, fun hstay => absurd trivial hstay⟩
    · rw [htimeline, ht]
      rfl
    · obtain ⟨entry, hentry, -⟩ := Option.map_eq_some_iff.mp hread
      rw [History.entries, ht] at hentry
      exact (List.getElem?_eq_some_iff.mp hentry).1
  · exact leads_of_eq hl rfl hhistory

theorem leads_navigate (hl : h.Labelled) (hnodup : w.observers.Nodup)
    (hhistory : w.history = some h)
    (choose : History → Except Fault (Option (Nat × Option Bool))) :
    w.Leads True h (w.navigate h choose).1 := by
  have hflush := leads_flush hl hhistory
  have hstay : w.Leads True h (w.flush h).1 := hflush.mono False.elim
  have hflushed := hflush.nodup hnodup
  unfold navigate
  generalize w.flush h = step at hflush hstay hflushed ⊢
  obtain ⟨flushed, result⟩ := step
  obtain ⟨hobservers, mid, hmid, hevolves⟩ := hflush
  dsimp only at hmid hobservers hstay ⊢
  split
  · exact hstay
  · exact hstay
  · rename_i found hfound
    rw [hmid] at hfound
    cases hfound
    split
    · exact hstay
    · exact hstay
    · rename_i index chosen _
      obtain ⟨happlied, after, hafter, hmoved⟩ :=
        leads_applyEntry hevolves.labelled hflushed hmid index chosen
      exact ⟨happlied.trans hobservers, after, hafter, hevolves.trans_move hmoved⟩

theorem leads_control (hl : h.Labelled) (hnodup : w.observers.Nodup)
    (hhistory : w.history = some h) {control : Control}
    (hinit : ¬(Operation.call control : Operation ε).Initializes)
    (hcorrupt : ¬(Operation.call control : Operation ε).Corrupts)
    (hlabels : w.Labels (.call control)) :
    (w.control control).1.observers.Nodup ∧ ∃ after, (w.control control).1.history = some after ∧
      h.Evolves (Operation.call control : Operation ε).Navigates after := by
  have hcalled {moves : Prop} {called : Workspace ε} (hnext : w.Leads moves h called) :
      called.observers.Nodup ∧ ∃ after, called.history = some after ∧ h.Evolves moves after :=
    ⟨hnext.nodup hnodup, hnext.history⟩
  cases control with
  | snapshot => exact hcalled (leads_of_eq hl rfl hhistory)
  | summary => exact hcalled (leads_of_eq hl rfl hhistory)
  | observe observer =>
    rw [control, observe]
    split
    · exact hcalled (leads_of_eq hl rfl hhistory)
    · rename_i hnew
      rw [List.contains_iff_mem] at hnew
      refine ⟨?_, h, hhistory, .of_eq hl rfl rfl⟩
      exact List.nodup_append_comm.mpr (List.nodup_cons.mpr ⟨hnew, hnodup⟩)
  | ignore observer => exact ⟨hnodup.erase observer, h, hhistory, .of_eq hl rfl rfl⟩
  | advance seconds => exact hcalled (leads_advance hl hhistory seconds)
  | init label => exact absurd trivial hinit
  | corrupt index entry => exact absurd trivial hcorrupt
  | take label =>
    rw [control, onHistory, hhistory]
    exact hcalled (leads_record hl rfl rfl hlabels)
  | schedule label =>
    rw [control, onHistory, hhistory]
    refine hcalled ⟨rfl, _, rfl, .of_eq (hl.schedule w.clock hlabels) rfl rfl⟩
  | flush =>
    rw [control, onHistory, hhistory]
    exact hcalled (leads_flush hl hhistory)
  | undo =>
    rw [control, onHistory, hhistory]
    exact hcalled (leads_navigate hl hnodup hhistory _)
  | redo =>
    rw [control, onHistory, hhistory]
    exact hcalled (leads_navigate hl hnodup hhistory _)
  | jump index =>
    rw [control, onHistory, hhistory]
    exact hcalled (leads_navigate hl hnodup hhistory _)

/-- What a single operation does to the history. -/
theorem leads_operate (hl : h.Labelled) (hnodup : w.observers.Nodup)
    (hhistory : w.history = some h) {operation : Operation ε} (hinit : ¬operation.Initializes)
    (hcorrupt : ¬operation.Corrupts) (hlabels : w.Labels operation) :
    (w.operate operation).1.observers.Nodup ∧ ∃ after,
      (w.operate operation).1.history = some after ∧ h.Evolves operation.Navigates after := by
  cases operation with
  | command command =>
    have hperform := leads_perform hl hnodup hhistory hlabels
    exact ⟨hperform.nodup hnodup, hperform.history⟩
  | openBatch => exact ⟨hnodup, h, hhistory, .of_eq hl rfl rfl⟩
  | closeBatch =>
    have hclose := leads_closeBatch hl hnodup hhistory
    exact ⟨hclose.nodup hnodup, hclose.history⟩
  | call control => exact leads_control hl hnodup hhistory hinit hcorrupt hlabels

/-! Runs. -/

/-- The history is there, keeps its limit, and has texts for its labels. -/
structure Attended (limit : Nat) (w : Workspace ε) : Prop where
  nodup : w.observers.Nodup
  history : ∃ h, w.history = some h ∧ h.limit = limit ∧ h.Labelled

/-- The history has a timeline in bounds. -/
structure InBounds (limit : Nat) (w : Workspace ε) : Prop where
  nodup : w.observers.Nodup
  history : ∃ h t, w.history = some h ∧ h.limit = limit ∧ h.Labelled ∧ h.timeline = some t ∧
    t.Bounded limit

/-- A workspace that is reached by any operations under texts, except that nobody puts entries of
their own into the timeline. -/
def Runs : Workspace ε → Workspace ε → Prop :=
  Relation.ReflTransGen fun w next => ∃ operation : Operation ε, ¬operation.Corrupts ∧
    w.Labels operation ∧ next = (w.operate operation).1

variable {limit : Nat}

/-- Starting over leaves a single entry, or the timeline stays as it is. -/
theorem operate_init (hhistory : w.history = some h) (label : Json) :
    (w.operate (.call (.init label))).1.observers = w.observers ∧ ∃ after,
      (w.operate (.call (.init label))).1.history = some after ∧ after.limit = h.limit ∧
        after.Labelled ∧ ((∃ entry, after.timeline = some (.start entry)) ∨
          after.timeline = h.timeline ∧ (w.operate (.call (.init label))).2 ≠ .ok ()) := by
  rw [operate, control, onHistory, hhistory]
  dsimp only [initHistory, History.init]
  have hempty : ∀ mutation ∈ ([] : List Mutation), mutation.label.IsText :=
    fun _ hmutation => absurd hmutation List.not_mem_nil
  split
  · exact ⟨rfl, _, rfl, rfl, ⟨nofun, hempty⟩, Or.inl ⟨_, rfl⟩⟩
  · exact ⟨rfl, _, rfl, rfl, ⟨nofun, hempty⟩, Or.inr ⟨rfl, nofun⟩⟩

theorem inBounds_of_init (hnodup : w.observers.Nodup) (hhistory : w.history = some h)
    (hlimit : 1 ≤ h.limit) (hinit : w.operate (.call (.init label)) = (next, .ok ())) :
    next.InBounds h.limit := by
  obtain ⟨hobservers, first, hfirst, hsame, hlabelled, htimeline⟩ := operate_init hhistory label
  rw [hinit] at hobservers hfirst htimeline
  refine ⟨hobservers.symm ▸ hnodup, first, ?_⟩
  rcases htimeline with ⟨entry, hentry⟩ | ⟨-, hfailed⟩
  · exact ⟨_, hfirst, hsame, hlabelled, hentry, Timeline.bounded_start hlimit entry⟩
  · exact absurd rfl hfailed

omit [GraphEditor ε] in
theorem eq_init_of_initializes {operation : Operation ε} (hinit : operation.Initializes) :
    ∃ label, operation = .call (.init label) := by
  cases operation with
  | call control =>
    cases control with
    | init label => exact ⟨label, rfl⟩
    | _ => exact absurd hinit not_false
  | _ => exact absurd hinit not_false

theorem Attended.operate (hw : w.Attended limit) {operation : Operation ε}
    (hcorrupt : ¬operation.Corrupts) (hlabels : w.Labels operation) :
    (w.operate operation).1.Attended limit := by
  obtain ⟨h, hhistory, hlimit, hl⟩ := hw.history
  by_cases hinit : operation.Initializes
  · obtain ⟨label, rfl⟩ := eq_init_of_initializes hinit
    obtain ⟨hobservers, after, hafter, hsame, hlabelled, -⟩ := operate_init hhistory label
    exact ⟨hobservers.symm ▸ hw.nodup, after, hafter, hsame.trans hlimit, hlabelled⟩
  · obtain ⟨hnodup, after, hafter, hevolves⟩ :=
      leads_operate hl hw.nodup hhistory hinit hcorrupt hlabels
    exact ⟨hnodup, after, hafter, hevolves.limit.trans hlimit, hevolves.labelled⟩

theorem InBounds.operate (hw : w.InBounds limit) (hlimit : 1 ≤ limit) {operation : Operation ε}
    (hcorrupt : ¬operation.Corrupts) (hlabels : w.Labels operation) :
    (w.operate operation).1.InBounds limit := by
  obtain ⟨h, t, hhistory, rfl, hl, ht, hbounded⟩ := hw.history
  by_cases hinit : operation.Initializes
  · obtain ⟨label, rfl⟩ := eq_init_of_initializes hinit
    obtain ⟨hobservers, after, hafter, hsame, hlabelled, htimeline⟩ := operate_init hhistory label
    refine ⟨hobservers.symm ▸ hw.nodup, after, ?_⟩
    rcases htimeline with ⟨entry, hentry⟩ | ⟨hkept, -⟩
    · exact ⟨_, hafter, hsame, hlabelled, hentry, Timeline.bounded_start hlimit entry⟩
    · exact ⟨t, hafter, hsame, hlabelled, hkept.trans ht, hbounded⟩
  · obtain ⟨hnodup, after, hafter, hevolves⟩ :=
      leads_operate hl hw.nodup hhistory hinit hcorrupt hlabels
    obtain ⟨mid, later, hlater, hsteps, hentries, hcursor, -⟩ := hevolves.timeline t ht hbounded
    have hmid := hbounded.steps hsteps
    refine ⟨hnodup, after, later, hafter, hevolves.limit, hevolves.labelled, hlater,
      ?_, hcursor, ?_⟩
    · rw [hentries]
      exact hmid.length_le
    · rw [hentries]
      exact hmid.distinct

theorem Attended.runs (hw : w.Attended limit) (hrun : Runs w next) : next.Attended limit := by
  induction hrun with
  | refl => exact hw
  | tail _ hstep ih =>
    obtain ⟨operation, hcorrupt, hlabels, rfl⟩ := hstep
    exact ih.operate hcorrupt hlabels

theorem InBounds.runs (hw : w.InBounds limit) (hlimit : 1 ≤ limit) (hrun : Runs w next) :
    next.InBounds limit := by
  induction hrun with
  | refl => exact hw
  | tail _ hstep ih =>
    obtain ⟨operation, hcorrupt, hlabels, rfl⟩ := hstep
    exact ih.operate hlimit hcorrupt hlabels

theorem inBounds_of_runs {settings : Settings} {bound delay : Json}
    (hstart : History.start settings bound delay = .ok h) {editor : ε} {clock : Option Double}
    {before begun : Workspace ε} (hbefore : Runs (start editor (some h) clock) before)
    (hinit : before.operate (.call (.init label)) = (begun, .ok ()))
    (hrun : Runs begun w) : w.InBounds h.limit := by
  have hlimit := History.one_le_limit_of_start hstart
  have hobservers : [Observer.recorder, Observer.history].Nodup := by decide
  have hl : h.Labelled := by
    obtain ⟨limit, -, hempty⟩ := Except.bind_eq_ok.mp hstart
    cases hempty
    exact ⟨nofun, fun _ hmutation => absurd hmutation List.not_mem_nil⟩
  have hfirst : (start editor (some h) clock).Attended h.limit := ⟨hobservers, h, rfl, rfl, hl⟩
  have hattended := hfirst.runs hbefore
  obtain ⟨found, hfound, hsame, -⟩ := hattended.history
  rw [← hsame] at hlimit ⊢
  exact (inBounds_of_init hattended.nodup hfound hlimit hinit).runs hlimit hrun

def edgeOnly : Graph := ⟨[], [⟨"e", "a", "b", none, none, none, none, []⟩]⟩

def replacing (label : String) : Operation Editor :=
  .command fun e => e.replaceGraph edgeOnly (.str label) true

theorem labels_replacing (w : Workspace Editor) (label : String) : w.Labels (replacing label) := by
  intro mutation hmutation
  cases hmutation
  exact ⟨label, rfl⟩

def fresh : Workspace Editor :=
  start (Editor.empty .builtIn ⟨[]⟩ (.str "") 0) (some (History.empty 50 (.int 1))) none

def initial : Operation Editor := .call (.init (.str History.initialLabel))

def freshBegun : Workspace Editor := (fresh.operate initial).1

theorem start_standard :
    History.start .standard (.int 50) (.int 1) = .ok (History.empty 50 (.int 1)) := rfl

theorem operate_initial : fresh.operate initial = (freshBegun, .ok ()) :=
  Prod.ext (by rw [freshBegun]) (Except.eq_ok_of_toOption (by decide +kernel))

def undone : Workspace Editor := ((freshBegun.operate (replacing "Load")).1.operate (.call .undo)).1

end Workspace
end WorkflowStudio
