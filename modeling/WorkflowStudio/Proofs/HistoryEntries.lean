import WorkflowStudio.Proofs.BoundedHistory
import WorkflowStudio.Proofs.SoundEdits

/-!
Histories that can be gone back to: every entry is the stored text of a sound graph, the cursor
points at an entry, and everything that waits to be recorded has a text for its label. Recording
a graph that can be stored does not fail, and the entry at the cursor then holds its text.
-/
namespace WorkflowStudio

namespace Timeline

variable {t : Timeline}

theorem current?_record (h : t.cursor < t.entries.length) (limit : Nat) (entry : HistoryEntry) :
    (t.record limit entry).current? = some entry := (records_record h limit entry).current? h

theorem mem_record {limit : Nat} {entry other : HistoryEntry}
    (h : other ∈ (t.record limit entry).entries) : other ∈ t.entries ∨ other = entry := by
  have hall (hmem : other ∈ t.dropFuture.entries ++ [entry]) :
      other ∈ t.entries ∨ other = entry := by
    rcases List.mem_append.mp hmem with hold | hnew
    · exact Or.inl (List.mem_of_mem_take hold)
    · exact Or.inr (List.mem_singleton.mp hnew)
  unfold record at h
  dsimp only at h
  split at h
  · exact hall (List.mem_of_mem_drop h)
  · exact hall h

theorem lt_of_current? {entry : HistoryEntry} (h : t.current? = some entry) :
    t.cursor < t.entries.length := (List.getElem?_eq_some_iff.mp h).1

end Timeline

/-- The entry holds the stored text of a sound graph. -/
def HistoryEntry.Genuine (entry : HistoryEntry) : Prop :=
  ∃ g : Graph, g.Sound ∧ Record.stored g = .ok entry.snapshot

namespace History

/-- The history is idle, its cursor points at an entry, and every entry can be gone back to. -/
structure Kept (h : History) : Prop extends Labelled h where
  idle : h.mode = .idle
  timeline : ∃ t, h.timeline = some t ∧ t.cursor < t.entries.length ∧
    ∀ entry ∈ t.entries, entry.Genuine

/-- The entry at the cursor holds the text of a graph, if the graph can be stored. -/
def Holds (h : History) (g : Graph) : Prop :=
  ∀ text, Record.stored g = .ok text → h.current?.map (·.snapshot) = some text

variable {h : History} {t : Timeline}

theorem entries_eq (ht : h.timeline = some t) : h.entries = t.entries := by
  rw [entries, ht]
  rfl

theorem current?_eq (ht : h.timeline = some t) : h.current? = t.current? := by
  rw [current?, ht]
  rfl

theorem index_eq (ht : h.timeline = some t) : h.index = t.cursor := by
  rw [index, ht]
  rfl

theorem isApplying_eq_false_iff : h.isApplying = false ↔ h.mode = .idle := by
  rw [isApplying]
  cases h.mode with
  | idle => exact iff_of_true rfl rfl
  | applying => exact iff_of_false nofun nofun

/-- A history that is idle and was initialized collects what it is told. -/
theorem onMutation_of_idle (h : History) (hidle : h.mode = .idle) (ht : h.timeline = some t)
    (mutation : Mutation) : h.onMutation mutation = { h with batch := h.batch ++ [mutation] } := by
  rw [onMutation, isApplying_eq_false_iff.mpr hidle, ht]
  rfl

theorem Kept.current (hk : h.Kept) : ∃ entry, h.current? = some entry ∧ entry.Genuine := by
  obtain ⟨t, ht, hcursor, hgenuine⟩ := hk.timeline
  refine ⟨t.entries[t.cursor], ?_, hgenuine _ (List.getElem_mem hcursor)⟩
  rw [current?, ht]
  exact List.getElem?_eq_getElem hcursor

theorem Kept.isApplying (hk : h.Kept) : h.isApplying = false :=
  isApplying_eq_false_iff.mpr hk.idle

theorem Kept.dropWaiting (hk : h.Kept) : h.dropWaiting.Kept :=
  { hk with toLabelled := hk.toLabelled.dropWaiting }

theorem Kept.withBatch (hk : h.Kept) {batch : List Mutation}
    (hbatch : ∀ mutation ∈ batch, mutation.label.IsText) : Kept { h with batch := batch } :=
  { hk with batch := hbatch }

/-- What recording a text leads to: the entry at the cursor holds it already, or an entry for it
is added. Nothing but the timeline changes. -/
structure Recorded (h : History) (text : String) (next : History) : Prop where
  limit : next.limit = h.limit
  batch : next.batch = h.batch
  debouncer : next.debouncer = h.debouncer
  mode : next.mode = h.mode
  timeline : ∃ t, h.timeline = some t ∧ t.cursor < t.entries.length ∧
    ((t.current?.map (·.snapshot) = some text ∧ next.timeline = some t) ∨
      (t.current?.map (·.snapshot) ≠ some text ∧
        ∃ label, next.timeline = some (t.record h.limit ⟨text, label⟩)))

theorem Recorded.current {text : String} {next : History} (hnext : h.Recorded text next) :
    next.current?.map (·.snapshot) = some text := by
  obtain ⟨t, -, hcursor, ⟨hsame, hkept⟩ | ⟨-, label, hadded⟩⟩ := hnext.timeline
  · rw [current?, hkept]
    exact hsame
  · rw [current?, hadded]
    exact congrArg (Option.map (·.snapshot)) (Timeline.current?_record hcursor _ _)

theorem Recorded.holds {g : Graph} {text : String} {next : History}
    (hnext : h.Recorded text next) (hstored : Record.stored g = .ok text) : next.Holds g := by
  intro other hother
  rw [hstored] at hother
  cases hother
  exact hnext.current

theorem Kept.record (hk : h.Kept) {g : Graph} (hg : g.Sound) {text : String}
    (hstored : Record.stored g = .ok text) {label : Json} (hlabel : label.IsText) :
    ∃ next added, h.record text label = (next, .ok added) ∧ next.Kept ∧ h.Recorded text next := by
  obtain ⟨t, ht, hcursor, hgenuine⟩ := hk.timeline
  have hcurrent : h.current? = t.current? := current?_eq ht
  rcases h.record_of_isText text hlabel with ⟨hsame, hrecord⟩ | ⟨hnew, shown, hrecord⟩
  · rw [hcurrent] at hsame
    exact ⟨h, false, hrecord, hk, rfl, rfl, rfl, rfl, t, ht, hcursor, Or.inl ⟨hsame, ht⟩⟩
  · rw [hcurrent] at hnew
    have hadd : h.add ⟨text, shown⟩ = h.follow (t.record h.limit ⟨text, shown⟩) := by
      rw [add, ht]
    rw [hadd] at hrecord
    refine ⟨h.follow (t.record h.limit ⟨text, shown⟩), true, hrecord, ?_, ?_⟩
    · refine { hk with timeline := ⟨t.record h.limit ⟨text, shown⟩, rfl, ?_, ?_⟩ }
      · exact Timeline.lt_of_current? (Timeline.current?_record hcursor _ _)
      · intro entry hmem
        rcases Timeline.mem_record hmem with hold | rfl
        · exact hgenuine entry hold
        · exact ⟨g, hg, hstored⟩
    · exact ⟨rfl, rfl, rfl, rfl, t, ht, hcursor, Or.inr ⟨hnew, shown, rfl⟩⟩

theorem Kept.onMutation (hk : h.Kept) (mutation : Mutation) :
    h.onMutation mutation = { h with batch := h.batch ++ [mutation] } := by
  obtain ⟨t, ht, -⟩ := hk.timeline
  exact h.onMutation_of_idle hk.idle ht mutation

theorem Kept.schedule (hk : h.Kept) (clock : Option Double) {label : Json}
    (hlabel : label.IsText) :
    (h.schedule clock label).1.Kept ∧ (h.schedule clock label).1.batch = h.batch ∧
      (h.schedule clock label).1.pending = true := by
  refine ⟨⟨hk.toLabelled.schedule clock hlabel, hk.idle, hk.timeline⟩, rfl, ?_⟩
  rw [pending, Debouncer.pending]
  exact congrArg Option.isSome (h.debouncer.waiting_call clock label)

/-- The history starts over with an entry for the graph, if the graph can be stored. -/
theorem init_of_stored {g : Graph} (hg : g.Sound) {text : String}
    (hstored : Record.stored g = .ok text) {label : Json} (hlabel : label.IsText) :
    ∃ next, h.init (.ok text) label = (next, .ok ()) ∧ Kept { next with mode := .idle } ∧
      next.Holds g ∧ next.batch = [] ∧ next.mode = h.mode := by
  obtain ⟨shown, rfl⟩ := hlabel
  have hinit : h.init (.ok text) (.str shown) = ({ h.dropWaiting with
      batch := [], timeline := some (.start ⟨text, shown⟩), chosen := none }, .ok ()) := by
    unfold init
    dsimp only [Except.bind]
    rw [HistoryEntry.of_str]
  refine ⟨_, hinit, ?_, ?_, rfl, rfl⟩
  · refine ⟨⟨nofun, ?_⟩, rfl, _, rfl, Nat.zero_lt_one, fun entry hentry => ?_⟩
    · exact fun mutation hmutation => absurd hmutation List.not_mem_nil
    · rw [List.mem_singleton.mp hentry]
      exact ⟨g, hg, hstored⟩
  · intro other hother
    rw [hstored] at hother
    cases hother
    rfl

end History
end WorkflowStudio
