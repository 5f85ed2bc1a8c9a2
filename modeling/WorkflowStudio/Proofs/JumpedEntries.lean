import WorkflowStudio.Proofs.UndoneEdits

/-!
Going to an entry by its index. A waiting edit is recorded before the index is looked at, so an
index that was chosen before points at the next entry when the oldest one had to go. When nothing
waits, an entry can be gone to exactly when its graph can be read back from its text.
-/
namespace WorkflowStudio

namespace History

variable {h mid : History} {g : Graph} {t : Timeline} {index : Nat} {entry : HistoryEntry}

theorem current?_eq_getElem? (hindex : h.index = index) : h.current? = h.entries[index]? := by
  cases ht : h.timeline with
  | none =>
    rw [History.index, ht, Option.map_none, Option.getD_none] at hindex
    omega
  | some t =>
    rw [index_eq ht, Nat.cast_inj] at hindex
    rw [current?_eq ht, entries_eq ht, ← hindex]
    rfl

/-- The graph is waiting to be recorded, and is not the one at the cursor. -/
structure Awaits (h : History) (g : Graph) (text : String) : Prop where
  pending : h.pending = true
  stored : Record.stored g = .ok text
  differs : h.current?.map (·.snapshot) ≠ some text

/-- There is no room for the graph that is waiting to be recorded. -/
structure Displaces (h : History) (g : Graph) (text : String) : Prop extends Awaits h g text where
  full : (h.limit : Int) ≤ h.index + 1

theorem Flushes.timeline_cases {taken : Bool} (hflushes : h.Flushes g mid (.ok taken))
    (hidle : h.mode = .idle) (ht : h.timeline = some t) :
    mid.timeline = some t ∧ (∀ text, ¬h.Awaits g text) ∨
      ∃ text label, h.Awaits g text ∧ mid.timeline = some (t.record h.limit ⟨text, label⟩) := by
  generalize hresult : Except.ok taken = result at hflushes
  cases hflushes with
  | still hpending =>
    refine Or.inl ⟨ht, fun text hawaits => ?_⟩
    rw [hawaits.pending] at hpending
    cases hpending
  | taken hpending htakes =>
    cases htakes with
    | deaf happlying => exact absurd happlying (not_applying hidle)
    | unwritable => cases hresult
    | @recorded text _ _ _ hstored hrecorded =>
      obtain ⟨found, hfound, -, hcases⟩ := hrecorded.timeline
      cases hfound.symm.trans ht
      rw [← current?_eq ht] at hcases
      rcases hcases with ⟨hheld, hkept⟩ | ⟨hdiffers, label, hadded⟩
      · refine Or.inl ⟨hkept, fun other hawaits => ?_⟩
        cases hstored.symm.trans hawaits.stored
        exact hawaits.differs hheld
      · exact Or.inr ⟨text, label, ⟨hpending, hstored, hdiffers⟩, hadded⟩

/-- Once a waiting edit was recorded, an index up to the cursor points at the entry that it has
pointed at, or at the one after it when the oldest entry was dropped. -/
theorem Flushes.getElem?_entries {taken : Bool} (hflushes : h.Flushes g mid (.ok taken))
    (hidle : h.mode = .idle) (ht : h.timeline = some t) (hbounded : t.Bounded h.limit)
    (hindex : index ≤ t.cursor) (hentry : h.entries[index]? = some entry) :
    mid.entries[index]? = some entry ∧ (∀ text, ¬h.Displaces g text) ∨
      ∃ text later, h.Displaces g text ∧ mid.entries[index]? = some later ∧
        (h.entries.map (·.snapshot) ++ [text])[index + 1]? = some later.snapshot ∧
          entry.snapshot ≠ later.snapshot := by
  rw [entries_eq ht] at hentry ⊢
  rcases hflushes.timeline_cases hidle ht with ⟨hkept, hnone⟩ | ⟨text, label, hawaits, hadded⟩
  · rw [entries_eq hkept]
    exact Or.inl ⟨hentry, fun text hdisplaces => hnone text hdisplaces.toAwaits⟩
  · rw [entries_eq hadded]
    have hdiffers : t.current?.map (·.snapshot) ≠ some text := current?_eq ht ▸ hawaits.differs
    have hrecords := Timeline.records_record hbounded.cursor_lt h.limit ⟨text, label⟩
    by_cases hfull : h.limit ≤ t.cursor + 1
    · obtain ⟨old, later, hold, hlater, hnext, hne⟩ :=
        hbounded.getElem?_of_full hdiffers hrecords hfull hindex
      cases hold.symm.trans hentry
      refine Or.inr ⟨text, later, ⟨hawaits, ?_⟩, hlater, ?_, hne⟩
      · rw [index_eq ht]
        exact_mod_cast hfull
      · have hmapped := congrArg (Option.map (·.snapshot)) hnext
        rw [← List.getElem?_map, List.map_append, List.map_singleton] at hmapped
        exact hmapped
    · refine Or.inl ⟨(hbounded.getElem?_of_room hrecords (by omega) hindex).trans hentry, ?_⟩
      intro other hdisplaces
      have hroom := hdisplaces.full
      rw [index_eq ht] at hroom
      omega

end History

namespace Workspace

variable {w next first start : Workspace Editor} {h before mid : History} {label : Json}
  {t : Timeline} {index : Nat} {entry : HistoryEntry}

/-! Going to an index. -/

theorem jump_eq {taken : Bool} (hhistory : w.history = some h)
    (hflush : w.flush h = (w.told mid w.notices, .ok taken)) (index : Nat) :
    w.control (.jump (.int index)) = flag (if index < mid.entries.length
      then (w.told mid w.notices).applyEntry mid index none
      else (w.told mid w.notices, .ok false)) := by
  have hchoose : mid.choose (.int index) =
      .ok (if index < mid.entries.length then some (index, none) else none) := by
    have hwhole : mid.choose (.int index) =
        .ok (if (index : Int) < 0 ∨ (mid.entries.length : Int) ≤ index then none
          else some ((index : Int).toNat, none)) := rfl
    rw [hwhole]
    by_cases hlt : index < mid.entries.length
    · rw [if_neg (by omega), if_pos hlt, Int.toNat_natCast]
    · rw [if_pos (by omega), if_neg hlt]
  rw [Workspace.control, onHistory, hhistory]
  dsimp only
  rw [Workspace.jump, navigate_eq hflush, hchoose]
  by_cases hlt : index < mid.entries.length
  · rw [if_pos hlt, if_pos hlt]
  · rw [if_neg hlt, if_neg hlt]

theorem jump_flushed {flushed : Except Fault Bool} (hhistory : w.history = some h)
    (hflush : w.flush h = (w.told mid w.notices, flushed)) {answer : Bool}
    (hjump : w.control (.jump (.int index)) = (next, .ok (.bool answer))) :
    ∃ taken, flushed = .ok taken := by
  cases flushed with
  | ok taken => exact ⟨taken, rfl⟩
  | error fault =>
    rw [Workspace.control, onHistory, hhistory] at hjump
    dsimp only at hjump
    rw [Workspace.jump, navigate, hflush] at hjump
    cases hjump

/-- The entry that an index points at once a waiting edit was recorded can be gone to if and only
if the graph that it was recorded from can be read from its text and has finite positions. -/
theorem Watched.jump_of_entry {taken : Bool} (hmid : (w.told mid w.notices).Watched mid)
    (hhistory : w.history = some h) (hflush : w.flush h = (w.told mid w.notices, .ok taken))
    (hentry : mid.entries[index]? = some entry) :
    ∃ next answer, w.control (.jump (.int index)) = (next, .ok (.bool answer)) ∧
      (answer = true → GraphEditor.snapshot next.editor = .ok entry.snapshot) ∧
        (answer = false → next = w.told mid w.notices) ∧ ∀ g : Graph, g.Sound →
          Record.stored g = .ok entry.snapshot → (answer = true ↔ g.Readable ∧ g.Placed) := by
  have hjump := jump_eq hhistory hflush index
  rw [if_pos (List.getElem?_eq_some_iff.mp hentry).1] at hjump
  have hiff {g : Graph} (hg : g.Sound) (hstored : Record.stored g = .ok entry.snapshot) :=
    hmid.applyEntry_iff_placed hentry hg hstored
  have hgone := hmid.applyEntry index none
  generalize (w.told mid w.notices).applyEntry mid index none = step at hjump hiff hgone
  obtain ⟨next, result⟩ := step
  rcases hgone with hsame | ⟨hresult, after, happlies⟩
  · cases hsame
    refine ⟨_, false, hjump, fun hyes => absurd hyes Bool.false_ne_true, fun _ => rfl, ?_⟩
    intro g hg hstored
    rw [← hiff hg hstored]
    exact iff_of_false Bool.false_ne_true fun hsame => (by cases hsame)
  · have hresult : result = .ok true := hresult
    subst hresult
    refine ⟨next, true, hjump, fun _ => happlies.snapshot hentry, ?_, fun g hg hstored => ?_⟩
    · exact fun hno => absurd hno.symm Bool.false_ne_true
    · rw [← hiff hg hstored]
      exact iff_of_true rfl rfl

/-- When nothing waits, going to an entry succeeds exactly when the graph that it was recorded
from can be read from its text and has finite positions. Then the editor has that text, and
otherwise nothing happens. -/
theorem jump_iff_readable (hfirst : first.Observed) (hhistory : first.history = some h)
    (hidle : h.mode = .idle) (hlabel : label.IsText)
    (hinit : first.respond (.call (.init label)) = (start, .ok ()))
    (hrun : Reaches Calm start w) (hbefore : w.history = some before)
    (hpending : before.pending = false) (hentry : before.entries[index]? = some entry) :
    entry.Genuine ∧ ∃ next answer, w.control (.jump (.int index)) = (next, .ok (.bool answer)) ∧
      (answer = true → GraphEditor.snapshot next.editor = .ok entry.snapshot) ∧
        (answer = false → next = w) ∧ ∀ g : Graph, g.Sound →
          Record.stored g = .ok entry.snapshot → (answer = true ↔ g.Readable ∧ g.Placed) := by
  have hw := watched_of_init hfirst hhistory hidle hlabel hinit hrun hbefore
  constructor
  · obtain ⟨t, ht, -, hgenuine⟩ := hw.sound.timeline
    have ht : before.timeline = some t := ht
    rw [History.entries_eq ht] at hentry
    exact hgenuine entry (List.mem_of_getElem? hentry)
  · have hsame := hw.told_eq
    have hjump := Watched.jump_of_entry (hsame.symm ▸ hw) hbefore
      (hw.flush_of_not_pending hpending) hentry
    rwa [hsame] at hjump

/-! A node whose position is not a number is recorded, but its entry cannot be gone to. -/

def placing (position : Position) : Event := .edit (.addNode (.plain "s" .start position))

theorem sound_placed (position : Position) : (Node.plain "s" .start position).Sound :=
  Node.sound_plain (by decide) (rfl : Text.isBroken "s" = false) _ position

def unplacedGraph : Graph := ⟨[.plain "s" .start ⟨.nan, .zero false⟩], []⟩

theorem sound_unplacedGraph : unplacedGraph.Sound :=
  ⟨List.forall_mem_singleton.mpr (sound_placed _), fun _ he => absurd he List.not_mem_nil⟩

/-- Going to the entry of the added node does nothing. -/
theorem jump_unplaced : ∃ unplaced before entry,
    unplaced = (begun.respond (placing ⟨.nan, .zero false⟩)).1 ∧
      unplaced.history = some before ∧ before.entries[1]? = some entry ∧
        unplaced.control (.jump (.int 1)) = (unplaced, .ok (.bool false)) := by
  have hall : (Record.checkText unplacedGraph).toOption = some () ∧
      ((begun.respond (placing ⟨.nan, .zero false⟩)).1.history.map fun before =>
        (before.pending, before.entries[1]?.map (·.snapshot))) =
          some (false, some unplacedGraph.snapshot) := by decide +kernel
  generalize hadded : (begun.respond (placing ⟨.nan, .zero false⟩)).1 = unplaced at hall ⊢
  obtain ⟨hcheck, hstate⟩ := hall
  obtain ⟨before, hbefore, hstate⟩ := Option.map_eq_some_iff.mp hstate
  obtain ⟨hpending, hheld⟩ := Prod.mk.inj hstate
  obtain ⟨entry, hentry, hsnapshot⟩ := Option.map_eq_some_iff.mp hheld
  have hstored : Record.stored unplacedGraph = .ok entry.snapshot := by
    rw [hsnapshot, Record.stored, Except.eq_ok_of_toOption hcheck]
    rfl
  have hplaced : ¬unplacedGraph.Placed := by
    rw [Graph.Placed, unplacedGraph, List.forall_mem_singleton]
    exact Bool.false_ne_true
  have hrun : Reaches Calm begun unplaced := .single ⟨placing _, sound_placed _, hadded.symm⟩
  obtain ⟨-, next, answer, hjump, -, hkept, hiff⟩ := jump_iff_readable observed_fresh rfl rfl
    isText_initialLabel respond_fresh hrun hbefore hpending hentry
  have hanswer : answer = false := by
    rw [← Bool.not_eq_true, hiff _ sound_unplacedGraph hstored]
    exact fun hboth => hplaced hboth.2
  rw [hkept hanswer, hanswer] at hjump
  exact ⟨unplaced, before, entry, rfl, hbefore, hentry, hjump⟩

/-- Going to the entry at the cursor succeeds when the waiting graph that displaces the oldest
entry can be read from its text and has finite positions. -/
theorem jump_of_displaces (hw : w.Watched before) (hdepth : w.depth = 0)
    (ht : before.timeline = some t) (hbounded : t.Bounded before.limit)
    (hindex : before.index = index) {text : String}
    (hdisplaces : before.Displaces w.editor.graph text) (hreadable : w.editor.graph.Readable)
    (hplaced : w.editor.graph.Placed) :
    ∃ next, w.control (.jump (.int index)) = (next, .ok (.bool true)) := by
  obtain ⟨hidle, -⟩ := hw.closed hdepth
  have hcursor : index = t.cursor := by
    rw [History.index_eq ht] at hindex
    exact_mod_cast hindex.symm
  have hlast : before.entries.length = index + 1 := by
    have hfull := hdisplaces.full
    have hle := hbounded.length_le
    have hlt := hbounded.cursor_lt
    rw [History.entries_eq ht]
    omega
  obtain ⟨mid, flushed, hflush, hmid, hflushes⟩ := hw.flush_eq
  obtain ⟨taken, rfl⟩ := hflushes.eq_ok hdisplaces.stored
  have hinside : index < before.entries.length := by omega
  have hentry := List.getElem?_eq_getElem hinside
  rcases hflushes.getElem?_entries hidle ht hbounded hcursor.le hentry with
    ⟨-, hnone⟩ | ⟨other, later, hother, hlater, hnext, -⟩
  · exact absurd hdisplaces (hnone text)
  · have hlength : (before.entries.map (·.snapshot)).length = index + 1 := by
      rw [List.length_map, hlast]
    rw [← hlength, List.getElem?_concat_length] at hnext
    obtain ⟨next, answer, hjump, -, -, hiff⟩ := hmid.jump_of_entry hw.history hflush hlater
    have hanswer : answer = true := by
      refine (hiff _ hw.graph ?_).mpr ⟨hreadable, hplaced⟩
      rw [hother.stored, Option.some.inj hnext]
    exact ⟨next, hanswer ▸ hjump⟩

/-- When going to an index up to the cursor succeeds, it leads to the graph of the entry that the
index has pointed at, unless a waiting edit displaces the oldest entry. Then it leads to the graph
of the entry after that one. -/
theorem snapshot_jump_iff (hfirst : first.Observed) (hhistory : first.history = some h)
    (hidle : h.mode = .idle) (hlimit : 1 ≤ h.limit) (hlabel : label.IsText)
    (hinit : first.respond (.call (.init label)) = (start, .ok ()))
    (hrun : Reaches Calm start w) (hdepth : w.depth = 0) (hbefore : w.history = some before)
    (hindex : (index : Int) ≤ before.index) (hentry : before.entries[index]? = some entry)
    (hjump : w.control (.jump (.int index)) = (next, .ok (.bool true))) :
    (GraphEditor.snapshot next.editor = .ok entry.snapshot ↔
        ∀ text, ¬before.Displaces w.editor.graph text) ∧
      ∀ text, before.Displaces w.editor.graph text →
        ∃ shown, (before.entries.map (·.snapshot) ++ [text])[index + 1]? = some shown ∧
          GraphEditor.snapshot next.editor = .ok shown := by
  have hw := watched_of_init hfirst hhistory hidle hlabel hinit hrun hbefore
  obtain ⟨-, t, ht, hbounded⟩ :=
    bounded_of_init hfirst hhistory hidle hlimit hlabel hinit hrun hbefore
  obtain ⟨hclosed, -⟩ := hw.closed hdepth
  have hcursor : index ≤ t.cursor := by
    rw [History.index_eq ht] at hindex
    exact_mod_cast hindex
  obtain ⟨mid, flushed, hflush, hmid, hflushes⟩ := hw.flush_eq
  obtain ⟨taken, rfl⟩ := jump_flushed hw.history hflush hjump
  -- The snapshot afterwards is the one of the entry that the index points at after the flush.
  have hshown {found : HistoryEntry} (hfound : mid.entries[index]? = some found) :
      GraphEditor.snapshot next.editor = .ok found.snapshot := by
    obtain ⟨after, answer, hcalled, hsnapshot, -⟩ := hmid.jump_of_entry hbefore hflush hfound
    rw [hjump] at hcalled
    cases hcalled
    exact hsnapshot rfl
  rcases hflushes.getElem?_entries hclosed ht hbounded hcursor hentry with
    ⟨hkept, hnone⟩ | ⟨text, later, hdisplaces, hlater, hnext, hne⟩
  · exact ⟨iff_of_true (hshown hkept) hnone, fun text hdisplaces => absurd hdisplaces (hnone text)⟩
  · have hshown := hshown hlater
    constructor
    · refine iff_of_false (fun hsame => ?_) (fun hnone => hnone text hdisplaces)
      exact hne (Except.ok.inj (hsame.symm.trans hshown))
    · intro other hother
      cases hdisplaces.stored.symm.trans hother.stored
      exact ⟨later.snapshot, hnext, hshown⟩

/-! A node is moved when there is no room for another entry. -/

def narrow : Workspace Editor :=
  Workspace.start (Editor.empty .builtIn ⟨[]⟩ (.str "") 0) (some (History.empty 2 (.int 1))) none

def narrowBegun : Workspace Editor :=
  (narrow.respond (.call (.init (.str History.initialLabel)))).1

def moving : Event := .edit (.moveNode "s" (.int 1) (.int 0))

def movedGraph : Graph := ⟨[.plain "s" .start (.ofInts 1 0)], []⟩

theorem readable_movedGraph : movedGraph.Readable :=
  ⟨Option.isNone_iff_eq_none.mp (by decide +kernel), by decide +kernel⟩

theorem observed_narrow : narrow.Observed where
  nodup := by decide
  observed := by decide
  graph := observed_fresh.graph

/-- Going to the second entry leads to the moved node, which that entry does not have. -/
theorem snapshot_jump_moved : ∃ moved before entry next,
    moved = ((narrowBegun.respond (placing .origin)).1.respond moving).1 ∧
      moved.history = some before ∧ before.index = 1 ∧ before.entries[1]? = some entry ∧
        moved.control (.jump (.int 1)) = (next, .ok (.bool true)) ∧
          GraphEditor.snapshot next.editor ≠ .ok entry.snapshot := by
  have hbegin : (narrow.respond (.call (.init (.str History.initialLabel)))).2.toOption =
      some () := by decide +kernel
  have hall : (((narrowBegun.respond (placing .origin)).1.respond moving).1.depth = 0 ∧
      ((narrowBegun.respond (placing .origin)).1.respond moving).1.editor.graph = movedGraph) ∧
        (((narrowBegun.respond (placing .origin)).1.respond moving).1.history.map fun before =>
          (before.pending, before.limit, before.index,
            before.current?.map (decide <| ·.snapshot = movedGraph.snapshot))) =
              some (true, 2, 1, some false) := by decide +kernel
  generalize hmoved : ((narrowBegun.respond (placing .origin)).1.respond moving).1 = moved
    at hall ⊢
  obtain ⟨⟨hdepth, hgraph⟩, hstate⟩ := hall
  obtain ⟨before, hbefore, hstate⟩ := Option.map_eq_some_iff.mp hstate
  simp only [Prod.mk.injEq] at hstate
  obtain ⟨hpending, hlimit, hindex, hdiffers⟩ := hstate
  obtain ⟨entry, hcurrent, hother⟩ := Option.map_eq_some_iff.mp hdiffers
  have hentry : before.entries[1]? = some entry :=
    (History.current?_eq_getElem? hindex).symm.trans hcurrent
  have hinit := Except.prod_eq_of_toOption hbegin
  have hrun : Reaches Calm narrowBegun moved :=
    (Relation.ReflTransGen.single ⟨placing _, sound_placed _, rfl⟩).tail
      ⟨moving, trivial, hmoved.symm⟩
  have hdisplaces : before.Displaces moved.editor.graph movedGraph.snapshot := by
    refine ⟨⟨hpending, ?_, ?_⟩, ?_⟩
    · rw [hgraph, Record.stored, readable_movedGraph.checkText_eq_ok]
      rfl
    · rw [hcurrent]
      exact fun heq => of_decide_eq_false hother (Option.some.inj heq)
    · rw [hlimit, hindex]
      rfl
  have hw := watched_of_init observed_narrow rfl rfl isText_initialLabel hinit hrun hbefore
  obtain ⟨-, t, ht, hbounded⟩ := bounded_of_init observed_narrow rfl rfl (by decide)
    isText_initialLabel hinit hrun hbefore
  obtain ⟨next, hjump⟩ := jump_of_displaces hw hdepth ht hbounded hindex hdisplaces
    (hgraph ▸ readable_movedGraph) (hgraph ▸ List.forall_mem_singleton.mpr rfl)
  obtain ⟨hiff, -⟩ := snapshot_jump_iff observed_narrow rfl rfl (by decide) isText_initialLabel
    hinit hrun hdepth hbefore hindex.ge hentry hjump
  exact ⟨moved, before, entry, next, rfl, hbefore, hindex, hentry, hjump,
    fun hsame => hiff.mp hsame _ hdisplaces⟩

end Workspace
end WorkflowStudio
