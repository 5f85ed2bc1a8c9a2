import Mathlib.Data.List.Chain
import Mathlib.Logic.Relation
import WorkflowStudio.History.Timeline

/-!
Timelines in bounds. Recording drops the entries after the cursor, appends one entry and, when
there are too many, drops the oldest one. The entries stay in number under the limit, the cursor
points at one of them, and no entry holds the graph of the one before it.
-/
namespace WorkflowStudio.Timeline

variable {limit : Nat} {entry : HistoryEntry} {t next : Timeline}

/-- The entries up to the cursor and a new one after them. -/
def grown (t : Timeline) (entry : HistoryEntry) : List HistoryEntry :=
  t.entries.take (t.cursor + 1) ++ [entry]

/-- What recording an entry has to lead to. -/
structure Records (limit : Nat) (entry : HistoryEntry) (t next : Timeline) : Prop where
  entries : next.entries =
    if limit < (t.grown entry).length then (t.grown entry).tail else t.grown entry
  cursor : next.cursor + 1 = next.entries.length

structure Bounded (limit : Nat) (t : Timeline) : Prop where
  length_le : t.entries.length ≤ limit
  cursor_lt : t.cursor < t.entries.length
  distinct : t.entries.IsChain fun a b => a.snapshot ≠ b.snapshot

theorem length_grown (h : t.cursor < t.entries.length) (entry : HistoryEntry) :
    (t.grown entry).length = t.cursor + 2 := by
  rw [grown, List.length_append, List.length_take, List.length_singleton]
  omega

theorem records_record (h : t.cursor < t.entries.length) (limit : Nat) (entry : HistoryEntry) :
    t.Records limit entry (t.record limit entry) := by
  have hlength := length_grown h entry
  have hrecord : t.record limit entry = if limit < (t.grown entry).length
      then ⟨(t.grown entry).drop 1, t.cursor⟩ else ⟨t.grown entry, t.cursor + 1⟩ := rfl
  by_cases hfull : limit < (t.grown entry).length
  · rw [if_pos hfull] at hrecord
    constructor
    · rw [hrecord, if_pos hfull, List.drop_one]
    · rw [hrecord, List.length_drop, hlength]
      rfl
  · rw [if_neg hfull] at hrecord
    constructor
    · rw [hrecord, if_neg hfull]
    · rw [hrecord, hlength]

theorem Records.length_eq (h : t.Records limit entry next) (hcursor : t.cursor < t.entries.length) :
    next.entries.length = if limit < t.cursor + 2 then t.cursor + 1 else t.cursor + 2 := by
  rw [h.entries, ← length_grown hcursor entry]
  split
  · rw [List.length_tail, length_grown hcursor]
    rfl
  · rfl

theorem Records.current? (h : t.Records limit entry next) (hcursor : t.cursor < t.entries.length) :
    next.current? = some entry := by
  have hlast : next.current? = next.entries.getLast? := by
    rw [List.getLast?_eq_getElem?, ← h.cursor, Nat.add_sub_cancel, Timeline.current?]
  have hgrown : (t.grown entry).getLast? = some entry := List.getLast?_concat
  have hlength := length_grown hcursor entry
  rw [hlast, h.entries]
  split
  · rw [List.getLast?_tail, if_neg (by omega), hgrown]
  · exact hgrown

theorem getElem?_grown (hcursor : t.cursor < t.entries.length) (entry : HistoryEntry) {index : Nat}
    (hindex : index ≤ t.cursor) : (t.grown entry)[index]? = t.entries[index]? := by
  have htake : index < (t.entries.take (t.cursor + 1)).length := by
    rw [List.length_take]
    omega
  rw [grown, List.getElem?_append_left htake, List.getElem?_take_of_lt (Nat.lt_succ_of_le hindex)]

/-- The entry that was at the cursor stands right before the recorded one, also when the oldest
entry was dropped. -/
theorem Records.previous (h : t.Records limit entry next) (hcursor : t.cursor < t.entries.length)
    (hlimit : 2 ≤ limit) : 0 < next.cursor ∧ next.entries[next.cursor - 1]? = t.current? := by
  have hold : (t.grown entry)[t.cursor]? = t.current? := getElem?_grown hcursor entry le_rfl
  have hentries := h.entries
  have hlast := h.cursor
  have hlength := h.length_eq hcursor
  rw [length_grown hcursor] at hentries
  by_cases hfull : limit < t.cursor + 2
  · rw [if_pos hfull] at hentries hlength
    have hsame : next.cursor = t.cursor := by omega
    have hbefore : t.cursor - 1 + 1 = t.cursor := by omega
    refine ⟨by omega, ?_⟩
    rw [hentries, hsame, List.getElem?_tail, hbefore, hold]
  · rw [if_neg hfull] at hentries hlength
    have hnext : next.cursor = t.cursor + 1 := by omega
    refine ⟨by omega, ?_⟩
    rw [hentries, hnext, Nat.add_sub_cancel, hold]

theorem bounded_start (h : 1 ≤ limit) (entry : HistoryEntry) : (start entry).Bounded limit :=
  ⟨h, Nat.zero_lt_one, List.isChain_singleton entry⟩

namespace Bounded

theorem isChain_grown (ht : t.Bounded limit)
    (hnew : t.current?.map (·.snapshot) ≠ some entry.snapshot) :
    (t.grown entry).IsChain fun a b => a.snapshot ≠ b.snapshot := by
  refine (ht.distinct.take _).append (List.isChain_singleton entry) fun last hlast new hhead => ?_
  have hcurrent : t.current? = some last := by
    rw [List.getLast?_take] at hlast
    simpa [current?, List.getElem?_eq_getElem ht.cursor_lt] using hlast
  rw [List.head?_singleton, Option.mem_some_iff] at hhead
  intro hsame
  rw [hcurrent, hhead, Option.map_some, hsame] at hnew
  exact hnew rfl

theorem records (ht : t.Bounded limit)
    (hnew : t.current?.map (·.snapshot) ≠ some entry.snapshot) (h : t.Records limit entry next) :
    next.Bounded limit := by
  have hlength := h.length_eq ht.cursor_lt
  have hcursor := h.cursor
  have hle := ht.length_le
  have hlt := ht.cursor_lt
  refine ⟨?_, by omega, ?_⟩
  · split at hlength <;> omega
  · have hgrown := ht.isChain_grown hnew
    rw [h.entries]
    split
    · exact hgrown.tail
    · exact hgrown

/-- As long as there is room, recording leaves the entries up to the cursor where they are. -/
theorem getElem?_of_room (ht : t.Bounded limit) (h : t.Records limit entry next)
    (hroom : t.cursor + 1 < limit) {index : Nat} (hindex : index ≤ t.cursor) :
    next.entries[index]? = t.entries[index]? := by
  have hfits : ¬limit < (t.grown entry).length := by
    rw [length_grown ht.cursor_lt]
    omega
  rw [h.entries, if_neg hfits, getElem?_grown ht.cursor_lt entry hindex]

/-- When the cursor is at the last entry that there is room for, recording moves every entry down
by one place. The place of an entry then holds the one after it, and so another text. -/
theorem getElem?_of_full (ht : t.Bounded limit)
    (hnew : t.current?.map (·.snapshot) ≠ some entry.snapshot) (h : t.Records limit entry next)
    (hfull : limit ≤ t.cursor + 1) {index : Nat} (hindex : index ≤ t.cursor) :
    ∃ old later, t.entries[index]? = some old ∧ next.entries[index]? = some later ∧
      (t.entries ++ [entry])[index + 1]? = some later ∧ old.snapshot ≠ later.snapshot := by
  have hlt := ht.cursor_lt
  have hle := ht.length_le
  have hlength := length_grown hlt entry
  have hinside : index + 1 < (t.grown entry).length := by omega
  have hall : t.grown entry = t.entries ++ [entry] := by
    rw [grown, List.take_of_length_le (by omega)]
  have hdistinct := List.isChain_iff_getElem.mp (ht.isChain_grown hnew) index hinside
  refine ⟨_, _, ?_, ?_, hall ▸ List.getElem?_eq_getElem hinside, hdistinct⟩
  · rw [← getElem?_grown hlt entry hindex]
    exact List.getElem?_eq_getElem _
  · rw [h.entries, if_pos (by omega), List.getElem?_tail]
    exact List.getElem?_eq_getElem hinside

theorem ne_previous (ht : t.Bounded limit) (hpos : 0 < t.cursor) {previous : HistoryEntry}
    (hprevious : t.entries[t.cursor - 1]? = some previous) :
    t.current?.map (·.snapshot) ≠ some previous.snapshot := by
  obtain ⟨hlt, rfl⟩ := List.getElem?_eq_some_iff.mp hprevious
  have hnext : t.cursor - 1 + 1 = t.cursor := by omega
  have hne := List.isChain_iff_getElem.mp ht.distinct (t.cursor - 1) (hnext ▸ ht.cursor_lt)
  rw [current?, List.getElem?_eq_getElem ht.cursor_lt]
  intro hsame
  refine hne ?_
  simp only [hnext]
  exact (Option.some.inj hsame).symm

end Bounded

/-- What happens to a timeline in one step: a graph that differs from the one at the cursor is
recorded. -/
inductive Step (limit : Nat) (t next : Timeline) : Prop
  | record {entry : HistoryEntry} (hnew : t.current?.map (·.snapshot) ≠ some entry.snapshot)
      (hrecords : t.Records limit entry next) : Step limit t next

/-- Any number of steps. -/
abbrev Steps (limit : Nat) : Timeline → Timeline → Prop := Relation.ReflTransGen (Step limit)

theorem Bounded.steps (ht : t.Bounded limit) (h : Steps limit t next) : next.Bounded limit := by
  induction h with
  | refl => exact ht
  | tail _ hstep ih =>
    cases hstep with
    | record hnew hrecords => exact ih.records hnew hrecords

end WorkflowStudio.Timeline
