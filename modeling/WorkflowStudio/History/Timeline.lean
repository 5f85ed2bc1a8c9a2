import WorkflowStudio.Reading.Record

/-!
The timeline of a history: entries in the order they were recorded and a cursor
that points at one of them. Recording drops the entries after the cursor and
keeps the number of entries in bounds by dropping the oldest one.
-/
namespace WorkflowStudio

/-- A recorded graph as stored text, with the label of the change that led to it. -/
structure HistoryEntry where
  snapshot : String
  label : String
deriving DecidableEq

namespace HistoryEntry

def read : Json → Checked HistoryEntry :=
  Json.asRecord fun fs =>
    mk <$> fs.required ["snapshot"] Json.asText <*> fs.required ["label"] Json.asText

def write (nulls : Nulls) (entry : HistoryEntry) : Json :=
  writeRecord nulls [Entry.text "snapshot" entry.snapshot, Entry.text "label" entry.label]

instance : Record HistoryEntry where
  title := "HistoryItem"
  read _ := read
  write := write
  parts entry := [.str entry.snapshot, .str entry.label]

/-- The entry for two values of unknown kind. -/
def of (snapshot label : Json) : Except Fault HistoryEntry :=
  (read (.obj [("snapshot", snapshot), ("label", label)])).orFault (Record.title HistoryEntry)

end HistoryEntry

structure Timeline where
  entries : List HistoryEntry
  cursor : Nat
deriving DecidableEq

namespace Timeline

def start (entry : HistoryEntry) : Timeline := ⟨[entry], 0⟩

def current? (t : Timeline) : Option HistoryEntry := t.entries[t.cursor]?

def canUndo (t : Timeline) : Bool := 0 < t.cursor

def canRedo (t : Timeline) : Bool := t.cursor + 1 < t.entries.length

/-- Drops the entries after the cursor. -/
def dropFuture (t : Timeline) : Timeline := { t with entries := t.entries.take (t.cursor + 1) }

/-- Adds an entry after the cursor and points at it. -/
def record (t : Timeline) (limit : Nat) (entry : HistoryEntry) : Timeline :=
  let entries := t.dropFuture.entries ++ [entry]
  if limit < entries.length then ⟨entries.drop 1, t.cursor⟩ else ⟨entries, t.cursor + 1⟩

def moveTo (t : Timeline) (index : Nat) : Timeline := { t with cursor := index }

def replaceAt (t : Timeline) (index : Nat) (entry : HistoryEntry) : Timeline :=
  { t with entries := t.entries.set index entry }

/-- The index of a position that is counted from the end when it is negative. -/
def index? (t : Timeline) (position : Int) : Option Nat :=
  let index := if position < 0 then position + t.entries.length else position
  if 0 ≤ index ∧ index < t.entries.length then some index.toNat else none

end Timeline
end WorkflowStudio
