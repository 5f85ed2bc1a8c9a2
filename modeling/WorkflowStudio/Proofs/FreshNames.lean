import Mathlib.Data.List.Nodup
import Mathlib.Data.List.Perm.Subperm
import Mathlib.Data.Nat.Find
import Mathlib.Order.Bounds.Basic
import WorkflowStudio.Editing.Editor

/-!
Fresh ids. Suffixes are told apart by their numbers, so the base and its first suffixes are more
names than a list of taken names can hold, and one of them is free. The search goes from one
name to the next without a bound of its own. It ends at the first free one, which is never farther
than there are taken names.
-/
namespace WorkflowStudio
namespace Numbering

variable {base : String} {taken : List String}

theorem toString_injective : Function.Injective (toString : Nat → String) := by
  intro a b h
  have hdigits : Nat.toDigits 10 a = Nat.toDigits 10 b := by
    simpa only [Nat.toString_eq_repr, Nat.toList_repr] using congrArg String.toList h
  simpa using congrArg (fun digits => Nat.ofDigitChars 10 digits 0) hdigits

theorem withSuffix_injective (base : String) : Function.Injective (withSuffix base) := by
  intro a b h
  have hlists := congrArg String.toList h
  simp only [withSuffix, String.toList_append, List.append_assoc] at hlists
  have hnumbers := List.append_cancel_left (List.append_cancel_left hlists)
  exact toString_injective (String.toList_inj.mp hnumbers)

theorem withSuffix_ne_base (base : String) (k : Nat) : withSuffix base k ≠ base := by
  intro h
  have hlength := congrArg (fun s => s.toList.length) h
  have hdash : "-".toList.length = 1 := rfl
  simp only [withSuffix, String.toList_append, List.length_append] at hlength
  omega

/-! The first free suffix. -/

/-- The suffixes, counted from one, that give a free name. -/
def freeSuffixes (base : String) (taken : List String) : Set Nat :=
  {k | 1 ≤ k ∧ withSuffix base k ∉ taken}

/-- The base and its first suffixes are one name more than there are taken ones. -/
theorem exists_free_suffix (hbase : base ∈ taken) :
    ∃ k ∈ freeSuffixes base taken, k ≤ taken.length := by
  by_contra hnone
  have htaken : ∀ k, 1 ≤ k → k ≤ taken.length → withSuffix base k ∈ taken := by
    intro k hpos hle
    by_contra hfree
    exact hnone ⟨k, ⟨hpos, hfree⟩, hle⟩
  let names := base :: (List.range' 1 taken.length).map (withSuffix base)
  have hnodup : names.Nodup := by
    refine List.nodup_cons.mpr ⟨?_, List.Nodup.map (withSuffix_injective base) List.nodup_range'⟩
    intro h
    obtain ⟨k, -, hk⟩ := List.mem_map.mp h
    exact withSuffix_ne_base base k hk
  have hsubset : names ⊆ taken := by
    intro name hname
    rcases List.mem_cons.mp hname with rfl | hname
    · exact hbase
    · obtain ⟨k, hk, rfl⟩ := List.mem_map.mp hname
      have hbounds := List.mem_range'_1.mp hk
      exact htaken k hbounds.1 (by omega)
  have hlength := (hnodup.subperm hsubset).length_le
  simp only [names, List.length_cons, List.length_map, List.length_range'] at hlength
  omega

theorem exists_least_free (hbase : base ∈ taken) :
    ∃ k ≤ taken.length, IsLeast (freeSuffixes base taken) k := by
  classical
  obtain ⟨k, hk, hle⟩ := exists_free_suffix hbase
  have hexists : ∃ k, k ∈ freeSuffixes base taken := ⟨k, hk⟩
  refine ⟨Nat.find hexists, ?_, Nat.find_spec hexists, ?_⟩
  · exact (Nat.find_min' hexists hk).trans hle
  · intro other hother
    exact Nat.find_min' hexists hother

/-- Enough attempts reach the first free suffix. -/
theorem freshFrom_of_isLeast {k start attempts : Nat} (h : IsLeast (freeSuffixes base taken) k)
    (hpos : 1 ≤ start) (hstart : start ≤ k) (hend : k ≤ start + attempts) :
    freshFrom base taken start attempts = withSuffix base k := by
  induction attempts generalizing start with
  | zero =>
    have hk : start = k := by omega
    rw [freshFrom, hk]
  | succ attempts ih =>
    rw [freshFrom]
    by_cases hk : start = k
    · rw [hk, if_neg (by simpa using h.1.2)]
    · have htaken : withSuffix base start ∈ taken := by
        by_contra hfree
        have hle := h.2 ⟨hpos, hfree⟩
        omega
      rw [if_pos (by simpa using htaken)]
      exact ih (by omega) (by omega) (by omega)

theorem freshId_of_free (hbase : base ∉ taken) : freshId base taken = base :=
  if_neg (by simpa using hbase)

theorem freshId_of_isLeast {k : Nat} (hbase : base ∈ taken)
    (h : IsLeast (freeSuffixes base taken) k) (hle : k ≤ taken.length) :
    freshId base taken = withSuffix base k := by
  rw [freshId, if_pos (by simpa using hbase)]
  exact freshFrom_of_isLeast h le_rfl h.1.1 (by omega)

theorem freshId_not_mem (base : String) (taken : List String) : freshId base taken ∉ taken := by
  by_cases hbase : base ∈ taken
  · obtain ⟨k, hle, hleast⟩ := exists_least_free hbase
    rw [freshId_of_isLeast hbase hleast hle]
    exact hleast.1.2
  · rw [freshId_of_free hbase]
    exact hbase

/-! The search without a bound. -/

/-- The search for a free name. A taken candidate gives way to the base with the next suffix, for
as long as it takes, and a free one is what is found. -/
inductive Finds (base : String) (taken : List String) : String → Nat → String → Prop
  | free {candidate : String} {suffix : Nat} :
      candidate ∉ taken → Finds base taken candidate suffix candidate
  | taken {candidate found : String} {suffix : Nat} :
      candidate ∈ taken → Finds base taken (withSuffix base suffix) (suffix + 1) found →
      Finds base taken candidate suffix found

theorem Finds.unique {candidate found other : String} {suffix : Nat}
    (h : Finds base taken candidate suffix found)
    (hother : Finds base taken candidate suffix other) : found = other := by
  induction h with
  | free hfree =>
    cases hother with
    | free => rfl
    | taken htaken => exact absurd htaken hfree
  | taken htaken _ ih =>
    cases hother with
    | free hfree => exact absurd htaken hfree
    | taken _ hrest => exact ih hrest

/-- The bounded search is the one without a bound, unless it gives up. -/
theorem finds_freshFrom {k attempts : Nat} (h : freshFrom base taken k attempts ∉ taken) :
    Finds base taken (withSuffix base k) (k + 1) (freshFrom base taken k attempts) := by
  induction attempts generalizing k with
  | zero => exact .free h
  | succ attempts ih =>
    rw [freshFrom] at h ⊢
    by_cases htaken : withSuffix base k ∈ taken
    · rw [if_pos (by simpa using htaken)] at h ⊢
      exact .taken htaken (ih h)
    · rw [if_neg (by simpa using htaken)]
      exact .free htaken

theorem finds_freshId (base : String) (taken : List String) :
    Finds base taken base 1 (freshId base taken) := by
  have hfree := freshId_not_mem base taken
  by_cases hbase : base ∈ taken
  · rw [freshId, if_pos (by simpa using hbase)] at hfree ⊢
    exact .taken hbase (finds_freshFrom hfree)
  · rw [freshId_of_free hbase]
    exact .free hbase

end Numbering

namespace Editor

/-- The id that a new node of a kind has while it is free, made from the kind and the time. -/
def plainId (e : Editor) (t : NodeType) : String :=
  t.text.toLower ++ "-" ++ Decimal.intText e.millis

/-- Whatever ids the nodes have, the search for a fresh one ends, and no node has the id that it
finds. This is the plain id when that is free, and otherwise the plain id with the smallest free
suffix, which is at most the number of nodes. -/
theorem freshId_first_free (e : Editor) (t : NodeType) :
    (∀ found, Numbering.Finds (e.plainId t) (e.nodes.map (·.id)) (e.plainId t) 1 found ↔
      found = e.freshId t) ∧
    (∀ node ∈ e.nodes, node.id ≠ e.freshId t) ∧
    ((∀ node ∈ e.nodes, node.id ≠ e.plainId t) → e.freshId t = e.plainId t) ∧
    ((∃ node ∈ e.nodes, node.id = e.plainId t) →
      ∃ k ≤ e.nodes.length,
        IsLeast (Numbering.freeSuffixes (e.plainId t) (e.nodes.map (·.id))) k ∧
        e.freshId t = Numbering.withSuffix (e.plainId t) k) := by
  have hfinds : Numbering.Finds (e.plainId t) (e.nodes.map (·.id)) (e.plainId t) 1 (e.freshId t) :=
    Numbering.finds_freshId _ _
  refine ⟨fun found => ⟨fun h => h.unique hfinds, fun h => h ▸ hfinds⟩, ?_, ?_, ?_⟩
  · intro node hnode hid
    exact Numbering.freshId_not_mem _ _ (List.mem_map.mpr ⟨node, hnode, hid⟩)
  · intro hfree
    refine Numbering.freshId_of_free fun hmem => ?_
    obtain ⟨node, hnode, hid⟩ := List.mem_map.mp hmem
    exact hfree node hnode hid
  · intro ⟨node, hnode, hid⟩
    have hbase : e.plainId t ∈ e.nodes.map (·.id) := List.mem_map.mpr ⟨node, hnode, hid⟩
    obtain ⟨k, hle, hleast⟩ := Numbering.exists_least_free hbase
    have hlength : k ≤ e.nodes.length := by simpa using hle
    exact ⟨k, hlength, hleast, Numbering.freshId_of_isLeast hbase hleast hle⟩

/-- Start nodes that hold the plain id and its suffixes one and three. -/
def crowdedStarts : Editor :=
  { empty .builtIn ⟨[]⟩ (.str "") 7 with
    nodes := ["start-7", "start-7-1", "start-7-3"].map fun id =>
      Catalog.builtIn.fixedNode id .start .origin [] }

/-- A new start node takes the gap between the suffixes, and a new end node its plain id. -/
theorem freshId_first_free_crowdedStarts :
    (∃ node ∈ crowdedStarts.nodes, node.id = crowdedStarts.plainId .start) ∧
    (∃ k ≤ 3,
      IsLeast (Numbering.freeSuffixes "start-7" ["start-7", "start-7-1", "start-7-3"]) k ∧
      crowdedStarts.freshId .start = Numbering.withSuffix "start-7" k) ∧
    crowdedStarts.freshId .start = "start-7-2" ∧
    (∀ node ∈ crowdedStarts.nodes, node.id ≠ crowdedStarts.plainId .finish) ∧
    crowdedStarts.freshId .finish = "end-7" := by
  have htaken : ∃ node ∈ crowdedStarts.nodes, node.id = crowdedStarts.plainId .start :=
    ⟨_, List.mem_cons_self, by decide +kernel⟩
  have hfree : ∀ node ∈ crowdedStarts.nodes, node.id ≠ crowdedStarts.plainId .finish := by
    decide +kernel
  have hstart : crowdedStarts.plainId .start = "start-7" := by decide +kernel
  have hfinish : crowdedStarts.plainId .finish = "end-7" := by decide +kernel
  obtain ⟨k, hle, hleast, hid⟩ := (freshId_first_free crowdedStarts .start).2.2.2 htaken
  have hother := (freshId_first_free crowdedStarts .finish).2.2.1 hfree
  rw [hstart] at hleast hid
  exact ⟨htaken, ⟨k, hle, hleast, hid⟩, by decide +kernel, hfree, hother.trans hfinish⟩

end Editor
end WorkflowStudio
