import WorkflowStudio.Param
import WorkflowStudio.Proofs.JsonText

/-!
Records that are written with their nulls and read again. Every declared field stands under
the first of its names, so it is found there, and the extra fields behind them are read as
they are as long as they take no declared name.
-/
namespace WorkflowStudio

theorem Except.bind_eq_ok {ε α β : Type} {a : Except ε α} {f : α → Except ε β} {b : β} :
    a >>= f = .ok b ↔ ∃ x, a = .ok x ∧ f x = .ok b := by
  cases a with
  | ok x => exact ⟨fun h => ⟨x, rfl, h⟩, fun ⟨_, hx, h⟩ => by cases hx; exact h⟩
  | error fault => exact ⟨fun h => (by cases h), fun ⟨_, hx, _⟩ => (by cases hx)⟩

theorem Except.eq_ok_of_toOption {ε α : Type} {a : Except ε α} {x : α}
    (h : a.toOption = some x) : a = .ok x := by
  cases a with
  | ok found => exact congrArg Except.ok (Option.some.inj h)
  | error fault => cases h

theorem Except.prod_eq_of_toOption {ε α β : Type} {a : β × Except ε α} {x : α}
    (h : a.2.toOption = some x) : a = (a.1, .ok x) :=
  Prod.ext rfl (Except.eq_ok_of_toOption h)

theorem Except.map_eq_ok {ε α β : Type} {a : Except ε α} {f : α → β} {b : β} :
    a.map f = .ok b ↔ ∃ x, a = .ok x ∧ f x = b := by
  cases a with
  | ok x =>
    refine ⟨fun h => ⟨x, rfl, Except.ok.inj h⟩, fun ⟨_, hx, h⟩ => ?_⟩
    cases hx
    exact congrArg _ h
  | error fault => exact ⟨fun h => (by cases h), fun ⟨_, hx, _⟩ => (by cases hx)⟩

namespace Checked

variable {α β : Type}

theorem map_eq_ok {f : α → β} {a : Checked α} {b : β} :
    f <$> a = .ok b ↔ ∃ x, a = .ok x ∧ f x = b := by
  cases a with
  | ok x =>
    rw [map_ok, ok.injEq]
    exact ⟨fun h => ⟨x, rfl, h⟩, fun ⟨_, hx, h⟩ => by cases hx; exact h⟩
  | bad problems => exact ⟨fun h => (by cases h), fun ⟨_, hx, _⟩ => (by cases hx)⟩

theorem seq_eq_ok {f : Checked (α → β)} {a : Checked α} {b : β} :
    f <*> a = .ok b ↔ ∃ g x, f = .ok g ∧ a = .ok x ∧ g x = b := by
  cases f with
  | ok g =>
    cases a with
    | ok x =>
      rw [seq_ok, ok.injEq]
      exact ⟨fun h => ⟨g, x, rfl, rfl, h⟩, fun ⟨_, _, hg, hx, h⟩ => by cases hg; cases hx; exact h⟩
    | bad problems => exact ⟨fun h => (by cases h), fun ⟨_, _, _, hx, _⟩ => (by cases hx)⟩
  | bad first =>
    refine ⟨fun h => ?_, fun ⟨_, _, hg, _⟩ => (by cases hg)⟩
    cases a <;> cases h

theorem orFault_eq_ok {title : String} {a : Checked α} {x : α} :
    a.orFault title = .ok x ↔ a = .ok x := by
  cases a with
  | ok found => simp [orFault]
  | bad problems => simp [orFault]

theorem inside_eq_ok {place : Place} {a : Checked α} {x : α} :
    a.inside place = .ok x ↔ a = .ok x := by
  cases a with
  | ok y => rw [inside_ok]
  | bad problems => exact ⟨fun h => (by cases h), fun h => (by cases h)⟩

theorem eachFrom_eq_ok {γ : Type} {read : γ → Checked α} {index : Nat} {items : List γ}
    {values : List α} (h : eachFrom read index items = .ok values) :
    ∀ a ∈ values, ∃ item ∈ items, read item = .ok a := by
  induction items generalizing index values with
  | nil =>
    cases h
    exact fun a ha => absurd ha List.not_mem_nil
  | cons item rest ih =>
    rw [eachFrom, seq_eq_ok] at h
    obtain ⟨g, tail, hg, htail, rfl⟩ := h
    obtain ⟨value, hvalue, rfl⟩ := map_eq_ok.mp hg
    intro a ha
    rcases List.mem_cons.mp ha with rfl | hrest
    · exact ⟨item, List.mem_cons_self, inside_eq_ok.mp hvalue⟩
    · obtain ⟨other, hother, hread⟩ := ih htail a hrest
      exact ⟨other, List.mem_cons_of_mem _ hother, hread⟩

/-- Every item of a list that was read can be read. -/
theorem read_of_eachFrom {γ : Type} {read : γ → Checked α} {index : Nat} {items : List γ}
    {values : List α} (h : eachFrom read index items = .ok values) :
    ∀ item ∈ items, ∃ a, read item = .ok a := by
  induction items generalizing index values with
  | nil => exact fun item hitem => absurd hitem List.not_mem_nil
  | cons item rest ih =>
    rw [eachFrom, seq_eq_ok] at h
    obtain ⟨g, tail, hg, htail, -⟩ := h
    obtain ⟨value, hvalue, -⟩ := map_eq_ok.mp hg
    exact List.forall_mem_cons.mpr ⟨⟨value, inside_eq_ok.mp hvalue⟩, ih htail⟩

end Checked

/-! Single values. -/

/-- A text of whole characters. -/
def Text.Whole (s : String) : Prop := Text.isBroken s = false

instance (s : String) : Decidable (Text.Whole s) :=
  inferInstanceAs (Decidable (Text.isBroken s = false))

namespace Json

/-- A value of the kind that labels are declared to have. -/
def IsText (v : Json) : Prop := ∃ s, v = .str s

theorem asNonemptyText_eq_ok_iff {v : Json} {s : String} :
    asNonemptyText v = .ok s ↔ v = .str s ∧ s ≠ "" ∧ Text.Whole s := by
  constructor
  · intro h
    cases v with
    | str t =>
      rw [asNonemptyText, asText, Checked.andThen, ofWholeText] at h
      split at h
      · cases h
      · rename_i hwhole
        split at h
        · cases h
        · rename_i hne
          cases h
          exact ⟨rfl, by simpa using hne, Bool.eq_false_iff.mpr hwhole⟩
    | _ => cases h
  · rintro ⟨rfl, hne, hwhole⟩
    rw [asNonemptyText, asText, Checked.andThen, ofWholeText, if_neg (Bool.eq_false_iff.mp hwhole),
      if_neg (by simpa using hne)]

theorem asOptional_asText (o : Option String) :
    asOptional asText (ofOption .str o) = .ok o := by
  cases o <;> rfl

theorem asList_map {α γ : Type} {read : Json → Checked α} {write : γ → Json} {result : γ → α}
    {items : List γ} (h : ∀ item ∈ items, read (write item) = .ok (result item)) :
    asList read (.arr (items.map write)) = .ok (items.map result) := by
  refine Checked.eachFrom_ok read 0 _ _ ?_
  rw [List.map_map, List.map_map]
  exact List.map_congr_left h

theorem asList_eq_ok {α : Type} {read : Json → Checked α} {v : Json} {values : List α}
    (h : asList read v = .ok values) :
    ∃ items, v = .arr items ∧ ∀ a ∈ values, ∃ item ∈ items, read item = .ok a := by
  cases v with
  | arr items => exact ⟨items, rfl, Checked.eachFrom_eq_ok h⟩
  | _ => cases h

theorem asRecord_eq_ok {α : Type} {read : Fields → Checked α} {v : Json} {a : α}
    (h : asRecord read v = .ok a) : ∃ fs, v = .obj fs ∧ read fs = .ok a := by
  cases v with
  | obj fs => exact ⟨fs, rfl, h⟩
  | _ => cases h

end Json

theorem Vocabulary.read_spelling {α : Type} [Vocabulary α] {word : α}
    (h : Vocabulary.find? (Vocabulary.spelling word) = some word) :
    Vocabulary.read (.str (Vocabulary.spelling word)) = .ok word := by
  rw [read, ofJson?, h]

/-! Fields by their names. -/

namespace Fields

variable {α : Type} {fs : Fields} {name : String} {names : List String} {v : Json}
  {read : Json → Checked α} {a : α}

theorem pick_of_get? (h : fs.get? name = some v) : fs.pick (name :: names) = some (name, v) := by
  rw [pick, h]

theorem optional_of_get? (absent : α) (h : fs.get? name = some v) (hread : read v = .ok a) :
    fs.optional (name :: names) absent read = .ok a := by
  rw [optional, pick_of_get? h]
  dsimp only
  rw [hread, Checked.inside_ok]

theorem read_of_optional {absent : α} (hget : fs.get? name = some v)
    (h : fs.optional (name :: names) absent read = .ok a) : read v = .ok a := by
  rw [optional, pick_of_get? hget] at h
  exact Checked.inside_eq_ok.mp h

theorem required_of_get? (h : fs.get? name = some v) (hread : read v = .ok a) :
    fs.required (name :: names) read = .ok a := by
  rw [required, pick_of_get? h]
  dsimp only
  rw [hread, Checked.inside_ok]

theorem get?_append (h : fs.get? name = some v) (rest : Fields) :
    (fs ++ rest : Fields).get? name = some v := by
  obtain ⟨field, hfield, rfl⟩ := Option.map_eq_some_iff.mp h
  rw [get?, List.find?_append, hfield]
  rfl

theorem get?_append_right (h : name ∉ fs.names) (rest : Fields) :
    (fs ++ rest : Fields).get? name = rest.get? name := by
  rw [get?, get?, List.find?_append, List.find?_eq_none.mpr, Option.none_or]
  intro field hfield hname
  rw [← beq_iff_eq.mp hname] at h
  exact h (List.mem_map_of_mem hfield)

theorem erase_append (fs rest : Fields) (name : String) :
    (fs ++ rest : Fields).erase name = fs.erase name ++ rest.erase name :=
  List.filter_append ..

theorem erase_of_not_mem (h : name ∉ fs.names) : fs.erase name = fs := by
  refine List.filter_eq_self.mpr fun field hfield => ?_
  refine bne_iff_ne.mpr fun hname => ?_
  rw [← hname] at h
  exact h (List.mem_map_of_mem hfield)

theorem mem_of_get? (h : fs.get? name = some v) : (name, v) ∈ fs := by
  obtain ⟨field, hfield, rfl⟩ := Option.map_eq_some_iff.mp h
  have hname : field.1 = name := by simpa using List.find?_some hfield
  rw [← hname]
  exact List.mem_of_find?_eq_some hfield

theorem get?_eq_none (h : fs.get? name = none) : name ∉ fs.names := by
  intro hmem
  obtain ⟨field, hfield, rfl⟩ := List.mem_map.mp hmem
  rw [get?, Option.map_eq_none_iff, List.find?_eq_none] at h
  exact h field hfield (by simp)

theorem mem_of_pick {found : String × Json} (h : fs.pick names = some found) : found ∈ fs := by
  induction names with
  | nil => cases h
  | cons name names ih =>
    rw [pick] at h
    split at h
    · rename_i value hvalue
      cases h
      exact mem_of_get? hvalue
    · exact ih h

/-- A field that was read had a value or was missing. -/
theorem optional_eq_ok {absent : α} (h : fs.optional names absent read = .ok a) :
    a = absent ∨ ∃ found ∈ fs, read found.2 = .ok a := by
  unfold optional at h
  split at h
  · rename_i name v hpick
    exact Or.inr ⟨(name, v), mem_of_pick hpick, Checked.inside_eq_ok.mp h⟩
  · cases h
    exact Or.inl rfl

theorem required_eq_ok (h : fs.required names read = .ok a) :
    ∃ found ∈ fs, read found.2 = .ok a := by
  unfold required at h
  split at h
  · rename_i name v hpick
    exact ⟨(name, v), mem_of_pick hpick, Checked.inside_eq_ok.mp h⟩
  · cases h

/-! Extra fields. -/

/-- The names that are written for the fields of a kind of record. -/
def declared (slots : List (List String)) : List String := slots.map label

theorem pick_label_of_mem (hne : names ≠ []) (h : label names ∈ fs.names) :
    (fs.pick names).map (·.1) = some (label names) := by
  obtain ⟨name, names, rfl⟩ := List.exists_cons_of_ne_nil hne
  cases hget : fs.get? name with
  | none => exact absurd h (get?_eq_none hget)
  | some v =>
    rw [pick_of_get? hget]
    rfl

/-- Behind the declared fields only the extra ones are left. -/
theorem extras_append {slots : List (List String)} {own rest : Fields} (hslots : [] ∉ slots)
    (hown : own.names = declared slots) (hrest : ∀ field ∈ rest, field.1 ∉ declared slots) :
    extras (own ++ rest) slots = rest := by
  have hpick : ∀ names ∈ slots, (pick (own ++ rest) names).map (·.1) = some (label names) := by
    intro names hnames
    refine pick_label_of_mem (fun h => hslots (h ▸ hnames)) ?_
    rw [Fields.names, List.map_append]
    refine List.mem_append_left _ ?_
    change label names ∈ own.names
    rw [hown]
    exact List.mem_map_of_mem hnames
  have hany (field : String × Json) :
      (slots.any fun names => (pick (own ++ rest) names).map (·.1) == some field.1) =
        decide (field.1 ∈ declared slots) := by
    rw [Bool.eq_iff_iff, List.any_eq_true, decide_eq_true_eq]
    constructor
    · rintro ⟨names, hnames, heq⟩
      rw [hpick names hnames, beq_iff_eq, Option.some.injEq] at heq
      rw [← heq]
      exact List.mem_map_of_mem hnames
    · intro hmem
      obtain ⟨names, hnames, heq⟩ := List.mem_map.mp hmem
      exact ⟨names, hnames, by rw [hpick names hnames, heq, beq_self_eq_true]⟩
  unfold extras
  simp only [hany]
  rw [List.filter_append]
  have hnone : own.filter (fun field => !decide (field.1 ∈ declared slots)) = [] := by
    rw [List.filter_eq_nil_iff]
    intro field hfield
    have hmem : field.1 ∈ own.names := List.mem_map_of_mem hfield
    rw [hown] at hmem
    simp [hmem]
  have hall : rest.filter (fun field => !decide (field.1 ∈ declared slots)) = rest := by
    rw [List.filter_eq_self]
    intro field hfield
    simp [hrest field hfield]
  rw [hnone, hall, List.nil_append]

/-- No extra field takes a declared name: the field of that name would have been read. -/
theorem not_declared_of_mem_extras {slots : List (List String)} (hslots : [] ∉ slots)
    {field : String × Json} (h : field ∈ fs.extras slots) : field.1 ∉ declared slots := by
  intro hmem
  obtain ⟨hfield, hunread⟩ := List.mem_filter.mp h
  obtain ⟨names, hnames, heq⟩ := List.mem_map.mp hmem
  have hpick := pick_label_of_mem (fun hnil => hslots (hnil ▸ hnames))
    (show label names ∈ fs.names from heq ▸ List.mem_map_of_mem hfield)
  simp only [Bool.not_eq_true', List.any_eq_false, beq_iff_eq] at hunread
  exact hunread names hnames (hpick.trans (congrArg some heq))

end Fields
end WorkflowStudio
