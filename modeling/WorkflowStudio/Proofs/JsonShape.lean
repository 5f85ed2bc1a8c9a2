import WorkflowStudio.Proofs.JsonText
import WorkflowStudio.Json.Depth

/-!
Values item by item. What is asked of every text and every object in a value is asked of its
items and fields, and writing null for numbers that are not finite changes none of it.
-/
namespace WorkflowStudio.Json

/-! Objects have distinct names. -/

theorem properItems_iff {items : List Json} :
    properItems items = true ↔ ∀ v ∈ items, proper v = true := by
  induction items with
  | nil => simp [properItems]
  | cons v rest ih => rw [properItems, Bool.and_eq_true, ih, List.forall_mem_cons]

theorem properFields_iff {fs : Fields} :
    properFields fs = true ↔ ∀ field ∈ fs, proper field.2 = true := by
  induction fs with
  | nil => simp [properFields]
  | cons field rest ih => rw [properFields, Bool.and_eq_true, ih, List.forall_mem_cons]

theorem proper_arr {items : List Json} :
    proper (.arr items) = true ↔ ∀ v ∈ items, proper v = true := by
  rw [proper, properItems_iff]

theorem proper_obj {fs : Fields} : proper (.obj fs) = true ↔
    (∀ field ∈ fs, proper field.2 = true) ∧ fs.names.Nodup := by
  rw [proper, Bool.and_eq_true, properFields_iff, decide_eq_true_eq]

/-! Values that can be read. -/

section Legible

variable {dialect : Dialect}

theorem legibleItems_iff {depth : Nat} {items : List Json} :
    legibleItems dialect depth items = true ↔ ∀ v ∈ items, legible dialect depth v = true := by
  induction items with
  | nil => simp [legibleItems]
  | cons v rest ih => rw [legibleItems, Bool.and_eq_true, ih, List.forall_mem_cons]

theorem legibleFields_iff {depth : Nat} {fs : Fields} :
    legibleFields dialect depth fs = true ↔
      ∀ field ∈ fs, legible dialect depth field.2 = true := by
  induction fs with
  | nil => simp [legibleFields]
  | cons field rest ih => rw [legibleFields, Bool.and_eq_true, ih, List.forall_mem_cons]

theorem legible_arr {depth : Nat} {items : List Json} :
    legible dialect (depth + 1) (.arr items) = true ↔
      ∀ v ∈ items, legible dialect depth v = true := by
  rw [legible, Nat.add_sub_cancel, decide_eq_true (Nat.succ_pos depth), Bool.true_and,
    Bool.or_eq_true, legibleItems_iff, List.isEmpty_iff]
  refine ⟨fun h => h.elim (fun hnil => ?_) id, Or.inr⟩
  rw [hnil]
  exact fun v hv => absurd hv List.not_mem_nil

theorem legible_obj {depth : Nat} {fs : Fields} :
    legible dialect (depth + 1) (.obj fs) = true ↔
      ∀ field ∈ fs, legible dialect depth field.2 = true := by
  rw [legible, Nat.add_sub_cancel, decide_eq_true (Nat.succ_pos depth), Bool.true_and,
    Bool.or_eq_true, legibleFields_iff, List.isEmpty_iff]
  refine ⟨fun h => h.elim (fun hnil => ?_) id, Or.inr⟩
  rw [hnil]
  exact fun field hfield => absurd hfield List.not_mem_nil

mutual

/-- What can be read can be read inside fewer levels. -/
theorem legible_succ (v : Json) {depth : Nat} (h : legible dialect depth v = true) :
    legible dialect (depth + 1) v = true := by
  match v with
  | .null | .bool _ | .num _ | .str _ => rfl
  | .int n => exact h
  | .arr [] => rfl
  | .arr (item :: items) =>
    rw [legible, List.isEmpty_cons, Bool.false_or, Bool.and_eq_true, decide_eq_true_eq] at h
    rw [legible, List.isEmpty_cons, Bool.false_or, decide_eq_true (Nat.succ_pos depth),
      Bool.true_and]
    have hitems := legibleItems_succ (item :: items) h.2
    rwa [Nat.sub_add_cancel h.1] at hitems
  | .obj [] => rfl
  | .obj (field :: fields) =>
    rw [legible, List.isEmpty_cons, Bool.false_or, Bool.and_eq_true, decide_eq_true_eq] at h
    rw [legible, List.isEmpty_cons, Bool.false_or, decide_eq_true (Nat.succ_pos depth),
      Bool.true_and]
    have hfields := legibleFields_succ (field :: fields) h.2
    rwa [Nat.sub_add_cancel h.1] at hfields

theorem legibleItems_succ (items : List Json) {depth : Nat}
    (h : legibleItems dialect depth items = true) :
    legibleItems dialect (depth + 1) items = true := by
  match items with
  | [] => rfl
  | item :: items =>
    rw [legibleItems, Bool.and_eq_true] at h ⊢
    exact ⟨legible_succ item h.1, legibleItems_succ items h.2⟩

theorem legibleFields_succ (fields : List (String × Json)) {depth : Nat}
    (h : legibleFields dialect depth fields = true) :
    legibleFields dialect (depth + 1) fields = true := by
  match fields with
  | [] => rfl
  | field :: fields =>
    rw [legibleFields, Bool.and_eq_true] at h ⊢
    exact ⟨legible_succ field.2 h.1, legibleFields_succ fields h.2⟩

end

end Legible

/-! Texts hold whole characters only. -/

/-- A value of which every text and every name holds whole characters only. -/
def Whole (v : Json) : Prop := brokenText? v = none

theorem broken?_eq_none {s : String} : broken? s = none ↔ Text.isBroken s = false := by
  unfold broken?
  cases Text.isBroken s <;> simp

theorem orElse_eq_none {α : Type} {o : Option α} {next : Unit → Option α} :
    (o.orElse next) = none ↔ o = none ∧ next () = none := by
  cases o <;> simp

theorem whole_str {s : String} : Whole (.str s) ↔ Text.isBroken s = false := broken?_eq_none

theorem whole_arr {items : List Json} : Whole (.arr items) ↔ ∀ v ∈ items, Whole v := by
  rw [Whole, brokenText?]
  induction items with
  | nil => simp [brokenItem?]
  | cons v rest ih => rw [brokenItem?, orElse_eq_none, ih, List.forall_mem_cons, Whole]

theorem whole_obj {fs : Fields} :
    Whole (.obj fs) ↔ ∀ field ∈ fs, Text.isBroken field.1 = false ∧ Whole field.2 := by
  rw [Whole, brokenText?]
  induction fs with
  | nil => simp [brokenField?]
  | cons field rest ih =>
    rw [brokenField?, orElse_eq_none, orElse_eq_none, ih, List.forall_mem_cons, broken?_eq_none,
      Whole]

/-! Numbers that are not finite. -/

theorem finiteItems_eq_map (items : List Json) : finiteItems items = items.map finite := by
  induction items with
  | nil => rfl
  | cons v rest ih => rw [finiteItems, ih, List.map_cons]

theorem finiteFields_eq_map (fs : Fields) :
    finiteFields fs = fs.map fun field => (field.1, finite field.2) := by
  induction fs with
  | nil => rfl
  | cons field rest ih => rw [finiteFields, ih, List.map_cons]

theorem finiteFields_append (fs rest : Fields) :
    finiteFields (fs ++ rest) = finiteFields fs ++ finiteFields rest := by
  simp only [finiteFields_eq_map, List.map_append]

theorem get?_finiteFields (fs : Fields) (name : String) :
    Fields.get? (finiteFields fs) name = (fs.get? name).map finite := by
  induction fs with
  | nil => rfl
  | cons field rest ih =>
    rw [finiteFields]
    by_cases h : field.1 = name
    · simp [Fields.get?, h]
    · simpa [Fields.get?, h] using ih

theorem mem_finiteFields {fs : Fields} {field : String × Json} :
    field ∈ finiteFields fs ↔ ∃ given ∈ fs, (given.1, given.2.finite) = field := by
  rw [finiteFields_eq_map, List.mem_map]

mutual

theorem finite_finite (v : Json) : finite (finite v) = finite v := by
  match v with
  | .null | .bool _ | .int _ | .str _ => rfl
  | .num x =>
    rw [finite]
    split
    · rename_i h
      rw [finite, if_pos h]
    · rfl
  | .arr items => rw [finite, finite, finiteItems_finite]
  | .obj fields => rw [finite, finite, finiteFields_finite]

theorem finiteItems_finite (items : List Json) :
    finiteItems (finiteItems items) = finiteItems items := by
  match items with
  | [] => rfl
  | v :: rest => rw [finiteItems, finiteItems, finite_finite v, finiteItems_finite rest]

theorem finiteFields_finite (fs : Fields) : finiteFields (finiteFields fs) = finiteFields fs := by
  match fs with
  | [] => rfl
  | (name, v) :: rest => rw [finiteFields, finiteFields, finite_finite v, finiteFields_finite rest]

end

mutual

theorem proper_finite (v : Json) : proper (finite v) = proper v := by
  match v with
  | .null | .bool _ | .int _ | .str _ => rfl
  | .num x =>
    rw [finite]
    split <;> rfl
  | .arr items => rw [finite, proper, proper, properItems_finite]
  | .obj fields => rw [finite, proper, proper, properFields_finite, names_finiteFields]

theorem properItems_finite (items : List Json) :
    properItems (finiteItems items) = properItems items := by
  match items with
  | [] => rfl
  | v :: rest =>
    rw [finiteItems, properItems, properItems, proper_finite v, properItems_finite rest]

theorem properFields_finite (fs : Fields) : properFields (finiteFields fs) = properFields fs := by
  match fs with
  | [] => rfl
  | (name, v) :: rest =>
    rw [finiteFields, properFields, properFields, proper_finite v, properFields_finite rest]

end

mutual

theorem brokenText?_finite (v : Json) : brokenText? (finite v) = brokenText? v := by
  match v with
  | .null | .bool _ | .int _ | .str _ => rfl
  | .num x =>
    rw [finite]
    split <;> rfl
  | .arr items => rw [finite, brokenText?, brokenText?, brokenItem?_finite]
  | .obj fields => rw [finite, brokenText?, brokenText?, brokenField?_finite]

theorem brokenItem?_finite (items : List Json) :
    brokenItem? (finiteItems items) = brokenItem? items := by
  match items with
  | [] => rfl
  | v :: rest =>
    rw [finiteItems, brokenItem?, brokenItem?, brokenText?_finite v, brokenItem?_finite rest]

theorem brokenField?_finite (fs : Fields) : brokenField? (finiteFields fs) = brokenField? fs := by
  match fs with
  | [] => rfl
  | (name, v) :: rest =>
    rw [finiteFields, brokenField?, brokenField?, brokenText?_finite v, brokenField?_finite rest]

end

mutual

theorem exceeds_finite (bound : Nat) (v : Json) : exceeds bound (finite v) = exceeds bound v := by
  match bound, v with
  | 0, _ => rw [exceeds, exceeds]
  | _ + 1, .null | _ + 1, .bool _ | _ + 1, .int _ | _ + 1, .str _ => rfl
  | _ + 1, .num x =>
    rw [finite]
    split <;> rfl
  | bound + 1, .arr items => rw [finite, exceeds, exceeds, exceedsItems_finite bound items]
  | bound + 1, .obj fields => rw [finite, exceeds, exceeds, exceedsFields_finite bound fields]

theorem exceedsItems_finite (bound : Nat) (items : List Json) :
    exceedsItems bound (finiteItems items) = exceedsItems bound items := by
  match items with
  | [] => rfl
  | v :: rest =>
    rw [finiteItems, exceedsItems, exceedsItems, exceeds_finite bound v,
      exceedsItems_finite bound rest]

theorem exceedsFields_finite (bound : Nat) (fs : Fields) :
    exceedsFields bound (finiteFields fs) = exceedsFields bound fs := by
  match fs with
  | [] => rfl
  | (name, v) :: rest =>
    rw [finiteFields, exceedsFields, exceedsFields, exceeds_finite bound v,
      exceedsFields_finite bound rest]

end

theorem whole_finite {v : Json} : Whole v.finite ↔ Whole v := by
  rw [Whole, Whole, brokenText?_finite]

end WorkflowStudio.Json
