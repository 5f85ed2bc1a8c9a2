import Mathlib.Data.List.Nodup
import Mathlib.Data.List.Perm.Basic
import WorkflowStudio.Json.Order
import WorkflowStudio.Proofs.JsonShape
import WorkflowStudio.Proofs.RecordFields

/-!
Values that agree up to the order of fields. Sorting the fields by name at every depth leaves
values alone that agree already, and makes all others differ, because the names in an object are
distinct.
-/
namespace WorkflowStudio

namespace Fields

theorem get?_cons (field : String × Json) (rest : Fields) (name : String) :
    get? (field :: rest) name = if field.1 = name then some field.2 else get? rest name := by
  by_cases h : field.1 = name <;> simp [get?, h]

theorem exists_get? {fs : Fields} {name : String} (h : name ∈ fs.names) :
    ∃ v, fs.get? name = some v := by
  cases hget : fs.get? name with
  | none => exact absurd h (get?_eq_none hget)
  | some v => exact ⟨v, rfl⟩

/-- Under distinct names a field is what its name is looked up as. -/
theorem get?_eq_some_iff {fs : Fields} (h : fs.names.Nodup) {name : String} {v : Json} :
    fs.get? name = some v ↔ (name, v) ∈ fs := by
  refine ⟨mem_of_get?, fun hmem => ?_⟩
  obtain ⟨found, hfound⟩ := exists_get? (List.mem_map_of_mem hmem)
  have hsame : (name, found) = (name, v) :=
    List.inj_on_of_nodup_map h (mem_of_get? hfound) hmem rfl
  rw [hfound, (Prod.mk.inj hsame).2]

theorem mem_names_of_get? {fs : Fields} {name : String} {v : Json} (h : fs.get? name = some v) :
    name ∈ fs.names := List.mem_map_of_mem (mem_of_get? h)

end Fields

namespace Json

/-- Values that differ at most in the order of the fields in objects. -/
inductive Agrees : Json → Json → Prop where
  | self (v : Json) : Agrees v v
  | items {as bs : List Json} (hlength : as.length = bs.length)
      (h : ∀ (i : Nat) a b, as[i]? = some a → bs[i]? = some b → Agrees a b) :
      Agrees (.arr as) (.arr bs)
  | fields {as bs : Fields} (hnames : ∀ name, name ∈ as.names ↔ name ∈ bs.names)
      (h : ∀ name a b, as.get? name = some a → bs.get? name = some b → Agrees a b) :
      Agrees (.obj as) (.obj bs)

theorem agrees_str_iff {s t : String} : Agrees (.str s) (.str t) ↔ s = t := by
  constructor
  · intro h
    cases h with
    | self => rfl
  · intro h
    rw [h]
    exact .self _

theorem agrees_bool_iff {s t : Bool} : Agrees (.bool s) (.bool t) ↔ s = t := by
  constructor
  · intro h
    cases h with
    | self => rfl
  · intro h
    rw [h]
    exact .self _

theorem agrees_ofOption_str_iff {s t : Option String} :
    Agrees (ofOption .str s) (ofOption .str t) ↔ s = t := by
  constructor
  · intro h
    cases s with
    | none =>
      cases t with
      | none => rfl
      | some t => cases h
    | some s =>
      cases t with
      | none => cases h
      | some t => rw [agrees_str_iff.mp h]
  · intro h
    rw [h]
    exact .self _

theorem Agrees.field {as bs : Fields} (h : Agrees (.obj as) (.obj bs)) (name : String)
    {a b : Json} (ha : as.get? name = some a) (hb : bs.get? name = some b) : Agrees a b := by
  cases h with
  | self =>
    obtain rfl : a = b := Option.some.inj (ha.symm.trans hb)
    exact .self a
  | fields _ h => exact h name a b ha hb

/-- Objects agree when their fields do in the same order. -/
theorem agrees_of_forall₂ {as bs : Fields}
    (h : List.Forall₂ (fun a b => a.1 = b.1 ∧ Agrees a.2 b.2) as bs) :
    Agrees (.obj as) (.obj bs) := by
  have hnames : as.names = bs.names := by
    induction h with
    | nil => rfl
    | cons hfield _ ih => exact congrArg₂ List.cons hfield.1 ih
  refine .fields (fun name => by rw [hnames]) fun name a b ha hb => ?_
  clear hnames
  induction h with
  | nil => cases ha
  | @cons field other as bs hfield _ ih =>
    rw [Fields.get?_cons] at ha hb
    rw [← hfield.1] at hb
    split at ha
    · rename_i hname
      rw [if_pos hname] at hb
      cases ha
      cases hb
      exact hfield.2
    · rename_i hname
      rw [if_neg hname] at hb
      exact ih ha hb

/-! Sorted fields. -/

def sortField (field : String × Json) : String × Json := (field.1, sorted field.2)

theorem sortedItems_eq_map (items : List Json) : sortedItems items = items.map sorted := by
  induction items with
  | nil => rfl
  | cons v rest ih => rw [sortedItems, ih, List.map_cons]

theorem insertSorted_perm (name : String) (v : Json) (fs : Fields) :
    (insertSorted name v fs).Perm ((name, v) :: fs) := by
  induction fs with
  | nil => exact List.Perm.refl _
  | cons field rest ih =>
    rw [insertSorted]
    split
    · exact List.Perm.refl _
    · exact (ih.cons field).trans (List.Perm.swap _ _ _)

theorem sortedFields_perm (fs : Fields) : (sortedFields fs).Perm (fs.map sortField) := by
  induction fs with
  | nil => exact List.Perm.refl _
  | cons field rest ih =>
    rw [sortedFields, List.map_cons]
    exact (insertSorted_perm _ _ _).trans (ih.cons _)

theorem pairwise_insertSorted {name : String} {v : Json} {fs : Fields}
    (h : fs.Pairwise fun a b => a.1 < b.1) (hname : name ∉ fs.names) :
    (insertSorted name v fs).Pairwise fun a b => a.1 < b.1 := by
  induction fs with
  | nil => exact List.pairwise_singleton _ _
  | cons field rest ih =>
    obtain ⟨hfield, hrest⟩ := List.pairwise_cons.mp h
    have hne : name ≠ field.1 ∧ name ∉ Fields.names rest := by
      simpa [Fields.names, not_or] using hname
    rw [insertSorted]
    split
    · rename_i hlt
      refine List.pairwise_cons.mpr ⟨fun other hother => ?_, h⟩
      rcases List.mem_cons.mp hother with hsame | hmem
      · rw [hsame]
        exact hlt
      · exact String.lt_trans hlt (hfield other hmem)
    · rename_i hge
      have hlt : field.1 < name := Std.lt_of_le_of_ne (String.not_lt.mp hge) (Ne.symm hne.1)
      refine List.pairwise_cons.mpr ⟨fun other hother => ?_, ih hrest hne.2⟩
      rcases List.mem_cons.mp ((insertSorted_perm _ _ _).mem_iff.mp hother) with hsame | hmem
      · rw [hsame]
        exact hlt
      · exact hfield other hmem

theorem names_map_sortField (fs : Fields) : Fields.names (fs.map sortField) = fs.names := by
  rw [Fields.names, List.map_map]
  rfl

theorem pairwise_sortedFields {fs : Fields} (h : fs.names.Nodup) :
    (sortedFields fs).Pairwise fun a b => a.1 < b.1 := by
  induction fs with
  | nil => exact List.Pairwise.nil
  | cons field rest ih =>
    obtain ⟨hfield, hrest⟩ := List.nodup_cons.mp h
    refine pairwise_insertSorted (ih hrest) fun hmem => hfield ?_
    have hsorted := ((sortedFields_perm rest).map Prod.fst).mem_iff.mp hmem
    have hnames := names_map_sortField rest
    unfold Fields.names at hnames
    rw [hnames] at hsorted
    exact hsorted

/-- Sorted fields are the same when the fields are, in whatever order. -/
theorem sortedFields_eq_iff {as bs : Fields} (ha : as.names.Nodup) (hb : bs.names.Nodup) :
    sortedFields as = sortedFields bs ↔ ∀ field, field ∈ as.map sortField ↔
      field ∈ bs.map sortField := by
  have hnodup {fs : Fields} (h : fs.names.Nodup) : (fs.map sortField).Nodup := by
    rw [← names_map_sortField] at h
    exact h.of_map _
  constructor
  · intro h field
    rw [← (sortedFields_perm as).mem_iff, h, (sortedFields_perm bs).mem_iff]
  · intro h
    have hperm := (List.perm_ext_iff_of_nodup (hnodup ha) (hnodup hb)).mpr h
    have hsorted := (sortedFields_perm as).trans (hperm.trans (sortedFields_perm bs).symm)
    refine hsorted.eq_of_pairwise (fun a b _ _ hlt hgt => ?_) (pairwise_sortedFields ha)
      (pairwise_sortedFields hb)
    exact absurd hgt (String.lt_asymm hlt)

theorem mem_map_sortField {fs : Fields} (h : fs.names.Nodup) {name : String} {w : Json} :
    (name, w) ∈ fs.map sortField ↔ ∃ v, fs.get? name = some v ∧ sorted v = w := by
  rw [List.mem_map]
  constructor
  · intro ⟨field, hfield, hsame⟩
    obtain ⟨rfl, hvalue⟩ := Prod.mk.inj hsame
    exact ⟨field.2, (Fields.get?_eq_some_iff h).mpr hfield, hvalue⟩
  · intro ⟨v, hget, hvalue⟩
    exact ⟨(name, v), Fields.mem_of_get? hget, Prod.ext rfl hvalue⟩

/-! Alike values. -/

theorem alike_eq {a b : Json} : alike a b = true ↔ sorted a = sorted b := beq_iff_eq

theorem sorted_eq_of_agrees {a b : Json} (h : Agrees a b) (ha : proper a = true)
    (hb : proper b = true) : sorted a = sorted b := by
  induction h with
  | self v => rfl
  | @items as bs hlength _ ih =>
    rw [proper_arr] at ha hb
    rw [sorted, sorted, sortedItems_eq_map, sortedItems_eq_map]
    refine congrArg arr (List.ext_getElem? fun i => ?_)
    rw [List.getElem?_map, List.getElem?_map]
    by_cases hi : i < as.length
    · have hi' : i < bs.length := hlength ▸ hi
      have hsame := ih i as[i] bs[i] (List.getElem?_eq_getElem hi) (List.getElem?_eq_getElem hi')
        (ha _ (List.getElem_mem hi)) (hb _ (List.getElem_mem hi'))
      rw [List.getElem?_eq_getElem hi, List.getElem?_eq_getElem hi', Option.map_some,
        Option.map_some, hsame]
    · rw [List.getElem?_eq_none (not_lt.mp hi), List.getElem?_eq_none (hlength ▸ not_lt.mp hi)]
  | @fields as bs hnames _ ih =>
    rw [proper_obj] at ha hb
    rw [sorted, sorted]
    refine congrArg obj ((sortedFields_eq_iff ha.2 hb.2).mpr fun (name, w) => ?_)
    have hsame {a b : Json} (hget : as.get? name = some a) (hget' : bs.get? name = some b) :
        sorted a = sorted b :=
      ih name a b hget hget' (ha.1 _ (Fields.mem_of_get? hget)) (hb.1 _ (Fields.mem_of_get? hget'))
    rw [mem_map_sortField ha.2, mem_map_sortField hb.2]
    constructor
    · intro ⟨a, hget, hvalue⟩
      obtain ⟨b, hget'⟩ := Fields.exists_get? ((hnames name).mp (Fields.mem_names_of_get? hget))
      exact ⟨b, hget', by rw [← hvalue, hsame hget hget']⟩
    · intro ⟨b, hget', hvalue⟩
      obtain ⟨a, hget⟩ := Fields.exists_get? ((hnames name).mpr (Fields.mem_names_of_get? hget'))
      exact ⟨a, hget, by rw [← hvalue, hsame hget hget']⟩

/-! Values that were sorted into the same one, one case for each kind of value. -/

mutual

theorem agrees_of_sorted_eq (a : Json) {b : Json} (ha : proper a = true) (hb : proper b = true)
    (h : sorted a = sorted b) : Agrees a b := by
  match a, b with
  | .arr as, .arr bs =>
    rw [proper_arr] at ha hb
    rw [sorted, sorted, sortedItems_eq_map, sortedItems_eq_map] at h
    have hitems := Json.arr.inj h
    refine .items (by simpa using congrArg List.length hitems) fun i a b hget hget' => ?_
    have hsame : as[i]?.map sorted = bs[i]?.map sorted := by
      rw [← List.getElem?_map, hitems, List.getElem?_map]
    rw [hget, hget', Option.map_some, Option.map_some] at hsame
    have hmem := List.mem_of_getElem? hget
    exact agrees_of_mem_items as a hmem (ha a hmem) (hb b (List.mem_of_getElem? hget'))
      (Option.some.inj hsame)
  | .obj as, .obj bs =>
    rw [proper_obj] at ha hb
    have hfields := (sortedFields_eq_iff ha.2 hb.2).mp (Json.obj.inj h)
    have hget {name : String} {w : Json} : (∃ v, Fields.get? as name = some v ∧ sorted v = w) ↔
        ∃ v, Fields.get? bs name = some v ∧ sorted v = w := by
      rw [← mem_map_sortField ha.2, ← mem_map_sortField hb.2]
      exact hfields (name, w)
    refine .fields (fun name => ⟨fun hname => ?_, fun hname => ?_⟩) fun name a b hgetA hgetB => ?_
    · obtain ⟨v, hv⟩ := Fields.exists_get? hname
      obtain ⟨_, hfound, _⟩ := hget.mp ⟨v, hv, rfl⟩
      exact Fields.mem_names_of_get? hfound
    · obtain ⟨v, hv⟩ := Fields.exists_get? hname
      obtain ⟨_, hfound, _⟩ := hget.mpr ⟨v, hv, rfl⟩
      exact Fields.mem_names_of_get? hfound
    · obtain ⟨v, hv, hsame⟩ := hget.mp ⟨a, hgetA, rfl⟩
      obtain rfl : b = v := Option.some.inj (hgetB.symm.trans hv)
      have hmem := Fields.mem_of_get? hgetA
      exact agrees_of_mem_fields as (name, a) hmem (ha.1 _ hmem)
        (hb.1 _ (Fields.mem_of_get? hgetB)) hsame.symm
  | .null, .null => exact .self _
  | .bool _, .bool _ | .int _, .int _ | .num _, .num _ | .str _, .str _ =>
    simp only [sorted] at h
    rw [h]
    exact .self _
  | .null, .bool _ | .null, .int _ | .null, .num _ | .null, .str _ | .null, .arr _
  | .null, .obj _ | .bool _, .null | .bool _, .int _ | .bool _, .num _ | .bool _, .str _
  | .bool _, .arr _ | .bool _, .obj _ | .int _, .null | .int _, .bool _ | .int _, .num _
  | .int _, .str _ | .int _, .arr _ | .int _, .obj _ | .num _, .null | .num _, .bool _
  | .num _, .int _ | .num _, .str _ | .num _, .arr _ | .num _, .obj _ | .str _, .null
  | .str _, .bool _ | .str _, .int _ | .str _, .num _ | .str _, .arr _ | .str _, .obj _
  | .arr _, .null | .arr _, .bool _ | .arr _, .int _ | .arr _, .num _ | .arr _, .str _
  | .arr _, .obj _ | .obj _, .null | .obj _, .bool _ | .obj _, .int _ | .obj _, .num _
  | .obj _, .str _ | .obj _, .arr _ => cases h

theorem agrees_of_mem_items (items : List Json) : ∀ a ∈ items, ∀ {b : Json}, proper a = true →
    proper b = true → sorted a = sorted b → Agrees a b := by
  match items with
  | [] => exact fun a hmem => absurd hmem List.not_mem_nil
  | v :: rest =>
    intro a hmem b ha hb h
    by_cases hfirst : a = v
    · rw [hfirst] at ha h ⊢
      exact agrees_of_sorted_eq v ha hb h
    · exact agrees_of_mem_items rest a (List.mem_of_ne_of_mem hfirst hmem) ha hb h

theorem agrees_of_mem_fields (fs : Fields) : ∀ field ∈ fs, ∀ {b : Json},
    proper field.2 = true → proper b = true → sorted field.2 = sorted b → Agrees field.2 b := by
  match fs with
  | [] => exact fun field hmem => absurd hmem List.not_mem_nil
  | (name, v) :: rest =>
    intro field hmem b ha hb h
    by_cases hfirst : field = (name, v)
    · rw [hfirst] at ha h ⊢
      exact agrees_of_sorted_eq v ha hb h
    · exact agrees_of_mem_fields rest field (List.mem_of_ne_of_mem hfirst hmem) ha hb h

end

/-- Alike values are those that differ at most in the order of fields. -/
theorem alike_iff {a b : Json} (ha : proper a = true) (hb : proper b = true) :
    alike a b = true ↔ Agrees a b := by
  rw [alike_eq]
  exact ⟨agrees_of_sorted_eq a ha hb, fun h => sorted_eq_of_agrees h ha hb⟩

end Json
end WorkflowStudio
