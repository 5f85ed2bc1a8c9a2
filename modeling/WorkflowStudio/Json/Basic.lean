import WorkflowStudio.Decimal.Double

/-!
JSON values. Whole numbers have any size and differ from real numbers of the
same value. The fields of an object keep their order and have distinct names.
-/
namespace WorkflowStudio

inductive Json where
  | null
  | bool (value : Bool)
  | int (value : Int)
  | num (value : Double)
  | str (value : String)
  | arr (items : List Json)
  | obj (fields : List (String × Json))
deriving Inhabited, Repr

/-- The named fields of an object in order. -/
abbrev Fields := List (String × Json)

namespace Fields

def get? (fs : Fields) (name : String) : Option Json := (fs.find? (·.1 == name)).map (·.2)

def has (fs : Fields) (name : String) : Bool := fs.any (·.1 == name)

def names (fs : Fields) : List String := fs.map (·.1)

def values (fs : Fields) : List Json := fs.map (·.2)

/-- Replaces the field where it stands or adds it at the end. -/
def insert (fs : Fields) (name : String) (value : Json) : Fields :=
  match fs with
  | [] => [(name, value)]
  | field :: rest =>
      if field.1 == name then (name, value) :: rest else field :: insert rest name value

def erase (fs : Fields) (name : String) : Fields := fs.filter (·.1 != name)

/-- Adds the fields of the second list to the first, one after the other. -/
def merge (fs changes : Fields) : Fields :=
  changes.foldl (fun fs change => insert fs change.1 change.2) fs

/-- Of fields with one name the first gives the place and the last the value. -/
def ofPairs (pairs : List (String × Json)) : Fields := merge [] pairs

theorem get?_nil (name : String) : get? [] name = none := rfl

theorem get?_insert_self (fs : Fields) (name : String) (value : Json) :
    get? (insert fs name value) name = some value := by
  induction fs with
  | nil => simp [insert, get?]
  | cons field rest ih =>
    by_cases h : field.1 = name
    · simp [insert, get?, h]
    · simp only [insert, beq_iff_eq, h, if_false]
      simpa [get?, h] using ih

theorem get?_insert_of_ne (fs : Fields) {name other : String} (value : Json)
    (h : other ≠ name) : get? (insert fs name value) other = get? fs other := by
  induction fs with
  | nil => simp [insert, get?, Ne.symm h]
  | cons field rest ih =>
    by_cases hn : field.1 = name
    · subst hn
      simp [insert, get?, Ne.symm h]
    · simp only [insert, beq_iff_eq, hn, if_false]
      by_cases ho : field.1 = other
      · simp [get?, ho]
      · simpa [get?, ho] using ih

end Fields

namespace Json

mutual

/-- Equality of values, with the same order of fields. -/
def same : Json → Json → Bool
  | .null, .null => true
  | .bool a, .bool b => a == b
  | .int a, .int b => a == b
  | .num a, .num b => a == b
  | .str a, .str b => a == b
  | .arr a, .arr b => sameItems a b
  | .obj a, .obj b => sameFields a b
  | _, _ => false

def sameItems : List Json → List Json → Bool
  | [], [] => true
  | a :: as, b :: bs => same a b && sameItems as bs
  | _, _ => false

def sameFields : List (String × Json) → List (String × Json) → Bool
  | [], [] => true
  | (m, a) :: as, (n, b) :: bs => m == n && same a b && sameFields as bs
  | _, _ => false

end

instance : BEq Json := ⟨same⟩

mutual

theorem eq_of_same {a b : Json} (h : same a b = true) : a = b := by
  match a, b with
  | .null, .null => rfl
  | .bool _, .bool _ => simp only [same, beq_iff_eq] at h; rw [h]
  | .int _, .int _ => simp only [same, beq_iff_eq] at h; rw [h]
  | .num _, .num _ => simp only [same, beq_iff_eq] at h; rw [h]
  | .str _, .str _ => simp only [same, beq_iff_eq] at h; rw [h]
  | .arr xs, .arr ys =>
    have e : xs = ys := eq_of_sameItems (by simpa only [same] using h)
    rw [e]
  | .obj xs, .obj ys =>
    have e : xs = ys := eq_of_sameFields (by simpa only [same] using h)
    rw [e]
  | .null, .bool _ | .null, .int _ | .null, .num _ | .null, .str _ | .null, .arr _
  | .null, .obj _ | .bool _, .null | .bool _, .int _ | .bool _, .num _ | .bool _, .str _
  | .bool _, .arr _ | .bool _, .obj _ | .int _, .null | .int _, .bool _ | .int _, .num _
  | .int _, .str _ | .int _, .arr _ | .int _, .obj _ | .num _, .null | .num _, .bool _
  | .num _, .int _ | .num _, .str _ | .num _, .arr _ | .num _, .obj _ | .str _, .null
  | .str _, .bool _ | .str _, .int _ | .str _, .num _ | .str _, .arr _ | .str _, .obj _
  | .arr _, .null | .arr _, .bool _ | .arr _, .int _ | .arr _, .num _ | .arr _, .str _
  | .arr _, .obj _ | .obj _, .null | .obj _, .bool _ | .obj _, .int _ | .obj _, .num _
  | .obj _, .str _ | .obj _, .arr _ => simp [same] at h

theorem eq_of_sameItems {as bs : List Json} (h : sameItems as bs = true) : as = bs := by
  match as, bs with
  | [], [] => rfl
  | a :: as, b :: bs =>
    simp only [sameItems, Bool.and_eq_true] at h
    rw [eq_of_same h.1, eq_of_sameItems h.2]
  | [], _ :: _ | _ :: _, [] => simp [sameItems] at h

theorem eq_of_sameFields {as bs : List (String × Json)} (h : sameFields as bs = true) :
    as = bs := by
  match as, bs with
  | [], [] => rfl
  | (m, a) :: as, (n, b) :: bs =>
    simp only [sameFields, Bool.and_eq_true, beq_iff_eq] at h
    rw [h.1.1, eq_of_same h.1.2, eq_of_sameFields h.2]
  | [], _ :: _ | _ :: _, [] => simp [sameFields] at h

end

mutual

theorem same_self (a : Json) : same a a = true := by
  match a with
  | .null => rfl
  | .bool _ | .int _ | .num _ | .str _ => simp [same]
  | .arr items => simpa only [same] using sameItems_self items
  | .obj fields => simpa only [same] using sameFields_self fields

theorem sameItems_self (as : List Json) : sameItems as as = true := by
  match as with
  | [] => rfl
  | a :: as => simp [sameItems, same_self a, sameItems_self as]

theorem sameFields_self (as : List (String × Json)) : sameFields as as = true := by
  match as with
  | [] => rfl
  | (_, a) :: as => simp [sameFields, same_self a, sameFields_self as]

end

theorem same_iff {a b : Json} : same a b = true ↔ a = b :=
  ⟨eq_of_same, fun h => h ▸ same_self a⟩

instance : DecidableEq Json := fun _ _ => decidable_of_iff _ same_iff

instance : LawfulBEq Json where
  eq_of_beq := eq_of_same
  rfl := same_self _

/-- Whether a value counts as present: null, false, zero and empty values do not. -/
def isPresent : Json → Bool
  | .null => false
  | .bool b => b
  | .int n => n != 0
  | .num x => !x.isZero
  | .str s => s != ""
  | .arr items => !items.isEmpty
  | .obj fields => !fields.isEmpty

def ofOption {α : Type} (f : α → Json) : Option α → Json
  | none => .null
  | some a => f a

def ofStrings (items : List String) : Json := .arr (items.map .str)

mutual

/-- Replaces numbers that are not finite by null. -/
def finite : Json → Json
  | .num x => if x.isFinite then .num x else .null
  | .arr items => .arr (finiteItems items)
  | .obj fields => .obj (finiteFields fields)
  | v => v

def finiteItems : List Json → List Json
  | [] => []
  | v :: rest => finite v :: finiteItems rest

def finiteFields : List (String × Json) → List (String × Json)
  | [] => []
  | (name, v) :: rest => (name, finite v) :: finiteFields rest

end

end Json
end WorkflowStudio
