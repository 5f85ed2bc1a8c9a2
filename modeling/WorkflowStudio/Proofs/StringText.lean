import WorkflowStudio.Json.Reader
import WorkflowStudio.Json.Writer

/-!
Texts inside JSON. The characters of a text come out as code units, in which escapes are
undone, and no unit of a character is half of a pair.
-/
namespace WorkflowStudio.Json

variable {dialect : Dialect}

/-- A control character is told by its code. -/
theorem hexUnit?_hexDigits {n : Nat} (h : n < 0x20) : hexUnit? (Text.hexDigits 4 n) = some n := by
  have hall : ∀ k : Fin 0x20, hexUnit? (Text.hexDigits 4 k) = some k.val := by decide
  exact hall ⟨n, h⟩

theorem readUnits_unitEscape {n : Nat} (h : n < 0x20) (units : List Nat) (rest : List Char) :
    readUnits units (unitEscape n ++ rest) = readUnits (n :: units) rest := by
  have hunit := hexUnit?_hexDigits h
  have hdigits : Text.hexDigits 4 n =
      [Text.hexDigit (n / 16 / 16 / 16 % 16), Text.hexDigit (n / 16 / 16 % 16),
        Text.hexDigit (n / 16 % 16), Text.hexDigit (n % 16)] := rfl
  rw [hdigits] at hunit
  rw [unitEscape, hdigits]
  simp only [List.cons_append, List.nil_append, readUnits, hunit]

theorem char_eq_of_toNat {c : Char} {n : Nat} (h : c.toNat = n) : c = Char.ofNat n := by
  rw [← h, Char.ofNat_toNat]

/-- Reading undoes the escape of one character. -/
theorem readUnits_escapeChar (c : Char) (units : List Nat) (rest : List Char) :
    readUnits units (escapeChar false c ++ rest) = readUnits (c.toNat :: units) rest := by
  unfold escapeChar
  split
  · rename_i h; subst h; rfl
  split
  · rename_i h; subst h; rfl
  split
  · rename_i h; subst h; rfl
  split
  · rename_i h; subst h; rfl
  split
  · rename_i h; subst h; rfl
  split
  · rename_i h; rw [char_eq_of_toNat h]; rfl
  split
  · rename_i h; rw [char_eq_of_toNat h]; rfl
  split
  · rename_i h; exact readUnits_unitEscape h units rest
  · rename_i hquote hslash _ _ _ _ _ hcontrol
    rw [Bool.false_and, if_neg Bool.false_ne_true, List.singleton_append]
    rw [readUnits]
    · exact if_neg hcontrol
    · exact hquote
    · intro a b d e tail hc
      exact absurd hc hslash
    · intro d tail hc
      exact absurd hc hslash

theorem readUnits_escaped (cs : List Char) (units : List Nat) (rest : List Char) :
    readUnits units (cs.flatMap (escapeChar false) ++ '"' :: rest) =
      some ((cs.map Char.toNat).reverse ++ units, rest) := by
  induction cs generalizing units with
  | nil => rfl
  | cons c cs ih =>
    rw [List.flatMap_cons, List.append_assoc, readUnits_escapeChar, ih, List.map_cons,
      List.reverse_cons, List.append_assoc, List.singleton_append]

theorem isSurrogate_toNat (c : Char) :
    Text.isHighSurrogate c.toNat = false ∧ Text.isLowSurrogate c.toNat = false := by
  have hvalid := c.valid
  have htoNat : c.toNat = c.val.toNat := rfl
  unfold Text.isHighSurrogate Text.isLowSurrogate
  rcases hvalid with hlow | ⟨hhigh, -⟩
  · have hlow' : c.toNat < 0xd800 := hlow
    constructor <;> rw [Bool.and_eq_false_iff] <;> left <;> exact decide_eq_false (by omega)
  · have hhigh' : 0xdfff < c.toNat := hhigh
    constructor <;> rw [Bool.and_eq_false_iff] <;> right <;> exact decide_eq_false (by omega)

theorem joinUnits_toNat (cs : List Char) : joinUnits dialect (cs.map Char.toNat) = some cs := by
  induction cs with
  | nil => rw [List.map_nil, joinUnits]
  | cons c cs ih =>
    obtain ⟨hhigh, hlow⟩ := isSurrogate_toNat c
    rw [List.map_cons, joinUnits.eq_def]
    simp only [hhigh, hlow, ih, Bool.false_eq_true, if_false, Option.map_some, Char.ofNat_toNat]

/-- A text that was written is read as it was. -/
theorem readString_writeString (s : String) (rest : List Char) :
    readString dialect ((writeString false s).tail ++ rest) = some (s, rest) := by
  have htail : (writeString false s).tail ++ rest =
      s.toList.flatMap (escapeChar false) ++ '"' :: rest := by
    rw [writeString, List.tail_cons, List.append_assoc, List.singleton_append]
  rw [htail, readString, readUnits_escaped, Option.bind_some, List.append_nil]
  dsimp only
  rw [List.reverse_reverse, joinUnits_toNat, Option.map_some, String.ofList_toList]

end WorkflowStudio.Json
