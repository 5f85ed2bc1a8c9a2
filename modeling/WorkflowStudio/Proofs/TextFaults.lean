import WorkflowStudio.Json.Depth
import WorkflowStudio.Proofs.JsonText

/-!
What keeps a value from being written or read. A written value holds half a surrogate pair
exactly when one of its texts does, and a value that is read again does not nest too deep to
be written. Numbers that are not finite do not matter to either.
-/
namespace WorkflowStudio.Json

open Numeral

/-! Characters that stand for half a pair. -/

def isHalf (c : Char) : Bool := (Text.half? c).isSome

theorem isHalf_of_ascii {c : Char} (h : c.toNat < 0x80) : isHalf c = false := by
  unfold isHalf Text.half?
  rw [if_neg (by omega)]
  rfl

theorem toNat_lt_of_digit {c : Char} (h : isPlainDigit c = true) : c.toNat < 0x80 := by
  simp only [isPlainDigit, Bool.and_eq_true, decide_eq_true_eq] at h
  have hle : c.toNat ≤ '9'.toNat := h.2
  have hnine : '9'.toNat = 57 := rfl
  omega

theorem any_isHalf_of_ascii {cs : List Char} (h : ∀ c ∈ cs, c.toNat < 0x80) :
    cs.any isHalf = false := by
  rw [List.any_eq_false]
  intro c hc
  rw [isHalf_of_ascii (h c hc)]
  exact Bool.false_ne_true

theorem ascii_wholeDigits (n : Nat) : ∀ c ∈ wholeDigits n, c.toNat < 0x80 :=
  fun _ hc => toNat_lt_of_digit (isPlainDigit_of_mem_wholeDigits hc)

theorem ascii_zeros (k : Nat) : ∀ c ∈ List.replicate k '0', c.toNat < 0x80 := by
  intro c hc
  rw [List.eq_of_mem_replicate hc]
  decide

theorem ascii_append {cs ds : List Char} (hcs : ∀ c ∈ cs, c.toNat < 0x80)
    (hds : ∀ c ∈ ds, c.toNat < 0x80) : ∀ c ∈ cs ++ ds, c.toNat < 0x80 := by
  intro c hc
  exact (List.mem_append.mp hc).elim (hcs c) (hds c)

theorem ascii_cons {c : Char} {cs : List Char} (hc : c.toNat < 0x80)
    (hcs : ∀ c ∈ cs, c.toNat < 0x80) : ∀ d ∈ c :: cs, d.toNat < 0x80 := by
  intro d hd
  rcases List.mem_cons.mp hd with rfl | hd
  · exact hc
  · exact hcs d hd

theorem ascii_of_all {cs : List Char} (h : cs.all (fun c => c.toNat < 0x80) = true) :
    ∀ c ∈ cs, c.toNat < 0x80 :=
  fun c hc => of_decide_eq_true (List.all_eq_true.mp h c hc)

theorem ascii_positional {digits : List Char} (h : ∀ c ∈ digits, c.toNat < 0x80) (point : ℤ) :
    ∀ c ∈ Decimal.positional digits point, c.toNat < 0x80 := by
  unfold Decimal.positional
  split
  · exact ascii_cons (by decide) (ascii_cons (by decide) (ascii_append (ascii_zeros _) h))
  · dsimp only
    refine ascii_append (ascii_append (fun c hc => h c (List.mem_of_mem_take hc)) (ascii_zeros _))
      (ascii_cons (by decide) ?_)
    split
    · exact ascii_of_all rfl
    · exact fun c hc => h c (List.mem_of_mem_drop hc)

theorem ascii_scientific {digits : List Char} (h : ∀ c ∈ digits, c.toNat < 0x80) (width : ℕ)
    (power : ℤ) : ∀ c ∈ Decimal.scientific width digits power, c.toNat < 0x80 := by
  unfold Decimal.scientific
  dsimp only
  refine ascii_append (ascii_append (fun c hc => h c (List.mem_of_mem_take hc)) ?_)
    (ascii_cons (by decide) (ascii_cons ?_ (ascii_append (ascii_zeros _) (ascii_wholeDigits _))))
  · split
    · exact fun c hc => absurd hc List.not_mem_nil
    · exact ascii_cons (by decide) fun c hc => h c (List.mem_of_mem_drop hc)
  · split <;> decide

theorem ascii_sign (negative : Bool) :
    ∀ c ∈ (if negative then ['-'] else []), c.toNat < 0x80 := by
  cases negative <;> exact ascii_of_all rfl

/-- Numbers are written in plain characters when the words of the layout are. -/
theorem ascii_layout_text {layout : Decimal.Layout} (x : Double)
    (hwords : [layout.nanText, layout.infinityText, layout.negativeInfinityText].all
      (fun word => word.toList.all fun c => c.toNat < 0x80) = true) :
    ∀ c ∈ (layout.text x).toList, c.toNat < 0x80 := by
  have hword := List.all_eq_true.mp hwords
  unfold Decimal.Layout.text
  split
  · exact ascii_of_all (hword _ List.mem_cons_self)
  · split
    · split
      · exact ascii_of_all
          (hword _ (List.mem_cons_of_mem _ (List.mem_cons_of_mem _ List.mem_cons_self)))
      · exact ascii_of_all (hword _ (List.mem_cons_of_mem _ List.mem_cons_self))
    · rw [String.toList_ofList, magnitudeText_eq]
      refine ascii_append (ascii_sign _) ?_
      dsimp only
      split
      · exact ascii_positional (ascii_wholeDigits _) _
      · exact ascii_scientific (ascii_wholeDigits _) _ _

theorem ascii_number (x : Double) : ∀ c ∈ (Decimal.stored.text x).toList, c.toNat < 0x80 :=
  ascii_layout_text x (by decide)

theorem ascii_intText (n : Int) : ∀ c ∈ (Decimal.intText n).toList, c.toNat < 0x80 := by
  rw [intText_toList]
  exact ascii_append (ascii_sign _) (ascii_wholeDigits _)

theorem escapeChar_of_not_ascii {c : Char} (h : 0x80 ≤ c.toNat) : escapeChar false c = [c] := by
  have hne (d : Char) (hd : d.toNat < 0x80) : c ≠ d := by
    rintro rfl
    omega
  unfold escapeChar
  rw [if_neg (hne '"' (by decide)), if_neg (hne '\\' (by decide)), if_neg (hne '\n' (by decide)),
    if_neg (hne '\r' (by decide)), if_neg (hne '\t' (by decide)), if_neg (by omega),
    if_neg (by omega), if_neg (by omega)]
  rfl

theorem any_isHalf_escapeChar (c : Char) : (escapeChar false c).any isHalf = isHalf c := by
  by_cases hascii : c.toNat < 0x80
  · have hall : ∀ k : Fin 0x80, (escapeChar false (Char.ofNat k)).any isHalf = false := by decide
    have hc := hall ⟨c.toNat, hascii⟩
    rw [Char.ofNat_toNat] at hc
    rw [hc, isHalf_of_ascii hascii]
  · rw [escapeChar_of_not_ascii (by omega), List.any_cons, List.any_nil, Bool.or_false]

theorem any_isHalf_writeString (s : String) :
    (writeString false s).any isHalf = (broken? s).isSome := by
  have hchars (cs : List Char) : (cs.flatMap (escapeChar false)).any isHalf = cs.any isHalf := by
    induction cs with
    | nil => rfl
    | cons c cs ih =>
      rw [List.flatMap_cons, List.any_append, any_isHalf_escapeChar, ih, List.any_cons]
  have hbroken : Text.isBroken s = s.toList.any isHalf := rfl
  have hquote : isHalf '"' = false := by decide
  rw [writeString, List.any_cons, List.any_append, hchars, List.any_cons, List.any_nil, hquote,
    Bool.false_or, Bool.or_false, Bool.or_false, ← hbroken, broken?]
  cases Text.isBroken s <;> rfl

theorem isSome_orElse {α : Type} (o : Option α) (next : Unit → Option α) :
    (o.orElse next).isSome = (o.isSome || (next ()).isSome) := by
  cases o <;> rfl

theorem isSome_brokenItem? (v : Json) (rest : List Json) :
    (brokenItem? (v :: rest)).isSome = ((brokenText? v).isSome || (brokenItem? rest).isSome) :=
  isSome_orElse _ _

theorem isSome_brokenField? (name : String) (v : Json) (rest : List (String × Json)) :
    (brokenField? ((name, v) :: rest)).isSome =
      ((broken? name).isSome || (brokenText? v).isSome || (brokenField? rest).isSome) :=
  (isSome_orElse _ _).trans (congrArg (· || _) (isSome_orElse _ _))

mutual

/-- A written value holds half a pair exactly when one of its texts does. -/
theorem any_isHalf_write (v : Json) : (write compact v).any isHalf = (brokenText? v).isSome := by
  match v with
  | .null => decide
  | .bool true => decide
  | .bool false => decide
  | .int n =>
    have hascii : ∀ c ∈ (Decimal.intText n).toList, c.toNat < 0x80 := by
      rw [intText_toList]
      exact ascii_append (ascii_sign _) (ascii_wholeDigits _)
    exact any_isHalf_of_ascii hascii
  | .num x => exact any_isHalf_of_ascii (ascii_number x)
  | .str s => exact any_isHalf_writeString s
  | .arr items =>
    have hopen : isHalf '[' = false := by decide
    have hclose : isHalf ']' = false := by decide
    rw [write, List.any_cons, List.any_append, any_isHalf_writeItems, List.any_cons, List.any_nil,
      hopen, hclose, Bool.false_or, Bool.or_false, Bool.or_false]
    rfl
  | .obj fields =>
    have hopen : isHalf '{' = false := by decide
    have hclose : isHalf '}' = false := by decide
    rw [write, List.any_cons, List.any_append, any_isHalf_writeFields, List.any_cons,
      List.any_nil, hopen, hclose, Bool.false_or, Bool.or_false, Bool.or_false]
    rfl

theorem any_isHalf_writeItems (items : List Json) :
    (writeItems compact items).any isHalf = (brokenItem? items).isSome := by
  match items with
  | [] => rfl
  | [item] =>
    rw [writeItems, any_isHalf_write, isSome_brokenItem?]
    exact (Bool.or_false _).symm
  | item :: next :: items =>
    have hcomma : compact.comma.toList.any isHalf = false := by decide
    rw [writeItems_cons_cons, List.any_append, List.any_append, any_isHalf_write,
      any_isHalf_writeItems, hcomma, Bool.or_false,
      isSome_brokenItem? item (next :: items)]

theorem any_isHalf_writeFields (fields : List (String × Json)) :
    (writeFields compact fields).any isHalf = (brokenField? fields).isSome := by
  match fields with
  | [] => rfl
  | [(name, value)] =>
    have hcolon : compact.colon.toList.any isHalf = false := by decide
    have hname : (writeString compact.asciiOnly name).any isHalf = (broken? name).isSome :=
      any_isHalf_writeString name
    rw [writeFields, List.any_append, List.any_append, any_isHalf_write, hcolon, Bool.or_false,
      hname, isSome_brokenField?]
    exact (Bool.or_false _).symm
  | (name, value) :: next :: fields =>
    have hcolon : compact.colon.toList.any isHalf = false := by decide
    have hcomma : compact.comma.toList.any isHalf = false := by decide
    have hname : (writeString compact.asciiOnly name).any isHalf = (broken? name).isSome :=
      any_isHalf_writeString name
    rw [writeFields_cons_cons]
    simp only [List.any_append]
    rw [any_isHalf_write, any_isHalf_writeFields, hcolon, hcomma, Bool.or_false, Bool.or_false,
      hname, isSome_brokenField? name value (next :: fields)]

end

theorem isBroken_text (v : Json) : Text.isBroken (text compact v) = (brokenText? v).isSome := by
  rw [← any_isHalf_write, text, Text.isBroken, String.toList_ofList]
  rfl

/-! Depth. -/

mutual

/-- What is read below some levels can be written with one level more. -/
theorem exceeds_of_legible {dialect : Dialect} (v : Json) {depth bound : Nat}
    (h : legible dialect depth v = true) (hbound : depth < bound) : exceeds bound v = false := by
  obtain ⟨bound, rfl⟩ : ∃ k, bound = k + 1 := ⟨bound - 1, by omega⟩
  match v with
  | .null | .bool _ | .int _ | .num _ | .str _ => rfl
  | .arr [] => rfl
  | .arr (item :: items) =>
    rw [legible, List.isEmpty_cons, Bool.false_or, Bool.and_eq_true, decide_eq_true_eq] at h
    exact exceedsItems_of_legible (item :: items) h.2 (by omega)
  | .obj [] => rfl
  | .obj (field :: fields) =>
    rw [legible, List.isEmpty_cons, Bool.false_or, Bool.and_eq_true, decide_eq_true_eq] at h
    exact exceedsFields_of_legible (field :: fields) h.2 (by omega)

theorem exceedsItems_of_legible {dialect : Dialect} (items : List Json) {depth bound : Nat}
    (h : legibleItems dialect depth items = true) (hbound : depth < bound) :
    exceedsItems bound items = false := by
  match items with
  | [] => rfl
  | item :: items =>
    rw [legibleItems, Bool.and_eq_true] at h
    rw [exceedsItems, exceeds_of_legible item h.1 hbound, exceedsItems_of_legible items h.2 hbound]
    rfl

theorem exceedsFields_of_legible {dialect : Dialect} (fields : List (String × Json))
    {depth bound : Nat} (h : legibleFields dialect depth fields = true) (hbound : depth < bound) :
    exceedsFields bound fields = false := by
  match fields with
  | [] => rfl
  | field :: fields =>
    rw [legibleFields, Bool.and_eq_true] at h
    rw [exceedsFields, exceeds_of_legible field.2 h.1 hbound,
      exceedsFields_of_legible fields h.2 hbound]
    rfl

end

end WorkflowStudio.Json
