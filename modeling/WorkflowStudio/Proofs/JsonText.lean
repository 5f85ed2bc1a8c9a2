import Mathlib.Data.List.Nodup
import WorkflowStudio.Proofs.NumberText
import WorkflowStudio.Proofs.StringText

/-!
Values that are written and read. A value reads back, with null for the numbers that are not
finite, exactly when it does not nest too deep and no whole number in it is too long.
-/
namespace WorkflowStudio.Json

open Numeral

mutual

/-- Whether a written value is read again below a number of further levels. -/
def legible (dialect : Dialect) : Nat → Json → Bool
  | _, .null | _, .bool _ | _, .num _ | _, .str _ => true
  | _, .int n => !dialect.refuses (n < 0) true (wholeDigits n.natAbs)
  | depth, .arr items => items.isEmpty || (0 < depth && legibleItems dialect (depth - 1) items)
  | depth, .obj fields => fields.isEmpty || (0 < depth && legibleFields dialect (depth - 1) fields)

def legibleItems (dialect : Dialect) (depth : Nat) : List Json → Bool
  | [] => true
  | v :: rest => legible dialect depth v && legibleItems dialect depth rest

def legibleFields (dialect : Dialect) (depth : Nat) : List (String × Json) → Bool
  | [] => true
  | field :: rest => legible dialect depth field.2 && legibleFields dialect depth rest

end

mutual

/-- Whether the fields of every object in a value have distinct names. -/
def proper : Json → Bool
  | .null | .bool _ | .int _ | .num _ | .str _ => true
  | .arr items => properItems items
  | .obj fields => properFields fields && decide (Fields.names fields).Nodup

def properItems : List Json → Bool
  | [] => true
  | v :: rest => proper v && properItems rest

def properFields : List (String × Json) → Bool
  | [] => true
  | field :: rest => proper field.2 && properFields rest

end

variable {dialect : Dialect}

/-! Fields with distinct names. -/

theorem insert_of_not_mem {fs : Fields} {name : String} (h : name ∉ fs.names) (v : Json) :
    fs.insert name v = fs ++ [(name, v)] := by
  induction fs with
  | nil => rfl
  | cons field rest ih =>
    simp only [Fields.names, List.map_cons, List.mem_cons, not_or] at h
    rw [Fields.insert, if_neg (by simpa using Ne.symm h.1), ih h.2, List.cons_append]

theorem merge_of_nodup {fs changes : Fields} (h : (fs.names ++ changes.names).Nodup) :
    fs.merge changes = fs ++ changes := by
  induction changes generalizing fs with
  | nil => exact (List.append_nil fs).symm
  | cons field rest ih =>
    have hnotMem : field.1 ∉ fs.names := by
      intro hmem
      exact List.disjoint_of_nodup_append h hmem List.mem_cons_self
    have hnext : (Fields.names (fs ++ [(field.1, field.2)]) ++ Fields.names rest).Nodup := by
      simpa [Fields.names] using h
    change (fs.insert field.1 field.2).merge rest = _
    rw [insert_of_not_mem hnotMem, ih hnext, List.append_assoc, List.singleton_append]

theorem ofPairs_of_nodup {fs : Fields} (h : fs.names.Nodup) : Fields.ofPairs fs = fs :=
  merge_of_nodup (by simpa [Fields.names] using h)

theorem names_finiteFields (fs : Fields) : (Fields.names (finiteFields fs)) = fs.names := by
  induction fs with
  | nil => rfl
  | cons field rest ih =>
    rw [finiteFields]
    exact congrArg (field.1 :: ·) ih

/-! What the reader does at the first character of a value. -/

theorem skipBlank_of_not_blank {c : Char} (h : isTextBlank c = false) (rest : List Char) :
    skipBlank (c :: rest) = c :: rest := by
  rw [skipBlank, List.dropWhile_cons, h]
  rfl

theorem isTextBlank_of_digit {c : Char} (h : isPlainDigit c = true) : isTextBlank c = false := by
  simp only [isPlainDigit, Bool.and_eq_true, decide_eq_true_eq] at h
  unfold isTextBlank
  simp only [Bool.or_eq_false_iff, beq_eq_false_iff_ne]
  refine ⟨⟨⟨?_, ?_⟩, ?_⟩, ?_⟩ <;> rintro rfl <;> exact absurd h (by decide)

section First

-- The reader splits on many characters: its equations are made here once, not by each lemma.
attribute [local simp] readValue

variable (fuel depth : Nat) (rest : List Char)

theorem readValue_quote : readValue dialect (fuel + 1) depth ('"' :: rest) =
    (readString dialect rest).map fun (s, rest) => (.str s, rest) := by
  rw [readValue, skipBlank_of_not_blank (by decide)]
  rfl

theorem readValue_minus : readValue dialect (fuel + 1) depth ('-' :: rest) =
    readNegative dialect rest := by
  rw [readValue, skipBlank_of_not_blank (by decide)]
  rfl

theorem readValue_digit {c : Char} (h : isPlainDigit c = true) :
    readValue dialect (fuel + 1) depth (c :: rest) = readMagnitude dialect false (c :: rest) := by
  rw [readValue, skipBlank_of_not_blank (isTextBlank_of_digit h)]
  split
  all_goals first
    | rfl
    | (rename_i heq; cases heq <;> exact absurd h (by decide))

theorem readValue_bracket : readValue dialect (fuel + 1) depth ('[' :: rest) =
    match skipBlank rest, depth with
    | ']' :: rest, _ => some (.arr [], rest)
    | _, 0 => none
    | rest, depth + 1 => (readItems dialect fuel depth rest).map fun (items, rest) =>
        (.arr items, rest) := by
  rw [readValue, skipBlank_of_not_blank (by decide)]
  rfl

theorem readValue_brace : readValue dialect (fuel + 1) depth ('{' :: rest) =
    match skipBlank rest, depth with
    | '}' :: rest, _ => some (.obj [], rest)
    | _, 0 => none
    | rest, depth + 1 => (readFields dialect fuel depth rest).map fun (fields, rest) =>
        (.obj (Fields.ofPairs fields), rest) := by
  rw [readValue, skipBlank_of_not_blank (by decide)]
  rfl

theorem readValue_emptyList :
    readValue dialect (fuel + 1) depth ('[' :: ']' :: rest) = some (.arr [], rest) := by
  rw [readValue_bracket, skipBlank_of_not_blank (by decide)]
  cases depth <;> rfl

theorem readValue_emptyObject :
    readValue dialect (fuel + 1) depth ('{' :: '}' :: rest) = some (.obj [], rest) := by
  rw [readValue_brace, skipBlank_of_not_blank (by decide)]
  cases depth <;> rfl

theorem readValue_list {c : Char} (hblank : isTextBlank c = false) (hend : c ≠ ']') :
    readValue dialect (fuel + 1) depth ('[' :: c :: rest) =
      if 0 < depth then
        (readItems dialect fuel (depth - 1) (c :: rest)).map fun (items, rest) => (.arr items, rest)
      else none := by
  rw [readValue_bracket, skipBlank_of_not_blank hblank]
  cases depth with
  | zero =>
    split
    · injection ‹c :: rest = ']' :: _› with hc
      exact absurd hc hend
    · rfl
    · contradiction
  | succ depth =>
    split
    · injection ‹c :: rest = ']' :: _› with hc
      exact absurd hc hend
    · contradiction
    · rename_i hdepth _
      cases hdepth
      rfl

theorem readValue_object {c : Char} (hblank : isTextBlank c = false) (hend : c ≠ '}') :
    readValue dialect (fuel + 1) depth ('{' :: c :: rest) =
      if 0 < depth then
        (readFields dialect fuel (depth - 1) (c :: rest)).map fun (fields, rest) =>
          (.obj (Fields.ofPairs fields), rest)
      else none := by
  rw [readValue_brace, skipBlank_of_not_blank hblank]
  cases depth with
  | zero =>
    split
    · injection ‹c :: rest = '}' :: _› with hc
      exact absurd hc hend
    · rfl
    · contradiction
  | succ depth =>
    split
    · injection ‹c :: rest = '}' :: _› with hc
      exact absurd hc hend
    · contradiction
    · rename_i hdepth _
      cases hdepth
      rfl

end First

/-! Single values. -/

section Single

variable {rest : List Char} (fuel depth : Nat)

/-- A text that begins with a digit. -/
def StartsWithDigit (cs : List Char) : Prop := ∃ c tail, cs = c :: tail ∧ isPlainDigit c = true

theorem startsWithDigit_wholeDigits (n : Nat) : StartsWithDigit (wholeDigits n) := by
  obtain ⟨c, tail, h⟩ := List.exists_cons_of_ne_nil (wholeDigits_ne_nil n)
  exact ⟨c, tail, h, isPlainDigit_of_mem_wholeDigits (h ▸ List.mem_cons_self)⟩

theorem startsWithDigit_magnitudeText (layout : Decimal.Layout) (d : Decimal) :
    StartsWithDigit (Decimal.magnitudeText layout d) := by
  obtain ⟨c, tail, h, hc⟩ := startsWithDigit_wholeDigits d.digits
  rw [magnitudeText_eq, h]
  dsimp only
  split
  · unfold Decimal.positional
    split
    · exact ⟨'0', _, rfl, by decide⟩
    · rename_i hpoint
      obtain ⟨k, hk⟩ : ∃ k, (d.exponent + (c :: tail).length - 1 + 1).toNat = k + 1 :=
        ⟨(d.exponent + (c :: tail).length - 1).toNat, by omega⟩
      rw [hk]
      exact ⟨c, _, rfl, hc⟩
  · exact ⟨c, _, rfl, hc⟩

/-- Numbers are read with their sign in front. -/
theorem readValue_signed {cs : List Char} (negative : Bool) (h : StartsWithDigit cs) :
    readValue dialect (fuel + 1) depth ((if negative then ['-'] else []) ++ cs ++ rest) =
      readMagnitude dialect negative (cs ++ rest) := by
  obtain ⟨c, tail, rfl, hc⟩ := h
  cases negative with
  | false => exact readValue_digit fuel depth (tail ++ rest) hc
  | true =>
    have hword : ¬((c :: tail) ++ rest).head? = some 'I' := by
      intro hhead
      cases hhead
      cases hc
    exact (readValue_minus fuel depth _).trans (if_neg hword)

theorem readValue_null : readValue dialect (fuel + 1) depth ("null".toList ++ rest) =
    some (.null, rest) := by
  rw [readValue]
  rfl

theorem readValue_true : readValue dialect (fuel + 1) depth ("true".toList ++ rest) =
    some (.bool true, rest) := by
  rw [readValue]
  rfl

theorem readValue_false : readValue dialect (fuel + 1) depth ("false".toList ++ rest) =
    some (.bool false, rest) := by
  rw [readValue]
  rfl

theorem readValue_str (s : String) : readValue dialect (fuel + 1) depth
    (writeString false s ++ rest) = some (.str s, rest) := by
  have hsplit : writeString false s ++ rest = '"' :: ((writeString false s).tail ++ rest) := rfl
  rw [hsplit, readValue_quote, readString_writeString]
  rfl

theorem stored_text_of_finite {x : Double} (h : x.isFinite = true) :
    (Decimal.stored.text x).toList = (if x.isNegative then ['-'] else []) ++
      Decimal.magnitudeText Decimal.stored (Decimal.shortest x) := by
  have hbound : x.magnitude < Double.infinityBits := of_decide_eq_true h
  have hnan : x.isNaN = false := decide_eq_false (by omega)
  unfold Decimal.Layout.text
  rw [hnan, h]
  exact String.toList_ofList

theorem stored_text_of_not_finite {x : Double} (h : x.isFinite = false) :
    Decimal.stored.text x = "null" := by
  unfold Decimal.Layout.text
  rw [h]
  split
  · rfl
  · rw [if_pos (show (!false) = true from rfl)]
    split <;> rfl

theorem readValue_num (x : Double) (hrest : EndsNumber rest) :
    readValue dialect (fuel + 1) depth ((Decimal.stored.text x).toList ++ rest) =
      some ((Json.num x).finite, rest) := by
  cases hfinite : x.isFinite with
  | false =>
    rw [stored_text_of_not_finite hfinite, readValue_null, Json.finite, hfinite]
    rfl
  | true =>
    rw [stored_text_of_finite hfinite,
      readValue_signed fuel depth x.isNegative (startsWithDigit_magnitudeText _ _),
      readMagnitude_magnitudeText (by decide) hfinite hrest, Json.finite, hfinite]
    rfl

/-- A whole number is read unless it is too long. -/
theorem readMagnitude_wholeDigits (n : Nat) (negative : Bool) (hrest : EndsNumber rest) :
    readMagnitude dialect negative (wholeDigits n ++ rest) =
      if dialect.refuses negative true (wholeDigits n) then none
      else some (.int (signed negative n), rest) := by
  have hspan : (wholeDigits n ++ rest).span isPlainDigit = (wholeDigits n, rest) :=
    span_digits (fun c hc => isPlainDigit_of_mem_wholeDigits hc) hrest.endsDigits
  have hstart : ((wholeDigits n).isEmpty ||
      (decide ((wholeDigits n).head? = some '0') &&
        decide ((wholeDigits n).length ≠ 1))) = false := by
    rw [List.isEmpty_eq_false_iff.mpr (wholeDigits_ne_nil n), Bool.false_or,
      Bool.and_eq_false_iff]
    rcases Nat.eq_zero_or_pos n with rfl | hpos
    · exact Or.inr rfl
    · exact Or.inl (decide_eq_false (head?_wholeDigits hpos))
  unfold readMagnitude
  simp only [hspan]
  rw [if_neg (by simpa using hstart), hrest.readFraction]
  dsimp only [Option.bind_some]
  rw [hrest.readExponent]
  dsimp only [Option.bind_some]
  rw [plainValue_wholeDigits]
  rfl

theorem intText_toList (n : Int) : (Decimal.intText n).toList =
    (if decide (n < 0) then ['-'] else []) ++ wholeDigits n.natAbs := by
  cases n with
  | ofNat m =>
    have hpos : decide (Int.ofNat m < 0) = false :=
      decide_eq_false (Int.not_lt.mpr (Int.natCast_nonneg m))
    rw [hpos]
    rfl
  | negSucc m =>
    have htext : Decimal.intText (Int.negSucc m) = "-" ++ toString (m + 1) := rfl
    rw [htext, String.toList_append, decide_eq_true (Int.negSucc_lt_zero m)]
    rfl

theorem readValue_int (n : Int) (hrest : EndsNumber rest) :
    readValue dialect (fuel + 1) depth ((Decimal.intText n).toList ++ rest) =
      if legible dialect depth (.int n) then some (.int n, rest) else none := by
  have hsigned : signed (decide (n < 0)) n.natAbs = n := by
    unfold signed
    split
    · rename_i h
      have hneg := of_decide_eq_true h
      omega
    · rename_i h
      have hpos := of_decide_eq_false (Bool.eq_false_iff.mpr h)
      omega
  rw [intText_toList, readValue_signed fuel depth _ (startsWithDigit_wholeDigits _),
    readMagnitude_wholeDigits _ _ hrest, hsigned, legible]
  split <;> simp_all

end Single

/-! Values as a whole. -/

/-- A written value begins with a character of its own. -/
theorem write_head (v : Json) : ∃ c tail, write compact v = c :: tail ∧ isTextBlank c = false ∧
    c ≠ ']' := by
  have hdigit {cs : List Char} (negative : Bool) (h : StartsWithDigit cs) :
      ∃ c tail, (if negative then ['-'] else []) ++ cs = c :: tail ∧ isTextBlank c = false ∧
        c ≠ ']' := by
    obtain ⟨c, tail, rfl, hc⟩ := h
    cases negative with
    | true => exact ⟨'-', c :: tail, rfl, by decide, by decide⟩
    | false =>
      refine ⟨c, tail, rfl, isTextBlank_of_digit hc, ?_⟩
      rintro rfl
      exact absurd hc (by decide)
  cases v with
  | null => exact ⟨'n', _, rfl, by decide, by decide⟩
  | bool b => cases b <;> exact ⟨_, _, rfl, by decide, by decide⟩
  | int n =>
    rw [write, intText_toList]
    exact hdigit _ (startsWithDigit_wholeDigits _)
  | num x =>
    rw [write]
    change ∃ c tail, (Decimal.stored.text x).toList = c :: tail ∧ _
    cases hfinite : x.isFinite with
    | false =>
      rw [stored_text_of_not_finite hfinite]
      exact ⟨'n', _, rfl, by decide, by decide⟩
    | true =>
      rw [stored_text_of_finite hfinite]
      exact hdigit _ (startsWithDigit_magnitudeText _ _)
  | str s => exact ⟨'"', _, rfl, by decide, by decide⟩
  | arr items => exact ⟨'[', _, rfl, by decide, by decide⟩
  | obj fields => exact ⟨'{', _, rfl, by decide, by decide⟩

theorem writeItems_cons_cons (style : Style) (item next : Json) (rest : List Json) :
    writeItems style (item :: next :: rest) =
      write style item ++ style.comma.toList ++ writeItems style (next :: rest) := by
  rw [writeItems]
  simp

theorem writeFields_cons_cons (style : Style) (name : String) (value : Json)
    (next : String × Json) (rest : List (String × Json)) :
    writeFields style ((name, value) :: next :: rest) =
      writeString style.asciiOnly name ++ style.colon.toList ++ write style value ++
        style.comma.toList ++ writeFields style (next :: rest) := by
  rw [writeFields]
  simp

theorem writeItems_head (item : Json) (rest : List Json) :
    ∃ c tail, writeItems compact (item :: rest) = c :: tail ∧ isTextBlank c = false ∧ c ≠ ']' := by
  obtain ⟨c, tail, hhead, hc⟩ := write_head item
  cases rest with
  | nil => exact ⟨c, tail, hhead, hc⟩
  | cons next rest =>
    refine ⟨c, tail ++ compact.comma.toList ++ writeItems compact (next :: rest), ?_, hc⟩
    rw [writeItems_cons_cons, hhead, List.cons_append, List.cons_append]

theorem writeFields_head (field : String × Json) (rest : List (String × Json)) :
    ∃ tail, writeFields compact (field :: rest) = '"' :: tail := by
  cases rest <;> exact ⟨_, rfl⟩

theorem endsNumber_cons {c : Char} (h : isPlainDigit c = false ∧ c ≠ '.' ∧ c ≠ 'e' ∧ c ≠ 'E')
    (rest : List Char) : EndsNumber (c :: rest) := by
  intro d hd
  cases hd
  exact h

/-! Steps of the reader of items and of fields. -/

section Steps

variable {fuel depth : Nat} {cs rest : List Char} {v : Json}

theorem readItems_none (h : readValue dialect fuel depth cs = none) :
    readItems dialect (fuel + 1) depth cs = none := by
  rw [readItems, h]

theorem readItems_last (h : readValue dialect fuel depth cs = some (v, ']' :: rest)) :
    readItems dialect (fuel + 1) depth cs = some ([v], rest) := by
  rw [readItems, h]
  rfl

theorem readItems_more (h : readValue dialect fuel depth cs = some (v, ',' :: rest)) :
    readItems dialect (fuel + 1) depth cs =
      (readItems dialect fuel depth rest).map fun (items, rest) => (v :: items, rest) := by
  rw [readItems, h]
  rfl

theorem readFields_quote : readFields dialect (fuel + 1) depth ('"' :: cs) =
    match readString dialect cs with
    | none => none
    | some (name, rest) =>
        match skipBlank rest with
        | ':' :: rest =>
            match readValue dialect fuel depth rest with
            | none => none
            | some (value, rest) =>
                match skipBlank rest with
                | ',' :: rest =>
                    (readFields dialect fuel depth rest).map fun (fields, rest) =>
                      ((name, value) :: fields, rest)
                | '}' :: rest => some ([(name, value)], rest)
                | _ => none
        | _ => none := by
  rw [readFields, skipBlank_of_not_blank (by decide)]
  rfl

/-- A field goes on with its value behind the colon. -/
theorem readFields_name (name : String) :
    readFields dialect (fuel + 1) depth (writeString false name ++ ':' :: cs) =
      match readValue dialect fuel depth cs with
      | none => none
      | some (value, rest) =>
          match skipBlank rest with
          | ',' :: rest =>
              (readFields dialect fuel depth rest).map fun (fields, rest) =>
                ((name, value) :: fields, rest)
          | '}' :: rest => some ([(name, value)], rest)
          | _ => none := by
  have hsplit : writeString false name ++ ':' :: cs =
      '"' :: ((writeString false name).tail ++ ':' :: cs) := rfl
  have hcolon : skipBlank (':' :: cs) = ':' :: cs := skipBlank_of_not_blank (by decide) cs
  rw [hsplit, readFields_quote, readString_writeString]
  dsimp only
  rw [hcolon]
  rfl

theorem readFields_none (name : String) (h : readValue dialect fuel depth cs = none) :
    readFields dialect (fuel + 1) depth (writeString false name ++ ':' :: cs) = none := by
  rw [readFields_name, h]

theorem readFields_last (name : String)
    (h : readValue dialect fuel depth cs = some (v, '}' :: rest)) :
    readFields dialect (fuel + 1) depth (writeString false name ++ ':' :: cs) =
      some ([(name, v)], rest) := by
  rw [readFields_name, h]
  rfl

theorem readFields_more (name : String)
    (h : readValue dialect fuel depth cs = some (v, ',' :: rest)) :
    readFields dialect (fuel + 1) depth (writeString false name ++ ':' :: cs) =
      (readFields dialect fuel depth rest).map
        fun (fields, rest) => ((name, v) :: fields, rest) := by
  rw [readFields_name, h]
  rfl

end Steps

mutual

/-- A written value is read with null for the numbers that are not finite, if it is read. -/
theorem readValue_write (v : Json) (hv : proper v = true) (fuel depth : Nat) (rest : List Char)
    (hfuel : 2 * (write compact v).length ≤ fuel + 1) (hrest : EndsNumber rest) :
    readValue dialect fuel depth (write compact v ++ rest) =
      if legible dialect depth v then some (v.finite, rest) else none := by
  obtain ⟨fuel, rfl⟩ : ∃ k, fuel = k + 1 := by
    obtain ⟨c, tail, hhead, -, -⟩ := write_head v
    refine ⟨fuel - 1, ?_⟩
    rw [hhead, List.length_cons] at hfuel
    omega
  match v with
  | .null => exact readValue_null fuel depth
  | .bool true => exact readValue_true fuel depth
  | .bool false => exact readValue_false fuel depth
  | .int n => exact readValue_int fuel depth n hrest
  | .num x => exact readValue_num fuel depth x hrest
  | .str s => exact readValue_str fuel depth s
  | .arr [] => exact readValue_emptyList fuel depth rest
  | .arr (item :: items) =>
    obtain ⟨c, tail, hhead, hblank, hend⟩ := writeItems_head item items
    have htext : write compact (.arr (item :: items)) ++ rest =
        '[' :: (writeItems compact (item :: items) ++ ']' :: rest) := by
      rw [write, List.cons_append, List.append_assoc, List.singleton_append]
    rw [write, List.length_cons, List.length_append, List.length_singleton] at hfuel
    have hitems := readItems_write (item :: items) (List.cons_ne_nil _ _) hv fuel (depth - 1) rest
      (by omega)
    rw [htext]
    rw [hhead, List.cons_append] at hitems ⊢
    rw [readValue_list fuel depth _ hblank hend, hitems, legible, List.isEmpty_cons, Bool.false_or]
    by_cases hdepth : 0 < depth
    · rw [if_pos hdepth, decide_eq_true hdepth, Bool.true_and]
      split <;> rfl
    · rw [if_neg hdepth, decide_eq_false hdepth, Bool.false_and]
      rfl
  | .obj [] => exact readValue_emptyObject fuel depth rest
  | .obj (field :: fields) =>
    obtain ⟨tail, hhead⟩ := writeFields_head field fields
    have htext : write compact (.obj (field :: fields)) ++ rest =
        '{' :: (writeFields compact (field :: fields) ++ '}' :: rest) := by
      rw [write, List.cons_append, List.append_assoc, List.singleton_append]
    rw [proper, Bool.and_eq_true, decide_eq_true_eq] at hv
    rw [write, List.length_cons, List.length_append, List.length_singleton] at hfuel
    have hfields := readFields_write (field :: fields) (List.cons_ne_nil _ _) hv.1 fuel (depth - 1)
      rest (by omega)
    have hpairs :
        Fields.ofPairs (finiteFields (field :: fields)) = finiteFields (field :: fields) :=
      ofPairs_of_nodup (by rw [names_finiteFields]; exact hv.2)
    rw [htext]
    rw [hhead, List.cons_append] at hfields ⊢
    rw [readValue_object fuel depth _ (by decide) (by decide), hfields, legible,
      List.isEmpty_cons, Bool.false_or]
    by_cases hdepth : 0 < depth
    · rw [if_pos hdepth, decide_eq_true hdepth, Bool.true_and]
      split
      · exact congrArg (fun fs => some (Json.obj fs, rest)) hpairs
      · rfl
    · rw [if_neg hdepth, decide_eq_false hdepth, Bool.false_and]
      rfl

theorem readItems_write (items : List Json) (hne : items ≠ []) (hv : properItems items = true)
    (fuel depth : Nat) (rest : List Char) (hfuel : 2 * (writeItems compact items).length ≤ fuel) :
    readItems dialect fuel depth (writeItems compact items ++ ']' :: rest) =
      if legibleItems dialect depth items then some (finiteItems items, rest) else none := by
  match items with
  | [] => exact absurd rfl hne
  | [item] =>
    rw [properItems, Bool.and_eq_true] at hv
    obtain ⟨c, tail, hhead, -, -⟩ := writeItems_head item []
    obtain ⟨fuel, rfl⟩ : ∃ k, fuel = k + 1 := by
      refine ⟨fuel - 1, ?_⟩
      rw [hhead, List.length_cons] at hfuel
      omega
    have hitem := readValue_write item hv.1 fuel depth (']' :: rest)
      (by rw [writeItems] at hfuel; omega) (endsNumber_cons (by decide) rest)
    rw [writeItems, legibleItems, legibleItems, Bool.and_true]
    split at hitem
    · rename_i hlegible
      rw [if_pos hlegible]
      exact readItems_last hitem
    · rename_i hillegible
      rw [if_neg hillegible]
      exact readItems_none hitem
  | item :: next :: items =>
    rw [properItems, Bool.and_eq_true] at hv
    obtain ⟨c, tail, hhead, -, -⟩ := write_head item
    have htext : writeItems compact (item :: next :: items) ++ ']' :: rest =
        write compact item ++ ',' :: (writeItems compact (next :: items) ++ ']' :: rest) := by
      rw [writeItems_cons_cons, List.append_assoc, List.append_assoc]
      rfl
    have hlength : (writeItems compact (item :: next :: items)).length =
        (write compact item).length + (writeItems compact (next :: items)).length + 1 := by
      have hone : compact.comma.toList.length = 1 := rfl
      rw [writeItems_cons_cons, List.length_append, List.length_append]
      omega
    obtain ⟨fuel, rfl⟩ : ∃ k, fuel = k + 1 := ⟨fuel - 1, by omega⟩
    have hitem := readValue_write item hv.1 fuel depth
      (',' :: (writeItems compact (next :: items) ++ ']' :: rest)) (by omega)
      (endsNumber_cons (by decide) _)
    have hitems := readItems_write (next :: items) (List.cons_ne_nil _ _) hv.2 fuel depth rest
      (by omega)
    rw [htext, legibleItems]
    split at hitem
    · rename_i hlegible
      rw [readItems_more hitem, hitems, hlegible, Bool.true_and]
      split <;> rfl
    · rename_i hillegible
      rw [readItems_none hitem, Bool.eq_false_iff.mpr hillegible, Bool.false_and]
      rfl

theorem readFields_write (fields : List (String × Json)) (hne : fields ≠ [])
    (hv : properFields fields = true) (fuel depth : Nat) (rest : List Char)
    (hfuel : 2 * (writeFields compact fields).length ≤ fuel) :
    readFields dialect fuel depth (writeFields compact fields ++ '}' :: rest) =
      if legibleFields dialect depth fields then some (finiteFields fields, rest) else none := by
  match fields with
  | [] => exact absurd rfl hne
  | [(name, value)] =>
    rw [properFields, Bool.and_eq_true] at hv
    have htext : writeFields compact [(name, value)] ++ '}' :: rest =
        writeString false name ++ ':' :: (write compact value ++ '}' :: rest) := by
      rw [writeFields, List.append_assoc, List.append_assoc]
      rfl
    have hlength : (write compact value).length < (writeFields compact [(name, value)]).length := by
      rw [writeFields, List.length_append, List.length_append]
      have hone : compact.colon.toList.length = 1 := rfl
      omega
    obtain ⟨fuel, rfl⟩ : ∃ k, fuel = k + 1 := ⟨fuel - 1, by omega⟩
    have hvalue := readValue_write value hv.1 fuel depth ('}' :: rest) (by omega)
      (endsNumber_cons (by decide) rest)
    rw [htext, legibleFields, legibleFields, Bool.and_true]
    split at hvalue
    · rename_i hlegible
      rw [if_pos hlegible]
      exact readFields_last name hvalue
    · rename_i hillegible
      rw [if_neg hillegible]
      exact readFields_none name hvalue
  | (name, value) :: next :: fields =>
    rw [properFields, Bool.and_eq_true] at hv
    have htext : writeFields compact ((name, value) :: next :: fields) ++ '}' :: rest =
        writeString false name ++ ':' :: (write compact value ++
          ',' :: (writeFields compact (next :: fields) ++ '}' :: rest)) := by
      rw [writeFields_cons_cons]
      simp only [List.append_assoc]
      rfl
    have hlength : (write compact value).length + (writeFields compact (next :: fields)).length <
        (writeFields compact ((name, value) :: next :: fields)).length := by
      have hone : compact.comma.toList.length = 1 := rfl
      simp only [writeFields_cons_cons, List.length_append]
      omega
    obtain ⟨fuel, rfl⟩ : ∃ k, fuel = k + 1 := ⟨fuel - 1, by omega⟩
    have hvalue := readValue_write value hv.1 fuel depth
      (',' :: (writeFields compact (next :: fields) ++ '}' :: rest)) (by omega)
      (endsNumber_cons (by decide) _)
    have hfields := readFields_write (next :: fields) (List.cons_ne_nil _ _) hv.2 fuel depth rest
      (by omega)
    rw [htext, legibleFields]
    split at hvalue
    · rename_i hlegible
      rw [readFields_more name hvalue, hfields, hlegible, Bool.true_and]
      split <;> rfl
    · rename_i hillegible
      rw [readFields_none name hvalue, Bool.eq_false_iff.mpr hillegible, Bool.false_and]
      rfl

end

theorem read?_text {v : Json} (hv : proper v = true) :
    read? dialect (text compact v) =
      if legible dialect dialect.deepest v then some v.finite else none := by
  have hread : readValue dialect (2 * (write compact v).length + 2) dialect.deepest
      (write compact v ++ []) = if legible dialect dialect.deepest v then some (v.finite, [])
        else none :=
    readValue_write v hv _ _ [] (by omega) (fun c hc => by cases hc)
  rw [List.append_nil] at hread
  rw [read?, text, String.toList_ofList, hread]
  split
  · rename_i heq
    split at heq
    · rename_i hlegible
      cases heq
      rw [if_pos hlegible]
      rfl
    · cases heq
  · rename_i heq
    split at heq
    · cases heq
    · rename_i hillegible
      rw [if_neg hillegible]

end WorkflowStudio.Json
