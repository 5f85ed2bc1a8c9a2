import Mathlib.Data.List.Basic
import Mathlib.Data.List.TakeWhile
import WorkflowStudio.Proofs.DecimalDigits
import WorkflowStudio.Proofs.GuardText

/-!
The handle of an edge is found again from its guard. A guard names an intent between quotes,
and the name ends at the last of them, so that it may hold quotes itself. The number of the
handle is the first place of that name, which is why only a first place can be found again.
-/
namespace WorkflowStudio

/-! The number of a handle. -/

namespace Text

theorem digit?_of_plain {c : Char} (h : Numeral.isPlainDigit c = true) :
    digit? c = some (c.toNat - '0'.toNat) := by
  simp only [Numeral.isPlainDigit, Bool.and_eq_true, decide_eq_true_eq] at h
  have hlow : 0x30 ≤ c.toNat := h.1
  have hhigh : c.toNat ≤ 0x39 := h.2
  rw [digit?, digitZeros, digitFrom, if_pos (by omega)]
  rfl

theorem digitsValue_of_plain {cs : List Char} (h : ∀ c ∈ cs, Numeral.isPlainDigit c = true) :
    digitsValue cs = Numeral.plainValue cs := by
  unfold digitsValue Numeral.plainValue
  refine List.foldl_ext _ _ 0 fun value c hc => ?_
  rw [digit?_of_plain (h c hc), Option.getD_some]

end Text

namespace Guard

theorem handleDigits?_intentHandle (n : Nat) :
    handleDigits? (intentHandle n) = some (Numeral.wholeDigits n) := by
  have hdigits : (Numeral.wholeDigits n).all Text.isDigit = true := by
    refine List.all_eq_true.mpr fun c hc => ?_
    rw [Text.isDigit, Text.digit?_of_plain (Numeral.isPlainDigit_of_mem_wholeDigits hc)]
    rfl
  have hhandle := handleDigits?_of_digits (Numeral.wholeDigits_ne_nil n) hdigits
  rw [Numeral.wholeDigits, String.ofList_toList] at hhandle
  exact hhandle

theorem digitsValue_wholeDigits (n : Nat) : Text.digitsValue (Numeral.wholeDigits n) = n := by
  rw [Text.digitsValue_of_plain fun c hc => Numeral.isPlainDigit_of_mem_wholeDigits hc,
    Numeral.plainValue_wholeDigits]

/-! The name in a guard. -/

theorem dropPart_eq_some_iff {part cs rest : List Char} :
    dropPart part cs = some rest ↔ cs = part ++ rest := by
  constructor
  · intro h
    induction part generalizing cs with
    | nil => exact Option.some.inj h
    | cons c part ih =>
      cases cs with
      | nil => cases h
      | cons d cs =>
        rw [dropPart] at h
        split at h
        · rename_i hsame
          rw [hsame, List.cons_append, ← ih h]
        · cases h
  · intro h
    rw [h, dropPart_append]

def Blanks (cs : List Char) : Prop := ∀ c ∈ cs, Text.isBlank c = true

theorem skipBlank_of_not_blank {c : Char} (h : Text.isBlank c = false) (rest : List Char) :
    skipBlank (c :: rest) = c :: rest :=
  List.dropWhile_cons_of_neg (by simp [h])

theorem skipBlank_eq_cons_iff {c : Char} (hc : Text.isBlank c = false) {cs rest : List Char} :
    skipBlank cs = c :: rest ↔ ∃ blanks, Blanks blanks ∧ cs = blanks ++ c :: rest := by
  constructor
  · intro h
    refine ⟨cs.takeWhile Text.isBlank, fun b hb => List.mem_takeWhile_imp hb, ?_⟩
    rw [← h, skipBlank, List.takeWhile_append_dropWhile]
  · intro ⟨blanks, hblanks, hcs⟩
    rw [hcs, skipBlank, List.dropWhile_append_of_pos hblanks]
    exact skipBlank_of_not_blank hc rest

/-- A word is found behind blanks only. -/
theorem dropPart_skipBlank_iff {part cs rest : List Char}
    (hpart : ∃ c ∈ part.head?, Text.isBlank c = false) :
    dropPart part (skipBlank cs) = some rest ↔
      ∃ blanks, Blanks blanks ∧ cs = blanks ++ (part ++ rest) := by
  obtain ⟨c, hhead, hc⟩ := hpart
  obtain ⟨tail, rfl⟩ := List.head?_eq_some_iff.mp hhead
  rw [dropPart_eq_some_iff, List.cons_append, skipBlank_eq_cons_iff hc]

/-- A text which says that the intent is the quoted name, with nothing but blanks between its
words and around them. Blanks hold no quote, so that the name reaches from the first quote
behind the sign to the last one. -/
def Quotes (guardText name : String) : Prop :=
  ∃ front middle gap ending, Blanks front ∧ Blanks middle ∧ Blanks gap ∧ Blanks ending ∧
    guardText.toList = front ++ ("intent".toList ++ (middle ++ ("==".toList ++
      (gap ++ '\'' :: (name.toList ++ '\'' :: ending)))))

/-- The words of a guard begin with characters that are not skipped. -/
theorem exists_head_intent : ∃ c ∈ "intent".toList.head?, Text.isBlank c = false :=
  ⟨'i', rfl, by decide⟩

theorem exists_head_sign : ∃ c ∈ "==".toList.head?, Text.isBlank c = false :=
  ⟨'=', rfl, by decide⟩

theorem exists_head_quote : ∃ c ∈ ['\''].head?, Text.isBlank c = false := ⟨'\'', rfl, by decide⟩

/-- A quoted name is read unless a line break stands in it. -/
theorem Quotes.intentOf?_eq {guardText name : String} (h : Quotes guardText name) :
    intentOf? guardText = if '\n' ∈ name.toList then none else some name := by
  obtain ⟨front, middle, gap, ending, hfront, hmiddle, hgap, hending, htext⟩ := h
  have hword := (dropPart_skipBlank_iff exists_head_intent).mpr ⟨front, hfront, htext⟩
  have hsign (rest : List Char) :
      dropPart "==".toList (skipBlank (middle ++ ("==".toList ++ rest))) = some rest :=
    (dropPart_skipBlank_iff exists_head_sign).mpr ⟨middle, hmiddle, rfl⟩
  have hopen (rest : List Char) : dropPart ['\''] (skipBlank (gap ++ '\'' :: rest)) = some rest :=
    (dropPart_skipBlank_iff exists_head_quote).mpr ⟨gap, hgap, rfl⟩
  have hreversed : skipBlank (name.toList ++ '\'' :: ending).reverse =
      '\'' :: name.toList.reverse :=
    (skipBlank_eq_cons_iff (by decide)).mpr
      ⟨ending.reverse, fun c hc => hending c (List.mem_reverse.mp hc), by simp⟩
  unfold intentOf?
  rw [hword, Option.bind_some, hsign, Option.bind_some, hopen, Option.bind_some, hreversed]
  simp

/-- Exactly a quoted name without a line break is read from a guard. -/
theorem intentOf?_eq_some_iff {guardText name : String} :
    intentOf? guardText = some name ↔ Quotes guardText name ∧ '\n' ∉ name.toList := by
  constructor
  · intro h
    obtain ⟨behindWord, hword, h⟩ := Option.bind_eq_some_iff.mp h
    obtain ⟨behindSign, hequals, h⟩ := Option.bind_eq_some_iff.mp h
    obtain ⟨behindQuote, hopen, hname⟩ := Option.bind_eq_some_iff.mp h
    obtain ⟨front, hfront, htext⟩ := (dropPart_skipBlank_iff exists_head_intent).mp hword
    obtain ⟨middle, hmiddle, rfl⟩ := (dropPart_skipBlank_iff exists_head_sign).mp hequals
    obtain ⟨gap, hgap, rfl⟩ := (dropPart_skipBlank_iff exists_head_quote).mp hopen
    split at hname
    · rename_i reversed hreversed
      obtain ⟨ending, hending, hlast⟩ := (skipBlank_eq_cons_iff (by decide)).mp hreversed
      have hrest : behindQuote = reversed.reverse ++ '\'' :: ending.reverse := by
        rw [← List.reverse_reverse behindQuote, hlast]
        simp
      split at hname
      · cases hname
      · rename_i hline
        cases hname
        have hchars : (String.ofList reversed.reverse).toList = reversed.reverse :=
          String.toList_ofList
        refine ⟨⟨front, middle, gap, ending.reverse, hfront, hmiddle, hgap,
          fun c hc => hending c (List.mem_reverse.mp hc), ?_⟩, by simpa [hchars] using hline⟩
        rw [htext, hrest, hchars]
        rfl
    · cases hname
  · intro ⟨hquotes, hline⟩
    rw [hquotes.intentOf?_eq, if_neg hline]

theorem quotes_ofIntent (name : String) : Quotes (ofIntent name) name := by
  have hspace : Blanks [' '] := List.forall_mem_singleton.mpr (by decide)
  have hnone : Blanks [] := fun c hc => absurd hc List.not_mem_nil
  refine ⟨[], [' '], [' '], [], hnone, hspace, hspace, hnone, ?_⟩
  simp [ofIntent, String.toList_append]

/-- The name of a guard is found again when it holds no line break. -/
theorem intentOf?_ofIntent {name : String} (h : '\n' ∉ name.toList) :
    intentOf? (ofIntent name) = some name :=
  intentOf?_eq_some_iff.mpr ⟨quotes_ofIntent name, h⟩

example : intentOf? (ofIntent "it's 'urgent'") = some "it's 'urgent'" := by decide

/-! Handles that can be found again. -/

/-- The handle stands for the first of the intents that have its name, and the name is one
that a guard can hold. -/
def NamesIntent (source : Node) (n : Nat) : Prop :=
  ∃ config name, intentConfig? source = some config ∧ config.intents[n]? = some name ∧
    name ≠ "" ∧ '\n' ∉ name.toList ∧ name ≠ elseHandle ∧
    ∀ m < n, config.intents[m]? ≠ some name

/-- A handle that a guard can lead back to. -/
def Traceable (source : Node) (handle : Option String) : Prop :=
  handle = none ∨ source.nodeType = .intentClassifier ∧
    (handle = some elseHandle ∨ ∃ n, handle = some (intentHandle n) ∧ NamesIntent source n)

theorem recoverHandle_none (source : Option Node) : recoverHandle source none = none := by
  cases source <;> rfl

/-- An intent classifier looks for the name that a guard quotes. An empty guard quotes none. -/
theorem recoverHandle_eq {source : Node} (htype : source.nodeType = .intentClassifier)
    (guardText : String) : recoverHandle (some source) (some guardText) =
      (intentOf? guardText).bind fun name =>
        if name = elseHandle then some elseHandle
        else (intentConfig? source).bind fun config => (config.indexOf name).map intentHandle := by
  unfold recoverHandle
  dsimp only
  split
  · rename_i hguarded
    rcases hguarded with hempty | htype'
    · rw [String.isEmpty_iff.mp hempty]
      rfl
    · exact absurd htype htype'
  · rfl

theorem recoverHandle_ofIntent {source : Node} (htype : source.nodeType = .intentClassifier)
    {name : String} (hline : '\n' ∉ name.toList) :
    recoverHandle (some source) (some (ofIntent name)) =
      if name = elseHandle then some elseHandle
      else (intentConfig? source).bind fun config => (config.indexOf name).map intentHandle := by
  rw [recoverHandle_eq htype, intentOf?_ofIntent hline, Option.bind_some]

theorem derive_none (source : Node) : derive source none = .ok none := if_pos (Or.inr rfl)

theorem derive_else {source : Node} (htype : source.nodeType = .intentClassifier) :
    derive source (some elseHandle) = .ok (some (ofIntent elseHandle)) := by
  have hfilled : ¬(source.nodeType ≠ .intentClassifier ∨ elseHandle.isEmpty = true) := by
    rintro (htype' | hempty)
    · exact htype' htype
    · cases hempty
  unfold derive ofHandle
  exact (if_neg hfilled).trans (if_pos rfl)

/-- The guard of a handle that stands for an intent, when its number can be read. -/
theorem derive_intentHandle {source : Node} (htype : source.nodeType = .intentClassifier)
    {config : IntentConfig} (hconfig : intentConfig? source = some config) (n : Nat) :
    derive source (some (intentHandle n)) =
      if Numeral.digitLimit < (Numeral.wholeDigits n).length then
        .error (.tooManyDigits (Numeral.wholeDigits n).length)
      else .ok ((config.intentAt n).map ofIntent) := by
  have hdigits : handleDigits? ((some (intentHandle n)).getD "") = some (Numeral.wholeDigits n) :=
    handleDigits?_intentHandle n
  rw [derive_of_digits htype hdigits hconfig, digitsValue_wholeDigits]

/-- The place that is looked up for a name is its first one. -/
theorem indexOf_eq_some_iff {config : IntentConfig} {n : Nat} {name : String} :
    config.indexOf name = some n ↔
      config.intents[n]? = some name ∧ ∀ m < n, config.intents[m]? ≠ some name := by
  refine List.idxOf?_eq_some_iff.trans ?_
  constructor
  · intro ⟨hn, hname, hfirst⟩
    refine ⟨List.getElem?_eq_some_iff.mpr ⟨hn, hname⟩, fun m hm hsame => ?_⟩
    exact hfirst m hm (List.getElem?_eq_some_iff.mp hsame).2
  · intro ⟨h, hfirst⟩
    obtain ⟨hn, hname⟩ := List.getElem?_eq_some_iff.mp h
    refine ⟨hn, hname, fun m hm heq => hfirst m hm ?_⟩
    exact List.getElem?_eq_some_iff.mpr ⟨hm.trans hn, heq⟩

/-- A slot names an intent unless its name is empty. -/
theorem intentAt_eq_some_iff {config : IntentConfig} {n : Nat} {name : String} :
    config.intentAt n = some name ↔ config.intents[n]? = some name ∧ name ≠ "" := by
  unfold IntentConfig.intentAt
  cases config.intents[n]? with
  | none => exact iff_of_false nofun nofun
  | some found =>
    by_cases hempty : found = ""
    · simp [hempty]
    · simp only [String.isEmpty_iff, hempty, if_false, Option.some.injEq]
      constructor
      · intro hfound
        exact ⟨hfound, hfound ▸ hempty⟩
      · exact And.left

/-- The handle of a guard is the one that the guard was derived from. -/
theorem recoverHandle_of_derive {source : Node} {handle condition : Option String}
    (htraceable : Traceable source handle) (h : derive source handle = .ok condition) :
    recoverHandle (some source) condition = handle := by
  rcases htraceable with rfl | ⟨htype, rfl | ⟨n, rfl, config, name, hconfig, hname, hne, hline,
    helse, hfirst⟩⟩
  · rw [derive_none] at h
    rw [← Except.ok.inj h]
    rfl
  · rw [derive_else htype] at h
    rw [← Except.ok.inj h, recoverHandle_ofIntent htype (by decide), if_pos rfl]
  · rw [derive_intentHandle htype hconfig, intentAt_eq_some_iff.mpr ⟨hname, hne⟩,
      Option.map_some] at h
    split at h
    · cases h
    · rw [← Except.ok.inj h, recoverHandle_ofIntent htype hline, if_neg helse, hconfig,
        Option.bind_some, indexOf_eq_some_iff.mpr ⟨hname, hfirst⟩, Option.map_some]

/-- What a name is traced back to: the fallback, or the first place of the intent that it names. -/
inductive LeadsBack (source : Node) (name : String) : String → Prop where
  | fallback (h : name = elseHandle) : LeadsBack source name elseHandle
  | intent {config : IntentConfig} {n : Nat} (h : name ≠ elseHandle)
      (hconfig : intentConfig? source = some config) (hname : config.intents[n]? = some name)
      (hfirst : ∀ m < n, config.intents[m]? ≠ some name) : LeadsBack source name (intentHandle n)

theorem recoverHandle_eq_some_iff {source : Node} {guardText handle : String} :
    recoverHandle (some source) (some guardText) = some handle ↔
      source.nodeType = .intentClassifier ∧
        ∃ name, intentOf? guardText = some name ∧ LeadsBack source name handle := by
  constructor
  · intro h
    have htype : source.nodeType = .intentClassifier := by
      by_contra htype
      have hnone : recoverHandle (some source) (some guardText) = none := if_pos (Or.inr htype)
      rw [hnone] at h
      cases h
    rw [recoverHandle_eq htype] at h
    obtain ⟨name, hname, hfound⟩ := Option.bind_eq_some_iff.mp h
    refine ⟨htype, name, hname, ?_⟩
    split at hfound
    · rename_i helse
      cases hfound
      exact .fallback helse
    · rename_i helse
      obtain ⟨config, hconfig, hfound⟩ := Option.bind_eq_some_iff.mp hfound
      obtain ⟨n, hn, rfl⟩ := Option.map_eq_some_iff.mp hfound
      obtain ⟨hplace, hfirst⟩ := indexOf_eq_some_iff.mp hn
      exact .intent helse hconfig hplace hfirst
  · intro ⟨htype, name, hname, hback⟩
    rw [recoverHandle_eq htype, hname, Option.bind_some]
    cases hback with
    | fallback helse => exact if_pos helse
    | intent helse hconfig hplace hfirst =>
      rw [if_neg helse, hconfig, Option.bind_some, indexOf_eq_some_iff.mpr ⟨hplace, hfirst⟩,
        Option.map_some]

/-- The handle that is found for a guard can be found again, unless the guard names the empty
intent, for which no guard is derived. -/
theorem traceable_recoverHandle (source : Node) {condition : Option String}
    (h : ∀ guardText ∈ condition, intentOf? guardText ≠ some "") :
    Traceable source (recoverHandle (some source) condition) := by
  cases hhandle : recoverHandle (some source) condition with
  | none => exact Or.inl rfl
  | some handle =>
    cases condition with
    | none => cases hhandle
    | some guardText =>
      obtain ⟨htype, name, hname, hback⟩ := recoverHandle_eq_some_iff.mp hhandle
      refine Or.inr ⟨htype, ?_⟩
      cases hback with
      | fallback => exact Or.inl rfl
      | intent helse hconfig hplace hfirst =>
        have hne : name ≠ "" := fun hempty => h guardText rfl (hempty ▸ hname)
        have hline := (intentOf?_eq_some_iff.mp hname).2
        exact Or.inr ⟨_, rfl, _, name, hconfig, hplace, hne, hline, helse, hfirst⟩

/-- The handles of an intent classifier can count its intents. -/
def IntentsCounted (source : Node) : Prop :=
  ∀ config ∈ intentConfig? source, config.intents.length ≤ 10 ^ Numeral.digitLimit

theorem exists_derive_of_recoverHandle {source : Node} {condition : Option String}
    {handle : String} (h : recoverHandle (some source) condition = some handle)
    (hcounted : IntentsCounted source) :
    ∃ derived, derive source (some handle) = .ok derived := by
  cases condition with
  | none => cases h
  | some guardText =>
    obtain ⟨htype, name, -, hback⟩ := recoverHandle_eq_some_iff.mp h
    cases hback with
    | fallback => exact ⟨_, derive_else htype⟩
    | @intent config n _ hconfig hplace _ =>
      have hlength := (List.getElem?_eq_some_iff.mp hplace).1
      have hbound : n < 10 ^ Numeral.digitLimit := hlength.trans_le (hcounted config hconfig)
      have hshort := (Numeral.length_wholeDigits_le_iff (by decide)).mpr hbound
      rw [derive_intentHandle htype hconfig, if_neg (Nat.not_lt.mpr hshort)]
      exact ⟨_, rfl⟩

end Guard
end WorkflowStudio
