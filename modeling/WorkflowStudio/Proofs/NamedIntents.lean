import WorkflowStudio.Proofs.FilledSettings
import WorkflowStudio.Proofs.GuardRecovery
import WorkflowStudio.Proofs.RecordFields

/-!
The branches of an intent classifier. The handle of an intent has a guard when the settings can be
read and a text or a number is declared at its place. A classifier without findings declares
something, but not always by texts and numbers, and its settings cannot always be read.
-/
namespace WorkflowStudio

/-! Numbers are never written as the empty text. -/

namespace Decimal

theorem intText_ne_empty (n : Int) : intText n ≠ "" := by
  intro h
  have hchars : (intText n).toList = [] := by rw [h, String.toList_empty]
  rw [Json.intText_toList, List.append_eq_nil_iff] at hchars
  exact Numeral.wholeDigits_ne_nil _ hchars.2

theorem displayed_text_ne_empty (x : Double) : displayed.text x ≠ "" := by
  unfold Layout.text
  by_cases hnan : x.isNaN = true
  · rw [if_pos hnan]
    decide
  · rw [if_neg hnan]
    by_cases hfinite : x.isFinite = true
    · obtain ⟨c, tail, hdigits, -⟩ := Json.startsWithDigit_magnitudeText displayed (shortest x)
      have hne : (if x.isNegative = true then ['-'] else []) ++ c :: tail ≠ [] := by simp
      rw [if_neg (by simp [hfinite]), hdigits]
      intro h
      exact hne (String.ofList_eq_empty_iff.mp h)
    · rw [if_pos (by simp [hfinite])]
      by_cases hnegative : x.isNegative = true
      · rw [if_pos hnegative]
        decide
      · rw [if_neg hnegative]
        decide

end Decimal

/-! Values that name an intent. -/

/-- A value that gives an intent a name. -/
inductive Json.NamesIntent : Json → Prop where
  | text {s : String} (hne : s ≠ "") : NamesIntent (.str s)
  | whole (n : Int) : NamesIntent (.int n)
  | real (x : Double) : NamesIntent (.num x)

theorem coerceIntent_ne_empty_iff {v : Json} : coerceIntent v ≠ "" ↔ v.NamesIntent := by
  constructor
  · intro h
    cases v with
    | str s => exact .text h
    | int n => exact .whole n
    | num x => exact .real x
    | null | bool _ | arr _ | obj _ => exact absurd rfl h
  · intro h
    cases h with
    | text hne => exact hne
    | whole n => exact Decimal.intText_ne_empty n
    | real x => exact Decimal.displayed_text_ne_empty x

namespace IntentConfig

/-- Names are read as they are, or not at all. -/
theorem eq_of_readIntents {v : Json} {names : List String} (h : readIntents v = .ok names) :
    names = coerceIntents v := by
  rw [readIntents] at h
  split at h
  · cases h
  · have hnames : (Json.ofStrings (coerceIntents v)).asList Json.asText =
        .ok ((coerceIntents v).map id) := Json.asList_map fun _ _ => rfl
    rw [hnames, List.map_id] at h
    exact (Checked.ok.inj h).symm

/-- The intents of settings that can be read are the coerced values of the declared list. -/
theorem intents_of_read {fs : Fields} {config : IntentConfig} (h : read (.obj fs) = .ok config) :
    config.intents = coerceIntents ((fs.get? "intents").getD .null) := by
  rw [read, Json.asRecord] at h
  simp only [Checked.seq_eq_ok, Checked.map_eq_ok] at h
  obtain ⟨_, extras, ⟨_, intents, ⟨modelId, -, rfl⟩, hintents, rfl⟩, -, rfl⟩ := h
  cases hget : fs.get? "intents" with
  | none =>
    rw [Fields.optional, Fields.pick, hget] at hintents
    cases hintents
    rfl
  | some v => exact eq_of_readIntents (Fields.read_of_optional hget hintents)

end IntentConfig

namespace Guard

variable {node : Node} {config : IntentConfig} {index : Nat}

/-- A handle has a guard when its number can be read and its intent has a name. -/
theorem exists_derive_iff (htype : node.nodeType = .intentClassifier)
    (hconfig : intentConfig? node = some config) :
    (∃ guardText, derive node (some (intentHandle index)) = .ok (some guardText)) ↔
      index < 10 ^ Numeral.digitLimit ∧ ∃ name, config.intents[index]? = some name ∧ name ≠ "" := by
  have hlength : (Numeral.wholeDigits index).length ≤ Numeral.digitLimit ↔
      index < 10 ^ Numeral.digitLimit := Numeral.length_wholeDigits_le_iff (by decide)
  rw [derive_intentHandle htype hconfig, ← hlength]
  by_cases hlong : Numeral.digitLimit < (Numeral.wholeDigits index).length
  · rw [if_pos hlong]
    constructor
    · intro ⟨_, h⟩
      cases h
    · intro ⟨hshort, _⟩
      omega
  · rw [if_neg hlong]
    have hshort : (Numeral.wholeDigits index).length ≤ Numeral.digitLimit := by omega
    constructor
    · intro ⟨guardText, h⟩
      obtain ⟨name, hname, -⟩ := Option.map_eq_some_iff.mp (Except.ok.inj h)
      exact ⟨hshort, name, intentAt_eq_some_iff.mp hname⟩
    · intro ⟨_, name, hname⟩
      rw [intentAt_eq_some_iff.mpr hname, Option.map_some]
      exact ⟨_, rfl⟩

theorem intents_of_intentConfig? (hconfig : intentConfig? node = some config) :
    config.intents = coerceIntents (node.setting "intents") := by
  unfold intentConfig? at hconfig
  cases hread : IntentConfig.read (.obj node.config) with
  | bad problems =>
    rw [hread] at hconfig
    cases hconfig
  | ok found =>
    rw [hread] at hconfig
    cases hconfig
    exact IntentConfig.intents_of_read hread

/-- A declared value gives its handle a guard when it names an intent. -/
theorem exists_derive_iff_namesIntent {items : List Json}
    (htype : node.nodeType = .intentClassifier) (hconfig : intentConfig? node = some config)
    (hitems : node.setting "intents" = .arr items) :
    (∃ guardText, derive node (some (intentHandle index)) = .ok (some guardText)) ↔
      index < 10 ^ Numeral.digitLimit ∧ ∃ v, items[index]? = some v ∧ v.NamesIntent := by
  have hintents : config.intents = items.map coerceIntent := by
    rw [intents_of_intentConfig? hconfig, hitems, coerceIntents]
  rw [exists_derive_iff htype hconfig, hintents, List.getElem?_map]
  refine and_congr_right fun _ => ?_
  constructor
  · intro ⟨name, hname, hne⟩
    obtain ⟨v, hv, rfl⟩ := Option.map_eq_some_iff.mp hname
    exact ⟨v, hv, coerceIntent_ne_empty_iff.mp hne⟩
  · intro ⟨v, hv, hnames⟩
    exact ⟨coerceIntent v, by rw [hv, Option.map_some], coerceIntent_ne_empty_iff.mpr hnames⟩

/-- Settings without a named intent give no handle of an intent a guard. -/
theorem not_exists_branch_of_unnamed (htype : node.nodeType = .intentClassifier)
    (hunnamed : intentConfig? node = none ∨ ∀ name ∈ coerceIntents (node.setting "intents"),
      name = "") :
    ¬∃ index guardText, derive node (some (intentHandle index)) = .ok (some guardText) := by
  intro ⟨index, guardText, hguard⟩
  cases hconfig : intentConfig? node with
  | none =>
    have helse : intentHandle index ≠ elseHandle := by
      intro heq
      have hdigits := handleDigits?_intentHandle index
      rw [heq] at hdigits
      cases hdigits
    have hnone : derive node (some (intentHandle index)) = .ok none :=
      derive_of_unread hconfig helse
    rw [hnone] at hguard
    cases hguard
  | some config =>
    obtain ⟨-, name, hname, hne⟩ := (exists_derive_iff htype hconfig).mp ⟨guardText, hguard⟩
    rw [intents_of_intentConfig? hconfig] at hname
    rcases hunnamed with hnone | hempty
    · rw [hnone] at hconfig
      cases hconfig
    · exact hne (hempty name (List.mem_of_getElem? hname))

/-- An intent classifier without findings has a branch of its own, provided that its settings can
be read and that it declares its intents by a list in which nothing but texts and numbers says
anything. -/
theorem exists_branch_of_errors_eq_nil {catalog : Catalog} {node : Node}
    (htype : node.nodeType = .intentClassifier) (herrors : node.errors catalog = [])
    (hread : (intentConfig? node).isSome) {items : List Json}
    (hitems : node.setting "intents" = .arr items)
    (hcount : items.length ≤ 10 ^ Numeral.digitLimit)
    (hnamed : ∀ v ∈ items, v.SaysNothing ∨ v.NamesIntent) :
    ∃ index guardText, derive node (some (intentHandle index)) = .ok (some guardText) := by
  obtain ⟨config, hconfig⟩ := Option.isSome_iff_exists.mp hread
  have hkey : "intents" ∈ requiredSettings node.nodeType := by
    rw [htype]
    decide
  have hfilled := Node.not_saysNothing_of_errors_eq_nil herrors hkey
  rw [hitems] at hfilled
  obtain ⟨v, hmem, hv⟩ : ∃ v ∈ items, ¬v.SaysNothing := by
    by_contra hnone
    push Not at hnone
    exact hfilled (.list hnone)
  obtain ⟨index, hindex, hplace⟩ := List.mem_iff_getElem.mp hmem
  have hnames : v.NamesIntent := (hnamed v hmem).resolve_left hv
  refine ⟨index, (exists_derive_iff_namesIntent htype hconfig hitems).mpr ⟨by omega, v, ?_, hnames⟩⟩
  exact List.getElem?_eq_some_iff.mpr ⟨hindex, hplace⟩

/-- A classifier whose text is bound. -/
def boundClassifier (settings : Fields) : Node :=
  ⟨"c", "custom", .origin, ⟨some "c", .intentClassifier, "", settings, .idle,
    [⟨"text", .global, "session", some "question"⟩], [], [], []⟩, []⟩

def numberedIntents : Node :=
  boundClassifier [("modelId", .int 1), ("intents", .arr [.null, .str " ", .int 7])]

theorem exists_branch_numberedIntents : ∃ index guardText,
    derive numberedIntents (some (intentHandle index)) = .ok (some guardText) := by
  have herrors : numberedIntents.errors .builtIn = [] := by decide +kernel
  have hread : (intentConfig? numberedIntents).isSome := by decide +kernel
  have hcount : [Json.null, .str " ", .int 7].length ≤ 10 ^ Numeral.digitLimit := calc
    3 ≤ 10 ^ 1 := by decide
    _ ≤ 10 ^ Numeral.digitLimit := Nat.pow_le_pow_right (by decide) (by decide)
  refine exists_branch_of_errors_eq_nil rfl herrors hread rfl hcount ?_
  simp only [List.forall_mem_cons]
  exact ⟨.inl .null, .inr (.text (by decide)), .inr (.whole 7),
    fun _ h => absurd h List.not_mem_nil⟩

/-- A classifier without findings that has no branch of its own all the same. -/
structure Branchless (catalog : Catalog) (node : Node) : Prop where
  nodeType : node.nodeType = .intentClassifier
  errors : node.errors catalog = []
  unguarded : ¬∃ index guardText, derive node (some (intentHandle index)) = .ok (some guardText)

/-! Settings that are filled in and give no branch: a model that is no identifier, intents that are
no list, and an intent that is neither text nor number. -/

def namedModel : Node :=
  boundClassifier [("modelId", .obj [("name", .str "gpt")]), ("intents", .arr [.str "billing"])]

def listlessIntents : Node := boundClassifier [("modelId", .int 1), ("intents", .str "billing")]

def namedIntent : Node :=
  boundClassifier [("modelId", .int 1), ("intents", .arr [.obj [("name", .str "billing")]])]

theorem branchless_of_filled : Branchless .builtIn namedModel ∧
    Branchless .builtIn listlessIntents ∧ Branchless .builtIn namedIntent := by
  refine ⟨⟨rfl, ?_, ?_⟩, ⟨rfl, ?_, ?_⟩, ⟨rfl, ?_, ?_⟩⟩
  · decide +kernel
  · exact not_exists_branch_of_unnamed rfl (Or.inl (by decide +kernel))
  · decide +kernel
  · exact not_exists_branch_of_unnamed rfl (Or.inr (by decide))
  · decide +kernel
  · exact not_exists_branch_of_unnamed rfl (Or.inr (by decide))

end Guard
end WorkflowStudio
