import Mathlib.Data.List.Induction
import WorkflowStudio.Proofs.GuardRecovery
import WorkflowStudio.Proofs.NormalDocument

/-!
Guards and handles lead to each other. A handle names an intent, its guard quotes the name, and
the name leads back to the first handle that has it. The guard is the same again on this way,
and the handle is when it was the first of its name. A line break hides the name in a guard, and
the guard of an intent without a name leads to a handle that has no guard.
-/
namespace WorkflowStudio

/-- Digits of any script count less than the power of ten that has one digit more. -/
theorem Text.digitsValue_lt (cs : List Char) : digitsValue cs < 10 ^ cs.length := by
  induction cs using List.reverseRecOn with
  | nil => decide
  | append_singleton cs c ih =>
    have hdigit : (digit? c).getD 0 < 10 := by
      cases hc : digit? c with
      | none => decide
      | some d => exact digit?_lt_ten hc
    have hvalue : digitsValue (cs ++ [c]) = digitsValue cs * 10 + (digit? c).getD 0 := by
      rw [digitsValue, List.foldl_append]
      rfl
    rw [hvalue, List.length_append, List.length_singleton, Nat.pow_succ]
    omega

namespace Guard

/-! Handles as texts. -/

/-- A handle that counts an intent by digits, with or without a line break at the end. -/
def Counts (handle : String) (digits : List Char) : Prop :=
  digits ≠ [] ∧ (∀ d ∈ digits, Text.isDigit d = true) ∧
    (handle.toList = "intent-".toList ++ digits ∨
      handle.toList = "intent-".toList ++ (digits ++ ['\n']))

theorem dropLineEnd_cases (cs : List Char) :
    cs = dropLineEnd cs ∨ cs = dropLineEnd cs ++ ['\n'] := by
  unfold dropLineEnd
  split
  · rename_i hlast
    exact Or.inr (List.dropLast_append_getLast? '\n' hlast).symm
  · exact Or.inl rfl

theorem handleDigits?_eq_some_iff {handle : String} {digits : List Char} :
    handleDigits? handle = some digits ↔ Counts handle digits := by
  unfold handleDigits?
  simp only [Option.bind_eq_some_iff, dropPart_eq_some_iff]
  constructor
  · intro ⟨rest, hrest, h⟩
    split at h
    · rename_i hdigits
      obtain rfl := Option.some.inj h
      simp only [Bool.and_eq_true, Bool.not_eq_true', List.isEmpty_eq_false_iff,
        List.all_eq_true] at hdigits
      refine ⟨hdigits.1, hdigits.2, ?_⟩
      rw [hrest]
      exact (dropLineEnd_cases rest).imp (congrArg _) (congrArg _)
    · cases h
  · intro ⟨hne, hdigits, hhandle⟩
    have hall : (!digits.isEmpty && digits.all Text.isDigit) = true := by
      simp [hne, List.all_eq_true.mpr hdigits]
    have hplain : dropLineEnd digits = digits :=
      dropLineEnd_of_digits (List.all_eq_true.mpr hdigits)
    have hbroken : dropLineEnd (digits ++ ['\n']) = digits := by simp [dropLineEnd]
    rcases hhandle with hhandle | hhandle
    · exact ⟨digits, hhandle, by rw [hplain, if_pos hall]⟩
    · exact ⟨digits ++ ['\n'], hhandle, by rw [hbroken, if_pos hall]⟩

/-! From a handle to its guard. -/

/-- The intent that a handle of a node stands for; an intent without a name has no handle. -/
inductive StandsFor (source : Node) : String → String → Prop where
  | fallback : StandsFor source elseHandle elseHandle
  | intent {handle name : String} {digits : List Char} {config : IntentConfig}
      (hdigits : Counts handle digits) (hconfig : intentConfig? source = some config)
      (hname : config.intents[Text.digitsValue digits]? = some name) (hne : name ≠ "") :
      StandsFor source handle name

variable {source : Node} {handle name guardText : String}

theorem StandsFor.name_ne (h : StandsFor source handle name) : name ≠ "" := by
  cases h with
  | fallback => decide
  | intent _ _ _ hne => exact hne

theorem StandsFor.eq_elseHandle (h : StandsFor source elseHandle name) : name = elseHandle := by
  cases h with
  | fallback => rfl
  | intent hdigits =>
    have hnone := handleDigits?_eq_some_iff.mpr hdigits
    cases hnone

theorem not_overlong_of_derive {condition : Option String}
    (h : derive source (some handle) = .ok condition) : ¬Overlong source (some handle) := by
  intro hlong
  obtain ⟨fault, hfault⟩ := derive_error_iff.mpr hlong
  rw [hfault] at h
  cases h

/-- A handle whose number can be read has the guard of the intent that it stands for. -/
theorem derive_eq_some_iff : derive source (some handle) = .ok (some guardText) ↔
    source.nodeType = .intentClassifier ∧ ¬Overlong source (some handle) ∧
      ∃ name, StandsFor source handle name ∧ guardText = ofIntent name := by
  constructor
  · intro h
    have hshort := not_overlong_of_derive h
    unfold derive ofHandle at h
    split at h
    · cases h
    · rename_i hguarded
      rw [not_or, not_not] at hguarded
      refine ⟨hguarded.1, hshort, ?_⟩
      split at h
      · rename_i helse
        cases h
        have hhandle : handle = elseHandle := helse
        rw [hhandle]
        exact ⟨elseHandle, .fallback, rfl⟩
      · split at h
        · rename_i digits config hdigits hconfig
          split at h
          · cases h
          · obtain ⟨name, hname, rfl⟩ := Option.map_eq_some_iff.mp (Except.ok.inj h)
            obtain ⟨hplace, hne⟩ := intentAt_eq_some_iff.mp hname
            have hcounts := handleDigits?_eq_some_iff.mp hdigits
            exact ⟨name, .intent hcounts hconfig hplace hne, rfl⟩
        · cases h
  · intro ⟨htype, hshort, name, hstands, hguard⟩
    rw [hguard]
    cases hstands with
    | fallback => exact derive_else htype
    | @intent _ _ digits config hdigits hconfig hname hne =>
      have hcounts : handleDigits? ((some handle).getD "") = some digits :=
        handleDigits?_eq_some_iff.mpr hdigits
      have hlength : ¬Numeral.digitLimit < digits.length := fun hlong =>
        hshort ⟨htype, by rw [hconfig]; rfl, digits, hcounts, hlong⟩
      rw [derive_of_digits htype hcounts hconfig, if_neg hlength,
        intentAt_eq_some_iff.mpr ⟨hname, hne⟩, Option.map_some]

theorem ofIntent_injective : Function.Injective ofIntent := by
  intro name other h
  have hchars := congrArg String.toList h
  simp only [ofIntent, String.toList_append, List.append_cancel_left_eq,
    List.append_cancel_right_eq] at hchars
  exact String.toList_inj.mp hchars

/-! From a guard to its handle. -/

theorem LeadsBack.unique {other : String} (h : LeadsBack source name handle)
    (hother : LeadsBack source name other) : handle = other := by
  cases h with
  | fallback helse =>
    cases hother with
    | fallback => rfl
    | intent hne => exact absurd helse hne
  | @intent config n hne hconfig hname hfirst =>
    cases hother with
    | fallback helse => exact absurd helse hne
    | @intent found m _ hfound hplace hleast =>
      obtain rfl : config = found := Option.some.inj (hconfig.symm.trans hfound)
      have hle : m ≤ n := Nat.le_of_not_lt fun hlt => hleast n hlt hname
      have hge : n ≤ m := Nat.le_of_not_lt fun hlt => hfirst m hlt hplace
      rw [Nat.le_antisymm hle hge]

/-- The handle that a name leads back to stands for it, unless it is empty. -/
theorem LeadsBack.standsFor_iff (h : LeadsBack source name handle) :
    StandsFor source handle name ↔ name ≠ "" := by
  refine ⟨StandsFor.name_ne, fun hne => ?_⟩
  cases h with
  | fallback helse =>
    rw [helse]
    exact .fallback
  | @intent config n _ hconfig hname _ =>
    have hcounts := handleDigits?_eq_some_iff.mp (handleDigits?_intentHandle n)
    exact .intent hcounts hconfig (by rwa [digitsValue_wholeDigits]) hne

/-- The first handle of a name is no longer than any other. -/
theorem LeadsBack.not_overlong {found : String} (h : LeadsBack source name found)
    (hstands : StandsFor source handle name) (hshort : ¬Overlong source (some handle)) :
    ¬Overlong source (some found) := by
  intro ⟨htype, hread, digits, hdigits, hlong⟩
  cases h with
  | fallback => cases hdigits
  | @intent config n hne hconfig hname hfirst =>
    cases hstands with
    | fallback => exact hne rfl
    | @intent _ _ given other hgiven hother hplace _ =>
      obtain rfl : config = other := Option.some.inj (hconfig.symm.trans hother)
      have hgivenDigits : handleDigits? ((some handle).getD "") = some given :=
        handleDigits?_eq_some_iff.mpr hgiven
      have hlength : given.length ≤ Numeral.digitLimit := Nat.le_of_not_lt fun hlt =>
        hshort ⟨htype, hread, given, hgivenDigits, hlt⟩
      have hle : n ≤ Text.digitsValue given := Nat.le_of_not_lt fun hlt => hfirst _ hlt hplace
      have hbound : n < 10 ^ Numeral.digitLimit := calc
        n ≤ Text.digitsValue given := hle
        _ < 10 ^ given.length := Text.digitsValue_lt given
        _ ≤ 10 ^ Numeral.digitLimit := Nat.pow_le_pow_right (by decide) hlength
      have hfound : digits = Numeral.wholeDigits n :=
        Option.some.inj (hdigits.symm.trans (handleDigits?_intentHandle n))
      rw [hfound] at hlong
      exact Nat.not_lt.mpr ((Numeral.length_wholeDigits_le_iff (by decide)).mpr hbound) hlong

theorem exists_leadsBack (hstands : StandsFor source handle name) :
    ∃ found, LeadsBack source name found := by
  by_cases helse : name = elseHandle
  · exact ⟨elseHandle, .fallback helse⟩
  · cases hstands with
    | fallback => exact absurd rfl helse
    | @intent _ _ digits config _ hconfig hname _ =>
      have hmem : name ∈ config.intents := List.mem_of_getElem? hname
      obtain ⟨n, hn⟩ := Option.isSome_iff_exists.mp (List.isSome_idxOf?.mpr hmem)
      obtain ⟨hplace, hfirst⟩ := indexOf_eq_some_iff.mp hn
      exact ⟨intentHandle n, .intent helse hconfig hplace hfirst⟩

/-! From a guard to its handle and back. -/

/-- The name in a guard is the only one that it quotes. -/
theorem Quotes.eq_of_intentOf? {other : String} (h : Quotes guardText other)
    (hname : intentOf? guardText = some name) : other = name := by
  rw [h.intentOf?_eq] at hname
  split at hname
  · cases hname
  · exact Option.some.inj hname

/-- A handle that was found for a guard has the guard of the name that the text quotes, except
that no guard is derived for an empty name. -/
theorem keeps_guard_iff (h : recoverHandle (some source) (some guardText) = some handle) :
    ∃ name, (∀ other, Quotes guardText other ↔ other = name) ∧
      (derive source (some handle) = .ok (some (ofIntent name)) ↔
        name ≠ "" ∧ ¬Overlong source (some handle)) ∧
      ∀ nodes shown edge, Graph.lastNode? nodes shown.source = some source →
        shown.condition = some guardText → Document.toEdge nodes shown = .ok edge →
          edge.sourceHandle = some handle ∧
            (edge.condition = some (ofIntent name) ↔ name ≠ "") := by
  obtain ⟨htype, name, hname, hback⟩ := recoverHandle_eq_some_iff.mp h
  have hquotes := (intentOf?_eq_some_iff.mp hname).1
  have hkept : derive source (some handle) = .ok (some (ofIntent name)) ↔
      name ≠ "" ∧ ¬Overlong source (some handle) := by
    rw [derive_eq_some_iff]
    constructor
    · intro ⟨_, hshort, other, hstands, hguard⟩
      rw [ofIntent_injective hguard]
      exact ⟨hstands.name_ne, hshort⟩
    · intro ⟨hne, hshort⟩
      exact ⟨htype, hshort, name, hback.standsFor_iff.mpr hne, rfl⟩
  refine ⟨name, fun other => ?_, hkept, ?_⟩
  · constructor
    · intro hother
      exact hother.eq_of_intentOf? hname
    · intro hother
      rw [hother]
      exact hquotes
  · intro nodes shown edge hsource hcondition hedge
    rw [← hcondition] at h
    obtain ⟨condition, hderive, rfl⟩ := Document.exists_derive_of_toEdge hsource h hedge
    refine ⟨rfl, ?_⟩
    have hshort := not_overlong_of_derive hderive
    have hcondition : condition = some (ofIntent name) ↔
        derive source (some handle) = .ok (some (ofIntent name)) := by
      rw [hderive, Except.ok.injEq]
    change condition = some (ofIntent name) ↔ name ≠ ""
    rw [hcondition, hkept]
    exact and_iff_left hshort

/-- An intent without a name is found for the guard that quotes nothing, and loses it. -/
theorem not_keeps_guard_emptySlot :
    recoverHandle (some Graph.sorter) (some "intent == ''") = some (intentHandle 1) ∧
      ∃ name, (∀ other, Quotes "intent == ''" other ↔ other = name) ∧
        derive Graph.sorter (some (intentHandle 1)) ≠ .ok (some (ofIntent name)) := by
  have hfound : recoverHandle (some Graph.sorter) (some "intent == ''") =
      some (intentHandle 1) := rfl
  obtain ⟨name, hquotes, hkept, -⟩ := keeps_guard_iff hfound
  have hname : "" = name := (hquotes "").mp (quotes_ofIntent "")
  refine ⟨hfound, name, hquotes, fun hderive => ?_⟩
  exact (hkept.mp hderive).1 hname.symm

/-- A guard is traced back to the first handle with its name, unless a line break stands in the
name. -/
theorem traced_back (h : derive source (some handle) = .ok (some guardText)) :
    ∃ name, StandsFor source handle name ∧ guardText = ofIntent name ∧
      (recoverHandle (some source) (some guardText) = none ↔ '\n' ∈ name.toList) ∧
      ∀ found, recoverHandle (some source) (some guardText) = some found →
        derive source (some found) = .ok (some guardText) ∧
          (found = handle ↔ handle = elseHandle ∨ name ≠ elseHandle ∧
            ∃ config n, intentConfig? source = some config ∧
              config.intents[n]? = some name ∧ (∀ m < n, config.intents[m]? ≠ some name) ∧
              handle = intentHandle n) := by
  obtain ⟨htype, hshort, name, hstands, rfl⟩ := derive_eq_some_iff.mp h
  obtain ⟨found, hback⟩ := exists_leadsBack hstands
  have hread := (quotes_ofIntent name).intentOf?_eq
  refine ⟨name, hstands, rfl, ?_, fun other hother => ?_⟩
  · constructor
    · intro hnone
      by_contra hline
      rw [if_neg hline] at hread
      rw [recoverHandle_eq_some_iff.mpr ⟨htype, name, hread, hback⟩] at hnone
      cases hnone
    · intro hline
      rw [recoverHandle_eq htype, hread, if_pos hline]
      rfl
  · obtain ⟨-, quoted, hquoted, hother⟩ := recoverHandle_eq_some_iff.mp hother
    obtain rfl := (quotes_ofIntent name).eq_of_intentOf? hquoted
    have hlimit := hother.not_overlong hstands hshort
    have hkept := hother.standsFor_iff.mpr hstands.name_ne
    refine ⟨derive_eq_some_iff.mpr ⟨htype, hlimit, name, hkept, rfl⟩, ?_⟩
    constructor
    · intro hsame
      rw [← hsame]
      cases hother with
      | fallback => exact Or.inl rfl
      | @intent config n hne hconfig hname hfirst =>
        exact Or.inr ⟨hne, config, n, hconfig, hname, hfirst, rfl⟩
    · intro hfirst
      rcases hfirst with helse | ⟨hne, config, n, hconfig, hname, hfirst, hhandle⟩
      · rw [helse] at hstands ⊢
        exact hother.unique (.fallback hstands.eq_elseHandle)
      · rw [hhandle]
        exact hother.unique (.intent hne hconfig hname hfirst)

/-- A handle that counts with leading zeros has a guard, which leads back to another handle. -/
theorem traced_back_leadingZeros :
    derive Graph.sorter (some "intent-002") = .ok (some "intent == 'refund'") ∧
      ∃ found, recoverHandle (some Graph.sorter) (some "intent == 'refund'") = some found ∧
        derive Graph.sorter (some found) = .ok (some "intent == 'refund'") ∧
          found ≠ "intent-002" := by
  have hderive : derive Graph.sorter (some "intent-002") = .ok (some "intent == 'refund'") := rfl
  have hfound : recoverHandle (some Graph.sorter) (some "intent == 'refund'") =
      some (intentHandle 2) := rfl
  obtain ⟨name, -, -, -, htraced⟩ := traced_back hderive
  exact ⟨hderive, intentHandle 2, hfound, (htraced _ hfound).1, by decide⟩

end Guard
end WorkflowStudio
