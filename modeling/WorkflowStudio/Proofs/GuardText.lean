import Mathlib.Logic.Basic
import WorkflowStudio.Guard

/-!
Guards and the handles they stand for, as texts. A handle of an intent classifier fails to
name an intent only when its number is too long to be read.
-/
namespace WorkflowStudio.Guard

@[simp] theorem dropPart_append (part rest : List Char) :
    dropPart part (part ++ rest) = some rest := by
  induction part with
  | nil => rfl
  | cons c part ih => rw [List.cons_append, dropPart, if_pos rfl, ih]

theorem dropLineEnd_of_digits {cs : List Char} (h : cs.all Text.isDigit = true) :
    dropLineEnd cs = cs := by
  refine if_neg fun hlast => ?_
  have hdigit := List.all_eq_true.mp h '\n' (List.mem_of_getLast? hlast)
  exact absurd hdigit (by decide)

/-- The digits of a handle are what follows its stem. -/
theorem handleDigits?_of_digits {digits : List Char} (hne : digits ≠ [])
    (h : digits.all Text.isDigit = true) :
    handleDigits? ("intent-" ++ String.ofList digits) = some digits := by
  unfold handleDigits?
  rw [String.toList_append, dropPart_append, Option.bind_some, String.toList_ofList]
  dsimp only
  rw [dropLineEnd_of_digits h]
  exact if_pos (by simp [hne, h])

/-- A handle of an intent classifier whose number has more digits than are read. -/
def Overlong (source : Node) (handle : Option String) : Prop :=
  source.nodeType = .intentClassifier ∧ (intentConfig? source).isSome ∧
    ∃ digits, handleDigits? (handle.getD "") = some digits ∧ Numeral.digitLimit < digits.length

/-- The guard of a handle with a number that stands for an intent. -/
theorem derive_of_digits {source : Node} (htype : source.nodeType = .intentClassifier)
    {handle : Option String} {digits : List Char}
    (hdigits : handleDigits? (handle.getD "") = some digits) {config : IntentConfig}
    (hconfig : intentConfig? source = some config) :
    derive source handle =
      if Numeral.digitLimit < digits.length then .error (.tooManyDigits digits.length)
      else .ok ((config.intentAt (Text.digitsValue digits)).map ofIntent) := by
  have hfilled : ¬(source.nodeType ≠ .intentClassifier ∨ (handle.getD "").isEmpty) := by
    intro h
    rcases h with htype' | hempty
    · exact htype' htype
    · rw [String.isEmpty_iff.mp hempty] at hdigits
      cases hdigits
  have helse : handle.getD "" ≠ elseHandle := by
    intro heq
    rw [heq] at hdigits
    cases hdigits
  unfold derive ofHandle
  rw [if_neg hfilled, if_neg helse]
  simp only [hdigits, hconfig]

/-- The guard of an edge can be derived for every handle that is not too long. -/
theorem derive_error_iff {source : Node} {handle : Option String} :
    (∃ fault, derive source handle = .error fault) ↔ Overlong source handle := by
  constructor
  · intro ⟨fault, h⟩
    unfold derive ofHandle at h
    split at h
    · cases h
    · rename_i hguarded
      rw [not_or, not_not] at hguarded
      split at h
      · cases h
      · split at h
        · rename_i digits config hdigits hconfig
          split at h
          · rename_i hlong
            exact ⟨hguarded.1, by rw [hconfig]; rfl, digits, hdigits, hlong⟩
          · cases h
        · cases h
  · intro ⟨htype, hconfig, digits, hdigits, hlong⟩
    obtain ⟨config, hconfig⟩ := Option.isSome_iff_exists.mp hconfig
    exact ⟨_, (derive_of_digits htype hdigits hconfig).trans (if_pos hlong)⟩

/-- Settings that cannot be read name no intents. -/
theorem derive_of_unread {source : Node} {handle : Option String}
    (hconfig : intentConfig? source = none) (helse : handle.getD "" ≠ elseHandle) :
    derive source handle = .ok none := by
  unfold derive ofHandle
  rw [if_neg helse, hconfig]
  split
  · rfl
  · split
    · contradiction
    · rfl

theorem derive_of_ne_classifier {source : Node} (h : source.nodeType ≠ .intentClassifier)
    (handle : Option String) : derive source handle = .ok none :=
  if_pos (Or.inl h)

end WorkflowStudio.Guard
