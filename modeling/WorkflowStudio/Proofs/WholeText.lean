import WorkflowStudio.Expression
import WorkflowStudio.Proofs.JsonShape
import WorkflowStudio.Proofs.RecordFields
import WorkflowStudio.Proofs.TextFaults

/-!
Texts of whole characters. Joining such texts gives one again, and so does writing a number or
the reference of a binding of which every text is one.
-/
namespace WorkflowStudio

namespace Text

theorem whole_append {s t : String} : Whole (s ++ t) ↔ Whole s ∧ Whole t := by
  simp only [Whole, isBroken, String.toList_append, List.any_append, Bool.or_eq_false_iff]

theorem whole_iff {s : String} : Whole s ↔ ∀ c ∈ s.toList, Json.isHalf c = false := by
  rw [Whole, isBroken, List.any_eq_false]
  refine forall₂_congr fun c _ => ?_
  rw [Bool.not_eq_true]
  rfl

theorem whole_of_ascii {s : String} (h : ∀ c ∈ s.toList, c.toNat < 0x80) : Whole s :=
  whole_iff.mpr fun c hc => Json.isHalf_of_ascii (h c hc)

theorem whole_intText (n : Int) : Whole (Decimal.intText n) := whole_of_ascii (Json.ascii_intText n)

theorem whole_toString (n : Nat) : Whole (toString n) := whole_intText n

end Text

open Text (Whole)

/-! References. -/

theorem ParamBinding.whole_texts {b : ParamBinding} (h : ∀ v ∈ Record.parts b, v.Whole) :
    Whole b.sourceKey ∧ ∀ s, b.sourceParam = some s → Whole s := by
  refine ⟨Json.whole_str.mp (h _ (List.mem_cons_of_mem _ List.mem_cons_self)), fun s hs => ?_⟩
  refine Json.whole_str.mp (h _ (List.mem_cons_of_mem _ (List.mem_cons_of_mem _ ?_)))
  rw [hs]
  exact List.mem_cons_self

theorem ParamBinding.whole_resolveGlobal {b : ParamBinding} (h : ∀ v ∈ Record.parts b, v.Whole)
    {scope : Scope} {key : String} (hresolve : b.resolveGlobal = some (scope, key)) :
    Whole key := by
  obtain ⟨hsource, hparam⟩ := whole_texts h
  have hgiven : Whole (b.sourceParam.getD "") := by
    cases hgiven : b.sourceParam with
    | none => rfl
    | some s => exact hparam s hgiven
  have horElse : Whole (orElse b.sourceParam b.sourceKey) := by
    unfold orElse
    split
    · rename_i s hgiven
      split
      · exact hsource
      · exact hparam s hgiven
    · exact hsource
  unfold resolveGlobal at hresolve
  split at hresolve
  · cases hresolve
  · cases hresolve
    exact horElse
  · cases hresolve
    exact horElse
  · split at hresolve
    · cases hresolve
      exact hgiven
    · cases hresolve
      exact hsource

theorem Expression.whole_enclose {body : String} (h : Whole body) : Whole (enclose body) := by
  rw [enclose, Text.whole_append, Text.whole_append]
  exact ⟨⟨rfl, h⟩, rfl⟩

/-- The reference of a binding is whole when the texts of the binding are. -/
theorem Expression.whole_ofBinding {b : ParamBinding} (h : ∀ v ∈ Record.parts b, v.Whole)
    {expression : String} (hexpression : ofBinding b = some expression) : Whole expression := by
  obtain ⟨hsource, hparam⟩ := ParamBinding.whole_texts h
  unfold ofBinding at hexpression
  split at hexpression
  · rename_i scope key hresolve
    split at hexpression
    · cases hexpression
    · cases hexpression
      refine whole_enclose ?_
      rw [Text.whole_append, Text.whole_append]
      refine ⟨⟨?_, rfl⟩, ParamBinding.whole_resolveGlobal h hresolve⟩
      cases scope <;> rfl
  · split at hexpression
    · rename_i param hgiven
      split at hexpression
      · cases hexpression
      · cases hexpression
        refine whole_enclose ?_
        rw [Text.whole_append, Text.whole_append]
        exact ⟨⟨hsource, rfl⟩, hparam param hgiven⟩
    · cases hexpression

end WorkflowStudio
