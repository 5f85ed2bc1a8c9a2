import WorkflowStudio.Proofs.ReferenceText

/-!
Which bindings come back from their expressions. A text that stands for a binding is, without the
blanks around it, the expression of this binding. In the other direction an expression leads back
to its source unless a brace stands in it, or its source is a node whose id holds a point or is
the name of a scope.
-/
namespace WorkflowStudio

/-- A text without braces. -/
def Expression.Unbraced (s : String) : Prop := ∀ c ∈ s.toList, c ≠ '{' ∧ c ≠ '}'

namespace ParamBinding

open Expression (Unbraced)

/-- Two bindings take their value from the same place. -/
def SameSource (b other : ParamBinding) : Prop :=
  b.resolveGlobal = other.resolveGlobal ∧ (other.resolveGlobal = none →
    b.sourceKey = other.sourceKey ∧ b.sourceParam = other.sourceParam)

/-- A binding whose expression leads back to its source. -/
def Recoverable (b : ParamBinding) : Prop :=
  (∃ scope key, b.resolveGlobal = some (scope, key) ∧ Unbraced key) ∨
    b.sourceType = .node ∧ '.' ∉ b.sourceKey.toList ∧ Unbraced b.sourceKey ∧
      b.sourceKey ∉ ["global", "interface", "session"] ∧
      ∃ param, b.sourceParam = some param ∧ Unbraced param

end ParamBinding

namespace Expression

theorem unbraced_iff {s : String} : Unbraced s ↔ ∀ c ∈ s.toList, isBrace c = false := by
  simp [Unbraced, isBrace]

theorem enclose_injective : Function.Injective enclose := by
  intro s t h
  rw [← String.toList_inj, toList_enclose, toList_enclose] at h
  simpa [String.toList_inj] using h

theorem scope?_eq_none_iff {name : String} :
    scope? name = none ↔ name ∉ ["global", "interface", "session"] := by
  refine ⟨fun hnone hname => ?_, scope?_eq_none⟩
  simp only [List.mem_cons, List.not_mem_nil, or_false] at hname
  rcases hname with rfl | rfl | rfl <;> cases hnone

/-! What the binding of a cited key points at. -/

section Binding

variable {paramKey source key : String}

theorem binding_of_scope {scope : Scope} (h : scope? source = some scope) :
    binding paramKey source key = ⟨paramKey, .global, scope.text, some key⟩ ∧
      (binding paramKey source key).resolveGlobal = some (scope, key) := by
  have heq : binding paramKey source key = ⟨paramKey, .global, scope.text, some key⟩ := by
    rw [binding, h]
  refine ⟨heq, ?_⟩
  rw [heq, ParamBinding.resolveGlobal_scope]

theorem binding_of_node (h : scope? source = none) :
    binding paramKey source key = ⟨paramKey, .node, source, some key⟩ := by
  rw [binding, h]

theorem Cites.plain {body : String} (h : Cites (enclose body) source key) :
    ∀ c ∈ body.toList, isBrace c = false := by
  obtain rfl : body = source ++ "." ++ key := enclose_injective h.text
  intro c hc
  simp only [String.toList_append, List.mem_append] at hc
  rcases hc with (hc | hc) | hc
  · exact h.source_plain c hc
  · obtain rfl : c = '.' := List.mem_singleton.mp hc
    rfl
  · exact h.key_plain c hc

theorem cites_referenceName (scope : Scope) (hkey : key ≠ "") (hplain : Unbraced key) :
    Cites (enclose (scope.referenceName ++ "." ++ key)) scope.referenceName key where
  text := rfl
  source_ne := by cases scope <;> decide
  pointless := by cases scope <;> decide
  source_plain := isBrace_referenceName scope
  key_ne := hkey
  key_plain := unbraced_iff.mp hplain

theorem Cites.referable {s : String} (h : Cites s source key) :
    (binding paramKey source key).Referable := by
  have hkey : ∀ c ∈ key.toList, c ≠ '{' ∧ c ≠ '}' := unbraced_iff.mpr h.key_plain
  cases hscope : scope? source with
  | none =>
    rw [binding_of_node hscope]
    refine ⟨Or.inl ⟨rfl, h.source_ne, fun c hc => ⟨?_, ?_⟩, scope?_eq_none_iff.mp hscope⟩,
      key, rfl, h.key_ne, hkey⟩
    · rintro rfl
      exact h.pointless hc
    · exact unbraced_iff.mpr h.source_plain c hc
  | some scope =>
    rw [(binding_of_scope hscope).1]
    refine ⟨Or.inr ⟨rfl, ?_⟩, key, rfl, h.key_ne, hkey⟩
    cases scope <;> simp [Scope.text]

end Binding

/-! The reader that also takes keys that are no texts. -/

section Reader

variable {paramKey : String} {v : Json} {b : ParamBinding}

theorem toBinding_withKey (paramKey : String) (v : Json) :
    toBinding paramKey v = (toBinding "" v).map fun b => { b with paramKey := paramKey } := by
  have hkey : ∀ source key,
      { binding "" source key with paramKey := paramKey } = binding paramKey source key := by
    intro source key
    unfold binding
    split <;> rfl
  cases v with
  | str s => simp only [toBinding, Option.map_bind, Function.comp_def, Option.map_map, hkey]
  | _ => rfl

theorem exists_sourceParam_of_toBinding (h : toBinding paramKey v = some b) :
    ∃ key, b.sourceParam = some key := by
  cases v with
  | str s =>
    obtain ⟨source, key, -, rfl⟩ := toBinding_eq_some_iff.mp h
    refine ⟨key, ?_⟩
    unfold binding
    split <;> rfl
  | _ => cases h

/-- Under a key that is a text the reader finds the binding of an expression, and it never
fails. -/
theorem readBinding_str (paramKey : String) (v : Json) :
    readBinding (.str paramKey) v = .ok (toBinding paramKey v) := by
  rw [toBinding_withKey]
  unfold readBinding
  cases hfound : toBinding "" v with
  | none => rfl
  | some found =>
    obtain ⟨foundKey, type, source, param⟩ := found
    obtain ⟨key, rfl⟩ : ∃ key, param = some key := exists_sourceParam_of_toBinding hfound
    rfl

end Reader

section Rendering

variable {paramKey s e : String} {b : ParamBinding}

/-- The two shapes of a binding that has an expression. -/
theorem of_ofBinding_eq_some (h : ofBinding b = some e) :
    (∃ scope key, b.resolveGlobal = some (scope, key) ∧ key ≠ "" ∧
      e = enclose (scope.referenceName ++ "." ++ key)) ∨
    b.resolveGlobal = none ∧ b.sourceKey ≠ "" ∧ ∃ param, b.sourceParam = some param ∧
      param ≠ "" ∧ e = enclose (b.sourceKey ++ "." ++ param) := by
  unfold ofBinding at h
  split at h
  · rename_i scope key hresolve
    split at h
    · cases h
    · rename_i hkey
      cases h
      exact Or.inl ⟨scope, key, hresolve, by simpa using hkey, rfl⟩
  · rename_i hresolve
    split at h
    · rename_i param hparam
      split at h
      · cases h
      · rename_i hfilled
        cases h
        simp only [Bool.or_eq_true, String.isEmpty_iff, not_or] at hfilled
        exact Or.inr ⟨hresolve, hfilled.1, param, hparam, hfilled.2, rfl⟩
    · cases h

theorem strip_ofBinding (h : ofBinding b = some e) : Text.strip e = e := by
  rcases of_ofBinding_eq_some h with ⟨_, _, _, _, rfl⟩ | ⟨_, _, _, _, _, rfl⟩
  · exact strip_enclose _
  · exact strip_enclose _

/-- A text stands for a binding exactly if it is the expression of this binding between blanks. -/
theorem toBinding_eq_some_iff_ofBinding : toBinding paramKey (.str s) = some b ↔
    b.paramKey = paramKey ∧ b.Referable ∧ ofBinding b = some (Text.strip s) := by
  constructor
  · intro h
    refine ⟨toBinding_paramKey h, ?_, (ofBinding_toBinding h).1⟩
    obtain ⟨source, key, hcites, rfl⟩ := toBinding_eq_some_iff.mp h
    exact hcites.referable
  · rintro ⟨rfl, hreferable, hof⟩
    obtain ⟨expression, hexpression, hto⟩ := toBinding_ofBinding hreferable
    obtain rfl : expression = Text.strip s := Option.some.inj (hexpression.symm.trans hof)
    rw [toBinding, strip_ofBinding hof] at hto
    exact hto

/-- What is read from a text is rendered as this text without the blanks around it, and is read
again from what is rendered. Nothing else is rendered as this text and can be referred to. -/
theorem read_iff_rendered (paramKey s : String) (b : ParamBinding) :
    (toBinding paramKey (.str s) = some b ↔
      b.paramKey = paramKey ∧ b.Referable ∧ ofBinding b = some (Text.strip s)) ∧
    (readBinding (.str paramKey) (.str s) = .ok (some b) ↔
      b.paramKey = paramKey ∧ b.Referable ∧ ofBinding b = some (Text.strip s)) ∧
    ∀ e, ofBinding b = some e →
      (toBinding paramKey (.str s) = some b → toBinding paramKey (.str e) = some b) ∧
      (readBinding (.str paramKey) (.str s) = .ok (some b) →
        readBinding (.str paramKey) (.str e) = .ok (some b)) := by
  have hread : toBinding paramKey (.str s) = some b ↔
      b.paramKey = paramKey ∧ b.Referable ∧ ofBinding b = some (Text.strip s) :=
    toBinding_eq_some_iff_ofBinding
  have hagain : ∀ e, ofBinding b = some e → toBinding paramKey (.str s) = some b →
      toBinding paramKey (.str e) = some b := by
    intro e he h
    obtain ⟨hstrip, hto⟩ := ofBinding_toBinding h
    rw [Option.some.inj (he.symm.trans hstrip)]
    exact hto
  rw [readBinding_str, Except.ok.injEq]
  refine ⟨hread, hread, fun e he => ⟨hagain e he, fun h => ?_⟩⟩
  rw [readBinding_str, hagain e he h]

theorem read_between_blanks :
    readBinding (.str "text") (.str ("\n " ++ enclose "sort.last.question" ++ "\t")) =
      .ok (some ⟨"text", .node, "sort", some "last.question"⟩) ∧
    readBinding (.str "text") (.str (enclose "sort.last.question")) =
      .ok (some ⟨"text", .node, "sort", some "last.question"⟩) := by
  have hread := read_iff_rendered "text" ("\n " ++ enclose "sort.last.question" ++ "\t")
    ⟨"text", .node, "sort", some "last.question"⟩
  have hfound : readBinding (.str "text") (.str ("\n " ++ enclose "sort.last.question" ++ "\t")) =
      .ok (some ⟨"text", .node, "sort", some "last.question"⟩) :=
    hread.2.1.mpr ⟨rfl, (hread.1.mp (by decide)).2.1, by decide⟩
  exact ⟨hfound, (hread.2.2 (enclose "sort.last.question") (by decide)).2 hfound⟩

theorem toBinding_of_ofBinding_iff {found : ParamBinding} (he : ofBinding b = some e) :
    toBinding paramKey (.str e) = some found ↔
      ∃ source key, Cites e source key ∧ found = binding paramKey source key := by
  rw [toBinding_eq_some_iff, strip_ofBinding he]

/-- A key of a scope comes back unless a brace stands in it. -/
theorem recovered_scope_iff {scope : Scope} {key : String}
    (hresolve : b.resolveGlobal = some (scope, key)) (hkey : key ≠ "")
    (he : ofBinding b = some (enclose (scope.referenceName ++ "." ++ key))) :
    (∃ found, toBinding b.paramKey (.str (enclose (scope.referenceName ++ "." ++ key))) =
      some found ∧ found.SameSource b) ↔ Unbraced key := by
  constructor
  · rintro ⟨found, hto, -⟩
    obtain ⟨source, _, hcites, -⟩ := (toBinding_of_ofBinding_iff he).mp hto
    exact unbraced_iff.mpr fun c hc => hcites.plain c (by simp [String.toList_append, hc])
  · intro hplain
    have hfound : (binding b.paramKey scope.referenceName key).resolveGlobal =
        some (scope, key) :=
      (binding_of_scope (scope?_referenceName scope)).2
    refine ⟨_, (toBinding_of_ofBinding_iff he).mpr
      ⟨_, _, cites_referenceName scope hkey hplain, rfl⟩, ?_, ?_⟩
    · rw [hfound, hresolve]
    · intro hnone
      rw [hresolve] at hnone
      cases hnone

/-- A parameter of a node comes back if the first point stands between the two and the node
is not taken for a scope. -/
theorem recovered_node_iff {param : String} (hresolve : b.resolveGlobal = none)
    (hsource : b.sourceKey ≠ "") (hsourceParam : b.sourceParam = some param) (hparam : param ≠ "")
    (he : ofBinding b = some (enclose (b.sourceKey ++ "." ++ param))) :
    (∃ found, toBinding b.paramKey (.str (enclose (b.sourceKey ++ "." ++ param))) = some found ∧
      found.SameSource b) ↔
    '.' ∉ b.sourceKey.toList ∧ Unbraced b.sourceKey ∧
      b.sourceKey ∉ ["global", "interface", "session"] ∧ Unbraced param := by
  constructor
  · rintro ⟨found, hto, hglobal, hnode⟩
    obtain ⟨source, key, hcites, rfl⟩ := (toBinding_of_ofBinding_iff he).mp hto
    have hscope : scope? source = none := by
      cases hscope : scope? source with
      | none => rfl
      | some scope =>
        rw [(binding_of_scope hscope).2, hresolve] at hglobal
        cases hglobal
    have hsame := hnode hresolve
    rw [binding_of_node hscope] at hsame
    obtain ⟨rfl, hkey⟩ : source = b.sourceKey ∧ some key = b.sourceParam := hsame
    obtain rfl : key = param := Option.some.inj (hkey.trans hsourceParam)
    exact ⟨hcites.pointless, unbraced_iff.mpr hcites.source_plain, scope?_eq_none_iff.mp hscope,
      unbraced_iff.mpr hcites.key_plain⟩
  · rintro ⟨hpoint, hsourcePlain, hfree, hparamPlain⟩
    have hcites : Cites (enclose (b.sourceKey ++ "." ++ param)) b.sourceKey param :=
      ⟨rfl, hsource, hpoint, unbraced_iff.mp hsourcePlain, hparam, unbraced_iff.mp hparamPlain⟩
    refine ⟨_, (toBinding_of_ofBinding_iff he).mpr ⟨_, _, hcites, rfl⟩, ?_⟩
    rw [binding_of_node (scope?_eq_none_iff.mpr hfree)]
    exact ⟨hresolve.symm, fun _ => ⟨rfl, hsourceParam.symm⟩⟩

/-- An expression leads back to the source of its binding exactly if the binding is recoverable,
and reading it never fails. -/
theorem recovered_iff_recoverable (he : ofBinding b = some e) :
    ((∃ found, toBinding b.paramKey (.str e) = some found ∧ found.SameSource b) ↔
      b.Recoverable) ∧
    readBinding (.str b.paramKey) (.str e) = .ok (toBinding b.paramKey (.str e)) := by
  refine ⟨?_, readBinding_str b.paramKey (.str e)⟩
  rcases of_ofBinding_eq_some he with
    ⟨scope, key, hresolve, hkey, rfl⟩ | ⟨hresolve, hsource, param, hparam, hne, rfl⟩
  · have htype : b.sourceType ≠ .node := by
      rw [Ne, ← ParamBinding.resolveGlobal_eq_none_iff, hresolve]
      exact Option.some_ne_none _
    rw [recovered_scope_iff hresolve hkey he]
    simp [ParamBinding.Recoverable, hresolve, htype]
  · have htype : b.sourceType = .node := (b.resolveGlobal_eq_none_iff).mp hresolve
    rw [recovered_node_iff hresolve hsource hparam hne he]
    simp [ParamBinding.Recoverable, hresolve, htype, hparam]

/-- Points are kept in a key but not in the id of a node. -/
theorem recovered_of_pointed_key :
    (∃ found, toBinding "text" (.str (enclose "interface.city.name")) = some found ∧
      found.SameSource ⟨"text", .interface, "city.name", none⟩) ∧
    readBinding (.str "text") (.str (enclose "interface.city.name")) =
      .ok (toBinding "text" (.str (enclose "interface.city.name"))) ∧
    ¬∃ found, toBinding "text" (.str (enclose "sort.last.question")) = some found ∧
      found.SameSource ⟨"text", .node, "sort.last", some "question"⟩ := by
  have hscope := recovered_iff_recoverable (b := ⟨"text", .interface, "city.name", none⟩)
    (e := enclose "interface.city.name") (by decide)
  have hnode := recovered_iff_recoverable (b := ⟨"text", .node, "sort.last", some "question"⟩)
    (e := enclose "sort.last.question") (by decide)
  have hkey : Unbraced "city.name" := by simp [Unbraced]
  refine ⟨hscope.1.mpr (Or.inl ⟨.interface, "city.name", rfl, hkey⟩), hscope.2, ?_⟩
  intro hfound
  rcases hnode.1.mp hfound with ⟨scope, key, hresolve, -⟩ | ⟨-, hpoint, -⟩
  · cases hresolve
  · exact hpoint (by decide)

end Rendering

end Expression
end WorkflowStudio
