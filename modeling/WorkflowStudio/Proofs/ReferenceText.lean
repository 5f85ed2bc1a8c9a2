import Mathlib.Data.List.TakeWhile
import WorkflowStudio.Document.Export
import WorkflowStudio.Document.Import
import WorkflowStudio.Proofs.SoundRecords

/-!
Reference expressions lead back to the bindings they were written for. The braces and the
first point of an expression show where its parts end, so it is enough that no part holds one
of them where it would be taken for the end, and that no node is called like a scope.
-/
namespace WorkflowStudio

theorem Text.trimBy_of_ends {p : Char → Bool} {c d : Char} (hc : p c = false) (hd : p d = false)
    (cs : List Char) : trimBy p (c :: (cs ++ [d])) = c :: (cs ++ [d]) := by
  have hfront : (c :: (cs ++ [d])).dropWhile p = c :: (cs ++ [d]) := by
    rw [List.dropWhile_cons_of_neg (by simp [hc])]
  have hreverse : (c :: (cs ++ [d])).reverse = d :: (cs.reverse ++ [c]) := by simp
  rw [trimBy, hfront, hreverse, List.dropWhile_cons_of_neg (by simp [hd]), ← hreverse,
    List.reverse_reverse]

namespace Expression

theorem toList_enclose (body : String) :
    (enclose body).toList = '$' :: ('{' :: body.toList ++ ['}']) := by
  simp [enclose, String.toList_append]

theorem strip_enclose (body : String) : Text.strip (enclose body) = enclose body := by
  rw [Text.strip, toList_enclose, Text.trimBy_of_ends (by decide) (by decide), ← toList_enclose,
    String.ofList_toList]

theorem body?_enclose {body : String} (hne : body.toList ≠ [])
    (hplain : ∀ c ∈ body.toList, isBrace c = false) :
    body? (enclose body).toList = some body.toList := by
  have hany : body.toList.any isBrace = false := by
    rw [List.any_eq_false]
    intro c hc
    rw [hplain c hc]
    exact Bool.false_ne_true
  rw [toList_enclose, List.cons_append, body?, if_pos List.getLast?_concat]
  dsimp only
  rw [List.dropLast_concat, hany, List.isEmpty_eq_false_iff.mpr hne]
  rfl

/-- The first point of an expression is the one behind a source without points. -/
theorem divide_reference {source key : String} (hsource : source ≠ "")
    (hpoint : '.' ∉ source.toList) (hkey : key ≠ "") :
    divide (source ++ "." ++ key).toList = some (source, key) := by
  have hspan : (source ++ "." ++ key).toList.span (· != '.') =
      (source.toList, '.' :: key.toList) := by
    have htake : ∀ c ∈ source.toList, (c != '.') = true := by
      intro c hc
      exact bne_iff_ne.mpr fun heq => hpoint (heq ▸ hc)
    have hlist : (source ++ "." ++ key).toList = source.toList ++ '.' :: key.toList := by
      simp [String.toList_append]
    rw [hlist, List.span_eq_takeWhile_dropWhile, List.takeWhile_append_of_pos htake,
      List.dropWhile_append_of_pos htake]
    simp
  have hfilled : ¬(source.toList.isEmpty || key.toList.isEmpty) = true := by
    simp [hsource, hkey]
  unfold divide
  rw [hspan]
  refine (if_neg hfilled).trans ?_
  rw [String.ofList_toList, String.ofList_toList]

/-- A reference to a key of a source is read as one. -/
theorem toBinding_reference {source key : String} (hsource : source ≠ "")
    (hpoint : '.' ∉ source.toList) (hsourceBrace : ∀ c ∈ source.toList, isBrace c = false)
    (hkey : key ≠ "") (hkeyBrace : ∀ c ∈ key.toList, isBrace c = false) (paramKey : String) :
    toBinding paramKey (.str (enclose (source ++ "." ++ key))) =
      some (binding paramKey source key) := by
  have hne : (source ++ "." ++ key).toList ≠ [] := by simp [String.toList_append]
  have hplain : ∀ c ∈ (source ++ "." ++ key).toList, isBrace c = false := by
    intro c hc
    simp only [String.toList_append, List.mem_append] at hc
    rcases hc with (hc | hc) | hc
    · exact hsourceBrace c hc
    · rw [List.mem_singleton.mp hc]
      rfl
    · exact hkeyBrace c hc
  unfold toBinding
  dsimp only
  rw [strip_enclose, body?_enclose hne hplain, Option.bind_some,
    divide_reference hsource hpoint hkey]
  rfl

/-- Only the first point divides. -/
example : toBinding "text" (.str (enclose "sort.last.question")) =
    some ⟨"text", .node, "sort", some "last.question"⟩ := by
  decide

theorem scope?_referenceName (scope : Scope) : scope? scope.referenceName = some scope := by
  cases scope <;> rfl

theorem scope?_eq_none {name : String} (h : name ∉ ["global", "interface", "session"]) :
    scope? name = none := by
  refine List.find?_eq_none.mpr fun scope _ heq => h ?_
  rw [← beq_iff_eq.mp heq]
  cases scope <;> decide

end Expression

namespace ParamBinding

/-- A binding to a node whose id can stand in a reference. -/
def NamesNode (b : ParamBinding) : Prop :=
  b.sourceType = .node ∧ b.sourceKey ≠ "" ∧
    (∀ c ∈ b.sourceKey.toList, c ≠ '.' ∧ c ≠ '{' ∧ c ≠ '}') ∧
    b.sourceKey ∉ ["global", "interface", "session"]

/-- A binding to one of the global scopes. -/
def NamesScope (b : ParamBinding) : Prop :=
  b.sourceType = .global ∧ b.sourceKey ∈ ["app", "interface", "session"]

/-- A binding that a reference can stand for. -/
structure Referable (b : ParamBinding) : Prop where
  source : b.NamesNode ∨ b.NamesScope
  param : ∃ key, b.sourceParam = some key ∧ key ≠ "" ∧ ∀ c ∈ key.toList, c ≠ '{' ∧ c ≠ '}'

theorem resolveGlobal_scope (paramKey : String) (scope : Scope) (key : String) :
    resolveGlobal ⟨paramKey, .global, scope.text, some key⟩ = some (scope, key) := by
  cases scope <;> rfl

end ParamBinding

namespace Expression

theorem isBrace_eq_false {c : Char} (h : c ≠ '{' ∧ c ≠ '}') : isBrace c = false := by
  simp [isBrace, h.1, h.2]

theorem isBrace_referenceName (scope : Scope) :
    ∀ c ∈ scope.referenceName.toList, isBrace c = false := by
  have hall : scope.referenceName.toList.all (!isBrace ·) = true := by cases scope <;> rfl
  intro c hc
  simpa using List.all_eq_true.mp hall c hc

/-- A binding is read back from its expression. -/
theorem toBinding_ofBinding {b : ParamBinding} (h : b.Referable) :
    ∃ expression, ofBinding b = some expression ∧
      toBinding b.paramKey (.str expression) = some b := by
  obtain ⟨paramKey, sourceType, sourceKey, sourceParam⟩ := b
  obtain ⟨key, hparam, hkey, hbraces⟩ := h.param
  have hkeyBrace : ∀ c ∈ key.toList, isBrace c = false :=
    fun c hc => isBrace_eq_false (hbraces c hc)
  rcases h.source with ⟨htype, hsource, hchars, hfree⟩ | ⟨htype, hscope⟩
  · dsimp only at hparam htype hsource hchars hfree
    subst hparam htype
    refine ⟨enclose (sourceKey ++ "." ++ key), ?_, ?_⟩
    · simp [ofBinding, ParamBinding.resolveGlobal, hsource, hkey]
    · rw [toBinding_reference hsource (fun hmem => (hchars '.' hmem).1 rfl)
        (fun c hc => isBrace_eq_false (hchars c hc).2) hkey hkeyBrace, binding,
        scope?_eq_none hfree]
  · dsimp only at hparam htype hscope
    subst hparam htype
    obtain ⟨scope, rfl⟩ : ∃ scope : Scope, sourceKey = scope.text := by
      simp only [List.mem_cons, List.not_mem_nil, or_false] at hscope
      rcases hscope with rfl | rfl | rfl
      exacts [⟨.app, rfl⟩, ⟨.interface, rfl⟩, ⟨.session, rfl⟩]
    refine ⟨enclose (scope.referenceName ++ "." ++ key), ?_, ?_⟩
    · simp [ofBinding, ParamBinding.resolveGlobal_scope, hkey]
    · rw [toBinding_reference (by cases scope <;> decide) (by cases scope <;> decide)
        (isBrace_referenceName scope) hkey hkeyBrace, binding, scope?_referenceName]

/-! Texts that are read as an expression. -/

theorem of_body?_eq_some {s : String} {body : List Char} (h : body? s.toList = some body) :
    s = enclose (String.ofList body) ∧ ∀ c ∈ body, isBrace c = false := by
  unfold body? at h
  split at h
  · rename_i rest heq
    split at h
    · rename_i hlast
      dsimp only at h
      split at h
      · cases h
      · rename_i hplain
        cases h
        simp only [Bool.or_eq_true, not_or, Bool.not_eq_true] at hplain
        have hrest : rest = rest.dropLast ++ ['}'] :=
          (List.dropLast_append_getLast? '}' hlast).symm
        refine ⟨?_, fun c hc => by simpa using List.any_eq_false.mp hplain.2 c hc⟩
        rw [← String.toList_inj, toList_enclose, heq, String.toList_ofList, List.cons_append,
          ← hrest]
    · cases h
  · cases h

/-- What stands before the first point holds no point. -/
theorem of_divide_eq_some {body : List Char} {source key : String}
    (h : divide body = some (source, key)) :
    body = source.toList ++ '.' :: key.toList ∧ source ≠ "" ∧ key ≠ "" ∧ '.' ∉ source.toList := by
  unfold divide at h
  split at h
  · rename_i front rest hspan
    split at h
    · cases h
    · rename_i hfilled
      cases h
      rw [List.span_eq_takeWhile_dropWhile, Prod.mk.injEq] at hspan
      have hpoint : '.' ∉ front := by
        rw [← hspan.1]
        intro hmem
        simpa using List.mem_takeWhile_imp hmem
      simp only [Bool.or_eq_true, List.isEmpty_iff, not_or] at hfilled
      refine ⟨?_, by simpa using hfilled.1, by simpa using hfilled.2, by simpa using hpoint⟩
      rw [String.toList_ofList, String.toList_ofList, ← hspan.1, ← hspan.2,
        List.takeWhile_append_dropWhile]
  · cases h

/-- A text that cites a key of a source as an expression. -/
structure Cites (s source key : String) : Prop where
  text : s = enclose (source ++ "." ++ key)
  source_ne : source ≠ ""
  pointless : '.' ∉ source.toList
  source_plain : ∀ c ∈ source.toList, isBrace c = false
  key_ne : key ≠ ""
  key_plain : ∀ c ∈ key.toList, isBrace c = false

theorem Cites.strip_eq {s source key : String} (h : Cites (Text.strip s) source key) :
    Text.strip (Text.strip s) = Text.strip s := by
  rw [h.text, strip_enclose]

/-- Exactly the texts that cite something between blanks have a binding. -/
theorem toBinding_eq_some_iff {paramKey s : String} {b : ParamBinding} :
    toBinding paramKey (.str s) = some b ↔
      ∃ source key, Cites (Text.strip s) source key ∧ b = binding paramKey source key := by
  constructor
  · intro h
    obtain ⟨body, hbody, hdivide⟩ := Option.bind_eq_some_iff.mp h
    obtain ⟨⟨source, key⟩, hparts, rfl⟩ := Option.map_eq_some_iff.mp hdivide
    obtain ⟨htext, hplain⟩ := of_body?_eq_some hbody
    obtain ⟨rfl, hsource, hkey, hpoint⟩ := of_divide_eq_some hparts
    have hlist : String.ofList (source.toList ++ '.' :: key.toList) = source ++ "." ++ key := by
      rw [← String.toList_inj]
      simp [String.toList_append]
    exact ⟨source, key, {
      text := by rw [htext, hlist]
      source_ne := hsource
      pointless := hpoint
      source_plain := fun c hc => hplain c (by simp [hc])
      key_ne := hkey
      key_plain := fun c hc => hplain c (by simp [hc]) }, rfl⟩
  · rintro ⟨source, key, h, rfl⟩
    have hread := toBinding_reference h.source_ne h.pointless h.source_plain h.key_ne h.key_plain
      paramKey
    rw [← h.text] at hread
    rw [← hread, toBinding, toBinding, h.strip_eq]

theorem ofBinding_binding {source key : String} (hsource : source ≠ "") (hkey : key ≠ "")
    (paramKey : String) :
    ofBinding (binding paramKey source key) = some (enclose (source ++ "." ++ key)) := by
  unfold binding
  split
  · rename_i scope hscope
    have hname : scope.referenceName = source := by simpa using List.find?_some hscope
    rw [ofBinding, ParamBinding.resolveGlobal_scope, ← hname]
    exact if_neg (by simpa using hkey)
  · exact if_neg (by simp [hsource, hkey])

/-- A text that has a binding is the expression of this binding between blanks. -/
theorem ofBinding_toBinding {paramKey s : String} {b : ParamBinding}
    (h : toBinding paramKey (.str s) = some b) :
    ofBinding b = some (Text.strip s) ∧ toBinding paramKey (.str (Text.strip s)) = some b := by
  obtain ⟨source, key, hcites, rfl⟩ := toBinding_eq_some_iff.mp h
  refine ⟨?_, toBinding_eq_some_iff.mpr ⟨source, key, ?_, rfl⟩⟩
  · rw [hcites.text]
    exact ofBinding_binding hcites.source_ne hcites.key_ne paramKey
  · rw [hcites.strip_eq]
    exact hcites

end Expression

/-! The inputs of a node. -/

namespace ParamBinding

/-- The input that the expression of a binding is written to. -/
def input? (b : ParamBinding) : Option (String × Json) :=
  (Expression.ofBinding b).map fun expression => (b.paramKey, .str expression)

theorem Referable.input? {b : ParamBinding} (h : b.Referable) :
    ∃ v, b.input? = some (b.paramKey, v) ∧ Expression.toBinding b.paramKey v = some b := by
  obtain ⟨expression, hof, hto⟩ := Expression.toBinding_ofBinding h
  exact ⟨.str expression, by rw [ParamBinding.input?, hof]; rfl, hto⟩

theorem names_inputs {bindings : List ParamBinding} (h : ∀ b ∈ bindings, b.Referable) :
    Fields.names (bindings.filterMap input?) = bindings.map (·.paramKey) := by
  induction bindings with
  | nil => rfl
  | cons b rest ih =>
    obtain ⟨hb, hrest⟩ := List.forall_mem_cons.mp h
    obtain ⟨v, hv, -⟩ := hb.input?
    rw [List.filterMap_cons_some hv, List.map_cons, ← ih hrest]
    rfl

theorem recoverBindings_inputs {bindings : List ParamBinding} (h : ∀ b ∈ bindings, b.Referable) :
    recoverBindings (bindings.filterMap input?) = bindings := by
  induction bindings with
  | nil => rfl
  | cons b rest ih =>
    obtain ⟨hb, hrest⟩ := List.forall_mem_cons.mp h
    obtain ⟨v, hv, hto⟩ := hb.input?
    rw [List.filterMap_cons_some hv, recoverBindings, List.filterMap_cons_some (by exact hto)]
    exact congrArg (b :: ·) (ih hrest)

end ParamBinding

/-- Inputs whose expressions all stand for their bindings give these bindings back. -/
theorem recoverBindings_renderInputs {bindings : List ParamBinding}
    (hkeys : (bindings.map (·.paramKey)).Nodup) (h : ∀ b ∈ bindings, b.Referable) :
    recoverBindings (renderInputs bindings) = bindings := by
  have hnames : (Fields.names (bindings.filterMap ParamBinding.input?)).Nodup := by
    rw [ParamBinding.names_inputs h]
    exact hkeys
  have hrender : renderInputs bindings = bindings.filterMap ParamBinding.input? :=
    Json.ofPairs_of_nodup hnames
  rw [hrender, ParamBinding.recoverBindings_inputs h]

/-- Every input that is exported is the expression of a binding. -/
theorem exists_of_mem_renderInputs {bindings : List ParamBinding} {field : String × Json}
    (h : field ∈ renderInputs bindings) :
    ∃ b ∈ bindings, ∃ expression, Expression.ofBinding b = some expression ∧
      field = (b.paramKey, .str expression) := by
  have hrendered := (Fields.mem_of_mem_merge h).resolve_left List.not_mem_nil
  obtain ⟨b, hb, hsome⟩ := List.mem_filterMap.mp hrendered
  obtain ⟨expression, hexpression, rfl⟩ := Option.map_eq_some_iff.mp hsome
  exact ⟨b, hb, expression, hexpression, rfl⟩

/-- The expression of a binding that was recovered gives the binding back. -/
theorem toBinding_bind_input? {inputs : Fields} {field : String × Json}
    (h : field ∈ renderInputs (recoverBindings inputs)) :
    (Expression.toBinding field.1 field.2).bind ParamBinding.input? = some field := by
  obtain ⟨b, hb, expression, hexpression, rfl⟩ := exists_of_mem_renderInputs h
  obtain ⟨⟨name, v⟩, -, hto⟩ := List.mem_filterMap.mp hb
  cases v with
  | str s =>
    obtain ⟨hof, hagain⟩ := Expression.ofBinding_toBinding hto
    cases hof.symm.trans hexpression
    have hkey : b.paramKey = name := Expression.toBinding_paramKey hto
    rw [hkey, hagain, Option.bind_some, ParamBinding.input?, hexpression, hkey]
    rfl
  | _ => cases hto

/-- Inputs that were exported once are exported again as they are. -/
theorem renderInputs_recoverBindings (inputs : Fields) :
    renderInputs (recoverBindings (renderInputs (recoverBindings inputs))) =
      renderInputs (recoverBindings inputs) := by
  have hnames : (renderInputs (recoverBindings inputs)).names.Nodup :=
    Fields.nodup_names_merge List.nodup_nil
  have hsame : (recoverBindings (renderInputs (recoverBindings inputs))).filterMap
      ParamBinding.input? = renderInputs (recoverBindings inputs) := by
    conv_lhs => rw [recoverBindings, List.filterMap_filterMap]
    refine (List.filterMap_congr fun field hfield => ?_).trans List.filterMap_some
    exact toBinding_bind_input? hfield
  calc renderInputs (recoverBindings (renderInputs (recoverBindings inputs)))
      = Fields.ofPairs ((recoverBindings (renderInputs (recoverBindings inputs))).filterMap
          ParamBinding.input?) := rfl
    _ = renderInputs (recoverBindings inputs) := by rw [hsame, Json.ofPairs_of_nodup hnames]

end WorkflowStudio
