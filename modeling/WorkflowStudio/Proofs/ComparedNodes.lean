import WorkflowStudio.Proofs.LoadedSnapshot
import WorkflowStudio.Proofs.ReorderedValues

/-!
Two states of one node, compared as they are found in loaded snapshots. Every stage of the
comparison comes to an end, and it gives no label exactly when what it looks at is the same. A
parameter key that was filled in for the first time is told only when no stage found anything
else.
-/
namespace WorkflowStudio

namespace Change

/-- A comparison that comes to an end, without a label exactly when nothing is different, and else
with a label of some shape. -/
inductive Decides (shape : String → Prop) (c : Comparison) (same : Prop) : Prop where
  | unlabelled (h : same) (hc : c = some none)
  | labelled (h : ¬same) (label : String) (hshape : shape label) (hc : c = some (some label))

section Decides

variable {shape : String → Prop} {c first : Comparison} {next : Unit → Comparison}
  {same other : Prop}

theorem Decides.eq_unlabelled_iff (h : Decides shape c same) : c = some none ↔ same := by
  cases h with
  | unlabelled h hc => exact iff_of_true hc h
  | labelled h label _ hc =>
    refine iff_of_false ?_ h
    rw [hc]
    exact nofun

theorem Decides.exists_label (h : Decides shape c same) (hsame : ¬same) :
    ∃ label, shape label ∧ c = some (some label) := by
  cases h with
  | unlabelled h => exact absurd h hsame
  | labelled _ label hshape hc => exact ⟨label, hshape, hc⟩

theorem Decides.congr (h : Decides shape c same) (heq : same ↔ other) : Decides shape c other := by
  rwa [← propext heq]

theorem Decides.weaken {weaker : String → Prop} (h : Decides shape c same)
    (hshape : ∀ label, shape label → weaker label) : Decides weaker c same := by
  cases h with
  | unlabelled h hc => exact .unlabelled h hc
  | labelled h label hlabel hc => exact .labelled h label (hshape label hlabel) hc

theorem decides_ite [Decidable same] {label : String} (h : shape label) :
    Decides shape (if same then some none else some (some label)) same := by
  by_cases hsame : same
  · exact .unlabelled hsame (if_pos hsame)
  · exact .labelled hsame label h (if_neg hsame)

theorem decides_bind {α : Type} {o : Option α} {a : α} {next : α → Comparison} (h : o = some a)
    (hnext : Decides shape (next a) same) : Decides shape (o.bind next) same := by
  rw [h]
  exact hnext

theorem decides_orNext (hfirst : Decides shape first same) (hnext : Decides shape (next ()) other) :
    Decides shape (orNext first next) (same ∧ other) := by
  cases hfirst with
  | unlabelled h hc =>
    rw [hc]
    exact hnext.congr (and_iff_right h).symm
  | labelled h label hshape hc =>
    rw [hc]
    exact .labelled (fun hboth => h hboth.1) label hshape rfl

/-- The first of the items that are different gives the label. -/
theorem decides_firstOf {α : Type} {compare : α → Comparison} {same : α → Prop} {items : List α}
    (h : ∀ item ∈ items, Decides shape (compare item) (same item)) :
    Decides shape (firstOf compare items) (∀ item ∈ items, same item) := by
  induction items with
  | nil => exact .unlabelled (fun _ hitem => absurd hitem List.not_mem_nil) rfl
  | cons item rest ih =>
    obtain ⟨hitem, hrest⟩ := List.forall_mem_cons.mp h
    rw [firstOf]
    cases hitem with
    | unlabelled hsame hc =>
      rw [hc]
      exact (ih hrest).congr (by rw [List.forall_mem_cons, and_iff_right hsame])
    | labelled hsame label hshape hc =>
      rw [hc]
      exact .labelled (fun hall => hsame (hall item List.mem_cons_self)) label hshape rfl

theorem firstOf_map {α β : Type} (compare : β → Comparison) (f : α → β) (items : List α) :
    firstOf compare (items.map f) = firstOf (fun a => compare (f a)) items := by
  induction items with
  | nil => rfl
  | cons a rest ih => rw [List.map_cons, firstOf, firstOf, ih]

theorem decides_firstOf_map {α β : Type} {compare : β → Comparison} {f : α → β}
    {same : α → Prop} {items : List α}
    (h : ∀ a ∈ items, Decides shape (compare (f a)) (same a)) :
    Decides shape (firstOf compare (items.map f)) (∀ a ∈ items, same a) := by
  rw [firstOf_map]
  exact decides_firstOf h

end Decides

/-- A label for a node of some name that does not tell that a key was set. -/
def Weighty (name : Json) (label : String) : Prop :=
  ∃ rest c, label = titled name rest ∧ rest.toList.head? = some c ∧ c ≠ 's'

theorem weighty_titled {name : Json} {word : String} {c : Char}
    (h : word.toList.head? = some c) (hc : c ≠ 's') (rest : String) :
    Weighty name (titled name (word ++ rest)) := by
  refine ⟨word ++ rest, c, rfl, ?_, hc⟩
  rw [String.toList_append, List.head?_append, h, Option.some_or]

end Change

/-! Settings. -/

/-- The new settings have the values of the old ones, up to the order of fields in them, where a
missing old setting counts as null, and no old setting is missing. -/
def SettingsKept (old new : Fields) : Prop :=
  (∀ field ∈ new, Json.Agrees field.2.finite ((old.get? field.1).getD .null).finite) ∧
    ∀ name ∈ old.names, name ∈ new.names

namespace Change

variable {old new : Node}

theorem weighty_settingLabel (name : Json) (key : String) (before after : Json) :
    Weighty name (settingLabel name key before after) := by
  have hconfig (rest : String) : Weighty name (titled name ("config [" ++ rest)) :=
    weighty_titled rfl (by decide) rest
  unfold settingLabel
  split
  · split
    · rw [String.append_assoc]
      exact hconfig _
    · simp only [String.append_assoc]
      exact hconfig _
  · simp only [String.append_assoc]
    exact hconfig _

theorem decides_removedSetting (name : Json) (news : Fields) (key : String) :
    Decides (Weighty name) (removedSetting name news (.str key)) (key ∈ news.names) := by
  have hlabel : Weighty name (titled name ("removed config [" ++ key ++ "]")) := by
    rw [String.append_assoc]
    exact weighty_titled rfl (by decide) _
  have hhas : Fields.has news key = true ↔ key ∈ news.names := by
    simp [Fields.has, Fields.names]
  exact (decides_ite hlabel).congr hhas

theorem decides_settingsChange (hold : old.Sound) (hnew : new.Sound) {name : Json}
    (hname : nodeName new.loaded = some name) :
    Decides (Weighty name) (settingsChange old.loaded new.loaded)
      (SettingsKept old.data.config new.data.config) := by
  unfold settingsChange
  refine decides_bind hname (decides_bind new.payload_loaded
    (decides_bind NodeData.lookObject_config (decides_bind old.payload_loaded
      (decides_bind NodeData.lookObject_config ?_))))
  refine decides_orNext ?_ ?_
  · rw [Json.finiteFields_eq_map new.data.config]
    refine decides_firstOf_map fun field hfield => decides_bind rfl ?_
    have hlook : (Fields.get? (Json.finiteFields old.data.config) field.1).getD .null =
        ((Fields.get? old.data.config field.1).getD .null).finite := by
      rw [Json.get?_finiteFields]
      cases Fields.get? old.data.config field.1 <;> rfl
    have hvalue : Json.proper field.2.finite = true :=
      (Json.proper_finite _).trans ((Json.proper_obj.mp hnew.data.config).1 field hfield)
    have hfound : Json.proper ((Fields.get? old.data.config field.1).getD .null).finite = true := by
      rw [Json.proper_finite]
      cases hget : Fields.get? old.data.config field.1 with
      | none => rfl
      | some v => exact (Json.proper_obj.mp hold.data.config).1 _ (Fields.mem_of_get? hget)
    have hlabel := weighty_settingLabel name field.1
      ((Fields.get? (Json.finiteFields old.data.config) field.1).getD .null) field.2.finite
    refine (decides_ite hlabel).congr ?_
    rw [hlook]
    exact Json.alike_iff hvalue hfound
  · have hitems : (Json.obj (Json.finiteFields old.data.config)).items? =
        some (old.data.config.map fun field => .str field.1) := by
      rw [Json.items?, Json.finiteFields_eq_map, List.map_map]
      rfl
    refine decides_bind hitems ?_
    refine (decides_firstOf_map fun field _ => decides_removedSetting name _ field.1).congr ?_
    rw [Json.names_finiteFields]
    exact List.forall_mem_map.symm

end Change

/-! Parameters. -/

namespace ParamDefinition

/-- Definitions that are the same up to the order of fields in their default values. -/
def Agrees (p q : ParamDefinition) : Prop :=
  Json.Agrees p.defaultValue.finite q.defaultValue.finite ∧
    { p with defaultValue := .null } = { q with defaultValue := .null }

theorem agrees_write_iff {p q : ParamDefinition} :
    Json.Agrees (write .kept p) (write .kept q) ↔ p.Agrees q := by
  rw [write_kept, write_kept, Agrees]
  constructor
  · intro h
    have hkey := Json.agrees_str_iff.mp (h.field "key" rfl rfl)
    have hlabel := Json.agrees_str_iff.mp (h.field "label" rfl rfl)
    have htype := Json.agrees_str_iff.mp (h.field "type" rfl rfl)
    have hrequired := Json.agrees_bool_iff.mp (h.field "required" rfl rfl)
    have hdescription :=
      Json.agrees_ofOption_str_iff.mp (h.field "description" rfl rfl)
    exact ⟨h.field "defaultValue" rfl rfl, by
      rw [hkey, hlabel, htype, hrequired, hdescription]⟩
  · intro ⟨hvalue, hrest⟩
    simp only [mk.injEq] at hrest
    obtain ⟨hkey, hlabel, htype, hrequired, -, hdescription⟩ := hrest
    exact Json.agrees_of_forall₂ (.cons ⟨rfl, Json.agrees_str_iff.mpr hkey⟩
      (.cons ⟨rfl, Json.agrees_str_iff.mpr hlabel⟩ (.cons ⟨rfl, Json.agrees_str_iff.mpr htype⟩
        (.cons ⟨rfl, Json.agrees_bool_iff.mpr hrequired⟩ (.cons ⟨rfl, hvalue⟩
          (.cons ⟨rfl, Json.agrees_ofOption_str_iff.mpr hdescription⟩ .nil))))))

/-- A key that was filled in where there was none but blanks. -/
def FirstKeyed (old new : ParamDefinition) : Prop :=
  new.key ≠ old.key ∧ Text.isAllBlank old.key = true

instance (old new : ParamDefinition) : Decidable (FirstKeyed old new) :=
  inferInstanceAs (Decidable (_ ∧ _))

/-- A definition that is the same as before, but for a key filled in for the first time. -/
def Kept (old new : ParamDefinition) : Prop := new.Agrees old ∨ FirstKeyed old new

theorem Agrees.key_eq {p q : ParamDefinition} (h : p.Agrees q) : p.key = q.key :=
  (ParamDefinition.mk.inj h.2).1

/-- The keys that were filled in for the first time, in the order of their definitions. -/
def newKeys (olds news : List ParamDefinition) : List String :=
  ((olds.zip news).filter fun pair => FirstKeyed pair.1 pair.2).map (·.2.key)

theorem newKeys_cons (old new : ParamDefinition) (olds news : List ParamDefinition) :
    newKeys (old :: olds) (new :: news) =
      if FirstKeyed old new then new.key :: newKeys olds news else newKeys olds news := by
  unfold newKeys
  rw [List.zip_cons_cons, List.filter_cons]
  by_cases h : FirstKeyed old new
  · simp [h]
  · simp [h]

/-- Definitions that are kept without a new key are the same. -/
theorem forall₂_agrees_iff {olds news : List ParamDefinition} :
    List.Forall₂ (fun old new => new.Agrees old) olds news ↔
      List.Forall₂ Kept olds news ∧ newKeys olds news = [] := by
  constructor
  · intro h
    induction h with
    | nil => exact ⟨.nil, rfl⟩
    | @cons old new olds news hagrees _ ih =>
      have hkey : ¬FirstKeyed old new := fun hfirst => hfirst.1 hagrees.key_eq
      rw [newKeys_cons, if_neg hkey]
      exact ⟨.cons (Or.inl hagrees) ih.1, ih.2⟩
  · intro ⟨hkept, hkeys⟩
    induction hkept with
    | nil => exact .nil
    | @cons old new olds news hkept _ ih =>
      rw [newKeys_cons] at hkeys
      split at hkeys
      · cases hkeys
      · rename_i hkey
        exact .cons (hkept.resolve_right hkey) (ih hkeys)

end ParamDefinition

namespace Change

section Params

variable {word : String} {name : Json} {change : ParamChange} {old new : ParamDefinition}
  {olds news : List ParamDefinition}

/-- The label of a key that was filled in for the first time. -/
def keyText (word : String) (name : Json) (key : String) : String :=
  titled name ("set " ++ word ++ " key [" ++ key ++ "]")

theorem definitionChange_write : definitionChange word name change
    (ParamDefinition.write .kept old) (ParamDefinition.write .kept new) =
      if new.key = old.key then
        if (ParamDefinition.write .kept new).alike (ParamDefinition.write .kept old) then
          some change
        else some { change with label := some (titled name ("modified " ++ word ++ " [" ++
          ((Json.str new.label).orElse ((Json.str new.key).orElse (.str "unnamed"))).display ++
            "] config")) }
      else if Text.isAllBlank old.key then
        some { change with keyLabel := some (keyText word name new.key) }
      else some { change with label := some (titled name ("renamed " ++ word ++ " key [" ++
        old.key ++ " -> " ++ new.key ++ "]")) } := by
  have hlabel : (ParamDefinition.write .kept new).look "label" = some (.str new.label) := by
    rw [ParamDefinition.write_kept]
    rfl
  unfold definitionChange
  rw [old.look_key, new.look_key, hlabel]
  simp only [Option.bind_eq_bind, Option.bind_some, Json.orElse_str, Json.equal_str]
  rfl

theorem definitionChange_of_agrees (hold : old.Sound) (hnew : new.Sound) (h : new.Agrees old) :
    definitionChange word name change (ParamDefinition.write .kept old)
      (ParamDefinition.write .kept new) = some change := by
  have halike := (Json.alike_iff (ParamDefinition.proper_write hnew)
    (ParamDefinition.proper_write hold)).mpr (ParamDefinition.agrees_write_iff.mpr h)
  rw [definitionChange_write, if_pos h.key_eq, if_pos halike]

theorem definitionChange_of_firstKeyed (h : old.FirstKeyed new) :
    definitionChange word name change (ParamDefinition.write .kept old)
      (ParamDefinition.write .kept new) =
        some { change with keyLabel := some (keyText word name new.key) } := by
  rw [definitionChange_write, if_neg h.1, if_pos h.2]

theorem definitionChange_of_not_kept (hold : old.Sound) (hnew : new.Sound) (h : ¬old.Kept new) :
    ∃ label, Weighty name label ∧ definitionChange word name change
      (ParamDefinition.write .kept old) (ParamDefinition.write .kept new) =
        some { change with label := some label } := by
  obtain ⟨hagrees, hfirst⟩ := not_or.mp h
  rw [definitionChange_write]
  by_cases hkey : new.key = old.key
  · have halike : ¬(ParamDefinition.write .kept new).alike (ParamDefinition.write .kept old) := by
      rw [Json.alike_iff (ParamDefinition.proper_write hnew) (ParamDefinition.proper_write hold)]
      exact fun hsame => hagrees (ParamDefinition.agrees_write_iff.mp hsame)
    rw [if_pos hkey, if_neg halike]
    refine ⟨_, ?_, rfl⟩
    simp only [String.append_assoc]
    exact weighty_titled rfl (by decide) _
  · have hblank : ¬Text.isAllBlank old.key := fun hblank => hfirst ⟨hkey, hblank⟩
    rw [if_neg hkey, if_neg hblank]
    refine ⟨_, ?_, rfl⟩
    simp only [String.append_assoc]
    exact weighty_titled rfl (by decide) _

/-- Definitions that are kept give no label, and the last key that was filled in is told. -/
theorem definitionsChange_of_kept (hold : ∀ p ∈ olds, p.Sound) (hnew : ∀ p ∈ news, p.Sound)
    (hlabel : change.label = none) (h : List.Forall₂ ParamDefinition.Kept olds news) :
    definitionsChange word name change (olds.map (ParamDefinition.write .kept))
      (news.map (ParamDefinition.write .kept)) =
        some ⟨none, ((ParamDefinition.newKeys olds news).getLast?.map (keyText word name)).or
          change.keyLabel⟩ := by
  induction h generalizing change with
  | nil =>
    obtain ⟨label, key⟩ := change
    cases hlabel
    rfl
  | @cons old new olds news hkept _ ih =>
    obtain ⟨hold, holds⟩ := List.forall_mem_cons.mp hold
    obtain ⟨hnew, hnews⟩ := List.forall_mem_cons.mp hnew
    rw [List.map_cons, List.map_cons, definitionsChange, ParamDefinition.newKeys_cons]
    rcases hkept with hagrees | hfirst
    · have hkey : ¬old.FirstKeyed new := fun hfirst => hfirst.1 hagrees.key_eq
      rw [definitionChange_of_agrees hold hnew hagrees, Option.bind_some, hlabel, if_neg hkey]
      exact ih holds hnews hlabel
    · rw [definitionChange_of_firstKeyed hfirst, Option.bind_some, if_pos hfirst]
      dsimp only
      rw [hlabel]
      refine (ih holds hnews rfl).trans ?_
      rw [List.getLast?_cons]
      cases (ParamDefinition.newKeys olds news).getLast? <;> rfl

/-- The first definition that is not kept gives the label. -/
theorem definitionsChange_of_not_kept (hold : ∀ p ∈ olds, p.Sound) (hnew : ∀ p ∈ news, p.Sound)
    (hlabel : change.label = none) (hlength : olds.length = news.length)
    (h : ¬List.Forall₂ ParamDefinition.Kept olds news) :
    ∃ label key, Weighty name label ∧ definitionsChange word name change
      (olds.map (ParamDefinition.write .kept)) (news.map (ParamDefinition.write .kept)) =
        some ⟨some label, key⟩ := by
  induction olds generalizing news change with
  | nil =>
    rw [List.length_eq_zero_iff.mp hlength.symm] at h
    exact absurd .nil h
  | cons old olds ih =>
    cases news with
    | nil => cases hlength
    | cons new news =>
      obtain ⟨hold, holds⟩ := List.forall_mem_cons.mp hold
      obtain ⟨hnew, hnews⟩ := List.forall_mem_cons.mp hnew
      rw [List.map_cons, List.map_cons, definitionsChange]
      by_cases hkept : old.Kept new
      · have hrest : ¬List.Forall₂ ParamDefinition.Kept olds news := fun hrest =>
          h (.cons hkept hrest)
        rcases hkept with hagrees | hfirst
        · rw [definitionChange_of_agrees hold hnew hagrees, Option.bind_some, hlabel]
          exact ih holds hnews hlabel (Nat.succ.inj hlength) hrest
        · rw [definitionChange_of_firstKeyed hfirst, Option.bind_some]
          dsimp only
          rw [hlabel]
          exact ih holds hnews rfl (Nat.succ.inj hlength) hrest
      · obtain ⟨label, hshape, hlabelled⟩ := definitionChange_of_not_kept hold hnew hkept
        rw [hlabelled, Option.bind_some]
        exact ⟨label, change.keyLabel, hshape, rfl⟩

/-- How two lists of definitions of a node are compared. -/
def listChange (word : String) (name : Json) (olds news : List ParamDefinition) :
    Option ParamChange :=
  paramsChange word name (.arr (olds.map (ParamDefinition.write .kept)))
    (.arr (news.map (ParamDefinition.write .kept)))

theorem listChange_of_kept (hold : ∀ p ∈ olds, p.Sound) (hnew : ∀ p ∈ news, p.Sound)
    (h : List.Forall₂ ParamDefinition.Kept olds news) :
    listChange word name olds news =
      some ⟨none, (ParamDefinition.newKeys olds news).getLast?.map (keyText word name)⟩ := by
  have hlength := h.length_eq
  unfold listChange paramsChange
  simp only [Json.items?, Option.bind_eq_bind, Option.bind_some, List.length_map]
  rw [if_neg (by omega), if_neg (by omega), definitionsChange_of_kept hold hnew rfl h,
    Option.or_none]

theorem listChange_of_not_kept (hold : ∀ p ∈ olds, p.Sound) (hnew : ∀ p ∈ news, p.Sound)
    (h : ¬List.Forall₂ ParamDefinition.Kept olds news) :
    ∃ label key, Weighty name label ∧
      listChange word name olds news = some ⟨some label, key⟩ := by
  unfold listChange paramsChange
  simp only [Json.items?, Option.bind_eq_bind, Option.bind_some, List.length_map]
  rcases Nat.lt_trichotomy olds.length news.length with hlt | heq | hgt
  · rw [if_pos hlt]
    exact ⟨_, _, weighty_titled rfl (by decide) _, rfl⟩
  · rw [if_neg (by omega), if_neg (by omega)]
    exact definitionsChange_of_not_kept hold hnew rfl heq h
  · rw [if_neg (by omega), if_pos hgt]
    exact ⟨_, _, weighty_titled rfl (by decide) _, rfl⟩

end Params

end Change

/-! Bindings. -/

/-- Every new binding is the old one of its key, and no old key is missing. -/
def BindingsKept (old new : NodeData) : Prop :=
  (∀ b ∈ new.bindings, old.binding? b.paramKey = some b) ∧
    ∀ b ∈ old.bindings, (new.binding? b.paramKey).isSome

/-- Under distinct keys the bindings are kept when they are the same by their keys. -/
theorem bindingsKept_iff {old new : NodeData} (h : (new.bindings.map (·.paramKey)).Nodup) :
    BindingsKept old new ↔ ∀ key, new.binding? key = old.binding? key := by
  have hnew {b : ParamBinding} {key : String} :
      new.binding? key = some b ↔ b ∈ new.bindings ∧ b.paramKey = key :=
    find?_key_eq_some_iff h
  have hold {b : ParamBinding} (hb : b ∈ old.bindings) : old.binding? b.paramKey ≠ none :=
    fun hnone => absurd (beq_self_eq_true b.paramKey) (List.find?_eq_none.mp hnone b hb)
  constructor
  · intro ⟨hkept, hleft⟩ key
    cases hfound : new.binding? key with
    | some b =>
      obtain ⟨hb, rfl⟩ := hnew.mp hfound
      exact (hkept b hb).symm
    | none =>
      cases hbefore : old.binding? key with
      | none => rfl
      | some b =>
        have hb : b ∈ old.bindings := List.mem_of_find?_eq_some hbefore
        have hkey : b.paramKey = key := by simpa using List.find?_some hbefore
        have hsome := hleft b hb
        rw [hkey, hfound] at hsome
        cases hsome
  · intro hsame
    refine ⟨fun b hb => ?_, fun b hb => ?_⟩
    · rw [← hsame, hnew]
      exact ⟨hb, rfl⟩
    · rw [hsame]
      exact Option.isSome_iff_ne_none.mpr (hold hb)

theorem ParamBinding.agrees_write_iff {b c : ParamBinding} :
    Json.Agrees (write .kept b) (write .kept c) ↔ b = c := by
  rw [write_kept, write_kept]
  constructor
  · intro h
    have hkey := Json.agrees_str_iff.mp (h.field "paramKey" rfl rfl)
    have hsource := Json.agrees_str_iff.mp (h.field "sourceKey" rfl rfl)
    have hparam := Json.agrees_ofOption_str_iff.mp (h.field "sourceParam" rfl rfl)
    have htype := Json.agrees_str_iff.mp (h.field "sourceType" rfl rfl)
    have hsame : some b.sourceType = some c.sourceType := by
      rw [← sourceType_find?_spelling b.sourceType, htype, sourceType_find?_spelling]
    cases b
    cases c
    rw [mk.injEq]
    exact ⟨hkey, Option.some.inj hsame, hsource, hparam⟩
  · intro h
    rw [h]
    exact .self _

namespace Change

/-- The states of two graphs that are compared. -/
def between (g h : Graph) : States := ⟨(Graph.write .kept g).finite, (Graph.write .kept h).finite⟩

section Bindings

variable {g h : Graph} {old new : Node} {name : Json}

theorem nodesOf_write (g : Graph) :
    nodesOf (Graph.write .kept g).finite = some (g.nodes.map Node.loaded) := by
  rw [nodesOf, g.look_nodes]
  rfl

/-- The node that a binding names is looked for in both graphs. -/
theorem exists_findNode (g h : Graph) (id : String) :
    ∃ found : Option Node, findNode (between g h) id = some (found.map Node.loaded) := by
  unfold findNode between
  rw [nodesOf_write, nodesOf_write]
  simp only [Option.bind_eq_bind, Option.bind_some, findBy_map Node.look_id]
  cases h.nodes.find? fun n => n.id == id with
  | some n => exact ⟨some n, rfl⟩
  | none => exact ⟨_, rfl⟩

theorem exists_bindingText (b : Option ParamBinding) :
    ∃ text, bindingText (between g h) (b.map (ParamBinding.write .kept)) = some text := by
  cases b with
  | none => exact ⟨_, rfl⟩
  | some b =>
    have hread := ParamBinding.read_write b
    have hpresent : (ParamBinding.write .kept b).isPresent = true := by
      rw [ParamBinding.write_kept]
      rfl
    unfold bindingText
    rw [Option.map_some, Option.filter_some, if_pos hpresent]
    simp only [hread, Checked.ok?, Option.bind_eq_bind, Option.bind_some]
    cases b.resolveGlobal with
    | some resolved => exact ⟨_, rfl⟩
    | none =>
      obtain ⟨found, hfound⟩ := exists_findNode g h b.sourceKey
      rw [hfound]
      cases found with
      | none => exact ⟨_, rfl⟩
      | some n =>
        obtain ⟨name, hname⟩ := exists_nodeName n
        simp only [Option.bind_some, Option.map_some, hname]
        exact ⟨_, rfl⟩

theorem exists_inputName (n : Node) (key : String) :
    ∃ input, inputName n.loaded (.str key) = some input := by
  unfold inputName
  rw [n.payload_loaded]
  simp only [Option.bind_eq_bind, Option.bind_some, NodeData.lookList_customInputs, Json.items?,
    findBy_map ParamDefinition.look_key]
  cases n.data.customInputs.find? fun p => p.key == key with
  | none => exact ⟨_, rfl⟩
  | some p =>
    rw [Option.map_some, ParamDefinition.write_kept]
    exact ⟨_, rfl⟩

theorem decides_bindingChange (old new : Node) (b : ParamBinding) :
    Decides (Weighty name) (bindingChange (between g h) name new.loaded
      (.arr (old.data.bindings.map (ParamBinding.write .kept))) (ParamBinding.write .kept b))
      (old.data.binding? b.paramKey = some b) := by
  have hfound := findBy_map ParamBinding.look_key b.paramKey old.data.bindings
  obtain ⟨input, hinput⟩ := exists_inputName new b.paramKey
  obtain ⟨before, hbefore⟩ : ∃ text, bindingText (between g h)
      ((old.data.binding? b.paramKey).map (ParamBinding.write .kept)) = some text :=
    exists_bindingText _
  obtain ⟨after, hafter⟩ : ∃ text, bindingText (between g h)
      (some (ParamBinding.write .kept b)) = some text :=
    exists_bindingText (some b)
  have halike : (ParamBinding.write .kept b).alike
      (((old.data.binding? b.paramKey).map (ParamBinding.write .kept)).getD .null) = true ↔
        old.data.binding? b.paramKey = some b := by
    cases old.data.binding? b.paramKey with
    | none =>
      rw [ParamBinding.write_kept, Json.alike_eq]
      exact iff_of_false nofun nofun
    | some c =>
      rw [Option.map_some, Option.getD_some, Json.alike_iff b.proper_write c.proper_write,
        ParamBinding.agrees_write_iff, Option.some.injEq, eq_comm]
  have hlabel : Weighty name (titled name ("input [" ++ input.display ++ "] changed from " ++
      before ++ " to " ++ after)) := by
    simp only [String.append_assoc]
    exact weighty_titled rfl (by decide) _
  unfold bindingChange
  refine decides_bind b.look_key (decides_bind rfl (decides_bind hfound ?_))
  by_cases hsame : old.data.binding? b.paramKey = some b
  · exact .unlabelled hsame (if_pos (halike.mpr hsame))
  · refine .labelled hsame _ hlabel ((if_neg fun h => hsame (halike.mp h)).trans ?_)
    simp only [hinput, Option.bind_eq_bind, Option.bind_some]
    rw [← NodeData.binding?, hbefore, hafter]
    rfl

theorem decides_bindingRemoval (n : Node) (news : List ParamBinding) (b : ParamBinding) :
    Decides (Weighty name) (bindingRemoval name n.loaded
      (news.map (ParamBinding.write .kept)) (ParamBinding.write .kept b))
      (news.find? fun c => c.paramKey == b.paramKey).isSome := by
  obtain ⟨input, hinput⟩ := exists_inputName n b.paramKey
  have hlabel : Weighty name (titled name ("removed input [" ++ input.display ++ "]")) := by
    rw [String.append_assoc]
    exact weighty_titled rfl (by decide) _
  unfold bindingRemoval
  refine decides_bind b.look_key (decides_bind (findBy_map ParamBinding.look_key _ _) ?_)
  cases news.find? fun c => c.paramKey == b.paramKey with
  | some c => exact .unlabelled rfl rfl
  | none =>
    refine .labelled nofun _ hlabel ?_
    simp only [Option.map_none, hinput, Option.bind_eq_bind, Option.bind_some]
    rfl

theorem decides_bindingsChange (old new : Node) :
    Decides (Weighty name) (bindingsChange (between g h) name old.loaded new.loaded)
      (BindingsKept old.data new.data) := by
  unfold bindingsChange
  refine decides_bind new.payload_loaded (decides_bind NodeData.lookList_bindings
    (decides_bind old.payload_loaded (decides_bind NodeData.lookList_bindings
      (decides_bind rfl ?_))))
  refine decides_orNext ?_ (decides_bind rfl ?_)
  · exact decides_firstOf_map fun b _ => decides_bindingChange old new b
  · exact decides_firstOf_map fun b _ => decides_bindingRemoval old new.data.bindings b

end Bindings

end Change

/-! Nodes. -/

namespace NodeData

/-- A payload that is the same as before, but for keys filled in for the first time. -/
structure OnlyNewKeys (old new : NodeData) : Prop where
  config : SettingsKept old.config new.config
  customInputs : List.Forall₂ ParamDefinition.Kept old.customInputs new.customInputs
  customOutputs : List.Forall₂ ParamDefinition.Kept old.customOutputs new.customOutputs
  bindings : BindingsKept old new

/-- A payload in which a key was filled in for the first time. -/
def FillsKey (old new : NodeData) : Prop :=
  ParamDefinition.newKeys old.customInputs new.customInputs ≠ [] ∨
    ParamDefinition.newKeys old.customOutputs new.customOutputs ≠ []

/-- A payload in which nothing that is compared has changed. -/
structure Unaltered (old new : NodeData) : Prop where
  config : SettingsKept old.config new.config
  customInputs :
    List.Forall₂ (fun old new => new.Agrees old) old.customInputs new.customInputs
  customOutputs :
    List.Forall₂ (fun old new => new.Agrees old) old.customOutputs new.customOutputs
  bindings : ∀ key, new.binding? key = old.binding? key

variable {old new : NodeData}

theorem unaltered_iff (h : (new.bindings.map (·.paramKey)).Nodup) :
    Unaltered old new ↔ OnlyNewKeys old new ∧ ¬FillsKey old new := by
  constructor
  · intro ⟨hconfig, hinputs, houtputs, hbindings⟩
    obtain ⟨hinputs, hinputKeys⟩ := ParamDefinition.forall₂_agrees_iff.mp hinputs
    obtain ⟨houtputs, houtputKeys⟩ := ParamDefinition.forall₂_agrees_iff.mp houtputs
    refine ⟨⟨hconfig, hinputs, houtputs, (bindingsKept_iff h).mpr hbindings⟩, fun hfills => ?_⟩
    exact hfills.elim (fun hne => hne hinputKeys) fun hne => hne houtputKeys
  · intro ⟨⟨hconfig, hinputs, houtputs, hbindings⟩, hfills⟩
    obtain ⟨hinputKeys, houtputKeys⟩ := not_or.mp hfills
    exact ⟨hconfig, ParamDefinition.forall₂_agrees_iff.mpr ⟨hinputs, not_not.mp hinputKeys⟩,
      ParamDefinition.forall₂_agrees_iff.mpr ⟨houtputs, not_not.mp houtputKeys⟩,
      (bindingsKept_iff h).mp hbindings⟩

/-- The label of a payload in which only keys were filled in: the last key of an output is told,
or else the last key of an input. -/
def newKeyText (name : Json) (old new : NodeData) : Option String :=
  ((ParamDefinition.newKeys old.customOutputs new.customOutputs).getLast?.map
    (Change.keyText "custom output param" name)).or
      ((ParamDefinition.newKeys old.customInputs new.customInputs).getLast?.map
        (Change.keyText "custom input param" name))

theorem newKeyText_eq_none_iff (name : Json) (old new : NodeData) :
    newKeyText name old new = none ↔ ¬FillsKey old new := by
  rw [newKeyText, FillsKey, Option.or_eq_none_iff, Option.map_eq_none_iff, Option.map_eq_none_iff,
    List.getLast?_eq_none_iff, List.getLast?_eq_none_iff, not_or, not_not, not_not, and_comm]

end NodeData

namespace Change

section Nodes

variable {g h : Graph} {old new : Node} {name : Json}

/-- The stages of a comparison of two nodes. -/
theorem nodeChange_eq (hname : nodeName new.loaded = some name) :
    nodeChange (between g h) old.loaded new.loaded =
      orNext (settingsChange old.loaded new.loaded) fun _ =>
        (listChange "custom input param" name old.data.customInputs new.data.customInputs).bind
          fun inputs => if inputs.label.isSome then some inputs.label else
            (listChange "custom output param" name old.data.customOutputs
              new.data.customOutputs).bind fun outputs =>
                if outputs.label.isSome then some outputs.label else
                  orNext (bindingsChange (between g h) name old.loaded new.loaded) fun _ =>
                    some (outputs.keyLabel.or inputs.keyLabel) := by
  unfold nodeChange listChange
  rw [hname, old.payload_loaded, new.payload_loaded]
  simp only [Option.bind_eq_bind, Option.bind_some, NodeData.lookList_customInputs,
    NodeData.lookList_customOutputs, Option.orElse_eq_or]
  rfl

/-- A node of which only keys were filled in is told by the last of them. -/
theorem nodeChange_of_onlyNewKeys (hold : old.Sound) (hnew : new.Sound)
    (hname : nodeName new.loaded = some name) (hkeys : old.data.OnlyNewKeys new.data) :
    nodeChange (between g h) old.loaded new.loaded =
      some (NodeData.newKeyText name old.data new.data) := by
  have hsettings := (decides_settingsChange hold hnew hname).eq_unlabelled_iff.mpr hkeys.config
  have hbindings : bindingsChange (between g h) name old.loaded new.loaded = some none :=
    (decides_bindingsChange old new).eq_unlabelled_iff.mpr hkeys.bindings
  rw [nodeChange_eq hname, hsettings, hbindings,
    listChange_of_kept hold.data.customInputs hnew.data.customInputs hkeys.customInputs,
    listChange_of_kept hold.data.customOutputs hnew.data.customOutputs hkeys.customOutputs]
  rfl

/-- A node of which anything else has changed is told by that. -/
theorem nodeChange_of_not_onlyNewKeys (hold : old.Sound) (hnew : new.Sound)
    (hname : nodeName new.loaded = some name) (hkeys : ¬old.data.OnlyNewKeys new.data) :
    ∃ label, Weighty name label ∧
      nodeChange (between g h) old.loaded new.loaded = some (some label) := by
  rw [nodeChange_eq hname]
  by_cases hconfig : SettingsKept old.data.config new.data.config
  · have hsettings := (decides_settingsChange hold hnew hname).eq_unlabelled_iff.mpr hconfig
    rw [hsettings, orNext]
    by_cases hinputs : List.Forall₂ ParamDefinition.Kept old.data.customInputs new.data.customInputs
    · rw [listChange_of_kept hold.data.customInputs hnew.data.customInputs hinputs]
      by_cases houtputs :
          List.Forall₂ ParamDefinition.Kept old.data.customOutputs new.data.customOutputs
      · rw [listChange_of_kept hold.data.customOutputs hnew.data.customOutputs houtputs]
        have hbindings : ¬BindingsKept old.data new.data := fun hkept =>
          hkeys ⟨hconfig, hinputs, houtputs, hkept⟩
        obtain ⟨label, hshape, hlabel⟩ :=
          (decides_bindingsChange (g := g) (h := h) old new).exists_label hbindings
        refine ⟨label, hshape, ?_⟩
        dsimp only [Option.bind_some]
        rw [hlabel]
        rfl
      · obtain ⟨label, key, hshape, hlabel⟩ :=
          listChange_of_not_kept hold.data.customOutputs hnew.data.customOutputs houtputs
        refine ⟨label, hshape, ?_⟩
        rw [hlabel]
        rfl
    · obtain ⟨label, key, hshape, hlabel⟩ :=
        listChange_of_not_kept hold.data.customInputs hnew.data.customInputs hinputs
      refine ⟨label, hshape, ?_⟩
      rw [hlabel]
      rfl
  · obtain ⟨label, hshape, hlabel⟩ :=
      (decides_settingsChange hold hnew hname).exists_label hconfig
    rw [hlabel]
    exact ⟨label, hshape, rfl⟩

/-- The comparison of two nodes comes to an end, without a label when there is nothing to tell. -/
theorem decides_nodeChange (hold : old.Sound) (hnew : new.Sound) :
    Decides (fun _ => True) (nodeChange (between g h) old.loaded new.loaded)
      (old.data.OnlyNewKeys new.data ∧ ¬old.data.FillsKey new.data) := by
  obtain ⟨name, hname⟩ := exists_nodeName new
  by_cases hkeys : old.data.OnlyNewKeys new.data
  · have hlabel := nodeChange_of_onlyNewKeys (g := g) (h := h) hold hnew hname hkeys
    have hnone := NodeData.newKeyText_eq_none_iff name old.data new.data
    cases htext : NodeData.newKeyText name old.data new.data with
    | none =>
      rw [htext] at hlabel hnone
      exact .unlabelled ⟨hkeys, hnone.mp rfl⟩ hlabel
    | some label =>
      rw [htext] at hlabel hnone
      refine .labelled (fun hsame => ?_) label trivial hlabel
      cases hnone.mpr hsame.2
  · obtain ⟨label, -, hlabel⟩ :=
      nodeChange_of_not_onlyNewKeys (g := g) (h := h) hold hnew hname hkeys
    exact .labelled (fun hsame => hkeys hsame.1) label trivial hlabel

end Nodes

end Change
end WorkflowStudio
