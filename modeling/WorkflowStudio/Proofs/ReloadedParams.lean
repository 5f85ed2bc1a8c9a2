import WorkflowStudio.Storage.AppSettings
import WorkflowStudio.Proofs.DocumentText
import WorkflowStudio.Proofs.LoadedSnapshot
import WorkflowStudio.Proofs.OfferedParams
import WorkflowStudio.Proofs.ResavedGraph

/-!
Parameters that are stored with the application and taken back into its node. The lists of the
three scopes are put over the other settings, so they are read first, and what is read of them is
written as it was. They only come back, though, when the whole node can be read again: the node
is written without nulls, and a null under the first name of a setting no longer hides what stands
under its second name.
-/
namespace WorkflowStudio

/-! Fields that are looked up in fields made of others. -/

namespace Fields

variable {fs changes : Fields} {name other : String} {names : List String}

theorem get?_filter (keep : String → Bool) (fs : Fields) (name : String) :
    get? (fs.filter fun field => keep field.1) name = if keep name then fs.get? name else none := by
  have hsame (field : String × Json) : decide (keep field.1 = true ∧ (field.1 == name) = true) =
      (keep name && field.1 == name) := by
    by_cases hname : field.1 = name
    · simp [hname]
    · simp [beq_eq_false_iff_ne.mpr hname]
  rw [get?, List.find?_filter]
  simp only [hsame]
  cases keep name <;> simp [get?]

theorem get?_erase_of_ne (h : name ≠ other) : (fs.erase other).get? name = fs.get? name := by
  rw [erase, get?_filter (· != other), if_pos (bne_iff_ne.mpr h)]

theorem erase_insert (fs : Fields) (name : String) (v : Json) :
    (fs.insert name v).erase name = fs.erase name := by
  induction fs with
  | nil => simp [insert, erase]
  | cons field rest ih =>
    rw [insert]
    split
    · rename_i hname
      rw [beq_iff_eq] at hname
      simp [erase, hname]
    · rename_i hname
      have hne : field.1 ≠ name := by simpa using hname
      simpa [erase, hne] using ih

/-- The fields that are added stand before the others. -/
theorem get?_merge (h : changes.names.Nodup) (name : String) :
    (fs.merge changes).get? name = (changes.get? name).or (fs.get? name) := by
  induction changes generalizing fs with
  | nil => rfl
  | cons change rest ih =>
    obtain ⟨hnotMem, hrest⟩ := List.nodup_cons.mp h
    change (merge (fs.insert change.1 change.2) rest).get? name = _
    rw [ih hrest]
    by_cases hname : change.1 = name
    · subst hname
      have hnone : get? rest change.1 = none := by
        rw [get?, Option.map_eq_none_iff, List.find?_eq_none]
        intro field hfield hsame
        exact hnotMem (List.mem_map.mpr ⟨field, hfield, beq_iff_eq.mp hsame⟩)
      rw [hnone, get?_insert_self]
      simp [get?]
    · rw [get?_insert_of_ne fs _ (Ne.symm hname)]
      simp [get?, hname]

theorem optional_of_missing {α : Type} {absent : α} {read : Json → Checked α}
    (h : fs.get? name = none) :
    fs.optional (name :: names) absent read = fs.optional names absent read := by
  simp only [optional, pick, h]

theorem name_mem_of_pick {found : String × Json} (h : fs.pick names = some found) :
    found.1 ∈ names := by
  induction names with
  | nil => cases h
  | cons name names ih =>
    rw [pick] at h
    split at h
    · cases h
      exact List.mem_cons_self
    · exact List.mem_cons_of_mem _ (ih h)

/-- What stands under the second name of a slot is an extra field exactly when the slot was read
from its first name. -/
theorem get?_extras_second {slots : List (List String)} {first second : String}
    (hne : first ≠ second) (hslot : [first, second] ∈ slots)
    (honly : ∀ names ∈ slots, second ∈ names → names = [first, second]) :
    (fs.extras slots).get? second = (fs.get? first).bind fun _ => fs.get? second := by
  rw [extras, get?_filter fun name => !slots.any fun names =>
    (fs.pick names).map (·.1) == some name]
  cases hfirst : fs.get? first with
  | some v =>
    refine if_pos ?_
    rw [Bool.not_eq_true', List.any_eq_false]
    intro names hnames hpicked
    obtain ⟨found, hfound, hname⟩ := Option.map_eq_some_iff.mp (beq_iff_eq.mp hpicked)
    rw [honly names hnames (hname ▸ name_mem_of_pick hfound), pick_of_get? hfirst] at hfound
    cases hfound
    exact hne hname
  | none =>
    cases hsecond : fs.get? second with
    | none => exact ite_self none
    | some v =>
      refine if_neg ?_
      have hpick : fs.pick [first, second] = some (second, v) := by
        simp only [pick, hfirst, hsecond]
      rw [Bool.not_eq_true', Bool.not_eq_false, List.any_eq_true]
      exact ⟨[first, second], hslot, by rw [hpick]; exact beq_self_eq_true _⟩

/-- Of a record without nulls, a field is looked up among the values that are given. -/
theorem get?_given {entries : List (String × Option Json)} (h : (entries.map (·.1)).Nodup)
    (name : String) : get? (entries.filterMap fun e => e.2.map (e.1, ·)) name =
      (entries.find? (·.1 == name)).bind (·.2) := by
  induction entries with
  | nil => rfl
  | cons e rest ih =>
    obtain ⟨hnotMem, hrest⟩ := List.nodup_cons.mp h
    by_cases hname : e.1 = name
    · subst hname
      have hnone : rest.find? (·.1 == e.1) = none := by
        rw [List.find?_eq_none]
        intro other hother hsame
        exact hnotMem (List.mem_map.mpr ⟨other, hother, beq_iff_eq.mp hsame⟩)
      cases hvalue : e.2 with
      | none => simp [hvalue, ih hrest, hnone]
      | some v => simp [hvalue, get?]
    · cases hvalue : e.2 with
      | none => simpa [hvalue, hname] using ih hrest
      | some v => simpa [hvalue, get?, hname] using ih hrest

end Fields

/-! Fields whose names were texts from the start. -/

namespace LooseFields

theorem ofText_beq (s t : String) : (Key.ofText s == Key.ofText t) = (s == t) := by
  have hequal : Json.equal (.str s) (.str t) = (s == t) :=
    Bool.eq_iff_iff.mpr (Json.equal_str.trans beq_iff_eq.symm)
  exact hequal

theorem put_ofFields (fs : Fields) (name : String) (v : Json) :
    put (ofFields fs) (.ofText name) v = ofFields (fs.insert name v) := by
  induction fs with
  | nil => rfl
  | cons field rest ih =>
    rw [Fields.insert, ofFields, List.map_cons, put, ofText_beq]
    split
    · rename_i hname
      rw [beq_iff_eq.mp hname]
      rfl
    · exact congrArg (_ :: ·) ih

theorem merge_ofFields (fs changes : Fields) :
    merge (ofFields fs) changes = ofFields (fs.merge changes) := by
  induction changes generalizing fs with
  | nil => rfl
  | cons change rest ih =>
    change merge (put (ofFields fs) (.ofText change.1) change.2) rest = _
    rw [put_ofFields]
    exact ih _

theorem ofJson_obj {fs : Fields} (h : fs.names.Nodup) : ofJson (.obj fs) = .ok (ofFields fs) := by
  have hmerged : merge (ofFields []) fs = ofFields (Fields.merge [] fs) := merge_ofFields [] fs
  exact congrArg Except.ok (hmerged.trans (congrArg ofFields (Json.ofPairs_of_nodup h)))

theorem fields_ofFields (fs : Fields) : (ofFields fs).fields = fs := by
  induction fs with
  | nil => rfl
  | cons field rest ih => exact congrArg (_ :: ·) ih

theorem oddNames_ofFields (fs : Fields) : (ofFields fs).oddNames = [] := by
  induction fs with
  | nil => rfl
  | cons field rest ih => exact ih

theorem asRecord_ofFields {α : Type} [Record α] (fs : Fields) :
    (ofFields fs).asRecord = (Record.read .value (.obj fs) : Checked α) := by
  rw [asRecord, oddNames_ofFields, fields_ofFields]
  rfl

theorem find?_ofFields (fs : Fields) (name : String) :
    ((ofFields fs).find? fun field => field.1 == .ofText name).map (·.2) = fs.get? name := by
  rw [ofFields, List.find?_map, Option.map_map, Fields.get?]
  simp only [Function.comp_def, ofText_beq]

theorem filter_ofFields (fs : Fields) (name : String) :
    (ofFields fs).filter (fun field => field.1 != .ofText name) = ofFields (fs.erase name) := by
  rw [ofFields, List.filter_map, Fields.erase]
  simp only [Function.comp_def, bne, ofText_beq]
  rfl

end LooseFields

/-! Parameters. -/

/-- A parameter is read again from its form without nulls. -/
theorem ParamDefinition.read_wire {p : ParamDefinition}
    (hfinite : p.defaultValue.finite = p.defaultValue) : read (write .dropped p) = .ok p := by
  obtain ⟨key, label, type, required, value, description⟩ := p
  dsimp only at hfinite
  let written : Fields := [Entry.text "key" key, Entry.text "label" label, Entry.text "type" type,
    Entry.always "required" (.bool required), Entry.untyped "defaultValue" value,
    Entry.optionalText "description" description].filterMap fun e => e.2.map (e.1, ·)
  have hget (name : String) : written.get? name = _ := Fields.get?_given (by
    show ["key", "label", "type", "required", "defaultValue", "description"].Nodup
    decide) name
  have hkeyRead : written.optional ["key"] "" Json.asText = .ok key :=
    Fields.optional_of_get? "" (hget "key") rfl
  have hlabelRead : written.optional ["label"] "" Json.asText = .ok label :=
    Fields.optional_of_get? "" (hget "label") rfl
  have htypeRead : written.optional ["type"] "string" Json.asText = .ok type :=
    Fields.optional_of_get? "string" (hget "type") rfl
  have hrequired : written.optional ["required"] false Json.asTruth = .ok required :=
    Fields.optional_of_get? false (hget "required") rfl
  have hvalue : written.optional ["defaultValue", "default_value"] .null Json.asAny =
      .ok value := by
    have hfirst : written.get? "defaultValue" =
      if value == .null then none else some value.finite := hget "defaultValue"
    have hsecond : written.get? "default_value" = none := hget "default_value"
    by_cases hnull : value = .null
    · rw [hnull] at hfirst ⊢
      rw [Fields.optional_of_missing hfirst, Fields.optional_of_missing hsecond]
      rfl
    · rw [if_neg (by simpa using hnull), hfinite] at hfirst
      exact Fields.optional_of_get? .null hfirst rfl
  have hdescriptionRead : written.optional ["description"] none (Json.asOptional Json.asText) =
      .ok description := by
    have hfirst : written.get? "description" = description.map .str := hget "description"
    cases description with
    | none =>
      rw [Fields.optional_of_missing hfirst]
      rfl
    | some s => exact Fields.optional_of_get? none hfirst rfl
  change Json.asRecord _ (.obj written) = _
  rw [Json.asRecord, hkeyRead, hlabelRead, htypeRead, hrequired, hvalue, hdescriptionRead]
  rfl

namespace AppInfoConfig

/-- What is read of the settings of the application, field by field. -/
structure ReadFrom (c : AppInfoConfig) (fs : Fields) : Prop where
  appName : fs.optional ["appName", "app_name"] none (Json.asOptional Json.asText) = .ok c.appName
  description : fs.optional ["description"] none (Json.asOptional Json.asText) = .ok c.description
  icon : fs.optional ["icon"] none (Json.asOptional Json.asText) = .ok c.icon
  modelId : fs.optional ["modelId", "model_id"] none (Json.asOptional Json.asReference) =
    .ok c.modelId
  prologue : fs.optional ["prologue"] none (Json.asOptional Json.asText) = .ok c.prologue
  appParams : fs.optional ["appParams", "app_params"] [] (Json.asList ParamDefinition.read) =
    .ok c.appParams
  interfaceParams : fs.optional ["interfaceParams", "interface_params"] []
    (Json.asList ParamDefinition.read) = .ok c.interfaceParams
  sessionParams : fs.optional ["sessionParams", "session_params"] []
    (Json.asList ParamDefinition.read) = .ok c.sessionParams
  globalParams : fs.optional ["globalParams", "global_params"] []
    (Json.asList ParamDefinition.read) = .ok c.globalParams
  extras : fs.extras slots = c.extras

theorem read_eq_ok_iff {fs : Fields} {c : AppInfoConfig} :
    read (.obj fs) = .ok c ↔ c.ReadFrom fs := by
  constructor
  · intro h
    simp only [read, Json.asRecord, Checked.seq_eq_ok, Checked.map_eq_ok] at h
    obtain ⟨_, _, ⟨_, _, ⟨_, _, ⟨_, _, ⟨_, _, ⟨_, _, ⟨_, _, ⟨_, _, ⟨_, _, ⟨_, appName, rfl⟩,
      description, rfl⟩, icon, rfl⟩, modelId, rfl⟩, prologue, rfl⟩, appParams, rfl⟩,
      interfaceParams, rfl⟩, sessionParams, rfl⟩, globalParams, rfl⟩, extras, rfl⟩ := h
    cases extras
    exact ⟨appName, description, icon, modelId, prologue, appParams, interfaceParams,
      sessionParams, globalParams, rfl⟩
  · intro h
    rw [read, Json.asRecord, h.appName, h.description, h.icon, h.modelId, h.prologue, h.appParams,
      h.interfaceParams, h.sessionParams, h.globalParams, h.extras]
    rfl

/-- The entries that the settings are written from, in the form without nulls. -/
def told (c : AppInfoConfig) : List (String × Option Json) :=
  [Entry.optionalText "appName" c.appName, Entry.optionalText "description" c.description,
    Entry.optionalText "icon" c.icon, Entry.optional "modelId" Reference.toJson c.modelId,
    Entry.optionalText "prologue" c.prologue,
    Entry.always "appParams" (.arr (c.appParams.map Record.wire)),
    Entry.always "interfaceParams" (.arr (c.interfaceParams.map Record.wire)),
    Entry.always "sessionParams" (.arr (c.sessionParams.map Record.wire)),
    Entry.always "globalParams" (.arr (c.globalParams.map Record.wire))] ++
    c.extras.map Entry.extra

theorem nodup_told {fs : Fields} {c : AppInfoConfig} (hfs : fs.names.Nodup) (h : c.ReadFrom fs) :
    (c.told.map (·.1)).Nodup := by
  have hnames : c.told.map (·.1) = Fields.declared slots ++ c.extras.names := by
    rw [told, List.map_append, List.map_map]
    rfl
  have hextras : c.extras.names.Nodup := by
    rw [← h.extras]
    exact hfs.sublist (List.filter_sublist.map _)
  rw [hnames]
  refine List.Nodup.append (by decide) hextras ?_
  intro name hdeclared hextra
  obtain ⟨field, hfield, rfl⟩ := List.mem_map.mp hextra
  rw [← h.extras] at hfield
  exact Fields.not_declared_of_mem_extras (by decide) hfield hdeclared

end AppInfoConfig

/-! The fields of the application node. -/

namespace AppSettings

theorem get?_fillOne (fs : Fields) (filled name : String) :
    (if fs.has filled then fs else fs.insert filled (.str "")).get? name =
      if name = filled then some ((fs.get? name).getD (.str "")) else fs.get? name := by
  have hhas : fs.has filled = (fs.get? filled).isSome := by
    rw [Fields.has, Fields.get?, Option.isSome_map, List.isSome_find?]
  by_cases hname : name = filled
  · subst hname
    rw [hhas, if_pos rfl]
    cases hget : fs.get? name with
    | none => simp [Fields.get?_insert_self]
    | some v => simp [hget]
  · rw [if_neg hname]
    split
    · rfl
    · exact Fields.get?_insert_of_ne fs _ hname

theorem get?_foldl_fill (filled : List String) (fs : Fields) (name : String) :
    (filled.foldl (fun fs name => if fs.has name then fs else fs.insert name (.str "")) fs).get?
      name = if filled.contains name then some ((fs.get? name).getD (.str ""))
        else fs.get? name := by
  induction filled generalizing fs with
  | nil => rfl
  | cons first rest ih =>
    rw [List.foldl_cons, ih, get?_fillOne, List.contains_cons]
    by_cases hname : name = first
    · simp [hname]
    · simp [hname]

/-- What stands in the application node under a name, once there is no older list. -/
theorem get?_nodeFields {c : AppInfoConfig} (hnames : (c.told.map (·.1)).Nodup)
    (hnone : c.globalParams = []) (name : String) :
    let value := if name != "globalParams" && name != "global_params" then
      (c.told.find? (·.1 == name)).bind (·.2) else none
    (nodeFields c).get? name =
      if textSettings.contains name then some (value.getD (.str "")) else value := by
  have hkeeps (name : String) :
      keepsField c name = (name != "globalParams" && name != "global_params") := by
    rw [keepsField, hnone]
    rfl
  have hwritten : nodeFields c = fillTexts
      ((c.told.filterMap fun e => e.2.map (e.1, ·)).filter fun field => keepsField c field.1) := rfl
  rw [hwritten, fillTexts, get?_foldl_fill, Fields.get?_filter, hkeeps, Fields.get?_given hnames]

/-- The model is null under its first name, and under its second one stands what is no model. -/
def HidesModel (settings : Fields) : Prop :=
  settings.get? "modelId" = some .null ∧ ∃ v, settings.get? "model_id" = some v ∧
    ∀ id, Json.asOptional Json.asReference v.finite ≠ .ok id

end AppSettings

namespace AppInfoConfig

open AppSettings

variable {fs : Fields} {c : AppInfoConfig}

theorem optional_filled {written : Fields} {name : String} {names : List String}
    {o : Option String} (hget : written.get? name = some ((o.map .str).getD (.str ""))) :
    written.optional (name :: names) none (Json.asOptional Json.asText) =
      .ok (some (o.getD "")) := by
  cases o with
  | none => exact Fields.optional_of_get? none hget rfl
  | some s => exact Fields.optional_of_get? none hget rfl

theorem optional_params {written : Fields} {name : String} {names : List String}
    {params : List ParamDefinition}
    (h : ∀ param ∈ params, ParamDefinition.read (Record.wire param) = .ok param)
    (hget : written.get? name = some (.arr (params.map Record.wire))) :
    written.optional (name :: names) [] (Json.asList ParamDefinition.read) = .ok params := by
  refine Fields.optional_of_get? [] hget ?_
  have hread : Json.asList ParamDefinition.read (.arr (params.map Record.wire)) =
      .ok (params.map id) := Json.asList_map h
  rwa [List.map_id] at hread

theorem eq_null_of_asOptional {v : Json} {α : Type} {read : Json → Checked α}
    (h : Json.asOptional read v = .ok none) : v = .null := by
  unfold Json.asOptional at h
  split at h
  · rfl
  · obtain ⟨x, -, hx⟩ := Checked.map_eq_ok.mp h
    cases hx

theorem asOptional_toJson (id : Reference) :
    Json.asOptional Json.asReference id.toJson = .ok (some id) := by
  cases id <;> rfl

theorem modelId_eq_none_iff {v : Json} (h : c.ReadFrom fs) (hv : fs.get? "modelId" = some v) :
    c.modelId = none ↔ v = .null := by
  have hread : Json.asOptional Json.asReference v = .ok c.modelId :=
    Fields.read_of_optional hv h.modelId
  constructor
  · intro hnone
    rw [hnone] at hread
    exact eq_null_of_asOptional hread
  · rintro rfl
    exact (Checked.ok.inj hread).symm

/-- The second name of the model is written where there was a first one, unless it is null. -/
theorem get?_secondName (hfs : fs.names.Nodup) (h : c.ReadFrom fs) (hnone : c.globalParams = []) :
    (nodeFields c).get? "model_id" = (fs.get? "modelId").bind fun _ =>
      (fs.get? "model_id").bind fun v => if v == .null then none else some v.finite := by
  have hextra : c.extras.get? "model_id" =
      (fs.get? "modelId").bind fun _ => fs.get? "model_id" := by
    rw [← h.extras]
    exact Fields.get?_extras_second (by decide) (by decide) (by decide)
  refine (get?_nodeFields (nodup_told hfs h) hnone "model_id").trans ?_
  change ((c.extras.map Entry.extra).find? (·.1 == "model_id")).bind (·.2) = _
  rw [← Option.bind_assoc, ← hextra, List.find?_map, Fields.get?, Option.bind_map, Option.bind_map]
  rfl

/-- The model is read again unless its first name was null and the second one shows through. -/
theorem exists_modelId_nodeFields (hfs : fs.names.Nodup) (h : c.ReadFrom fs)
    (hnone : c.globalParams = []) :
    (∃ id, (nodeFields c).optional ["modelId", "model_id"] none
      (Json.asOptional Json.asReference) = .ok id) ↔ ¬HidesModel fs := by
  have hfirst : (nodeFields c).get? "modelId" = c.modelId.map Reference.toJson :=
    get?_nodeFields (nodup_told hfs h) hnone "modelId"
  have hsecond := get?_secondName hfs h hnone
  constructor
  · rintro ⟨id, hid⟩ ⟨hnull, v, hv, hunread⟩
    have hsome : v ≠ .null := fun hv => hunread none (by rw [hv]; rfl)
    rw [(modelId_eq_none_iff h hnull).mpr rfl] at hfirst
    rw [hnull, hv, Option.bind_some, Option.bind_some, if_neg (by simpa using hsome)] at hsecond
    rw [Fields.optional_of_missing hfirst] at hid
    exact hunread id (Fields.read_of_optional hsecond hid)
  · intro hshown
    cases hmodel : c.modelId with
    | some id =>
      rw [hmodel] at hfirst
      exact ⟨some id, Fields.optional_of_get? none hfirst (asOptional_toJson id)⟩
    | none =>
      rw [hmodel] at hfirst
      rw [Fields.optional_of_missing hfirst]
      cases hwritten : (nodeFields c).get? "model_id" with
      | none => exact ⟨none, Fields.optional_of_missing hwritten⟩
      | some written =>
        -- A value that was written stood under the second name beside a null under the first.
        rw [hsecond] at hwritten
        obtain ⟨v, hv, hrest⟩ := Option.bind_eq_some_iff.mp hwritten
        obtain ⟨w, hw, hvalue⟩ := Option.bind_eq_some_iff.mp hrest
        have hnull := (modelId_eq_none_iff h hv).mp hmodel
        have hfinite : w.finite = written := by
          split at hvalue
          · cases hvalue
          · exact Option.some.inj hvalue
        by_contra hunread
        refine hshown ⟨hnull ▸ hv, w, hw, fun id hid => hunread ⟨id, ?_⟩⟩
        rw [hfinite] at hid
        exact Fields.optional_of_get? none (hsecond.trans hwritten) hid

/-- Unless a model is hidden, the written settings are read again with the same parameters. -/
theorem read_nodeFields (hfs : fs.names.Nodup) (h : c.ReadFrom fs) (hnone : c.globalParams = [])
    (hparams : ∀ scope, ∀ param ∈ c.declared scope,
      ParamDefinition.read (Record.wire param) = .ok param) (hshown : ¬HidesModel fs) :
    ∃ again, read (.obj (nodeFields c)) = .ok again ∧
      ∀ scope, again.declared scope = c.declared scope := by
  have hget (name : String) := get?_nodeFields (nodup_told hfs h) hnone name
  obtain ⟨id, hid⟩ := (exists_modelId_nodeFields hfs h hnone).mpr hshown
  have happ (param) (hparam : param ∈ c.appParams) :=
    hparams .app param (List.mem_append_left _ hparam)
  let again : AppInfoConfig := {
    appName := some (c.appName.getD "")
    description := some (c.description.getD "")
    icon := some (c.icon.getD "")
    modelId := id
    prologue := some (c.prologue.getD "")
    appParams := c.appParams
    interfaceParams := c.interfaceParams
    sessionParams := c.sessionParams
    globalParams := []
    extras := (nodeFields c).extras slots }
  have hagain : again.ReadFrom (nodeFields c) := {
    appName := optional_filled (hget "appName")
    description := optional_filled (hget "description")
    icon := optional_filled (hget "icon")
    modelId := hid
    prologue := optional_filled (hget "prologue")
    appParams := optional_params happ (hget "appParams")
    interfaceParams := optional_params (hparams .interface) (hget "interfaceParams")
    sessionParams := optional_params (hparams .session) (hget "sessionParams")
    globalParams := (Fields.optional_of_missing (hget "globalParams")).trans
      (Fields.optional_of_missing (hget "global_params"))
    extras := rfl }
  refine ⟨again, read_eq_ok_iff.mpr hagain, fun scope => ?_⟩
  cases scope with
  | app => exact congrArg (c.appParams ++ ·) hnone.symm
  | interface => rfl
  | session => rfl

end AppInfoConfig

/-! Parameters as they are stored. -/

/-- A list of items that may each be refused is made over when none is. -/
theorem Except.mapM_eq_ok {ε α β : Type} {f : α → Except ε β} {good : α → Prop} {result : α → β}
    (h : ∀ a b, f a = .ok b ↔ good a ∧ result a = b) {items : List α} {values : List β} :
    items.mapM f = .ok values ↔ (∀ a ∈ items, good a) ∧ items.map result = values := by
  induction items generalizing values with
  | nil =>
    rw [List.mapM_nil]
    simp only [List.not_mem_nil, false_implies, implies_true, true_and]
    exact ⟨Except.ok.inj, congrArg Except.ok⟩
  | cons a rest ih =>
    rw [List.mapM_cons, Except.bind_eq_ok]
    simp only [Except.bind_eq_ok, ih, List.forall_mem_cons, h]
    constructor
    · rintro ⟨_, ⟨ha, rfl⟩, _, ⟨hrest, rfl⟩, hvalues⟩
      cases hvalues
      exact ⟨⟨ha, hrest⟩, rfl⟩
    · rintro ⟨⟨ha, hrest⟩, rfl⟩
      exact ⟨_, ⟨ha, rfl⟩, _, ⟨hrest, rfl⟩, rfl⟩

theorem Record.exported_eq_ok {α : Type} [Record α] (a : α) (v : Json) :
    exported a = .ok v ↔ checkValue a = .ok () ∧ wire a = v := by
  rw [exported, Except.map_eq_ok]
  exact ⟨fun ⟨_, h⟩ => h, fun h => ⟨(), h⟩⟩

/-- The parameters of every scope in the form they are stored in. -/
def Scope.stored (params : Scope → List ParamDefinition) : Fields :=
  (Vocabulary.words : List Scope).map fun scope =>
    (scope.configKey, .arr ((params scope).map Record.wire))

theorem storedParams_eq_ok (app : Node) (scope : Scope) (field : String × Json) :
    storedParams (some app) scope = .ok field ↔
      (∀ param ∈ globalParams (some app) scope, Record.checkValue param = .ok ()) ∧
        (scope.configKey, .arr ((globalParams (some app) scope).map Record.wire)) = field := by
  rw [storedParams, Except.bind_eq_ok]
  simp only [Except.mapM_eq_ok Record.exported_eq_ok]
  constructor
  · rintro ⟨_, ⟨hparams, rfl⟩, hfield⟩
    exact ⟨hparams, Except.ok.inj hfield⟩
  · rintro ⟨hparams, rfl⟩
    exact ⟨_, ⟨hparams, rfl⟩, rfl⟩

theorem Graph.appParameters_eq_ok {g : Graph} {app : Node} {p : Fields}
    (happ : g.appInfo? = some app) : g.appParameters = .ok (some p) ↔
      (∀ scope, ∀ param ∈ globalParams (some app) scope, Record.checkValue param = .ok ()) ∧
        Scope.stored (globalParams (some app)) = p := by
  have hscopes : g.appParameters =
      ((Vocabulary.words : List Scope).mapM (storedParams (some app))).map some := by
    rw [appParameters, happ]
    rfl
  have hword (scope : Scope) : scope ∈ (Vocabulary.words : List Scope) := by
    cases scope <;> decide
  rw [hscopes, Except.map_eq_ok]
  simp only [Except.mapM_eq_ok (storedParams_eq_ok app), Option.some.injEq, exists_eq_right, hword,
    true_implies]
  rfl

namespace AppSettings

theorem flatten_parameters {s p : Fields} (hs : s.names.Nodup) (hp : p ≠ []) :
    flatten (.obj (s.insert "parameters" (.obj p))) =
      .ok (.ofFields ((s.erase "parameters").merge p)) := by
  have hpresent : (Json.obj p).orElse (.obj []) = .obj p := by
    rw [Json.orElse, Json.isPresent, List.isEmpty_eq_false_iff.mpr hp]
    rfl
  rw [flatten, LooseFields.ofJson_obj (Fields.nodup_names_insert hs _ _)]
  change LooseFields.addAll _ _ = _
  rw [LooseFields.find?_ofFields, LooseFields.filter_ofFields, Fields.get?_insert_self,
    Option.getD_some, hpresent, Fields.erase_insert, LooseFields.addAll, LooseFields.merge_ofFields]

/-- The settings with the stored parameters over them. -/
def withStored (s : Fields) (params : Scope → List ParamDefinition) : Fields :=
  (s.erase "parameters").merge (Scope.stored params)

theorem readFrom_of_appInfoNode {catalog : Catalog} {s : Fields}
    {params : Scope → List ParamDefinition} {node : Node} (hs : s.names.Nodup)
    (h : catalog.appInfoNode (.obj (s.insert "parameters" (.obj (Scope.stored params)))) =
      .ok node) :
    ∃ c : AppInfoConfig, c.ReadFrom (withStored s params) ∧ node.config = nodeFields c := by
  have hsome : Scope.stored params ≠ [] := List.cons_ne_nil _ _
  obtain ⟨fields, hfields, hrest⟩ := Except.bind_eq_ok.mp h
  obtain ⟨c, hc, hwritten⟩ := Except.bind_eq_ok.mp hrest
  obtain ⟨-, -, hnode⟩ := Except.bind_eq_ok.mp hwritten
  cases hnode
  rw [← Except.ok.inj ((flatten_parameters hs hsome).symm.trans hfields),
    Checked.orFault_eq_ok, LooseFields.asRecord_ofFields] at hc
  exact ⟨c, AppInfoConfig.read_eq_ok_iff.mp hc, rfl⟩

theorem nodup_withStored {s : Fields} (hs : s.names.Nodup)
    (params : Scope → List ParamDefinition) : (withStored s params).names.Nodup := by
  refine Fields.nodup_names_merge ?_
  rw [Fields.names_erase]
  exact hs.filter _

theorem get?_withStored (s : Fields) (params : Scope → List ParamDefinition) (name : String) :
    (withStored s params).get? name =
      ((Scope.stored params).get? name).or ((s.erase "parameters").get? name) := by
  have hnames : (Scope.stored params).names = ["appParams", "interfaceParams", "sessionParams"] :=
    rfl
  exact Fields.get?_merge (hnames ▸ by decide) name

theorem get?_withStored_of_free {s : Fields} {params : Scope → List ParamDefinition}
    {name : String} (hname : name ≠ "parameters") (hfree : (Scope.stored params).get? name = none) :
    (withStored s params).get? name = s.get? name := by
  rw [get?_withStored, hfree, Option.none_or, Fields.get?_erase_of_ne hname]

theorem hidesModel_withStored (s : Fields) (params : Scope → List ParamDefinition) :
    HidesModel (withStored s params) ↔ HidesModel s := by
  rw [HidesModel, HidesModel, get?_withStored_of_free (by decide) rfl,
    get?_withStored_of_free (by decide) rfl]

/-- The stored parameters are read in place of those of the settings. -/
theorem declared_withStored {s : Fields} {params : Scope → List ParamDefinition}
    {c : AppInfoConfig} (h : c.ReadFrom (withStored s params))
    (hparams : ∀ scope, ∀ param ∈ params scope,
      ParamDefinition.read (Record.wire param) = .ok param)
    (hfirst : s.get? "globalParams" = none) (hsecond : s.get? "global_params" = none) :
    c.globalParams = [] ∧ ∀ scope, c.declared scope = params scope := by
  have hlist {name : String} {names : List String} {found : List ParamDefinition} (scope : Scope)
      (hstored : (Scope.stored params).get? name =
        some (.arr ((params scope).map Record.wire)))
      (hread : (withStored s params).optional (name :: names) []
        (Json.asList ParamDefinition.read) = .ok found) : found = params scope := by
    have hget := get?_withStored s params name
    rw [hstored, Option.some_or] at hget
    exact Checked.ok.inj (hread.symm.trans (AppInfoConfig.optional_params (hparams scope) hget))
  have hnone : c.globalParams = [] := by
    have hread := h.globalParams
    rw [Fields.optional_of_missing ((get?_withStored_of_free (by decide) rfl).trans hfirst),
      Fields.optional_of_missing ((get?_withStored_of_free (by decide) rfl).trans hsecond)] at hread
    exact (Checked.ok.inj hread).symm
  refine ⟨hnone, fun scope => ?_⟩
  cases scope with
  | app =>
    rw [AppInfoConfig.declared, hnone, List.append_nil]
    exact hlist .app rfl h.appParams
  | interface => exact hlist .interface rfl h.interfaceParams
  | session => exact hlist .session rfl h.sessionParams

end AppSettings

/-- Parameters without a key were left out when the first node was read. -/
theorem globalParams_of_reread {app node : Node} {config : AppInfoConfig}
    (hread : AppInfoConfig.read (.obj node.config) = .ok config)
    (hsame : ∀ scope, config.declared scope = globalParams (some app) scope) :
    globalParams (some node) = globalParams (some app) := by
  funext scope
  rw [globalParams_of_read hread, hsame]
  cases hgiven : AppInfoConfig.read (.obj app.config) with
  | bad problems =>
    rw [globalParams_of_bad hgiven]
    rfl
  | ok given =>
    rw [globalParams_of_read hgiven, List.filter_filter]
    simp only [Bool.and_self]

namespace Graph

/-- What the application node declares is stored with the application and comes back when the node
is built again from what was stored, unless the settings hide a model under its second name. In
that case every scope comes back empty. -/
theorem appParameters_reloaded {g reloaded : Graph} {app node : Node} {p s : Fields}
    {catalog : Catalog} (happ : g.appInfo? = some app) (hp : g.appParameters = .ok (some p))
    (hfinite : ∀ scope, ∀ param ∈ globalParams (some app) scope,
      param.defaultValue.finite = param.defaultValue)
    (hs : s.names.Nodup) (hfirst : s.get? "globalParams" = none)
    (hsecond : s.get? "global_params" = none)
    (hnode : catalog.appInfoNode (.obj (s.insert "parameters" (.obj p))) = .ok node)
    (hreloaded : reloaded.appInfo? = some node) :
    (¬AppSettings.HidesModel s → reloaded.appParameters = .ok (some p)) ∧
      (AppSettings.HidesModel s →
        reloaded.appParameters = .ok (some (p.map fun field => (field.1, .arr [])))) := by
  obtain ⟨hchecked, rfl⟩ := (appParameters_eq_ok happ).mp hp
  obtain ⟨c, hc, hconfig⟩ := AppSettings.readFrom_of_appInfoNode hs hnode
  have hwire (scope : Scope) (param) (hparam : param ∈ globalParams (some app) scope) :
      ParamDefinition.read (Record.wire param) = .ok param :=
    ParamDefinition.read_wire (hfinite scope param hparam)
  obtain ⟨hnone, hdeclared⟩ := AppSettings.declared_withStored hc hwire hfirst hsecond
  have hnames := AppSettings.nodup_withStored hs (globalParams (some app))
  have hhides := AppSettings.hidesModel_withStored s (globalParams (some app))
  constructor
  · intro hshown
    have hparams (scope : Scope) (param) (hparam : param ∈ c.declared scope) :=
      hwire scope param (hdeclared scope ▸ hparam)
    obtain ⟨again, hread, hagain⟩ := AppInfoConfig.read_nodeFields hnames hc hnone hparams
      (mt hhides.mp hshown)
    rw [← hconfig] at hread
    have hsame := globalParams_of_reread hread fun scope => (hagain scope).trans (hdeclared scope)
    refine (appParameters_eq_ok hreloaded).mpr ?_
    rw [hsame]
    exact ⟨hchecked, rfl⟩
  · intro hhidden
    have hempty : globalParams (some node) = fun _ => [] := by
      funext scope
      cases hread : AppInfoConfig.read (.obj node.config) with
      | bad problems => exact globalParams_of_bad hread scope
      | ok again =>
        rw [hconfig] at hread
        have hid := (AppInfoConfig.read_eq_ok_iff.mp hread).modelId
        have hshown := (AppInfoConfig.exists_modelId_nodeFields hnames hc hnone).mp ⟨_, hid⟩
        exact absurd (hhides.mpr hhidden) hshown
    refine (appParameters_eq_ok hreloaded).mpr ?_
    rw [hempty]
    exact ⟨fun _ _ hparam => absurd hparam List.not_mem_nil, rfl⟩

/-! A parameter that is lost: the model is null, and under its older name stands a list. -/

def tenantFlow : Graph :=
  ⟨[⟨"i", "custom", .origin, ⟨some "i", .appInfo, "",
    [("appParams", .arr [.obj [("key", .str "tenant")]])], .idle, [], [], [], []⟩, []⟩], []⟩

def tenantParams : Fields :=
  [("appParams", .arr [.obj [("key", .str "tenant"), ("label", .str ""), ("type", .str "string"),
    ("required", .bool false)]]), ("interfaceParams", .arr []), ("sessionParams", .arr [])]

def hiddenModel : Fields := [("modelId", .null), ("model_id", .arr [])]

theorem appParameters_reloaded_hiddenModel :
    tenantFlow.appParameters = .ok (some tenantParams) ∧ ∃ node,
      Catalog.builtIn.appInfoNode (.obj (hiddenModel.insert "parameters" (.obj tenantParams))) =
        .ok node ∧ (Graph.mk [node] []).appParameters ≠ .ok (some tenantParams) := by
  have hp : tenantFlow.appParameters = .ok (some tenantParams) := rfl
  have hsettings : (Catalog.builtIn.appInfoNode
      (.obj (hiddenModel.insert "parameters" (.obj tenantParams)))).toOption.isSome = true := by
    decide +kernel
  obtain ⟨node, hsome⟩ := Option.isSome_iff_exists.mp hsettings
  have hnode := Except.eq_ok_of_toOption hsome
  have happ : (Graph.mk [node] []).appInfo? = some node := by
    rw [appInfo?, List.find?_cons_of_pos (Catalog.appInfoNode_eq_ok hnode).2]
  have hfinite (scope : Scope) : ∀ param ∈ globalParams tenantFlow.appInfo? scope,
      param.defaultValue.finite = param.defaultValue := by
    cases scope
    · exact List.forall_mem_singleton.mpr rfl
    · exact fun _ hparam => absurd hparam List.not_mem_nil
    · exact fun _ hparam => absurd hparam List.not_mem_nil
  have hhidden : AppSettings.HidesModel hiddenModel :=
    ⟨rfl, .arr [], rfl, fun id hid => by cases hid⟩
  have hempty := (appParameters_reloaded rfl hp hfinite (by decide) rfl rfl hnode happ).2 hhidden
  refine ⟨hp, node, hnode, fun hsame => ?_⟩
  have hlost := Option.some.inj (Except.ok.inj (hempty.symm.trans hsame))
  exact absurd hlost (by decide +kernel)

end Graph
end WorkflowStudio
