import WorkflowStudio.Proofs.FilledInputs

/-!
Required settings under two checks. A node has a finding for a setting that says nothing, while a
workflow is not published for a setting of its application that is not present. A blank text is
present and says nothing, and a zero says something and is not present, so for the one application
node the two checks can differ in both ways.
-/
namespace WorkflowStudio

namespace Json

/-- A value without content: it is null, blank, an empty object or a list of such values. -/
inductive SaysNothing : Json → Prop where
  | null : SaysNothing .null
  | text {s : String} (hblank : ∀ c ∈ s.toList, Text.isBlank c = true) : SaysNothing (.str s)
  | list {items : List Json} (hitems : ∀ v ∈ items, SaysNothing v) : SaysNothing (.arr items)
  | object : SaysNothing (.obj [])

/-- A value that says nothing and still is not empty. -/
inductive Hollow : Json → Prop where
  | text {s : String} (hne : s ≠ "") (hblank : ∀ c ∈ s.toList, Text.isBlank c = true) :
      Hollow (.str s)
  | list {items : List Json} (hne : items ≠ []) (hitems : ∀ v ∈ items, v.SaysNothing) :
      Hollow (.arr items)

/-- A value that says no more than no or zero. -/
inductive Nought : Json → Prop where
  | no : Nought (.bool false)
  | whole : Nought (.int 0)
  | real {x : Double} (hzero : x.isZero = true) : Nought (.num x)

variable {v : Json}

theorem areUnfilled_iff {items : List Json} :
    areUnfilled items = true ↔ ∀ v ∈ items, v.isUnfilled = true := by
  induction items with
  | nil => simp [areUnfilled]
  | cons v rest ih => rw [areUnfilled, Bool.and_eq_true, ih, List.forall_mem_cons]

theorem SaysNothing.isUnfilled (h : v.SaysNothing) : v.isUnfilled = true := by
  induction h with
  | null => rfl
  | text hblank => exact List.all_eq_true.mpr hblank
  | list _ ih => exact areUnfilled_iff.mpr ih
  | object => rfl

theorem saysNothing_of_isUnfilled (v : Json) (h : v.isUnfilled = true) : v.SaysNothing := by
  match v with
  | .null => exact .null
  | .bool _ | .int _ | .num _ => cases h
  | .str s => exact .text (List.all_eq_true.mp h)
  | .arr items =>
    refine .list fun item hitem => ?_
    have := List.sizeOf_lt_of_mem hitem
    exact saysNothing_of_isUnfilled item (areUnfilled_iff.mp h item hitem)
  | .obj fields =>
    rw [List.isEmpty_iff.mp h]
    exact .object
termination_by sizeOf v
decreasing_by simp; omega

/-- The check of single settings finds the values without content. -/
theorem isUnfilled_iff : v.isUnfilled = true ↔ v.SaysNothing :=
  ⟨saysNothing_of_isUnfilled v, SaysNothing.isUnfilled⟩

theorem hollow_iff : v.Hollow ↔ v.isPresent = true ∧ v.SaysNothing := by
  constructor
  · intro h
    cases h with
    | text hne hblank => exact ⟨by simpa [isPresent] using hne, .text hblank⟩
    | list hne hitems => exact ⟨by simpa [isPresent] using hne, .list hitems⟩
  · rintro ⟨hpresent, h⟩
    cases h with
    | null => cases hpresent
    | text hblank => exact .text (by simpa [isPresent] using hpresent) hblank
    | list hitems => exact .list (by simpa [isPresent] using hpresent) hitems
    | object => cases hpresent

theorem nought_iff : v.Nought ↔ v.isPresent = false ∧ ¬v.SaysNothing := by
  constructor
  · intro h
    cases h with
    | no => exact ⟨rfl, nofun⟩
    | whole => exact ⟨rfl, nofun⟩
    | real hzero => exact ⟨by simpa [isPresent] using hzero, nofun⟩
  · rintro ⟨habsent, h⟩
    cases v with
    | null => exact absurd .null h
    | bool b =>
      have hb : b = false := habsent
      exact hb ▸ .no
    | int n =>
      have hn : n = 0 := by simpa [isPresent] using habsent
      exact hn ▸ .whole
    | num x => exact .real (by simpa [isPresent] using habsent)
    | str s =>
      have hs : s = "" := by simpa [isPresent] using habsent
      exact absurd (.text (by simp [hs])) h
    | arr items =>
      have hitems : items = [] := by simpa [isPresent] using habsent
      exact absurd (.list (by simp [hitems])) h
    | obj fields =>
      have hfields : fields = [] := by simpa [isPresent] using habsent
      exact absurd (hfields ▸ .object) h

end Json

namespace Node

variable {node : Node} {catalog : Catalog}

/-- The value of a setting, null when it is missing. -/
def setting (node : Node) (key : String) : Json := (Fields.get? node.config key).getD .null

theorem settingErrors_eq_nil_iff : node.settingErrors = [] ↔
    ∀ key ∈ node.neededSettings, ¬(node.setting key).SaysNothing := by
  simp only [settingErrors, List.map_eq_nil_iff, List.filter_eq_nil_iff, Json.isUnfilled_iff,
    setting]

/-- What a node without findings needs says something. -/
theorem not_saysNothing_of_errors_eq_nil {key : String} (herrors : node.errors catalog = [])
    (hkey : key ∈ requiredSettings node.nodeType) : ¬(node.setting key).SaysNothing := by
  have hsettings : node.settingErrors = [] := by
    simp only [errors, List.append_eq_nil_iff] at herrors
    exact herrors.1.1.2
  exact settingErrors_eq_nil_iff.mp hsettings key (List.mem_append_left _ hkey)

theorem unboundErrors_eq_nil {params : List ParamDefinition}
    (h : ∀ p ∈ params, p.required = false) : node.unboundErrors params = [] := by
  rw [unboundErrors, List.map_eq_nil_iff, List.filter_eq_nil_iff]
  intro p hp
  simp [h p hp]

/-- Without required inputs and parameters of its own, an application node has findings for its
settings only. -/
theorem errors_eq_nil_iff_of_appInfo (htype : node.nodeType = .appInfo)
    (hinputs : ∀ p ∈ catalog.inputs .appInfo, p.required = false)
    (hin : node.data.customInputs = []) (hout : node.data.customOutputs = []) :
    node.errors catalog = [] ↔
      ∀ key ∈ requiredSettings .appInfo, ¬(node.setting key).SaysNothing := by
  have hcustom : node.hasCustomResponse = false := by simp [hasCustomResponse, htype]
  have hneeded : node.neededInputs catalog = catalog.inputs .appInfo := by
    simp [neededInputs, hcustom, htype]
  have hkeys : node.neededSettings = requiredSettings .appInfo := by
    simp [neededSettings, hcustom, htype]
  rw [errors, hneeded, unboundErrors_eq_nil hinputs, hin, hout, ← hkeys, ← settingErrors_eq_nil_iff]
  simp [keyErrorsFrom]

end Node

theorem appErrors_eq_nil_iff {app : Node} : appErrors app = [] ↔
    ∀ key ∈ requiredSettings .appInfo, (app.setting key).isPresent = true := by
  have hpresent (key : String) : ((Fields.get? app.config key).map Json.isPresent).getD false =
      (app.setting key).isPresent := by
    cases hvalue : Fields.get? app.config key <;> simp [Node.setting, hvalue, Json.isPresent]
  simp [appErrors, hpresent, requiredSettings]

/-- Once the structure and the nodes of the flow are valid, the settings of the application decide
on the publication. -/
theorem checkPublication_of_valid {catalog : Catalog} {g : Graph} {app : Node}
    (hstructure : g.checkStructure.valid = true)
    (hnodes : (catalog.checkNodes g.flowNodes).valid = true) (happ : g.appInfo? = some app) :
    checkPublication catalog g = .ofErrors (appErrors app) := by
  simp [checkPublication, hstructure, hnodes, happ]

/-- A workflow is published in spite of a finding for its application when all settings are present
and one is hollow, and it is refused without a finding when all settings say something and one of
them is a nought. -/
theorem publication_differs_iff {catalog : Catalog} {g : Graph} {app : Node}
    (hinputs : ∀ p ∈ catalog.inputs .appInfo, p.required = false)
    (happ : g.appInfo? = some app)
    (hin : app.data.customInputs = []) (hout : app.data.customOutputs = [])
    (hstructure : g.checkStructure.valid = true)
    (hnodes : (catalog.checkNodes g.flowNodes).valid = true) :
    ((checkPublication catalog g).valid = true ∧ app.errors catalog ≠ [] ↔
      (∀ key ∈ requiredSettings .appInfo, (app.setting key).isPresent = true) ∧
        ∃ key ∈ requiredSettings .appInfo, (app.setting key).Hollow) ∧
    ((checkPublication catalog g).valid = false ∧ app.errors catalog = [] ↔
      (∀ key ∈ requiredSettings .appInfo, ¬(app.setting key).SaysNothing) ∧
        ∃ key ∈ requiredSettings .appInfo, (app.setting key).Nought) := by
  have htype : app.nodeType = .appInfo := by
    simpa [Node.isAppInfo] using List.find?_some happ
  have hfindings := Node.errors_eq_nil_iff_of_appInfo htype hinputs hin hout
  have hvalid : (checkPublication catalog g).valid = true ↔
      ∀ key ∈ requiredSettings .appInfo, (app.setting key).isPresent = true := by
    rw [checkPublication_of_valid hstructure hnodes happ, ← appErrors_eq_nil_iff]
    exact List.isEmpty_iff
  constructor
  · rw [hvalid, ne_eq, hfindings]
    refine and_congr_right fun hpresent => ?_
    push Not
    refine exists_congr fun key => and_congr_right fun hkey => ?_
    rw [Json.hollow_iff]
    exact (and_iff_right (hpresent key hkey)).symm
  · rw [← Bool.not_eq_true, hvalid, hfindings, and_comm]
    refine and_congr_right fun hfilled => ?_
    push Not
    refine exists_congr fun key => and_congr_right fun hkey => ?_
    rw [Json.nought_iff, ne_eq, Bool.not_eq_true]
    exact (and_iff_left (hfilled key hkey)).symm

/-! An application whose name is a blank. -/

def blankNamed : Node :=
  ⟨"a", "custom", .origin, ⟨some "a", .appInfo, "", [("appName", .str " "), ("modelId", .int 1)],
    .idle, [], [], [], []⟩, []⟩

def replyingEnd : Node :=
  ⟨"e", "custom", .origin, ⟨some "e", .finish, "",
    [("isCustomResponse", .bool true), ("customResponse", .str "Bye")], .idle, [], [], [], []⟩, []⟩

def blankNamedFlow : Graph where
  nodes := [⟨"s", "custom", .origin, ⟨some "s", .start, "", [], .idle, [], [], [], []⟩, []⟩,
    replyingEnd, blankNamed]
  edges := [⟨edgeId "s" none "e", "s", "e", none, none, none, none, []⟩]

theorem published_blankNamed : (checkPublication .builtIn blankNamedFlow).valid = true ∧
    blankNamed.errors .builtIn ≠ [] := by
  have hinputs : ∀ p ∈ Catalog.builtIn.inputs .appInfo, p.required = false := by decide
  have happ : blankNamedFlow.appInfo? = some blankNamed := by decide
  have hstructure : blankNamedFlow.checkStructure.valid = true := by decide +kernel
  have hnodes : (Catalog.builtIn.checkNodes blankNamedFlow.flowNodes).valid = true := by
    decide +kernel
  have hhollow : (blankNamed.setting "appName").Hollow :=
    .text (by decide) (List.all_eq_true.mp (by decide +kernel))
  have hdiffers := publication_differs_iff hinputs happ rfl rfl hstructure hnodes
  exact hdiffers.1.mpr ⟨by decide, "appName", by decide, hhollow⟩

end WorkflowStudio
