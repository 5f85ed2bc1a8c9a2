import WorkflowStudio.Graph
import WorkflowStudio.Proofs.JsonShape
import WorkflowStudio.Proofs.RecordFields

/-!
Sound records: what is known of every record that a reader has accepted. Its extra fields take
no declared name, no object in it has a name twice, a node and its payload have ids, and the id
of a node holds whole characters only.
-/
namespace WorkflowStudio

theorem Text.dashed_ne_empty (before after : String) : before ++ "-" ++ after ≠ "" := by
  intro h
  have hlength := congrArg String.length h
  have hdash : "-".length = 1 := rfl
  have hempty : "".length = 0 := rfl
  simp only [String.length_append] at hlength
  omega

theorem edgeId_ne_empty (source target : String) (handle : Option String) :
    edgeId source handle target ≠ "" := Text.dashed_ne_empty _ target

namespace Fields

variable {fs : Fields} {names : List String}

/-- Fields that can stand behind the declared ones of a record. -/
structure Free (slots : List (List String)) (extras : Fields) : Prop where
  undeclared : ∀ field ∈ extras, field.1 ∉ declared slots
  proper : Json.proper (.obj extras) = true

theorem forall_of_optional {α : Type} {read : Json → Checked α} {good : α → Prop}
    {values : List α} (hfs : ∀ field ∈ fs, Json.proper field.2 = true)
    (hgood : ∀ v a, Json.proper v = true → read v = .ok a → good a)
    (h : fs.optional names [] (Json.asList read) = .ok values) : ∀ a ∈ values, good a := by
  rcases optional_eq_ok h with rfl | ⟨found, hfound, hread⟩
  · exact fun a ha => absurd ha List.not_mem_nil
  · obtain ⟨items, hitems, hvalues⟩ := Json.asList_eq_ok hread
    have hproper := hfs found hfound
    rw [hitems, Json.proper_arr] at hproper
    intro a ha
    obtain ⟨item, hitem, hitemRead⟩ := hvalues a ha
    exact hgood item a (hproper item hitem) hitemRead

theorem proper_of_optional {config : Fields} (hfs : ∀ field ∈ fs, Json.proper field.2 = true)
    (h : fs.optional names [] Json.asObject = .ok config) : Json.proper (.obj config) = true := by
  rcases optional_eq_ok h with rfl | ⟨⟨name, v⟩, hfound, hread⟩
  · rfl
  · have hproper := hfs _ hfound
    cases v with
    | obj fields =>
      cases hread
      exact hproper
    | _ => cases hread

theorem free_extras {slots : List (List String)} (hslots : [] ∉ slots)
    (hfs : Json.proper (.obj fs) = true) : Free slots (fs.extras slots) := by
  rw [Json.proper_obj] at hfs
  refine ⟨fun field hfield => not_declared_of_mem_extras hslots hfield, ?_⟩
  rw [Json.proper_obj]
  refine ⟨fun field hfield => hfs.1 field (List.mem_of_mem_filter hfield), ?_⟩
  exact hfs.2.sublist (List.filter_sublist.map _)

theorem names_erase (fs : Fields) (name : String) :
    (fs.erase name).names = fs.names.filter (· != name) := by
  rw [names, erase, names, List.filter_map]
  rfl

theorem not_mem_names_erase (fs : Fields) (name : String) : name ∉ (fs.erase name).names := by
  rw [names_erase]
  simp

theorem proper_erase (hfs : Json.proper (.obj fs) = true) (name : String) :
    Json.proper (.obj (fs.erase name)) = true := by
  rw [Json.proper_obj] at hfs ⊢
  refine ⟨fun field hfield => hfs.1 field (List.mem_of_mem_filter hfield), ?_⟩
  rw [names_erase]
  exact hfs.2.filter _

theorem mem_of_mem_insert {name : String} {v : Json} {field : String × Json}
    (h : field ∈ fs.insert name v) : field ∈ fs ∨ field = (name, v) := by
  induction fs with
  | nil => exact Or.inr (List.mem_singleton.mp h)
  | cons first rest ih =>
    rw [insert] at h
    split at h
    · rcases List.mem_cons.mp h with rfl | hrest
      · exact Or.inr rfl
      · exact Or.inl (List.mem_cons_of_mem _ hrest)
    · rcases List.mem_cons.mp h with rfl | hrest
      · exact Or.inl List.mem_cons_self
      · exact (ih hrest).imp_left (List.mem_cons_of_mem _)

theorem mem_names_of_mem_insert {name other : String} {v : Json}
    (h : other ∈ (fs.insert name v).names) : other ∈ fs.names ∨ other = name := by
  obtain ⟨field, hfield, rfl⟩ := List.mem_map.mp h
  rcases mem_of_mem_insert hfield with hold | rfl
  · exact Or.inl (List.mem_map_of_mem hold)
  · exact Or.inr rfl

theorem names_insert_of_mem {name : String} (h : name ∈ fs.names) (v : Json) :
    (fs.insert name v).names = fs.names := by
  induction fs with
  | nil => cases h
  | cons first rest ih =>
    rw [insert]
    split
    · rename_i hname
      rw [names, List.map_cons, names, List.map_cons, beq_iff_eq.mp hname]
    · rename_i hname
      have hrest : name ∈ names rest := by
        rcases List.mem_cons.mp h with hfirst | hrest
        · exact absurd (beq_iff_eq.mpr hfirst.symm) hname
        · exact hrest
      rw [names, List.map_cons]
      exact congrArg (first.1 :: ·) (ih hrest)

theorem nodup_names_insert (h : fs.names.Nodup) (name : String) (v : Json) :
    (fs.insert name v).names.Nodup := by
  by_cases hname : name ∈ fs.names
  · rw [names_insert_of_mem hname]
    exact h
  · rw [Json.insert_of_not_mem hname, names, List.map_append]
    refine List.nodup_append.mpr ⟨h, List.nodup_singleton _, ?_⟩
    intro other hother added hadded heq
    rw [heq, List.mem_singleton.mp hadded] at hother
    exact hname hother

theorem nodup_names_merge {changes : Fields} (h : fs.names.Nodup) :
    (fs.merge changes).names.Nodup := by
  induction changes generalizing fs with
  | nil => exact h
  | cons change rest ih => exact ih (nodup_names_insert h change.1 change.2)

theorem proper_insert (hfs : Json.proper (.obj fs) = true) (name : String) {v : Json}
    (hv : Json.proper v = true) : Json.proper (.obj (fs.insert name v)) = true := by
  rw [Json.proper_obj] at hfs ⊢
  refine ⟨fun field hfield => ?_, nodup_names_insert hfs.2 name v⟩
  rcases mem_of_mem_insert hfield with hold | rfl
  · exact hfs.1 field hold
  · exact hv

theorem mem_of_mem_merge {changes : Fields} {field : String × Json}
    (h : field ∈ fs.merge changes) : field ∈ fs ∨ field ∈ changes := by
  induction changes generalizing fs with
  | nil => exact Or.inl h
  | cons change rest ih =>
    rcases ih h with hinserted | hrest
    · rcases mem_of_mem_insert hinserted with hold | rfl
      · exact Or.inl hold
      · exact Or.inr List.mem_cons_self
    · exact Or.inr (List.mem_cons_of_mem _ hrest)

theorem proper_merge {changes : Fields} (hfs : Json.proper (.obj fs) = true)
    (hchanges : ∀ field ∈ changes, Json.proper field.2 = true) :
    Json.proper (.obj (fs.merge changes)) = true := by
  induction changes generalizing fs with
  | nil => exact hfs
  | cons change rest ih =>
    obtain ⟨hchange, hrest⟩ := List.forall_mem_cons.mp hchanges
    exact ih (proper_insert hfs change.1 hchange) hrest

end Fields

structure ParamDefinition.Sound (p : ParamDefinition) : Prop where
  defaultValue : Json.proper p.defaultValue = true

structure NodeData.Sound (d : NodeData) : Prop where
  config : Json.proper (.obj d.config) = true
  customInputs : ∀ p ∈ d.customInputs, p.Sound
  customOutputs : ∀ p ∈ d.customOutputs, p.Sound
  extras : Fields.Free slots d.extras

structure Node.Sound (n : Node) : Prop where
  id_ne : n.id ≠ ""
  id : Text.Whole n.id
  data : n.data.Sound
  data_id : n.data.id.isSome
  extras : Fields.Free slots n.extras

/-- A payload that an edge keeps holds no guard and stands behind all other fields. -/
def Edge.Settled (extras : Fields) : Prop :=
  ∀ payload, extras.get? "data" = some (.obj payload) → payload ≠ [] ∧
    "condition" ∉ Fields.names payload ∧
      ∃ front : Fields, extras = front ++ [("data", .obj payload)] ∧ "data" ∉ front.names

structure Edge.Sound (e : Edge) : Prop where
  id_ne : e.id ≠ ""
  extras : Fields.Free slots e.extras
  settled : Settled e.extras

structure Graph.Sound (g : Graph) : Prop where
  nodes : ∀ node ∈ g.nodes, node.Sound
  edges : ∀ edge ∈ g.edges, edge.Sound

/-! Every record that is read is sound. -/

theorem ParamDefinition.sound_of_read {v : Json} {p : ParamDefinition} (hv : Json.proper v = true)
    (h : read v = .ok p) : p.Sound := by
  obtain ⟨fs, rfl, hread⟩ := Json.asRecord_eq_ok h
  rw [Json.proper_obj] at hv
  simp only [Checked.seq_eq_ok, Checked.map_eq_ok] at hread
  obtain ⟨_, -, ⟨_, value, ⟨_, -, ⟨_, -, ⟨_, -, ⟨_, -, rfl⟩, -, rfl⟩, -, rfl⟩, -, rfl⟩,
    hvalue, rfl⟩, -, rfl⟩ := hread
  refine ⟨?_⟩
  rcases Fields.optional_eq_ok hvalue with rfl | ⟨found, hfound, hfoundRead⟩
  · rfl
  · cases hfoundRead
    exact hv.1 found hfound

theorem NodeData.sound_of_read {v : Json} {d : NodeData} (hv : Json.proper v = true)
    (h : read v = .ok d) : d.Sound := by
  obtain ⟨fs, rfl, hread⟩ := Json.asRecord_eq_ok h
  have hfs := (Json.proper_obj.mp hv).1
  simp only [Checked.seq_eq_ok, Checked.map_eq_ok] at hread
  obtain ⟨_, extras, ⟨_, outputs, ⟨_, inputs, ⟨_, -, ⟨_, -, ⟨_, config, ⟨_, -, ⟨_, -,
    ⟨_, -, rfl⟩, -, rfl⟩, -, rfl⟩, hconfig, rfl⟩, -, rfl⟩, -, rfl⟩, hinputs, rfl⟩, houtputs, rfl⟩,
    hextras, rfl⟩ := hread
  cases hextras
  exact {
    config := Fields.proper_of_optional hfs hconfig
    customInputs :=
      Fields.forall_of_optional hfs (fun _ _ => ParamDefinition.sound_of_read) hinputs
    customOutputs :=
      Fields.forall_of_optional hfs (fun _ _ => ParamDefinition.sound_of_read) houtputs
    extras := Fields.free_extras (by decide) hv }

theorem Node.sound_of_read {medium : Medium} {v : Json} {n : Node} (hv : Json.proper v = true)
    (h : read medium v = .ok n) : n.Sound := by
  obtain ⟨given, hgiven, rfl⟩ := Checked.map_eq_ok.mp h
  obtain ⟨fs, rfl, hread⟩ := Json.asRecord_eq_ok hgiven
  have hfs := (Json.proper_obj.mp hv).1
  simp only [Checked.seq_eq_ok, Checked.map_eq_ok] at hread
  obtain ⟨_, extras, ⟨_, data, ⟨_, -, ⟨_, -, ⟨id, hid, rfl⟩, -, rfl⟩, -, rfl⟩, hdata, rfl⟩, hextras,
    rfl⟩ := hread
  cases hextras
  obtain ⟨_, -, hid⟩ := Fields.required_eq_ok hid
  obtain ⟨-, hne, hwhole⟩ := Json.asNonemptyText_eq_ok_iff.mp hid
  obtain ⟨found, hfound, hdata⟩ := Fields.required_eq_ok hdata
  exact {
    id_ne := hne
    id := hwhole
    data := { NodeData.sound_of_read (hfs found hfound) hdata with }
    data_id := rfl
    extras := Fields.free_extras (by decide) hv }

/-- What lifting a guard makes of the fields of an edge: nothing when there is no payload, and
else the payload is taken out, and what is left of it is put behind the other fields. -/
theorem Edge.liftCondition_cases (given : Fields) :
    ((∀ payload, given.get? "data" ≠ some (.obj payload)) ∧ liftCondition given = given) ∨
      ∃ (payload front : Fields), given.get? "data" = some (.obj payload) ∧
        "data" ∉ front.names ∧
        (front = given.erase "data" ∨ ∃ lifted, payload.get? "condition" = some lifted ∧
          front = (given.erase "data").insert "condition" lifted) ∧
        liftCondition given = if (payload.erase "condition").isEmpty then front
          else front ++ [("data", .obj (payload.erase "condition"))] := by
  by_cases hpayload : ∃ payload, given.get? "data" = some (.obj payload)
  · obtain ⟨(payload : Fields), hpayload⟩ := hpayload
    let guard := (Fields.get? payload "condition").getD .null
    let front := if (given.get? "condition").getD .null == .null && guard.isPresent then
      (given.erase "data").insert "condition" guard else given.erase "data"
    have hlifted : liftCondition given =
        if (payload.erase "condition").isEmpty then front
          else front.insert "data" (.obj (payload.erase "condition")) := by
      rw [liftCondition, hpayload]
    have herased := Fields.not_mem_names_erase given "data"
    have hfront : "data" ∉ front.names ∧
        (front = given.erase "data" ∨ ∃ lifted, payload.get? "condition" = some lifted ∧
          front = (given.erase "data").insert "condition" lifted) := by
      dsimp only [front]
      split
      · rename_i hlift
        obtain ⟨lifted, hcondition⟩ : ∃ lifted, payload.get? "condition" = some lifted := by
          cases hcondition : payload.get? "condition" with
          | none => simp [guard, hcondition, Json.isPresent] at hlift
          | some lifted => exact ⟨lifted, rfl⟩
        refine ⟨fun hmem => ?_, Or.inr ⟨lifted, hcondition, by simp only [guard, hcondition]; rfl⟩⟩
        rcases Fields.mem_names_of_mem_insert hmem with hold | hname
        · exact herased hold
        · exact absurd hname (by decide)
      · exact ⟨herased, Or.inl rfl⟩
    refine Or.inr ⟨payload, front, hpayload, hfront.1, hfront.2, ?_⟩
    rw [hlifted, Json.insert_of_not_mem hfront.1]
  · refine Or.inl ⟨fun payload h => hpayload ⟨payload, h⟩, ?_⟩
    unfold liftCondition
    split
    · rename_i payload h
      exact absurd ⟨payload, h⟩ hpayload
    · rfl

theorem Edge.proper_liftCondition {given : Fields} (h : Json.proper (.obj given) = true) :
    Json.proper (.obj (liftCondition given)) = true := by
  rcases liftCondition_cases given with
    ⟨-, hsame⟩ | ⟨payload, front, hpayload, hfront, hfrontEq, hlifted⟩
  · rw [hsame]
    exact h
  · have herased := Fields.proper_erase h "data"
    have hpayloadProper : Json.proper (.obj payload) = true :=
      (Json.proper_obj.mp h).1 _ (Fields.mem_of_get? hpayload)
    have hfrontProper : Json.proper (.obj front) = true := by
      rcases hfrontEq with rfl | ⟨lifted, hcondition, rfl⟩
      · exact herased
      · exact Fields.proper_insert herased _
          ((Json.proper_obj.mp hpayloadProper).1 _ (Fields.mem_of_get? hcondition))
    rw [hlifted]
    split
    · exact hfrontProper
    · rw [← Json.insert_of_not_mem hfront]
      exact Fields.proper_insert hfrontProper _ (Fields.proper_erase hpayloadProper _)

theorem Edge.settled_liftCondition (given : Fields) : Settled (liftCondition given) := by
  intro payload hget
  rcases liftCondition_cases given with
    ⟨hnone, hsame⟩ | ⟨old, front, -, hfront, -, hlifted⟩
  · rw [hsame] at hget
    exact absurd hget (hnone payload)
  · rw [hlifted] at hget ⊢
    split at hget
    · exact absurd (List.mem_map_of_mem (Fields.mem_of_get? hget)) hfront
    · rename_i hleft
      rw [if_neg hleft]
      have hmem := Fields.mem_of_get? hget
      rcases List.mem_append.mp hmem with hold | hnew
      · exact absurd (List.mem_map_of_mem hold) hfront
      · cases List.mem_singleton.mp hnew
        refine ⟨by simpa using hleft, ?_, front, rfl, hfront⟩
        exact Fields.not_mem_names_erase old "condition"

theorem Edge.settled_extras {fs : Fields} (h : Settled fs) : Settled (fs.extras slots) := by
  intro payload hget
  let unread (name : String) := !slots.any fun names => (fs.pick names).map (·.1) == some name
  have hextras : fs.extras slots = fs.filter fun field => unread field.1 := rfl
  have hkept : unread "data" = true := by
    rw [hextras] at hget
    exact (List.mem_filter.mp (Fields.mem_of_get? hget)).2
  have hsame : (fs.extras slots).get? "data" = fs.get? "data" := by
    rw [hextras, Fields.get?, Fields.get?, List.find?_filter]
    congr 2
    funext field
    by_cases hname : field.1 = "data"
    · simp [hname, hkept]
    · simp [hname]
  rw [hsame] at hget
  obtain ⟨hne, hcondition, front, hfs, hfront⟩ := h payload hget
  refine ⟨hne, hcondition, front.filter fun field => unread field.1, ?_, ?_⟩
  · rw [hextras]
    conv_lhs => rw [hfs]
    rw [List.filter_append]
    congr 1
    exact List.filter_cons_of_pos hkept
  · intro hmem
    obtain ⟨field, hfield, hname⟩ := List.mem_map.mp hmem
    exact hfront (List.mem_map.mpr ⟨field, List.mem_of_mem_filter hfield, hname⟩)

theorem Edge.sound_of_read {v : Json} {e : Edge} (hv : Json.proper v = true)
    (h : read v = .ok e) : e.Sound := by
  obtain ⟨given, hgiven, rfl⟩ := Checked.map_eq_ok.mp h
  obtain ⟨fs, rfl, hread⟩ := Json.asRecord_eq_ok hgiven
  have hlifted := proper_liftCondition hv
  simp only [Checked.seq_eq_ok, Checked.map_eq_ok] at hread
  obtain ⟨_, extras, ⟨_, -, ⟨_, -, ⟨_, -, ⟨_, -, ⟨_, -, ⟨_, -, ⟨id, -, rfl⟩, -, rfl⟩, -, rfl⟩,
    -, rfl⟩, -, rfl⟩, -, rfl⟩, -, rfl⟩, hextras, rfl⟩ := hread
  cases hextras
  have hfree : Fields.Free slots ((liftCondition fs).extras slots) :=
    Fields.free_extras (by decide) hlifted
  have hsettled := settled_extras (settled_liftCondition fs)
  unfold deriveId
  split
  · exact ⟨edgeId_ne_empty _ _ _, hfree, hsettled⟩
  · rename_i hne
    exact ⟨by simpa using hne, hfree, hsettled⟩

theorem Graph.sound_of_read {medium : Medium} {v : Json} {g : Graph} (hv : Json.proper v = true)
    (h : read medium v = .ok g) : g.Sound := by
  obtain ⟨fs, rfl, hread⟩ := Json.asRecord_eq_ok h
  have hfs := (Json.proper_obj.mp hv).1
  simp only [Checked.seq_eq_ok, Checked.map_eq_ok] at hread
  obtain ⟨_, edges, ⟨nodes, hnodes, rfl⟩, hedges, rfl⟩ := hread
  exact ⟨Fields.forall_of_optional hfs (fun _ _ => Node.sound_of_read) hnodes,
    Fields.forall_of_optional hfs (fun _ _ => Edge.sound_of_read) hedges⟩

/-! Single values and nodes. -/

theorem Node.checkId_eq_ok_iff {id checked : String} :
    checkId id = .ok checked ↔ id ≠ "" ∧ Text.Whole id ∧ checked = id := by
  rw [checkId, Checked.orFault_eq_ok, Checked.inside_eq_ok, Json.asNonemptyText_eq_ok_iff]
  constructor
  · rintro ⟨hsame, hne, hwhole⟩
    cases hsame
    exact ⟨hne, hwhole, rfl⟩
  · rintro ⟨hne, hwhole, rfl⟩
    exact ⟨rfl, hne, hwhole⟩

/-- An empty list inside of so many others. -/
def Json.bracketed : Nat → Json
  | 0 => .arr []
  | depth + 1 => .arr [bracketed depth]

/-- A node that has nothing but an id, a kind and a position. -/
def Node.plain (id : String) (t : NodeType) (position : Position) : Node :=
  ⟨id, "custom", position, ⟨some id, t, "", [], .idle, [], [], [], []⟩, []⟩

theorem Node.sound_plain {id : String} (hne : id ≠ "") (hid : Text.Whole id) (t : NodeType)
    (position : Position) : (plain id t position).Sound where
  id_ne := hne
  id := hid
  data := {
    config := rfl
    customInputs := fun _ hp => absurd hp List.not_mem_nil
    customOutputs := fun _ hp => absurd hp List.not_mem_nil
    extras := ⟨fun _ hfield => absurd hfield List.not_mem_nil, rfl⟩ }
  data_id := rfl
  extras := ⟨fun _ hfield => absurd hfield List.not_mem_nil, rfl⟩

end WorkflowStudio
