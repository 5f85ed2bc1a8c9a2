import WorkflowStudio.Catalog.Registry
import WorkflowStudio.Proofs.RecordFields

/-!
Catalogs from a registry. The last entry that can be read as a definition of a kind gives the
definition of this kind, and the built-in one holds where there is none. Other entries make no
difference, as long as the warning about them can be given: a registry is not loaded when an entry
is no object, or when the kind of an entry that cannot be read cannot be named.
-/
namespace WorkflowStudio

/-! Values that can be named in a message. -/

namespace Json

mutual

theorem nameFault?_eq_none_iff (room : Nat) (v : Json) :
    nameFault? room v = none ↔ v.exceeds room = false ∧ v.holdsOverlong = false := by
  cases room with
  | zero =>
    have hroom : nameFault? 0 v = some .nameTooDeep := by cases v <;> rfl
    have hdeep : v.exceeds 0 = true := by cases v <;> rfl
    rw [hroom, hdeep]
    exact iff_of_false nofun fun h => nomatch h.1
  | succ room =>
    cases v with
    | int n =>
      change (if isOverlong n then some Fault.unwritableWhole else none) = none ↔
        false = false ∧ isOverlong n = false
      cases isOverlong n with
      | true => exact iff_of_false nofun fun h => nomatch h.2
      | false => exact iff_of_true rfl ⟨rfl, rfl⟩
    | arr items => exact nameItemsFault?_eq_none_iff room items
    | obj fields => exact nameFieldsFault?_eq_none_iff room fields
    | null => exact iff_of_true rfl ⟨rfl, rfl⟩
    | bool b => exact iff_of_true rfl ⟨rfl, rfl⟩
    | num x => exact iff_of_true rfl ⟨rfl, rfl⟩
    | str s => exact iff_of_true rfl ⟨rfl, rfl⟩

theorem nameItemsFault?_eq_none_iff (room : Nat) (items : List Json) :
    nameItemsFault? room items = none ↔
      exceedsItems room items = false ∧ itemsHoldOverlong items = false := by
  cases items with
  | nil => exact iff_of_true rfl ⟨rfl, rfl⟩
  | cons v rest =>
    rw [nameItemsFault?, Option.or_eq_none_iff, nameFault?_eq_none_iff room v,
      nameItemsFault?_eq_none_iff room rest, exceedsItems, itemsHoldOverlong,
      Bool.or_eq_false_iff, Bool.or_eq_false_iff]
    exact and_and_and_comm

theorem nameFieldsFault?_eq_none_iff (room : Nat) (fields : Fields) :
    nameFieldsFault? room fields = none ↔
      exceedsFields room fields = false ∧ fieldsHoldOverlong fields = false := by
  cases fields with
  | nil => exact iff_of_true rfl ⟨rfl, rfl⟩
  | cons field rest =>
    rw [nameFieldsFault?, Option.or_eq_none_iff, nameFault?_eq_none_iff room field.2,
      nameFieldsFault?_eq_none_iff room rest, exceedsFields, fieldsHoldOverlong,
      Bool.or_eq_false_iff, Bool.or_eq_false_iff]
    exact and_and_and_comm

end

end Json

/-! Tables of rules. -/

namespace RuleTable

theorem ofFields_map (table : RuleTable) :
    ofFields (table.map fun row => (row.1, Json.ofStrings row.2)) = .ok table := by
  induction table with
  | nil => rfl
  | cons row rest ih =>
    have hnames : (row.2.map Json.str).map Json.display = row.2 := by
      rw [List.map_map]
      exact List.map_id row.2
    simp only [List.map_cons, ofFields, ih]
    change Except.ok ((row.1, (row.2.map Json.str).map Json.display) :: rest) = _
    rw [hnames]

theorem ofJson_toJson (table : RuleTable) : ofJson table.toJson = .ok table := by
  cases table with
  | nil => rfl
  | cons row rest => exact ofFields_map (row :: rest)

/-- A table that is missing declares nothing. -/
theorem ofJson_ofOption (table : Option RuleTable) :
    ofJson (Json.ofOption toJson table) = .ok (table.getD []) := by
  cases table with
  | none => rfl
  | some table => exact ofJson_toJson table

end RuleTable

/-! Which entry counts. -/

namespace NodeDefinition

/-- An entry that can be read as a definition. -/
def Valid (entry : Json) : Prop := ∃ d, read entry = .ok d

/-- An entry that a warning can name the kind of: it is an object, and where its kind stands there
is a value that does not nest too deep and holds no whole number that is too long to be written. -/
def Nameable (room : Nat) (entry : Json) : Prop :=
  ∃ fields : Fields, entry = .obj fields ∧
    ((fields.get? "nodeType").getD .null).exceeds room = false ∧
      ((fields.get? "nodeType").getD .null).holdsOverlong = false

/-- An entry that can be read as a definition of a kind. -/
def Describes (entry : Json) (t : NodeType) (d : NodeDefinition) : Prop :=
  read entry = .ok d ∧ d.nodeType = t

/-- No entry can be read as a definition of a kind. -/
def Undescribed (entries : List Json) (t : NodeType) : Prop :=
  ∀ entry ∈ entries, ∀ d, ¬Describes entry t d

/-- The definition in the last entry that can be read as one of a kind. -/
def LastDescribed (entries : List Json) (t : NodeType) (d : NodeDefinition) : Prop :=
  ∃ before entry after, entries = before ++ entry :: after ∧ Describes entry t d ∧
    Undescribed after t

variable {entry : Json} {rest : List Json} {t : NodeType} {d : NodeDefinition}

theorem not_valid_iff : ¬Valid entry ↔ ∃ problems, read entry = .bad problems := by
  rw [Valid]
  cases read entry with
  | ok d => exact iff_of_false (fun h => h ⟨d, rfl⟩) nofun
  | bad problems => exact iff_of_true nofun ⟨problems, rfl⟩

theorem undescribed_cons : Undescribed (entry :: rest) t ↔
    (∀ d, ¬Describes entry t d) ∧ Undescribed rest t := List.forall_mem_cons

theorem lastDescribed_cons : LastDescribed (entry :: rest) t d ↔
    LastDescribed rest t d ∨ Describes entry t d ∧ Undescribed rest t := by
  constructor
  · rintro ⟨before, last, after, heq, hlast, hafter⟩
    cases before with
    | nil =>
      cases heq
      exact Or.inr ⟨hlast, hafter⟩
    | cons first before =>
      cases heq
      exact Or.inl ⟨before, last, after, rfl, hlast, hafter⟩
  · rintro (⟨before, last, after, rfl, hlast, hafter⟩ | ⟨hentry, hrest⟩)
    · exact ⟨entry :: before, last, after, rfl, hlast, hafter⟩
    · exact ⟨[], entry, rest, rfl, hentry, hrest⟩

end NodeDefinition

namespace Catalog

open NodeDefinition (Valid Nameable Describes Undescribed LastDescribed undescribed_cons
  lastDescribed_cons)

variable {room : Nat} {definitions loaded : List NodeDefinition} {entries : List Json}

/-! Definitions by their kinds. -/

def kinds (definitions : List NodeDefinition) : List NodeType := definitions.map (·.nodeType)

theorem find?_put (definitions : List NodeDefinition) (d : NodeDefinition) (t : NodeType) :
    (put definitions d).find? (·.nodeType == t) =
      if d.nodeType = t then some d else definitions.find? (·.nodeType == t) := by
  induction definitions with
  | nil => by_cases hd : d.nodeType = t <;> simp [put, hd]
  | cons other rest ih =>
    by_cases hsame : other.nodeType = d.nodeType
    · by_cases hd : d.nodeType = t
      · simp [put, hsame, hd]
      · simp [put, hsame, hd]
    · by_cases hother : other.nodeType = t
      · have hd : d.nodeType ≠ t := fun hd => hsame (hother.trans hd.symm)
        subst hother
        simp [put, hsame, hd]
      · simp [put, hsame, hother, ih]

theorem kinds_put_of_mem {d : NodeDefinition} (h : d.nodeType ∈ kinds definitions) :
    kinds (put definitions d) = kinds definitions := by
  induction definitions with
  | nil => simp [kinds] at h
  | cons other rest ih =>
    by_cases hsame : other.nodeType = d.nodeType
    · simp [put, kinds, hsame]
    · have hrest : d.nodeType ∈ kinds rest := by
        rcases List.mem_cons.mp h with hfirst | hrest
        · exact absurd hfirst.symm hsame
        · exact hrest
      have hih := ih hrest
      simp only [kinds] at hih
      simp [put, kinds, hsame, hih]

theorem put_of_not_mem {d : NodeDefinition} (h : d.nodeType ∉ kinds definitions) :
    put definitions d = definitions ++ [d] := by
  induction definitions with
  | nil => rfl
  | cons other rest ih =>
    obtain ⟨hother, hrest⟩ := not_or.mp (mt List.mem_cons.mpr h)
    rw [put, if_neg (Ne.symm hother), ih hrest, List.cons_append]

theorem nodup_kinds_put (h : (kinds definitions).Nodup) (d : NodeDefinition) :
    (kinds (put definitions d)).Nodup := by
  by_cases hd : d.nodeType ∈ kinds definitions
  · rw [kinds_put_of_mem hd]
    exact h
  · have hkinds : kinds (definitions ++ [d]) = kinds definitions ++ [d.nodeType] := by
      simp [kinds]
    rw [put_of_not_mem hd, hkinds]
    exact List.nodup_append.mpr ⟨h, List.nodup_singleton _, by
      intro t ht other hother heq
      rw [heq, List.mem_singleton.mp hother] at ht
      exact hd ht⟩

/-- Definitions of distinct kinds are kept as they are. -/
theorem foldl_put_of_nodup {added : List NodeDefinition}
    (h : (kinds (definitions ++ added)).Nodup) : added.foldl put definitions =
      definitions ++ added := by
  induction added generalizing definitions with
  | nil => simp
  | cons d rest ih =>
    have hnew : d.nodeType ∉ kinds definitions := by
      intro hmem
      simp only [kinds, List.map_append, List.map_cons] at h
      exact List.disjoint_of_nodup_append h hmem List.mem_cons_self
    have hrest : (kinds ((definitions ++ [d]) ++ rest)).Nodup := by
      simpa using h
    rw [List.foldl_cons, put_of_not_mem hnew, ih hrest, List.append_assoc, List.singleton_append]

theorem ofDefinitions_of_nodup (h : (kinds definitions).Nodup) (rules : RuleTable) :
    ofDefinitions definitions rules = ⟨definitions, rules⟩ := by
  unfold ofDefinitions
  rw [foldl_put_of_nodup (by simpa using h), List.nil_append]

theorem nodup_kinds_builtIn : (kinds NodeDefinition.builtIn).Nodup := by decide

/-! Entries of a registry. -/

/-- A warning is given exactly when it can name the kind of the entry. -/
theorem warn_eq_ok_iff {entry : Json} : warn room entry = .ok () ↔ Nameable room entry := by
  unfold warn
  split
  · rename_i fields
    have hnameable : Nameable room (.obj fields) ↔
        Json.nameFault? room ((Fields.get? fields "nodeType").getD .null) = none := by
      rw [Json.nameFault?_eq_none_iff]
      refine ⟨?_, fun h => ⟨fields, rfl, h⟩⟩
      rintro ⟨_, hsame, h⟩
      cases hsame
      exact h
    rw [hnameable]
    cases Json.nameFault? room ((Fields.get? fields "nodeType").getD .null) with
    | none => exact iff_of_true rfl rfl
    | some fault => exact iff_of_false nofun nofun
  · rename_i hnot
    exact iff_of_false nofun fun ⟨fields, hobject, _⟩ => hnot fields hobject

theorem addEntries_of_read {entry : Json} {d : NodeDefinition}
    (h : NodeDefinition.read entry = .ok d) (rest : List Json) :
    addEntries room definitions (entry :: rest) = addEntries room (put definitions d) rest := by
  conv_lhs => unfold addEntries
  simp only [h]

/-- After an entry that cannot be read comes the warning, and then the rest. -/
theorem addEntries_of_bad {entry : Json} {problems : List Problem}
    (h : NodeDefinition.read entry = .bad problems) (rest : List Json) :
    addEntries room definitions (entry :: rest) =
      (warn room entry).bind fun _ => addEntries room definitions rest := by
  conv_lhs => unfold addEntries
  simp only [h]
  cases warn room entry <;> rfl

theorem addEntries_of_nameable {entry : Json} {problems : List Problem}
    (h : NodeDefinition.read entry = .bad problems) (hname : Nameable room entry)
    (rest : List Json) :
    addEntries room definitions (entry :: rest) = addEntries room definitions rest := by
  rw [addEntries_of_bad h, warn_eq_ok_iff.mpr hname, Except.bind]

theorem nameable_of_addEntries {entry : Json} {rest : List Json} {problems : List Problem}
    (h : NodeDefinition.read entry = .bad problems)
    (hloaded : addEntries room definitions (entry :: rest) = .ok loaded) : Nameable room entry := by
  rw [addEntries_of_bad h] at hloaded
  obtain ⟨_, hwarn, -⟩ := Except.bind_eq_ok.mp hloaded
  exact warn_eq_ok_iff.mp hwarn

/-- A list of entries is read to its end exactly when each of them is valid or can be warned of. -/
theorem exists_addEntries_iff : (∃ loaded, addEntries room definitions entries = .ok loaded) ↔
    ∀ entry ∈ entries, Valid entry ∨ Nameable room entry := by
  induction entries generalizing definitions with
  | nil => exact ⟨fun _ entry h => absurd h List.not_mem_nil, fun _ => ⟨definitions, rfl⟩⟩
  | cons entry rest ih =>
    rw [List.forall_mem_cons]
    cases hread : NodeDefinition.read entry with
    | ok d =>
      rw [addEntries_of_read hread, ih]
      exact (and_iff_right (Or.inl ⟨d, hread⟩)).symm
    | bad problems =>
      have hinvalid : ¬Valid entry := NodeDefinition.not_valid_iff.mpr ⟨problems, hread⟩
      rw [or_iff_right hinvalid]
      constructor
      · rintro ⟨loaded, hloaded⟩
        have hname := nameable_of_addEntries hread hloaded
        rw [addEntries_of_nameable hread hname] at hloaded
        exact ⟨hname, ih.mp ⟨loaded, hloaded⟩⟩
      · rintro ⟨hname, hrest⟩
        rw [addEntries_of_nameable hread hname]
        exact ih.mpr hrest

theorem nodup_kinds_addEntries (h : (kinds definitions).Nodup)
    (hloaded : addEntries room definitions entries = .ok loaded) : (kinds loaded).Nodup := by
  induction entries generalizing definitions with
  | nil =>
    cases hloaded
    exact h
  | cons entry rest ih =>
    cases hread : NodeDefinition.read entry with
    | ok d =>
      rw [addEntries_of_read hread] at hloaded
      exact ih (nodup_kinds_put h d) hloaded
    | bad problems =>
      rw [addEntries_of_nameable hread (nameable_of_addEntries hread hloaded)] at hloaded
      exact ih h hloaded

/-- Of the entries the last one that describes a kind counts, before what was there. -/
theorem find?_addEntries (hloaded : addEntries room definitions entries = .ok loaded)
    (t : NodeType) (d : NodeDefinition) : loaded.find? (·.nodeType == t) = some d ↔
      LastDescribed entries t d ∨
        Undescribed entries t ∧ definitions.find? (·.nodeType == t) = some d := by
  induction entries generalizing definitions with
  | nil =>
    cases hloaded
    simp [LastDescribed, Undescribed]
  | cons entry rest ih =>
    rw [lastDescribed_cons, undescribed_cons]
    cases hread : NodeDefinition.read entry with
    | ok found =>
      have hdescribes (other : NodeDefinition) :
          Describes entry t other ↔ found = other ∧ other.nodeType = t := by
        simp [Describes, hread]
      rw [addEntries_of_read hread] at hloaded
      rw [ih hloaded, find?_put]
      by_cases hfound : found.nodeType = t
      · have hkind (other : NodeDefinition) : Describes entry t other ↔ found = other := by
          rw [hdescribes]
          exact ⟨fun h => h.1, fun h => ⟨h, h ▸ hfound⟩⟩
        simp [hfound, hkind, and_comm]
      · have hnone (other : NodeDefinition) : ¬Describes entry t other := by
          rw [hdescribes]
          exact fun h => hfound (h.1 ▸ h.2)
        simp [hfound, hnone]
    | bad problems =>
      have hnone (other : NodeDefinition) : ¬Describes entry t other := by
        simp [Describes, hread]
      rw [addEntries_of_nameable hread (nameable_of_addEntries hread hloaded)] at hloaded
      rw [ih hloaded]
      simp [hnone]

/-- An entry that cannot be read, but can be warned of, may as well be left out. -/
theorem addEntries_without {entry : Json} (hinvalid : ¬Valid entry) (hname : Nameable room entry)
    (before after : List Json) :
    addEntries room definitions (before ++ entry :: after) =
      addEntries room definitions (before ++ after) := by
  obtain ⟨_, hbad⟩ := NodeDefinition.not_valid_iff.mp hinvalid
  induction before generalizing definitions with
  | nil => exact addEntries_of_nameable hbad hname after
  | cons first before ih =>
    rw [List.cons_append, List.cons_append]
    cases hread : NodeDefinition.read first with
    | ok d => rw [addEntries_of_read hread, addEntries_of_read hread, ih]
    | bad _ => rw [addEntries_of_bad hread, addEntries_of_bad hread, ih]

/-! Registries. -/

theorem ofRegistryWithin_eq (room : Nat) (entries : List Json) (table : Option RuleTable) :
    ofRegistryWithin room (.arr entries) (Json.ofOption RuleTable.toJson table) =
      (addEntries room NodeDefinition.builtIn entries).map
        (ofDefinitions · (table.getD [])) := by
  unfold ofRegistryWithin
  rw [RuleTable.ofJson_ofOption]
  cases entries with
  | nil => rfl
  | cons entry rest =>
    change (addEntries room NodeDefinition.builtIn (entry :: rest) >>= fun definitions =>
      Except.ok (ofDefinitions definitions (table.getD []))) = _
    cases addEntries room NodeDefinition.builtIn (entry :: rest) <;> rfl

theorem ofRegistryWithin_eq_ok_iff {table : Option RuleTable} {c : Catalog} :
    ofRegistryWithin room (.arr entries) (Json.ofOption RuleTable.toJson table) = .ok c ↔
      ∃ loaded, addEntries room NodeDefinition.builtIn entries = .ok loaded ∧
        c = ⟨loaded, table.getD []⟩ := by
  rw [ofRegistryWithin_eq, Except.map_eq_ok]
  refine exists_congr fun loaded => and_congr_right fun hloaded => ?_
  rw [ofDefinitions_of_nodup (nodup_kinds_addEntries nodup_kinds_builtIn hloaded)]
  exact eq_comm

def endEntry (label : String) : Json := .obj [("nodeType", .str "END"), ("nodeLabel", .str label)]

def hookEntry : Json := .obj [("nodeType", .str "WEBHOOK"), ("nodeLabel", .str "Hook")]

def startRules : RuleTable := [("START", ["END"])]

/-- An end node that is shown by its label alone. -/
def plainEnd (label : String) : NodeDefinition :=
  ⟨.finish, label, none, none, none, none, false, false, false, [], []⟩

end Catalog
end WorkflowStudio
