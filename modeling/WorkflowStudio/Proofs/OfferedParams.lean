import WorkflowStudio.Picker
import WorkflowStudio.Proofs.DocumentGraph
import WorkflowStudio.Proofs.NearestAncestors
import WorkflowStudio.Proofs.ReachedEnd

/-!
What is offered to the inputs of a node. The sources of a graph with distinct ids differ in type
or key, so the first one that a binding fits is the only one. A binding is thus offered exactly
when the application node declares what it takes, or a node that leads on to the input produces it.
-/
namespace WorkflowStudio

/-- Keys stay distinct when items are replaced by what is found under their keys. -/
theorem nodup_map_filterMap {α β κ : Type} {f : α → Option β} {key : β → κ} (given : α → κ)
    (hf : ∀ a b, f a = some b → key b = given a) {items : List α}
    (h : (items.map given).Nodup) : ((items.filterMap f).map key).Nodup := by
  induction items with
  | nil => exact List.nodup_nil
  | cons a rest ih =>
    rw [List.map_cons, List.nodup_cons] at h
    cases ha : f a with
    | none =>
      rw [List.filterMap_cons_none ha]
      exact ih h.2
    | some b =>
      rw [List.filterMap_cons_some ha, List.map_cons, List.nodup_cons]
      refine ⟨fun hmem => h.1 ?_, ih h.2⟩
      obtain ⟨other, hother, hkey⟩ := List.mem_map.mp hmem
      obtain ⟨item, hitem, hfound⟩ := List.mem_filterMap.mp hother
      rw [← hf a b ha, ← hkey, hf item other hfound]
      exact List.mem_map_of_mem hitem

/-! A source is found by its type and key. -/

namespace ParamSource

def address (s : ParamSource) : SourceType × String := (s.type, s.sourceKey)

theorem named_eq_some_iff {sources : List ParamSource} (h : (sources.map address).Nodup)
    {type : SourceType} {key : String} {source : ParamSource} :
    named type key sources = some source ↔ source ∈ sources ∧ source.address = (type, key) := by
  have hfits (s : ParamSource) (hfound : named type key sources = some s) :
      s.address = (type, key) := by
    simpa [address] using List.find?_some hfound
  constructor
  · intro hfound
    exact ⟨List.mem_of_find?_eq_some hfound, hfits source hfound⟩
  · rintro ⟨hmem, haddress⟩
    cases hfound : named type key sources with
    | none =>
      have hunfit := List.find?_eq_none.mp hfound source hmem
      simp only [address, Prod.mk.injEq] at haddress
      simp [haddress] at hunfit
    | some found =>
      have hsame : found.address = source.address := (hfits found hfound).trans haddress.symm
      rw [List.inj_on_of_nodup_map h (List.mem_of_find?_eq_some hfound) hmem hsame]

end ParamSource

namespace ParamBinding

/-- The source that a binding asks for and the key that it wants of it. -/
def wanted (b : ParamBinding) : (SourceType × String) × String :=
  match b.resolveGlobal with
  | some (scope, key) => ((.global, scope.text), key)
  | none => ((.node, b.sourceKey), b.sourceParam.getD "")

theorem findSource_eq (b : ParamBinding) (sources : List ParamSource) :
    b.findSource sources =
      (ParamSource.named b.wanted.1.1 b.wanted.1.2 sources).map (·, b.wanted.2) := by
  cases hresolve : b.resolveGlobal with
  | none => simp only [findSource, wanted, hresolve]
  | some pair => simp only [findSource, wanted, hresolve]

theorem isOffered_iff_exists {b : ParamBinding} {sources : List ParamSource}
    (h : (sources.map ParamSource.address).Nodup) :
    b.isOffered sources = true ↔ b.wanted.2 ≠ "" ∧
      ∃ source ∈ sources, source.address = b.wanted.1 ∧
        ∃ param ∈ source.params, param.key = b.wanted.2 := by
  have hnamed (source : ParamSource) :
      ParamSource.named b.wanted.1.1 b.wanted.1.2 sources = some source ↔
        source ∈ sources ∧ source.address = b.wanted.1 := ParamSource.named_eq_some_iff h
  rw [isOffered, findSource_eq]
  cases hfound : ParamSource.named b.wanted.1.1 b.wanted.1.2 sources with
  | none =>
    refine ⟨nofun, ?_⟩
    rintro ⟨-, source, hsource, haddress, -⟩
    cases hfound.symm.trans ((hnamed source).mpr ⟨hsource, haddress⟩)
  | some found =>
    obtain ⟨hmem, haddress⟩ := (hnamed found).mp hfound
    simp only [Option.map_some, Bool.and_eq_true, Bool.not_eq_true', String.isEmpty_eq_false_iff,
      List.any_eq_true, beq_iff_eq]
    refine and_congr_right fun _ => ⟨fun hparam => ⟨found, hmem, haddress, hparam⟩, ?_⟩
    rintro ⟨source, hsource, hsame, hparam⟩
    cases hfound.symm.trans ((hnamed source).mpr ⟨hsource, hsame⟩)
    exact hparam

end ParamBinding

/-! What the scopes offer. -/

theorem Scope.text_injective : Function.Injective Scope.text := by
  intro a b h
  cases a <;> cases b <;> simp [Scope.text] at h ⊢

/-- The parameters of a scope; those of the older list belong to the application. -/
def AppInfoConfig.declared (config : AppInfoConfig) : Scope → List ParamDefinition
  | .app => config.appParams ++ config.globalParams
  | .interface => config.interfaceParams
  | .session => config.sessionParams

/-- The first application node has settings that can be read, and they declare the key. -/
def Graph.Declares (g : Graph) (scope : Scope) (key : String) : Prop :=
  ∃ app config, g.appInfo? = some app ∧ AppInfoConfig.read (.obj app.config) = .ok config ∧
    ∃ param ∈ config.declared scope, param.key = key

theorem globalParams_of_read {app : Node} {config : AppInfoConfig}
    (hread : AppInfoConfig.read (.obj app.config) = .ok config) (scope : Scope) :
    globalParams (some app) scope = (config.declared scope).filter (!·.key.isEmpty) := by
  rw [globalParams, Option.bind_some, hread]
  cases scope <;> rfl

theorem globalParams_of_bad {app : Node} {problems : List Problem}
    (hread : AppInfoConfig.read (.obj app.config) = .bad problems) (scope : Scope) :
    globalParams (some app) scope = [] := by
  rw [globalParams, Option.bind_some, hread]
  rfl

/-- Parameters that are left out have no key that could be asked for. -/
theorem exists_filled_iff (params : List ParamDefinition) {key : String} (hkey : key ≠ "") :
    (∃ param ∈ params.filter (!·.key.isEmpty), param.key = key) ↔
      ∃ param ∈ params, param.key = key := by
  constructor
  · rintro ⟨param, hparam, hsame⟩
    exact ⟨param, List.mem_of_mem_filter hparam, hsame⟩
  · rintro ⟨param, hparam, hsame⟩
    exact ⟨param, List.mem_filter.mpr ⟨hparam, by simpa [hsame] using hkey⟩, hsame⟩

theorem exists_globalParam_iff {g : Graph} {scope : Scope} {key : String} (hkey : key ≠ "") :
    (∃ param ∈ globalParams g.appInfo? scope, param.key = key) ↔ g.Declares scope key := by
  unfold Graph.Declares
  cases happ : g.appInfo? with
  | none => simp [globalParams]
  | some app =>
    cases hread : AppInfoConfig.read (.obj app.config) with
    | bad problems => simp [globalParams_of_bad hread, hread]
    | ok config =>
      rw [globalParams_of_read hread, exists_filled_iff _ hkey]
      simp [hread]

namespace Catalog

variable {c : Catalog} {g : Graph} {x : String} {source : ParamSource}

theorem mem_globalSources {nodes : List Node} : source ∈ globalSources nodes ↔
    ∃ scope, globalParams (nodes.find? Node.isAppInfo) scope ≠ [] ∧
      source = ⟨.global, scope.text, scope.heading,
        globalParams (nodes.find? Node.isAppInfo) scope⟩ := by
  have hword (scope : Scope) : scope ∈ (Vocabulary.words : List Scope) := by
    cases scope <;> decide
  rw [globalSources, List.mem_filterMap]
  constructor
  · rintro ⟨scope, -, hsource⟩
    dsimp only at hsource
    split at hsource
    · cases hsource
    · rename_i hsome
      exact ⟨scope, by simpa using hsome, (Option.some.inj hsource).symm⟩
  · rintro ⟨scope, hsome, rfl⟩
    exact ⟨scope, hword scope, if_neg (by simpa using hsome)⟩

theorem nodeSource_eq_some_iff {node : Node} : c.nodeSource node = some source ↔
    c.nodeOutputs node ≠ [] ∧
      source = ⟨.node, node.id, c.nodeLabel node, c.nodeOutputs node⟩ := by
  unfold nodeSource
  dsimp only
  split
  · rename_i hnone
    simp [List.isEmpty_iff.mp hnone]
  · rename_i hsome
    rw [List.isEmpty_iff] at hsome
    rw [Option.some_inj, eq_comm, and_iff_right hsome]

/-- The kind of the node is described, and an output of this key is among those that the
definition has or, where it allows custom ones, among those of the node. -/
def Produces (c : Catalog) (node : Node) (key : String) : Prop :=
  ∃ d, c.definitions.find? (·.nodeType == node.nodeType) = some d ∧
    ((∃ param ∈ d.outputs, param.key = key) ∨
      d.allowsCustomOutputs = true ∧ ∃ param ∈ node.data.customOutputs, param.key = key)

theorem exists_nodeOutput_iff {node : Node} {key : String} (hkey : key ≠ "") :
    (∃ param ∈ c.nodeOutputs node, param.key = key) ↔ c.Produces node key := by
  rw [nodeOutputs, Produces, outputs, allowsCustomOutputs, definition?]
  cases c.definitions.find? (·.nodeType == node.nodeType) with
  | none => simp
  | some d =>
    simp only [Option.map_some, Option.getD_some, Option.some.injEq, exists_eq_left']
    by_cases hown : d.allowsCustomOutputs = true
    · rw [if_pos hown, ← exists_filled_iff node.data.customOutputs hkey]
      simp [hown, or_and_right, exists_or]
    · simp [hown]

end Catalog

/-! Which nodes lead on to an id. -/

namespace Graph

variable {g : Graph} {x : String}

/-- An edge leads on from the id of a node. -/
def Conveys (g : Graph) (source target : String) : Prop :=
  source ∈ g.nodes.map (·.id) ∧ g.Leads source target

theorem isSome_lastNode?_iff {nodes : List Node} {id : String} :
    (lastNode? nodes id).isSome = true ↔ id ∈ nodes.map (·.id) := by
  simp [lastNode?, List.find?_isSome]

/-- The edges that are followed are the ones that leave a node. -/
theorem knownEdges_eq (g : Graph) : (fun source target => (source, target) ∈
    (g.edges.filter fun e => (lastNode? g.nodes e.source).isSome).map
      fun e => (e.source, e.target)) = g.Conveys := by
  funext source target
  rw [eq_iff_iff]
  simp only [List.mem_map, List.mem_filter, Prod.mk.injEq]
  constructor
  · rintro ⟨e, ⟨he, hknown⟩, rfl, rfl⟩
    exact ⟨isSome_lastNode?_iff.mp hknown, e, he, rfl, rfl⟩
  · rintro ⟨hknown, e, he, rfl, rfl⟩
    exact ⟨e, ⟨he, isSome_lastNode?_iff.mpr hknown⟩, rfl, rfl⟩

theorem mem_feedingNodes (hids : (g.nodes.map (·.id)).Nodup) {node : Node} :
    node ∈ feedingNodes x g.nodes g.edges ↔
      node ∈ g.nodes ∧ node.id ≠ x ∧ Relation.TransGen g.Conveys node.id x := by
  rw [feedingNodes, List.mem_filterMap]
  simp only [Topology.ofGraph, Topology.mem_ancestors_ofLists, knownEdges_eq]
  constructor
  · rintro ⟨other, hother, hfound⟩
    obtain ⟨hmem, rfl⟩ := lastNode?_eq_some hfound
    exact ⟨hmem, hother⟩
  · rintro ⟨hmem, hleads⟩
    exact ⟨node.id, hleads, lastNode?_of_mem hids hmem⟩

theorem nodup_feedingNodes (g : Graph) (x : String) :
    ((feedingNodes x g.nodes g.edges).map (·.id)).Nodup := by
  refine nodup_map_filterMap id (fun _ _ hfound => (lastNode?_eq_some hfound).2) ?_
  rw [List.map_id]
  exact Topology.nodup_ancestors_ofLists _ _ x

end Graph

/-! All sources together. -/

namespace Catalog

variable {c : Catalog} {g : Graph} {x : String}

/-- There is one source for each scope and one for each node that leads on to the input. -/
theorem nodup_addresses (c : Catalog) (g : Graph) (x : String) :
    ((c.availableSources x g.nodes g.edges).map ParamSource.address).Nodup := by
  have hscopes : ((globalSources g.nodes).map ParamSource.address).Nodup := by
    refine nodup_map_filterMap (fun scope => (SourceType.global, scope.text)) ?_ (by decide)
    intro scope source hsource
    dsimp only at hsource
    split at hsource
    · cases hsource
    · rw [← Option.some.inj hsource]
      rfl
  have hnodes : (((feedingNodes x g.nodes g.edges).filterMap c.nodeSource).map
      ParamSource.address).Nodup := by
    refine nodup_map_filterMap (fun node => (SourceType.node, node.id)) ?_ ?_
    · intro node source hsource
      rw [(nodeSource_eq_some_iff.mp hsource).2]
      rfl
    · have hpairs := (g.nodup_feedingNodes x).map (Prod.mk_right_injective SourceType.node)
      rwa [List.map_map] at hpairs
  rw [availableSources, List.map_append]
  refine hscopes.append hnodes ?_
  intro address hscope hnode
  obtain ⟨source, hsource, rfl⟩ := List.mem_map.mp hscope
  obtain ⟨other, hother, hsame⟩ := List.mem_map.mp hnode
  obtain ⟨scope, -, rfl⟩ := mem_globalSources.mp hsource
  obtain ⟨node, -, hfound⟩ := List.mem_filterMap.mp hother
  rw [(nodeSource_eq_some_iff.mp hfound).2] at hsame
  cases hsame

theorem mem_availableSources {source : ParamSource} :
    source ∈ c.availableSources x g.nodes g.edges ↔
      (∃ scope, globalParams g.appInfo? scope ≠ [] ∧
        source = ⟨.global, scope.text, scope.heading, globalParams g.appInfo? scope⟩) ∨
      ∃ node ∈ feedingNodes x g.nodes g.edges, c.nodeOutputs node ≠ [] ∧
        source = ⟨.node, node.id, c.nodeLabel node, c.nodeOutputs node⟩ := by
  rw [availableSources, List.mem_append, mem_globalSources, List.mem_filterMap]
  simp only [nodeSource_eq_some_iff]
  rfl

theorem exists_scopeSource_iff {scope : Scope} {key : String} (hkey : key ≠ "") :
    (∃ source ∈ c.availableSources x g.nodes g.edges, source.address = (.global, scope.text) ∧
      ∃ param ∈ source.params, param.key = key) ↔ g.Declares scope key := by
  rw [← exists_globalParam_iff hkey]
  constructor
  · rintro ⟨source, hsource, haddress, hparam⟩
    rcases mem_availableSources.mp hsource with ⟨found, -, rfl⟩ | ⟨node, -, -, rfl⟩
    · have hscope : found = scope := Scope.text_injective (congrArg Prod.snd haddress)
      exact hscope ▸ hparam
    · cases haddress
  · rintro ⟨param, hparam, hsame⟩
    refine ⟨_, mem_availableSources.mpr (Or.inl ⟨scope, ?_, rfl⟩), rfl, param, hparam, hsame⟩
    exact List.ne_nil_of_mem hparam

theorem exists_nodeSource_iff (hids : (g.nodes.map (·.id)).Nodup) {id key : String}
    (hkey : key ≠ "") :
    (∃ source ∈ c.availableSources x g.nodes g.edges, source.address = (.node, id) ∧
      ∃ param ∈ source.params, param.key = key) ↔
      ∃ node ∈ g.nodes, node.id = id ∧ id ≠ x ∧ Relation.TransGen g.Conveys id x ∧
        c.Produces node key := by
  constructor
  · rintro ⟨source, hsource, haddress, hparam⟩
    rcases mem_availableSources.mp hsource with ⟨scope, -, rfl⟩ | ⟨node, hnode, -, rfl⟩
    · cases haddress
    · obtain rfl : node.id = id := congrArg Prod.snd haddress
      obtain ⟨hmem, hne, hpath⟩ := (Graph.mem_feedingNodes hids).mp hnode
      exact ⟨node, hmem, rfl, hne, hpath, (exists_nodeOutput_iff hkey).mp hparam⟩
  · rintro ⟨node, hmem, rfl, hne, hpath, hproduces⟩
    obtain ⟨param, hparam, hsame⟩ := (exists_nodeOutput_iff hkey).mpr hproduces
    have hnode := (Graph.mem_feedingNodes hids).mpr ⟨hmem, hne, hpath⟩
    refine ⟨_, mem_availableSources.mpr (Or.inr ⟨node, hnode, ?_, rfl⟩), rfl, param, hparam, hsame⟩
    exact List.ne_nil_of_mem hparam

end Catalog

namespace ParamBinding

/-- The binding takes a global parameter that the application node declares. -/
def TakesDeclared (b : ParamBinding) (g : Graph) : Prop :=
  ∃ scope key, b.resolveGlobal = some (scope, key) ∧ key ≠ "" ∧ g.Declares scope key

/-- The binding takes an output of another node from which a path leads to the id. -/
def TakesProduced (b : ParamBinding) (c : Catalog) (g : Graph) (id : String) : Prop :=
  b.sourceType = .node ∧ ∃ node ∈ g.nodes, node.id = b.sourceKey ∧ b.sourceKey ≠ id ∧
    Relation.TransGen g.Conveys b.sourceKey id ∧
      ∃ key, b.sourceParam = some key ∧ key ≠ "" ∧ c.Produces node key

variable {b : ParamBinding} {c : Catalog} {g : Graph} {id : String}

theorem takesDeclared_iff {scope : Scope} {key : String}
    (hresolve : b.resolveGlobal = some (scope, key)) :
    b.TakesDeclared g ↔ key ≠ "" ∧ g.Declares scope key := by
  rw [TakesDeclared, hresolve]
  constructor
  · rintro ⟨_, _, heq, htaken⟩
    cases heq
    exact htaken
  · intro htaken
    exact ⟨scope, key, rfl, htaken⟩

theorem isOffered_of_scope {scope : Scope} {key : String}
    (hresolve : b.resolveGlobal = some (scope, key)) :
    b.isOffered (c.availableSources id g.nodes g.edges) = true ↔ b.TakesDeclared g := by
  have hwanted : b.wanted = ((.global, scope.text), key) := by rw [wanted, hresolve]
  rw [isOffered_iff_exists (c.nodup_addresses g id), hwanted, takesDeclared_iff hresolve]
  exact and_congr_right Catalog.exists_scopeSource_iff

theorem isOffered_of_node (hids : (g.nodes.map (·.id)).Nodup) (hnode : b.sourceType = .node) :
    b.isOffered (c.availableSources id g.nodes g.edges) = true ↔ b.TakesProduced c g id := by
  have hwanted : b.wanted = ((.node, b.sourceKey), b.sourceParam.getD "") := by
    rw [wanted, b.resolveGlobal_eq_none_iff.mpr hnode]
  rw [isOffered_iff_exists (c.nodup_addresses g id), hwanted, TakesProduced, and_iff_right hnode]
  constructor
  · rintro ⟨hkey, hsource⟩
    obtain ⟨node, hmem, hid, hne, hpath, hproduces⟩ :=
      (Catalog.exists_nodeSource_iff hids hkey).mp hsource
    cases hparam : b.sourceParam with
    | none => exact absurd (by rw [hparam]; rfl) hkey
    | some key =>
      rw [hparam] at hkey hproduces
      exact ⟨node, hmem, hid, hne, hpath, key, rfl, hkey, hproduces⟩
  · rintro ⟨node, hmem, hid, hne, hpath, key, hparam, hkey, hproduces⟩
    rw [hparam]
    exact ⟨hkey, (Catalog.exists_nodeSource_iff hids hkey).mpr
      ⟨node, hmem, hid, hne, hpath, hproduces⟩⟩

end ParamBinding

/-- What the inputs of a node may be bound to is exactly what the application node declares and
what the other nodes that lead to it produce. -/
theorem isOffered_iff_declared_or_produced (c : Catalog) {g : Graph}
    (hids : (g.nodes.map (·.id)).Nodup) (id : String) (b : ParamBinding) :
    b.isOffered (c.availableSources id g.nodes g.edges) = true ↔
      b.TakesDeclared g ∨ b.TakesProduced c g id := by
  cases hresolve : b.resolveGlobal with
  | some target =>
    have hscoped : ¬b.TakesProduced c g id := by
      rintro ⟨hnode, -⟩
      cases (b.resolveGlobal_eq_none_iff.mpr hnode).symm.trans hresolve
    rw [ParamBinding.isOffered_of_scope hresolve, or_iff_left hscoped]
  | none =>
    have hunscoped : ¬b.TakesDeclared g := by
      rintro ⟨scope, key, hsome, -⟩
      cases hresolve.symm.trans hsome
    rw [ParamBinding.isOffered_of_node hids (b.resolveGlobal_eq_none_iff.mp hresolve),
      or_iff_right hunscoped]

/-! A loop of two nodes with an edge from nowhere, beside two application nodes. -/

def loopedFlow : Graph where
  nodes := [
    ⟨"i", "custom", .origin, ⟨some "i", .appInfo, "",
      [("globalParams", .arr [.obj [("key", .str "tone")]])], .idle, [], [], [], []⟩, []⟩,
    .plain "j" .appInfo .origin,
    ⟨"a", "custom", .origin, ⟨some "a", .llmChat, "", [], .idle, [], [],
      [⟨"mood", "", "string", false, .null, none⟩], []⟩, []⟩,
    .plain "b" .condition .origin]
  edges := [Connection.toEdge ⟨"a", "b", none, none⟩ none,
    Connection.toEdge ⟨"b", "a", none, none⟩ none,
    Connection.toEdge ⟨"ghost", "b", none, none⟩ none]

theorem isOffered_loopedFlow : (loopedFlow.nodes.map (·.id)).Nodup ∧
    ParamBinding.isOffered ⟨"value", .node, "a", some "mood"⟩
      (Catalog.builtIn.availableSources "b" loopedFlow.nodes loopedFlow.edges) = true ∧
    ParamBinding.isOffered ⟨"value", .global, "tone", none⟩
      (Catalog.builtIn.availableSources "b" loopedFlow.nodes loopedFlow.edges) = true := by
  have hids : (loopedFlow.nodes.map (·.id)).Nodup := by decide
  have hoffered := isOffered_iff_declared_or_produced .builtIn hids "b"
  refine ⟨hids, (hoffered _).mpr (Or.inr ?_), (hoffered _).mpr (Or.inl ?_)⟩
  · refine ⟨rfl, _, List.mem_cons_of_mem _ (List.mem_cons_of_mem _ List.mem_cons_self), rfl,
      by decide, .single ⟨by decide, ?_⟩, "mood", rfl, by decide, _, rfl, Or.inr ⟨by decide, ?_⟩⟩
    · exact ⟨_, List.mem_cons_self, rfl, rfl⟩
    · exact ⟨_, List.mem_cons_self, rfl⟩
  · exact ⟨.app, "tone", rfl, by decide, _, _, rfl, rfl, _, List.mem_cons_self, rfl⟩

end WorkflowStudio
