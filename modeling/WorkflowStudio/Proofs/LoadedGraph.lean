import WorkflowStudio.Proofs.DocumentText
import WorkflowStudio.Proofs.NormalDocument
import WorkflowStudio.Proofs.ResavedGraph

/-!
What is loaded. The graph is the stored one, or else the one that is rebuilt from the stored
document, or else the default one, and an application node is added to it on demand. Loading
fails, or skips a document that it should not skip, exactly when the grid has no position for the
first node that cannot be rebuilt.
-/
namespace WorkflowStudio

namespace Fault

/-- The fault of a record that was rejected. Loading skips the document then. -/
def Rejects (fault : Fault) : Prop := ∃ title problems, fault = .invalid title problems

end Fault

theorem Node.rejects_of_checkId {id : String} {fault : Fault} (h : checkId id = .error fault) :
    fault.Rejects := by
  unfold checkId Checked.orFault at h
  split at h
  · cases h
  · cases h
    exact ⟨_, _, rfl⟩

namespace Document

variable {d : Document} {grid : Grid} {total index : Nat} {before nodes : List DocumentNode}
  {fault : Fault}

/-! Nodes that are rebuilt one after the other. -/

/-- Nodes with ids that a node can have, in cells with positions from an index on. -/
structure Placeable (grid : Grid) (total index : Nat) (nodes : List DocumentNode) : Prop where
  ids : ∀ n ∈ nodes, n.Identified
  cells : ∀ k < nodes.length,
    ∃ position, grid.cell (.int (index + k : Nat)) (.int total) = .ok position

theorem placeable_nil : Placeable grid total index [] :=
  ⟨fun _ hn => absurd hn List.not_mem_nil, fun _ hk => absurd hk (Nat.not_lt_zero _)⟩

theorem placeable_cons_iff {n : DocumentNode} {rest : List DocumentNode} :
    Placeable grid total index (n :: rest) ↔ n.Identified ∧
      (∃ position, grid.cell (.int index) (.int total) = .ok position) ∧
      Placeable grid total (index + 1) rest := by
  constructor
  · intro h
    obtain ⟨hid, hids⟩ := List.forall_mem_cons.mp h.ids
    refine ⟨hid, h.cells 0 (Nat.succ_pos _), hids, fun k hk => ?_⟩
    have hcell := h.cells (k + 1) (Nat.succ_lt_succ hk)
    rwa [Nat.add_comm k, ← Nat.add_assoc] at hcell
  · rintro ⟨hid, hfirst, hrest⟩
    refine ⟨List.forall_mem_cons.mpr ⟨hid, hrest.ids⟩, fun k hk => ?_⟩
    cases k with
    | zero => exact hfirst
    | succ k =>
      have hcell := hrest.cells k (Nat.lt_of_succ_lt_succ hk)
      rwa [Nat.add_assoc, Nat.add_comm 1] at hcell

theorem exists_toNode {n : DocumentNode} (h : n.Identified) (position : Position) :
    ∃ node, n.toNode position = .ok node :=
  let ⟨node, hnode, _⟩ := DocumentNode.toNode_normal h position
  ⟨node, hnode⟩

theorem toNode_of_unidentified {n : DocumentNode} (h : ¬n.Identified) (position : Position) :
    ∃ fault : Fault, fault.Rejects ∧ n.toNode position = .error fault := by
  cases hcheck : Node.checkId n.id with
  | ok id =>
    obtain ⟨hne, hwhole, -⟩ := Node.checkId_eq_ok_iff.mp hcheck
    exact absurd ⟨hne, hwhole⟩ h
  | error fault =>
    refine ⟨fault, Node.rejects_of_checkId hcheck, ?_⟩
    rw [DocumentNode.toNode, hcheck]
    rfl

/-- What fails after nodes that are placeable is what counts. -/
theorem nodesFrom_append_error (hbefore : Placeable grid total index before)
    (h : nodesFrom grid total (index + before.length) nodes = .error fault) :
    nodesFrom grid total index (before ++ nodes) = .error fault := by
  induction before generalizing index with
  | nil => exact h
  | cons n rest ih =>
    obtain ⟨hid, ⟨position, hposition⟩, hrest⟩ := placeable_cons_iff.mp hbefore
    obtain ⟨node, hnode⟩ := exists_toNode hid position
    rw [List.length_cons, Nat.add_comm rest.length, ← Nat.add_assoc] at h
    rw [List.cons_append, nodesFrom, hposition]
    change (n.toNode position).bind _ = _
    rw [hnode]
    change (nodesFrom grid total (index + 1) (rest ++ nodes)).bind _ = _
    rw [ih hrest h]
    rfl

/-- All nodes are placeable, or there is a first one that is not. -/
theorem placeable_or (grid : Grid) (total index : Nat) (nodes : List DocumentNode) :
    Placeable grid total index nodes ∨ ∃ before n after, nodes = before ++ n :: after ∧
      Placeable grid total index before ∧
      ((∃ fault, grid.cell (.int (index + before.length : Nat)) (.int total) = .error fault) ∨
        (¬n.Identified ∧ ∃ position,
          grid.cell (.int (index + before.length : Nat)) (.int total) = .ok position)) := by
  induction nodes generalizing index with
  | nil => exact Or.inl placeable_nil
  | cons n rest ih =>
    cases hcell : grid.cell (.int index) (.int total) with
    | error fault => exact Or.inr ⟨[], n, rest, rfl, placeable_nil, Or.inl ⟨fault, hcell⟩⟩
    | ok position =>
      by_cases hid : n.Identified
      · rcases ih (index + 1) with hrest | ⟨before, m, after, rfl, hbefore, hfails⟩
        · exact Or.inl (placeable_cons_iff.mpr ⟨hid, ⟨position, hcell⟩, hrest⟩)
        · refine Or.inr ⟨n :: before, m, after, rfl,
            placeable_cons_iff.mpr ⟨hid, ⟨position, hcell⟩, hbefore⟩, ?_⟩
          rwa [List.length_cons, Nat.add_comm before.length, ← Nat.add_assoc]
      · exact Or.inr ⟨[], n, rest, rfl, placeable_nil, Or.inr ⟨hid, position, hcell⟩⟩

/-! Documents that are rebuilt as graphs. -/

/-- The grid has no position for the first node that cannot be rebuilt. Where that rejects a
position, all ids are ones that nodes can have; otherwise the document would be skipped for one
that is not. -/
def Overruns (d : Document) (grid : Grid) : Prop :=
  ∃ before n after fault, d.nodes = before ++ n :: after ∧
    Placeable grid d.nodes.length 0 before ∧
    grid.cell (.int before.length) (.int d.nodes.length) = .error fault ∧
    (fault.Rejects → ∀ m ∈ d.nodes, m.Identified)

section FirstFailing

variable {n : DocumentNode} {after : List DocumentNode} (hnodes : d.nodes = before ++ n :: after)
  (hbefore : Placeable grid d.nodes.length 0 before)
include hnodes hbefore

theorem toGraph_of_nodesFrom
    (h : nodesFrom grid d.nodes.length before.length (n :: after) = .error fault) :
    d.toGraph grid = .error fault := by
  rw [← Nat.zero_add before.length] at h
  have hfrom := nodesFrom_append_error hbefore h
  rw [← hnodes] at hfrom
  rw [toGraph, hfrom]
  rfl

theorem toGraph_of_unplaced
    (hcell : grid.cell (.int before.length) (.int d.nodes.length) = .error fault) :
    d.toGraph grid = .error fault := by
  refine toGraph_of_nodesFrom hnodes hbefore ?_
  rw [nodesFrom, hcell]
  rfl

theorem toGraph_of_unidentified (hid : ¬n.Identified) {position : Position}
    (hcell : grid.cell (.int before.length) (.int d.nodes.length) = .ok position) :
    ∃ fault : Fault, fault.Rejects ∧ d.toGraph grid = .error fault := by
  obtain ⟨fault, hrejects, hnode⟩ := toNode_of_unidentified hid position
  refine ⟨fault, hrejects, toGraph_of_nodesFrom hnodes hbefore ?_⟩
  rw [nodesFrom, hcell]
  change (n.toNode position).bind _ = _
  rw [hnode]
  rfl

end FirstFailing

/-- A document is rebuilt if all of its ids are ones that nodes can have, and rejected if one is
not, unless it overruns the grid. -/
theorem toGraph_cases (grid : Grid) (hcounted : d.IntentsCounted) :
    ((∀ n ∈ d.nodes, n.Identified) ∧ ∃ g, d.toGraph grid = .ok g) ∨ d.Overruns grid ∨
      ((∃ n ∈ d.nodes, ¬n.Identified) ∧ ∃ fault : Fault, fault.Rejects ∧
        d.toGraph grid = .error fault) := by
  rcases placeable_or grid d.nodes.length 0 d.nodes with
    hplaceable | ⟨before, n, after, hnodes, hbefore, hfails⟩
  · have hgrid : grid.LaysOut d.nodes.length := by
      intro k hk
      have hcell := hplaceable.cells k hk
      rwa [Nat.zero_add] at hcell
    exact Or.inl ⟨hplaceable.ids, exists_toGraph hplaceable.ids hgrid hcounted⟩
  · rw [Nat.zero_add] at hfails
    have hn : n ∈ d.nodes := hnodes ▸ List.mem_append_right _ List.mem_cons_self
    rcases hfails with ⟨fault, hcell⟩ | ⟨hid, position, hcell⟩
    · by_cases hskips : fault.Rejects ∧ ∃ m ∈ d.nodes, ¬m.Identified
      · exact Or.inr (Or.inr ⟨hskips.2, fault, hskips.1, toGraph_of_unplaced hnodes hbefore hcell⟩)
      · refine Or.inr (Or.inl ⟨before, n, after, fault, hnodes, hbefore, hcell, ?_⟩)
        exact fun hrejects m hm => by_contra fun hid => hskips ⟨hrejects, m, hm, hid⟩
    · exact Or.inr (Or.inr ⟨⟨n, hn, hid⟩, toGraph_of_unidentified hnodes hbefore hid hcell⟩)

theorem not_overruns_of_laysOut (h : grid.LaysOut d.nodes.length) : ¬d.Overruns grid := by
  rintro ⟨before, n, after, fault, hnodes, -, hcell, -⟩
  have hlength : before.length < d.nodes.length := by
    rw [hnodes, List.length_append, List.length_cons]
    omega
  obtain ⟨position, hposition⟩ := h before.length hlength
  rw [hcell] at hposition
  cases hposition

end Document

namespace StoredWorkflow

variable {s : StoredWorkflow} {grid : Grid} {catalog : Catalog}

/-! What a stored workflow holds. -/

def HoldsGraph (s : StoredWorkflow) (g : Graph) : Prop :=
  ∃ text, s.graphData = some text ∧ text ≠ "" ∧ Graph.decode text = .ok g

def HoldsDocument (s : StoredWorkflow) (d : Document) : Prop :=
  ∃ text, s.documentData = some text ∧ text ≠ "" ∧ Document.decode text = .ok d

/-- The graph to start from: the stored one, or that of the stored document, or the default one. -/
inductive Source (s : StoredWorkflow) (grid : Grid) (catalog : Catalog) : Graph → Prop
  | graph {g : Graph} (hg : s.HoldsGraph g) : Source s grid catalog g
  | document {d : Document} {g : Graph} (hnone : ∀ g, ¬s.HoldsGraph g) (hd : s.HoldsDocument d)
      (hids : ∀ n ∈ d.nodes, n.Identified) (hg : d.toGraph grid = .ok g) : Source s grid catalog g
  | fallback (hnone : ∀ g, ¬s.HoldsGraph g)
      (hskipped : ∀ d, s.HoldsDocument d → ∃ n ∈ d.nodes, ¬n.Identified) :
      Source s grid catalog catalog.defaultGraph

/-- An application node is added if there are settings for it and the graph has none. -/
inductive Completes (catalog : Catalog) (settings : Option Json) (base : Graph) : Graph → Prop
  | added {v : Json} {app : Node} (hv : settings = some v) (hnone : base.appInfo? = none)
      (happ : catalog.appInfoNode v = .ok app) (hkind : app.isAppInfo = true) :
      Completes catalog settings base { base with nodes := base.nodes ++ [app] }
  | kept (h : settings = none ∨ base.appInfo?.isSome) : Completes catalog settings base base

/-- There is no stored graph that can be read, and the stored document overruns the grid. -/
def Overruns (s : StoredWorkflow) (grid : Grid) : Prop :=
  (∀ g, ¬s.HoldsGraph g) ∧ ∃ d, s.HoldsDocument d ∧ d.Overruns grid

theorem decoded_eq_some_iff {α : Type} {decode : String → Except Fault α} {data : Option String}
    {a : α} : ((present data).bind fun text => (decode text).toOption) = some a ↔
      ∃ text, data = some text ∧ text ≠ "" ∧ decode text = .ok a := by
  have hdecode (text : String) : (decode text).toOption = some a ↔ decode text = .ok a :=
    ⟨Except.eq_ok_of_toOption, fun h => h ▸ rfl⟩
  simp only [Option.bind_eq_some_iff, present, Option.filter_eq_some_iff, hdecode]
  simp [and_assoc]

theorem graph?_eq_some_iff {g : Graph} : s.graph? = some g ↔ s.HoldsGraph g := decoded_eq_some_iff

theorem graph?_eq_none (hnone : ∀ g, ¬s.HoldsGraph g) : s.graph? = none :=
  Option.eq_none_iff_forall_ne_some.mpr fun g hg => hnone g (graph?_eq_some_iff.mp hg)

theorem HoldsDocument.unique {d e : Document} (hd : s.HoldsDocument d) (he : s.HoldsDocument e) :
    d = e :=
  Option.some.inj ((decoded_eq_some_iff.mpr hd).symm.trans (decoded_eq_some_iff.mpr he))

/-! The graph that loading starts from. -/

theorem loadGraph_of_graph {g : Graph} (hg : s.HoldsGraph g) :
    s.loadGraph grid catalog = .ok g := by
  rw [loadGraph, graph?_eq_some_iff.mpr hg]

theorem loadGraph_of_nothing (hnone : ∀ g, ¬s.HoldsGraph g) (hdocument : ∀ d, ¬s.HoldsDocument d) :
    s.loadGraph grid catalog = .ok catalog.defaultGraph := by
  have hnothing : ((present s.documentData).bind fun text => (Document.decode text).toOption) =
      none :=
    Option.eq_none_iff_forall_ne_some.mpr fun d hd => hdocument d (decoded_eq_some_iff.mp hd)
  rw [loadGraph, graph?_eq_none hnone, documentGraph?, hnothing]
  rfl

section Document

variable {d : Document} (hnone : ∀ g, ¬s.HoldsGraph g) (hd : s.HoldsDocument d)
include hnone hd

theorem loadGraph_of_rebuilt {g : Graph} (hg : d.toGraph grid = .ok g) :
    s.loadGraph grid catalog = .ok g := by
  rw [loadGraph, graph?_eq_none hnone, documentGraph?, decoded_eq_some_iff.mpr hd]
  dsimp only
  rw [hg]
  rfl

theorem loadGraph_of_rejected {fault : Fault} (hrejects : fault.Rejects)
    (hfails : d.toGraph grid = .error fault) :
    s.loadGraph grid catalog = .ok catalog.defaultGraph := by
  obtain ⟨title, problems, rfl⟩ := hrejects
  rw [loadGraph, graph?_eq_none hnone, documentGraph?, decoded_eq_some_iff.mpr hd]
  dsimp only
  rw [hfails]
  rfl

theorem loadGraph_of_fault {fault : Fault} (hrejects : ¬fault.Rejects)
    (hfails : d.toGraph grid = .error fault) : s.loadGraph grid catalog = .error fault := by
  rw [loadGraph, graph?_eq_none hnone, documentGraph?, decoded_eq_some_iff.mpr hd]
  dsimp only
  rw [hfails]
  cases fault with
  | invalid title problems => exact absurd ⟨title, problems, rfl⟩ hrejects
  | _ => rfl

end Document

theorem Source.not_overruns {base g : Graph} (h : s.Source grid catalog base)
    (hload : s.loadGraph grid catalog = .ok g) : ¬s.Overruns grid := by
  rintro ⟨hnone, d, hd, before, n, after, fault, hnodes, hbefore, hcell, hnamed⟩
  have hfails := Document.toGraph_of_unplaced hnodes hbefore hcell
  by_cases hrejects : fault.Rejects
  · cases h with
    | graph hg => exact hnone _ hg
    | document _ he _ hg =>
      rw [← hd.unique he, hfails] at hg
      cases hg
    | fallback _ hskipped =>
      obtain ⟨m, hm, hid⟩ := hskipped d hd
      exact hid (hnamed hrejects m hm)
  · rw [loadGraph_of_fault hnone hd hrejects hfails] at hload
    cases hload

theorem exists_source (hcounted : ∀ d, s.HoldsDocument d → d.IntentsCounted)
    (h : ¬s.Overruns grid) :
    ∃ base, s.Source grid catalog base ∧ s.loadGraph grid catalog = .ok base := by
  by_cases hgraph : ∃ g, s.HoldsGraph g
  · obtain ⟨g, hg⟩ := hgraph
    exact ⟨g, .graph hg, loadGraph_of_graph hg⟩
  · have hnone := not_exists.mp hgraph
    by_cases hdocument : ∃ d, s.HoldsDocument d
    · obtain ⟨d, hd⟩ := hdocument
      rcases d.toGraph_cases grid (hcounted d hd) with
        ⟨hids, g, hg⟩ | hoverruns | ⟨hunidentified, fault, hrejects, hfails⟩
      · exact ⟨g, .document hnone hd hids hg, loadGraph_of_rebuilt hnone hd hg⟩
      · exact absurd ⟨hnone, d, hd, hoverruns⟩ h
      · refine ⟨_, .fallback hnone fun e he => ?_, loadGraph_of_rejected hnone hd hrejects hfails⟩
        exact hd.unique he ▸ hunidentified
    · have hdocument := not_exists.mp hdocument
      exact ⟨_, .fallback hnone fun d hd => absurd hd (hdocument d),
        loadGraph_of_nothing hnone hdocument⟩

/-! The application node. -/

theorem exists_completes {settings : Option Json} {base : Graph}
    (hsettings : ∀ v ∈ settings, ∃ app, catalog.appInfoNode v = .ok app)
    (hload : s.loadGraph grid catalog = .ok base) :
    ∃ loaded, Completes catalog settings base loaded ∧
      s.load grid catalog settings = .ok loaded := by
  cases hv : settings with
  | none =>
    refine ⟨base, .kept (Or.inl rfl), ?_⟩
    rw [load, hload]
    rfl
  | some v =>
    cases happInfo : base.appInfo? with
    | some app =>
      refine ⟨base, .kept (Or.inr (happInfo ▸ rfl)), ?_⟩
      rw [load, hload]
      dsimp only [bind, Except.bind]
      rw [happInfo]
      rfl
    | none =>
      obtain ⟨app, happ⟩ := hsettings v hv
      refine ⟨_, .added rfl happInfo happ (Catalog.appInfoNode_eq_ok happ).2, ?_⟩
      rw [load, hload]
      dsimp only [bind, Except.bind]
      rw [happInfo]
      dsimp only
      rw [happ]
      rfl

/-- Whatever is stored, with settings from which an application node can be made loading gives
the graph that it should, exactly when the document that has to stand in for the graph does not
overrun the grid. -/
theorem load_iff_not_overruns {settings : Option Json}
    (hsettings : ∀ v ∈ settings, ∃ app, catalog.appInfoNode v = .ok app)
    (hcounted : ∀ d, s.HoldsDocument d → d.IntentsCounted) :
    (∃ base loaded, s.Source grid catalog base ∧ Completes catalog settings base loaded ∧
      s.load grid catalog settings = .ok loaded) ↔ ¬s.Overruns grid := by
  constructor
  · rintro ⟨base, loaded, hsource, -, hload⟩
    obtain ⟨g, hg, -⟩ := Except.bind_eq_ok.mp hload
    exact hsource.not_overruns hg
  · intro hfits
    obtain ⟨base, hsource, hbase⟩ := exists_source hcounted hfits
    obtain ⟨loaded, hcompletes, hload⟩ := exists_completes hsettings hbase
    exact ⟨base, loaded, hsource, hcompletes, hload⟩

/-- A grid that has positions for the nodes of the document is not overrun. -/
theorem not_overruns_of_laysOut (h : ∀ d, s.HoldsDocument d → grid.LaysOut d.nodes.length) :
    ¬s.Overruns grid :=
  fun ⟨_, d, hd, hoverruns⟩ => Document.not_overruns_of_laysOut (h d hd) hoverruns

theorem not_overruns_of_reals (origin column row : Double)
    (h : ∀ d, s.HoldsDocument d → d.nodes.length < 2 ^ 1023) :
    ¬s.Overruns ⟨.num origin, .num column, .num row⟩ :=
  not_overruns_of_laysOut fun d hd => Grid.laysOut_of_reals origin column row (h d hd)

/-! Five nodes in three columns. The origin is a real number, and twice the distance of the
columns is too large for one, although the third column would be at a finite coordinate. -/

def fiveChats : Document :=
  ⟨none, "w", "a", ["a", "b", "c", "d", "e"].map fun id => ⟨id, "LLM_CHAT", "", [], []⟩, []⟩

def storedChats : StoredWorkflow := ⟨none, some fiveChats.text⟩

def wideGrid : Grid := ⟨.num (.ofInt (-10 ^ 308)), .int (10 ^ 308), .int 150⟩

theorem holdsDocument_storedChats : storedChats.HoldsDocument fiveChats := by
  have hsound : fiveChats.Sound := by
    intro n hn
    obtain ⟨id, -, rfl⟩ := List.mem_map.mp hn
    exact ⟨rfl, rfl⟩
  have hreadable : fiveChats.Readable :=
    ⟨Option.isNone_iff_eq_none.mp (by decide +kernel), by decide +kernel⟩
  exact ⟨_, rfl, by decide +kernel, (Document.decode_text_iff hsound).mpr ⟨hreadable, rfl⟩⟩

theorem placeable_fiveChats : Document.Placeable wideGrid 5 0 (fiveChats.nodes.take 2) where
  ids := by decide
  cells := by
    have hcells : ∀ k < 2,
        (wideGrid.cell (.int (0 + k : Nat)) (.int 5)).toOption.isSome = true := by
      decide +kernel
    intro k hk
    obtain ⟨position, hposition⟩ := Option.isSome_iff_exists.mp (hcells k hk)
    exact ⟨position, Except.eq_ok_of_toOption hposition⟩

theorem cell_wideGrid : wideGrid.cell (.int 2) (.int 5) = .error .wholeTooLargeForReal := by
  have hwidth : Grid.columns (.int 5) = .ok 3 := Except.eq_ok_of_toOption (by decide +kernel)
  have hfar : (Double.ofInt (2 * 10 ^ 308)).isFinite = false := by decide +kernel
  have hthird : wideGrid.along wideGrid.column (.int 2) = .error .wholeTooLargeForReal :=
    Grid.along_of_not_finite rfl hfar
  have hcolumn : (2 : Int).fmod 3 = 2 := by decide
  rw [Grid.cell_of_columns wideGrid 2 hwidth, hcolumn, hthird]
  rfl

theorem not_load_storedChats :
    storedChats.load wideGrid .builtIn none = .error .wholeTooLargeForReal ∧
      ¬∃ base loaded, storedChats.Source wideGrid .builtIn base ∧
        Completes .builtIn none base loaded ∧
        storedChats.load wideGrid .builtIn none = .ok loaded := by
  have hnone : ∀ g, ¬storedChats.HoldsGraph g := by
    rintro g ⟨text, htext, -⟩
    cases htext
  have hcounted : ∀ d, storedChats.HoldsDocument d → d.IntentsCounted := by
    intro d hd
    rw [← holdsDocument_storedChats.unique hd]
    unfold Document.IntentsCounted
    decide +kernel
  have hnodes : fiveChats.nodes = fiveChats.nodes.take 2 ++ ⟨"c", "LLM_CHAT", "", [], []⟩ ::
      fiveChats.nodes.drop 3 := rfl
  constructor
  · have hfails := Document.toGraph_of_unplaced hnodes placeable_fiveChats cell_wideGrid
    have hkept : ¬Fault.wholeTooLargeForReal.Rejects := fun ⟨_, _, h⟩ => nomatch h
    have hload : storedChats.loadGraph wideGrid .builtIn = .error .wholeTooLargeForReal :=
      loadGraph_of_fault hnone holdsDocument_storedChats hkept hfails
    rw [load, hload]
    rfl
  · have hids : ∀ m ∈ fiveChats.nodes, m.Identified := by decide
    have hsettings : ∀ v ∈ (none : Option Json), ∃ app, Catalog.builtIn.appInfoNode v = .ok app :=
      fun v hv => absurd hv (Option.not_mem_none v)
    rw [load_iff_not_overruns hsettings hcounted, not_not]
    exact ⟨hnone, fiveChats, holdsDocument_storedChats, _, _, _, _, hnodes, placeable_fiveChats,
      cell_wideGrid, fun _ => hids⟩

end StoredWorkflow
end WorkflowStudio
