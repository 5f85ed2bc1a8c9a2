import WorkflowStudio.Proofs.EditorStructure
import WorkflowStudio.Proofs.GraphText

/-!
Edges that are told apart, by their ids and by what they join. The id of an edge is spelled
from what it joins, with dashes in between, and the ids of nodes and handles may have dashes
themselves. An edge under the id of another one is accepted, and with it the two are no longer
told apart; this is the only way in which that happens.
-/
namespace WorkflowStudio

/-- What an edge joins: a handle of a node to another node. No handle counts as the empty one. -/
structure Link where
  source : String
  handle : String
  target : String
deriving DecidableEq

namespace Link

/-- The id that is spelled from a link. -/
def id (link : Link) : String := edgeId link.source (some link.handle) link.target

theorem id_toList (link : Link) : link.id.toList =
    'e' :: '-' :: (link.source.toList ++ '-' :: (link.handle.toList ++
      '-' :: link.target.toList)) := by
  simp [id, edgeId, String.toList_append]

theorem takeWhile_dash {xs : List Char} (h : '-' ∉ xs) (rest : List Char) :
    (xs ++ '-' :: rest).takeWhile (· != '-') = xs := by
  have hall : ∀ c ∈ xs, (c != '-') = true := by
    intro c hc
    exact bne_iff_ne.mpr fun hdash => h (hdash ▸ hc)
  rw [List.takeWhile_append_of_pos hall, List.takeWhile_cons_of_neg (by simp), List.append_nil]

theorem eq_of_append_dash {xs ys us vs : List Char} (hx : '-' ∉ xs) (hy : '-' ∉ ys)
    (h : xs ++ '-' :: us = ys ++ '-' :: vs) : xs = ys ∧ us = vs := by
  have hxy : xs = ys := by rw [← takeWhile_dash hx us, h, takeWhile_dash hy vs]
  rw [hxy, List.append_cancel_left_eq, List.cons.injEq] at h
  exact ⟨hxy, h.2⟩

/-- Between nodes without dashes the outermost dashes of an id show the link. -/
theorem eq_of_id_eq {l m : Link} (h : l.id = m.id) (hls : '-' ∉ l.source.toList)
    (hms : '-' ∉ m.source.toList) (hlt : '-' ∉ l.target.toList) (hmt : '-' ∉ m.target.toList) :
    l = m := by
  have hchars := congrArg String.toList h
  rw [id_toList, id_toList, List.cons.injEq, List.cons.injEq] at hchars
  obtain ⟨hsource, hrest⟩ := eq_of_append_dash hls hms hchars.2.2
  -- From the end, the first dash is the one before the target.
  have hback := congrArg List.reverse hrest
  simp only [List.reverse_append, List.reverse_cons, List.append_assoc, List.singleton_append]
    at hback
  obtain ⟨htarget, hhandle⟩ := eq_of_append_dash (by simpa using hlt) (by simpa using hmt) hback
  obtain ⟨source, handle, target⟩ := l
  simp only [List.reverse_inj, String.toList_inj] at hsource htarget hhandle
  subst hsource htarget hhandle
  rfl

end Link

def Edge.link (edge : Edge) : Link := ⟨edge.source, edge.handle, edge.target⟩

def Connection.link (connection : Connection) : Link :=
  ⟨connection.source, connection.sourceHandle.getD "", connection.target⟩

/-- What edges are told apart by. -/
def Edge.mark (edge : Edge) : String × Link := (edge.id, edge.link)

theorem ConnectionRules.duplicates_iff (connection : Connection) (edge : Edge) :
    duplicates connection edge = true ↔ edge.link = connection.link := by
  simp only [duplicates, Edge.link, Connection.link, Bool.and_eq_true, beq_iff_eq, Link.mk.injEq]
  tauto

/-- No two edges have the same id, and no two edges join the same. -/
structure Graph.TellsEdgesApart (g : Graph) : Prop where
  ids_nodup : (g.edges.map (·.id)).Nodup
  links_nodup : (g.edges.map Edge.link).Nodup

/-- Every edge has the id that is spelled from what it joins. -/
def Graph.SpellsIds (g : Graph) : Prop := ∀ edge ∈ g.edges, edge.id = edge.link.id

namespace Graph

variable {g g' : Graph}

/-- Spelled ids that differ come from different links. -/
theorem SpellsIds.tellsEdgesApart_iff (h : g.SpellsIds) :
    g.TellsEdgesApart ↔ (g.edges.map (·.id)).Nodup := by
  refine ⟨TellsEdgesApart.ids_nodup, fun hids => ⟨hids, .of_map Link.id ?_⟩⟩
  have hspelled : g.edges.map (·.id) = (g.edges.map Edge.link).map Link.id := by
    rw [List.map_map]
    exact List.map_congr_left h
  rwa [← hspelled]

theorem SpellsIds.of_marks (h : g.SpellsIds)
    (hmarks : g'.edges.map Edge.mark ⊆ g.edges.map Edge.mark) : g'.SpellsIds := by
  intro edge hedge
  obtain ⟨old, hold, hmark⟩ := List.mem_map.mp (hmarks (List.mem_map_of_mem hedge))
  obtain ⟨hid, hlink⟩ := Prod.mk.inj hmark
  rw [← hid, ← hlink]
  exact h old hold

theorem ids_nodup_of_marks (h : (g.edges.map (·.id)).Nodup)
    (hmarks : (g'.edges.map Edge.mark).Sublist (g.edges.map Edge.mark)) :
    (g'.edges.map (·.id)).Nodup := by
  have hids := hmarks.map Prod.fst
  rw [List.map_map, List.map_map] at hids
  exact h.sublist hids

end Graph

namespace Editor

variable {e : Editor}

/-! What edits draw. -/

/-- An edge that is drawn, and the id of the edge that it takes the place of. -/
structure Drawn where
  edge : Edge
  replaced : Option String

/-- Whether an edge stays when the edge is drawn. -/
def Drawn.Spares (drawn : Drawn) (other : Edge) : Prop := some other.id ≠ drawn.replaced

/-- The edges with the drawn edge in its place, or at the end. -/
def Drawn.place (drawn : Drawn) (edges : List Edge) : List Edge :=
  match drawn.replaced with
  | none => edges ++ [drawn.edge]
  | some id => replaceFirst id drawn.edge edges

/-- The edge that an edit draws. -/
def drawn? (e : Editor) : Edit → Option Drawn
  | .connect connection => match e.acceptedEdge connection none with
      | some (.ok edge) => some ⟨edge, none⟩
      | _ => none
  | .reconnect id connection => match e.edge? id, e.acceptedEdge connection (some id) with
      | some _, some (.ok edge) => some ⟨edge, some id⟩
      | _, _ => none
  | _ => none

/-- The id of the edge that an edit draws is spelled like that of an edge that stays and joins
something else. -/
def Collides (e : Editor) (edit : Edit) : Prop :=
  ∃ drawn, e.drawn? edit = some drawn ∧ ∃ other ∈ e.edges, drawn.Spares other ∧
    other.link ≠ drawn.edge.link ∧ other.link.id = drawn.edge.link.id

def ReplacesGraph : Edit → Prop
  | .replaceGraph _ _ _ => True
  | _ => False

/-- An accepted edge joins what no edge joins but the one that it takes the place of. -/
theorem acceptedEdge_fresh {connection : Connection} {ignored : Option String} {edge : Edge}
    (h : e.acceptedEdge connection ignored = some (.ok edge)) :
    edge.id = edge.link.id ∧
      ∀ other ∈ e.edges, some other.id ≠ ignored → other.link ≠ edge.link := by
  unfold acceptedEdge at h
  split at h
  · rename_i hcan
    obtain ⟨source, -, hbuilt⟩ := Option.map_eq_some_iff.mp h
    obtain ⟨condition, -, rfl⟩ := Except.map_eq_ok.mp hbuilt
    refine ⟨rfl, fun other hother hkept hlink => ?_⟩
    have hdup := (ConnectionRules.duplicates_iff connection other).mpr hlink
    simp only [ConnectionRules.canConnect, Bool.and_eq_true] at hcan
    obtain ⟨-, hallowed⟩ := hcan
    split at hallowed
    · simp only [Bool.and_eq_true, Bool.not_eq_true', List.any_eq_false, bne_iff_ne,
        not_and] at hallowed
      exact hallowed.2 other hother hkept hdup
    · cases hallowed
  · cases h

theorem map_mark_renewGuards (source : Node) (edges : List Edge) :
    (renewGuards source edges).1.map Edge.mark = edges.map Edge.mark := by
  induction edges with
  | nil => rfl
  | cons edge rest ih =>
    rw [renewGuards]
    split
    · split
      · rfl
      · rename_i renewed hrenewed
        obtain ⟨-, hid, hsource, htarget, hhandle⟩ := renewGuard_eq_ok hrenewed
        have hmark : renewed.mark = edge.mark := by
          simp only [Edge.mark, Edge.link, Edge.handle, hid, hsource, htarget, hhandle]
        rw [List.map_cons, List.map_cons, hmark, ih]
    · rw [List.map_cons, List.map_cons, ih]

theorem addNode_edges (e : Editor) (node : Node) : (e.addNode node).editor.edges = e.edges := by
  unfold addNode
  split <;> rfl

/-- An edit that draws no edge leaves the marks of edges as they are or removes some. -/
theorem marks_apply {edit : Edit} (hkept : ¬ReplacesGraph edit) (hdrawn : e.drawn? edit = none) :
    ((e.apply edit).editor.edges.map Edge.mark).Sublist (e.edges.map Edge.mark) := by
  have hsame {next : Editor} (h : next.edges = e.edges) :
      (next.edges.map Edge.mark).Sublist (e.edges.map Edge.mark) := by rw [h]
  cases edit with
  | addNode node => exact hsame (addNode_edges e node)
  | createNode type position config id =>
    simp only [apply, Outcome.accepted, createNode]
    split
    · exact hsame rfl
    · split
      · exact hsame (addNode_edges e _)
      · exact hsame rfl
  | duplicateNode id offset =>
    simp only [apply, Outcome.accepted, duplicateNode]
    split
    · exact hsame rfl
    · split
      · exact hsame rfl
      · split <;> exact hsame rfl
  | moveNode id x y =>
    simp only [apply, moveNode]
    split
    · exact hsame rfl
    · split
      · exact hsame rfl
      · split <;> exact hsame rfl
  | removeNode id =>
    simp only [apply, removeNode]
    split
    · exact hsame rfl
    · exact List.filter_sublist.map _
  | updateNode id update =>
    simp only [apply, updateNode]
    split <;> exact hsame rfl
  | updateConfig id changes replace =>
    have hrenewed := map_mark_renewGuards
    simp only [apply, updateConfig]
    split
    · exact hsame rfl
    · split
      · split <;> simp only [edited, failed, hrenewed, List.Sublist.refl]
      · exact hsame rfl
  | setBinding id binding =>
    simp only [apply, setBinding]
    split <;> exact hsame rfl
  | removeBinding id paramKey =>
    simp only [apply, removeBinding]
    split
    · exact hsame rfl
    · split <;> exact hsame rfl
  | connect connection =>
    simp only [apply, Outcome.accepted, connect]
    split
    · exact hsame rfl
    · exact hsame rfl
    · rename_i hedge
      simp only [drawn?, hedge, reduceCtorEq] at hdrawn
  | reconnect id connection =>
    simp only [apply, Outcome.accepted, reconnect]
    split
    · exact hsame rfl
    · exact hsame rfl
    · exact hsame rfl
    · rename_i hfound hedge
      simp only [drawn?, hfound, hedge, reduceCtorEq] at hdrawn
  | removeEdge id =>
    simp only [apply, removeEdge]
    split
    · exact hsame rfl
    · exact List.eraseP_sublist.map _
  | replaceGraph graph label markDirty => exact absurd trivial hkept
  | clear => exact List.nil_sublist _
  | markDirty => exact hsame rfl
  | markSaved saved =>
    simp only [apply, markSaved]
    split <;> exact hsame rfl
  | setClock millis => exact hsame rfl

/-- A drawn edge was accepted, and it is put into its place. -/
theorem drawn?_eq_some {edit : Edit} {drawn : Drawn} (h : e.drawn? edit = some drawn) :
    (∃ connection, e.acceptedEdge connection drawn.replaced = some (.ok drawn.edge)) ∧
      (∀ id, drawn.replaced = some id → (e.edge? id).isSome) ∧
      (e.apply edit).editor.edges = drawn.place e.edges := by
  cases edit with
  | connect connection =>
    simp only [drawn?] at h
    split at h
    · rename_i hedge
      cases h
      refine ⟨⟨connection, hedge⟩, fun id hnone => absurd hnone.symm (Option.some_ne_none id), ?_⟩
      simp only [apply, Outcome.accepted, connect, hedge]
      rfl
    · cases h
  | reconnect id connection =>
    simp only [drawn?] at h
    split at h
    · rename_i hold hedge
      cases h
      refine ⟨⟨connection, hedge⟩, fun other hother => ?_, ?_⟩
      · rw [← Option.some.inj hother]
        exact Option.isSome_of_eq_some hold
      · simp only [apply, Outcome.accepted, reconnect, hold, hedge]
        rfl
    · cases h
  | _ => cases h

/-- The edge that is replaced is the first one with the id. -/
theorem replaceFirst_eq {edges : List Edge} {id : String}
    (hfound : (edges.find? (·.id == id)).isSome) (edge : Edge) :
    ∃ before old after, edges = before ++ old :: after ∧ old.id = id ∧
      replaceFirst id edge edges = before ++ edge :: after := by
  induction edges with
  | nil => cases hfound
  | cons first rest ih =>
    rw [List.find?_cons] at hfound
    rw [replaceFirst]
    split at hfound
    · rename_i hid
      exact ⟨[], first, rest, rfl, by simpa using hid, by rw [if_pos hid]; rfl⟩
    · rename_i hid
      obtain ⟨before, old, after, hrest, hold, hreplaced⟩ := ih hfound
      refine ⟨first :: before, old, after, by rw [hrest]; rfl, hold, ?_⟩
      rw [if_neg (by simpa using hid), hreplaced]
      rfl

theorem nodup_ids_iff_of_perm {edges others : List Edge} {edge : Edge}
    (h : edges.Perm (edge :: others)) :
    (edges.map (·.id)).Nodup ↔
      (∀ other ∈ others, other.id ≠ edge.id) ∧ (others.map (·.id)).Nodup := by
  rw [(h.map _).nodup_iff, List.map_cons, List.nodup_cons, List.mem_map, not_exists]
  simp only [not_and, ne_eq]

namespace Drawn

variable {drawn : Drawn} {edges : List Edge}

theorem mem_place {edge : Edge} (h : edge ∈ drawn.place edges) :
    edge = drawn.edge ∨ edge ∈ edges := by
  unfold place at h
  split at h
  · exact (List.mem_append.mp h).symm.imp_left List.mem_singleton.mp
  · exact mem_replaceFirst h

/-- A drawn edge keeps ids apart unless its id is the id of an edge that stays. -/
theorem ids_nodup_place_iff (hids : (edges.map (·.id)).Nodup)
    (hfound : ∀ id, drawn.replaced = some id → (edges.find? (·.id == id)).isSome) :
    ((drawn.place edges).map (·.id)).Nodup ↔
      ∀ other ∈ edges, drawn.Spares other → other.id ≠ drawn.edge.id := by
  rw [place]
  cases hreplaced : drawn.replaced with
  | none =>
    rw [nodup_ids_iff_of_perm (List.perm_append_singleton _ _), and_iff_left hids]
    have hspares (other : Edge) : drawn.Spares other := by
      rw [Spares, hreplaced]
      exact Option.some_ne_none _
    exact forall₂_congr fun other _ => (imp_iff_right (hspares other)).symm
  | some id =>
    obtain ⟨before, old, after, rfl, hold, hplace⟩ :=
      replaceFirst_eq (hfound id hreplaced) drawn.edge
    obtain ⟨hothers, hnodup⟩ := (nodup_ids_iff_of_perm List.perm_middle).mp hids
    have hspares (other : Edge) : drawn.Spares other ↔ other.id ≠ old.id := by
      rw [Spares, hreplaced, hold, ne_eq, Option.some.injEq]
    simp only [hplace, nodup_ids_iff_of_perm List.perm_middle, and_iff_left hnodup, hspares]
    constructor
    · intro hfresh other hother hstays
      rcases List.mem_cons.mp (List.perm_middle.mem_iff.mp hother) with rfl | hmem
      · exact absurd rfl hstays
      · exact hfresh other hmem
    · intro hfresh other hmem
      exact hfresh other (List.perm_middle.mem_iff.mpr (List.mem_cons_of_mem _ hmem))
        (hothers other hmem)

end Drawn

/-- Every edit but a replacement of the graph keeps ids as they are spelled. -/
theorem spellsIds_apply (h : e.graph.SpellsIds) {edit : Edit} (hkept : ¬ReplacesGraph edit) :
    (e.apply edit).editor.graph.SpellsIds := by
  cases hdrawn : e.drawn? edit with
  | none => exact h.of_marks (marks_apply hkept hdrawn).subset
  | some drawn =>
    obtain ⟨⟨_, haccepted⟩, -, hplace⟩ := drawn?_eq_some hdrawn
    intro edge hedge
    rw [graph, hplace] at hedge
    rcases Drawn.mem_place hedge with rfl | hold
    · exact (acceptedEdge_fresh haccepted).1
    · exact h edge hold

/-- Where edges are told apart, an edit keeps them so exactly when it does not collide. -/
theorem tellsEdgesApart_apply_iff (hspelled : e.graph.SpellsIds) (h : e.graph.TellsEdgesApart)
    {edit : Edit} (hkept : ¬ReplacesGraph edit) :
    (e.apply edit).editor.graph.TellsEdgesApart ↔ ¬e.Collides edit := by
  rw [(spellsIds_apply hspelled hkept).tellsEdgesApart_iff]
  cases hdrawn : e.drawn? edit with
  | none =>
    refine iff_of_true (Graph.ids_nodup_of_marks h.ids_nodup (marks_apply hkept hdrawn)) ?_
    rintro ⟨drawn, hsome, -⟩
    rw [hdrawn] at hsome
    cases hsome
  | some drawn =>
    obtain ⟨⟨_, haccepted⟩, hfound, hplace⟩ := drawn?_eq_some hdrawn
    obtain ⟨hid, hlink⟩ := acceptedEdge_fresh haccepted
    have hids : (e.edges.map (·.id)).Nodup := h.ids_nodup
    have hedges : (e.apply edit).editor.graph.edges = drawn.place e.edges := hplace
    rw [hedges, Drawn.ids_nodup_place_iff hids hfound]
    constructor
    · rintro hfresh ⟨found, hsome, other, hother, hstays, -, hsame⟩
      cases hdrawn.symm.trans hsome
      exact hfresh other hother hstays ((hspelled other hother).trans (hsame.trans hid.symm))
    · intro hnot other hother hstays hsame
      refine hnot ⟨drawn, hdrawn, other, hother, hstays, hlink other hother hstays, ?_⟩
      rw [← hspelled other hother, hsame, hid]

/-- Where no node has a dash in its id, no edit collides. -/
theorem not_collides_of_undashed (h : e.graph.Structured e.rules)
    (hundashed : ∀ node ∈ e.nodes, '-' ∉ node.id.toList) (edit : Edit) : ¬e.Collides edit := by
  have hends {edge : Edge} (hjoined : ∃ source ∈ e.nodes, ∃ target ∈ e.nodes,
      edge.Joins e.rules source target) :
      '-' ∉ edge.source.toList ∧ '-' ∉ edge.target.toList := by
    obtain ⟨source, hsource, target, htarget, hjoins⟩ := hjoined
    rw [← hjoins.source_id, ← hjoins.target_id]
    exact ⟨hundashed source hsource, hundashed target htarget⟩
  rintro ⟨drawn, hdrawn, other, hother, -, hlink, hid⟩
  obtain ⟨⟨_, haccepted⟩, -, -⟩ := drawn?_eq_some hdrawn
  obtain ⟨hsource, htarget⟩ := hends (acceptedEdge_joins h haccepted)
  obtain ⟨hsource', htarget'⟩ := hends (h.joined other hother)
  exact hlink (Link.eq_of_id_eq hid hsource' hsource htarget' htarget)

end Editor

namespace Workspace

/-- Commands in any order and any batches, of which none replaces the graph or collides. -/
def Drawing (w : Workspace Editor) : Event → Prop
  | .edit edit => ¬Editor.ReplacesGraph edit ∧ ¬w.editor.Collides edit
  | .openBatch => True
  | .closeBatch => True
  | .call _ => False

theorem tellsEdgesApart_of_reaches {start w : Workspace Editor}
    (h : start.editor.graph.SpellsIds ∧ start.editor.graph.TellsEdgesApart)
    (hrun : Reaches Drawing start w) :
    w.editor.graph.SpellsIds ∧ w.editor.graph.TellsEdgesApart := by
  refine editor_of_reaches (fun e => e.graph.SpellsIds ∧ e.graph.TellsEdgesApart)
    (fun _ _ => not_false) (fun w edit hkept hallowed => ?_) h hrun
  obtain ⟨hspelled, hw⟩ := hkept
  exact ⟨Editor.spellsIds_apply hspelled hallowed.1,
    (Editor.tellsEdgesApart_apply_iff hspelled hw hallowed.1).mpr hallowed.2⟩

/-- Whatever is done to an empty editor, as long as no edge was drawn under the id of another
one, edges are told apart, and the next command keeps them so exactly when it draws no such
edge. In a structured graph this takes a node with a dash in its id. -/
theorem tellsEdgesApart_iff_not_collides {catalog : Catalog} {rules : ConnectionRules}
    {name : Json} {millis : Int} {start w : Workspace Editor}
    (hempty : start.editor = Editor.empty catalog rules name millis)
    (hrun : Reaches Drawing start w) :
    w.editor.graph.TellsEdgesApart ∧
      (∀ edit, ¬Editor.ReplacesGraph edit →
        ((w.respond (.edit edit)).1.editor.graph.TellsEdgesApart ↔ ¬w.editor.Collides edit)) ∧
      (w.editor.graph.Structured w.editor.rules →
        (∀ node ∈ w.editor.nodes, '-' ∉ node.id.toList) → ∀ edit, ¬w.editor.Collides edit) := by
  have hstart : start.editor.graph.SpellsIds ∧ start.editor.graph.TellsEdgesApart := by
    rw [hempty]
    exact ⟨fun _ h => absurd h List.not_mem_nil, List.nodup_nil, List.nodup_nil⟩
  obtain ⟨hspelled, hw⟩ := tellsEdgesApart_of_reaches hstart hrun
  refine ⟨hw, fun edit hkept => ?_, Editor.not_collides_of_undashed⟩
  rw [respond_edit_editor]
  exact Editor.tellsEdgesApart_apply_iff hspelled hw hkept

/-! Two edges under one id. -/

def emptyWorkspace : Workspace Editor :=
  start (Editor.empty .builtIn ⟨[]⟩ (.str "") 0) none none

/-- Two nodes, one with a dash in its id, and a third one that they may lead to. -/
def bareWorkspace : Workspace Editor :=
  [.plain "a-b" .start .origin, .plain "a" .start .origin, .plain "c" .llmChat .origin].foldl
    (fun w node => (w.respond (.edit (.addNode node))).1) emptyWorkspace

/-- The connection of the node with a dash. -/
def dashedSource : Connection := ⟨"a-b", "c", none, none⟩

/-- The connection of the other node through a handle with a dash. -/
def dashedHandle : Connection := ⟨"a", "c", some "b-", none⟩

/-- The second connection is accepted under the id of the first one. Once it is there, the
first one can be moved to where the second one is: the check leaves out both. -/
theorem not_tellsEdgesApart_dashedHandle :
    let first := (bareWorkspace.respond (.edit (.connect dashedSource))).1
    let second := (first.respond (.edit (.connect dashedHandle))).1
    let third := (second.respond (.edit (.reconnect dashedSource.link.id dashedHandle))).1
    Reaches Drawing emptyWorkspace first ∧ ¬second.editor.graph.TellsEdgesApart ∧
      ¬(third.editor.graph.edges.map Edge.link).Nodup := by
  intro first second third
  have hadd (w : Workspace Editor) (node : Node) :
      Reaches Drawing w (w.respond (.edit (.addNode node))).1 := by
    refine .single ⟨.edit (.addNode node), ⟨not_false, ?_⟩, rfl⟩
    rintro ⟨drawn, hdrawn, -⟩
    cases hdrawn
  have hbare : Reaches Drawing emptyWorkspace bareWorkspace :=
    (hadd _ _).trans ((hadd _ _).trans (hadd _ _))
  have hrun : Reaches Drawing emptyWorkspace first := by
    refine hbare.tail ⟨.edit (.connect dashedSource), ⟨not_false, ?_⟩, rfl⟩
    rintro ⟨drawn, -, other, hother, -⟩
    have hnone : bareWorkspace.editor.edges = [] := by decide
    rw [hnone] at hother
    cases hother
  have hcollides : first.editor.Collides (.connect dashedHandle) :=
    ⟨⟨dashedHandle.toEdge none, none⟩, by rfl, dashedSource.toEdge none, by decide,
      Option.some_ne_none _, by decide, by decide⟩
  refine ⟨hrun, fun hsecond => ?_, by decide⟩
  exact ((tellsEdgesApart_iff_not_collides rfl hrun).2.1 (.connect dashedHandle) not_false).mp
    hsecond hcollides

end Workspace
end WorkflowStudio
