import WorkflowStudio.Checks.Structure
import WorkflowStudio.Proofs.ComparedGraphs

/-!
Labels of keys that were filled in for the first time. The nodes of a graph are compared one after
the other, and the first node with anything to tell gives the label. Such a label therefore says
that the nodes before that one are the same, and that of this one only keys were filled in, but
nothing of the nodes behind it.
-/
namespace WorkflowStudio.Change

/-- The first item that gives a label stands behind items without one. -/
theorem exists_split_of_firstOf {α : Type} {compare : α → Comparison} {items : List α}
    {label : String} (h : firstOf compare items = some (some label)) :
    ∃ before item after, items = before ++ item :: after ∧
      (∀ other ∈ before, compare other = some none) ∧ compare item = some (some label) := by
  induction items with
  | nil => cases h
  | cons item rest ih =>
    rw [firstOf] at h
    split at h
    · rename_i hitem
      obtain ⟨before, found, after, hrest, hbefore, hfound⟩ := ih h
      refine ⟨item :: before, found, after, by rw [hrest, List.cons_append], ?_, hfound⟩
      exact List.forall_mem_cons.mpr ⟨hitem, hbefore⟩
    · exact ⟨[], item, rest, rfl, fun _ hother => absurd hother List.not_mem_nil, h⟩

theorem titled_inj {name : Json} {rest other : String} (h : titled name rest = titled name other) :
    rest = other := by
  have hchars := congrArg String.toList h
  simp only [titled, String.toList_append, List.append_cancel_left_eq] at hchars
  exact String.toList_inj.mp hchars

theorem head?_titled (name : Json) (rest : String) :
    (titled name rest).toList.head? = some '[' := by
  simp only [titled, String.toList_append, List.append_assoc]
  rfl

theorem not_tellsEdges_titled (name : Json) (rest : String) : ¬TellsEdges (titled name rest) := by
  intro h
  have hhead := head?_titled name rest
  rcases h with h | h | h
  · rw [h] at hhead
    cases hhead
  · rw [h] at hhead
    cases hhead
  · rw [h] at hhead
    cases hhead

/-- A label that names a key of a node is of no other kind. -/
theorem not_weighty_keyText (name : Json) (word key : String) :
    ¬Weighty name (keyText word name key) := by
  intro ⟨rest, c, hlabel, hhead, hc⟩
  have hrest := titled_inj hlabel
  rw [← hrest] at hhead
  simp only [String.append_assoc, String.toList_append, List.head?_append] at hhead
  exact hc (Option.some.inj hhead).symm

section Graphs

variable {g h : Graph}

/-- The nodes of the second graph, compared one after the other. -/
def nodesChange (g h : Graph) : Comparison :=
  firstOf (fun n : Node => matched (g.nodes.map Node.loaded) (nodeChange (between g h)) n.loaded)
    h.nodes

theorem compare_eq (hlength : g.nodes.length = h.nodes.length) :
    compare (between g h) = orNext (nodesChange g h) fun _ => edgesChange (between g h) := by
  have hnodes (g : Graph) : (Graph.write .kept g).finite.lookList "nodes" =
      some (.arr (g.nodes.map Node.loaded)) := Json.lookList_of_look g.look_nodes
  unfold compare nodesChange
  simp only [between, hnodes, Option.bind_eq_bind, Option.bind_some, Json.items?, List.length_map,
    firstOf_map]
  rw [if_neg (by omega), if_neg (by omega)]

/-- Between graphs with as many nodes a label that names a node was given by the first node with
anything to tell. -/
theorem exists_told {rest : String} {given : Json} (hlength : g.nodes.length = h.nodes.length)
    (hlabel : compare (between g h) = some (some (titled given rest))) :
    ∃ before told after was, h.nodes = before ++ told :: after ∧ g.node? told.id = some was ∧
      (∀ n ∈ before, matched (g.nodes.map Node.loaded) (nodeChange (between g h)) n.loaded =
        some none) ∧
      nodeChange (between g h) was.loaded told.loaded = some (some (titled given rest)) := by
  rw [compare_eq hlength] at hlabel
  have hnodes : nodesChange g h = some (some (titled given rest)) := by
    unfold orNext at hlabel
    split at hlabel
    · cases decides_edgesChange g h with
      | unlabelled _ hc =>
        rw [hc] at hlabel
        cases hlabel
      | labelled _ label hshape hc =>
        rw [hc] at hlabel
        cases hlabel
        exact absurd hshape (not_tellsEdges_titled given rest)
    · exact hlabel
  obtain ⟨before, told, after, hsplit, hbefore, htold⟩ := exists_split_of_firstOf hnodes
  unfold matched at htold
  rw [told.look_id] at htold
  simp only [Option.bind_eq_bind, Option.bind_some, findBy_nodes] at htold
  cases hwas : g.node? told.id with
  | none =>
    rw [hwas] at htold
    cases htold
  | some was =>
    rw [hwas] at htold
    exact ⟨before, told, after, was, hsplit, hwas, hbefore, htold⟩

end Graphs

/-- A label that a key was set is given by the first node with anything to tell. No node before it
is told of, and of this one only keys were filled in when the label names it. So only keys were
filled in throughout exactly when this holds of that node and of those behind it. -/
theorem keyText_iff {g h : Graph} (hg : g.Sound) (hh : h.Sound) {old new : String}
    (hold : Record.stored g = .ok old) (hnew : Record.stored h = .ok new)
    (hlength : g.nodes.length = h.nodes.length) {word given key : String}
    (hlabel : describeTexts old new = some (keyText word (.str given) key)) :
    ∃ before told after was name, h.nodes = before ++ told :: after ∧
      g.node? told.id = some was ∧ nodeName told.loaded = some name ∧
      (∀ n ∈ before, ∀ m, g.node? n.id = some m →
        m.data.OnlyNewKeys n.data ∧ ¬m.data.FillsKey n.data) ∧
      (given = name.display → was.data.OnlyNewKeys told.data) ∧
      (was.data.OnlyNewKeys told.data →
        NodeData.newKeyText name was.data told.data = some (keyText word (.str given) key)) ∧
      ((∀ n ∈ h.nodes, ∀ m, g.node? n.id = some m → m.data.OnlyNewKeys n.data) ↔
        ∀ n ∈ told :: after, ∀ m, g.node? n.id = some m → m.data.OnlyNewKeys n.data) := by
  have hread : ¬(g.HoldsOverlong ∨ h.HoldsOverlong) := by
    intro hlong
    rw [describeTexts_of_overlong hg hh hold hnew hlong] at hlabel
    cases hlabel
  rw [describeTexts_of_read hg hh hold hnew hread, Option.join_eq_some_iff] at hlabel
  obtain ⟨before, told, after, was, hsplit, hwas, hbefore, htold⟩ := exists_told hlength hlabel
  have hsound (n : Node) (hn : n ∈ before ++ told :: after) : n.Sound := hh.nodes n (hsplit ▸ hn)
  have htoldSound : told.Sound := hsound told (List.mem_append_right _ List.mem_cons_self)
  have hwasSound : was.Sound := hg.nodes was (List.mem_of_find?_eq_some hwas)
  have hsame : ∀ n ∈ before, ∀ m, g.node? n.id = some m →
      m.data.OnlyNewKeys n.data ∧ ¬m.data.FillsKey n.data := fun n hn =>
    (decides_nodeOf hg (hsound n (List.mem_append_left _ hn))).eq_unlabelled_iff.mp (hbefore n hn)
  obtain ⟨name, hname⟩ := exists_nodeName told
  refine ⟨before, told, after, was, name, hsplit, hwas, hname, hsame, ?_, ?_, ?_⟩
  · intro hgiven
    by_contra hkeys
    obtain ⟨label, hshape, hother⟩ :=
      nodeChange_of_not_onlyNewKeys (g := g) (h := h) hwasSound htoldSound hname hkeys
    have hsameLabel : label = keyText word name key := by
      rw [hother] at htold
      rw [Option.some.inj (Option.some.inj htold), keyText, titled, titled, hgiven]
      rfl
    rw [hsameLabel] at hshape
    exact not_weighty_keyText name word key hshape
  · intro hkeys
    rw [nodeChange_of_onlyNewKeys hwasSound htoldSound hname hkeys] at htold
    exact Option.some.inj htold
  · rw [hsplit, List.forall_mem_append]
    exact and_iff_right fun n hn m hm => (hsame n hn m hm).1

/-- Two chats between the start and the end of a flow. The first one has an input of its own, and
the second one has a setting. -/
def chats (key : String) (seed : Int) : Graph where
  nodes :=
    [.plain "start" .start .origin,
      .chat "a" .origin [] [⟨key, "Topic", "string", false, .null, none⟩],
      .chat "b" .origin [("seed", .int seed)] [],
      .plain "end" .finish .origin]
  edges :=
    [⟨"e-start--a", "start", "a", none, none, none, none, []⟩,
      ⟨"e-a--b", "a", "b", none, none, none, none, []⟩,
      ⟨"e-b--end", "b", "end", none, none, none, none, []⟩]

theorem sound_unkeyed : (chats "" 1).Sound := Graph.sound_of_reread rfl rfl

theorem sound_keyed : (chats "topic" 2).Sound := Graph.sound_of_reread rfl rfl

theorem describeTexts_chats : describeTexts (chats "" 1).snapshot (chats "topic" 2).snapshot =
    some (keyText "custom input param" (.str "a") "topic") := by
  have hshort {g : Graph} (hdepth : Json.exceeds 300 (Graph.write .kept g) = false)
      (hlegible : Json.legible Json.lenient Json.lenient.deepest (Graph.write .kept g) = true) :
      ¬g.HoldsOverlong := (Json.legible_lenient_iff hdepth).mp hlegible
  have hread : ¬((chats "" 1).HoldsOverlong ∨ (chats "topic" 2).HoldsOverlong) :=
    not_or.mpr ⟨hshort rfl rfl, hshort rfl rfl⟩
  calc describeTexts (chats "" 1).snapshot (chats "topic" 2).snapshot
      = (compare (between (chats "" 1) (chats "topic" 2))).join :=
        describeTexts_of_read sound_unkeyed sound_keyed rfl rfl hread
    _ = some (keyText "custom input param" (.str "a") "topic") := rfl

/-- The setting of the second chat is not told when a key of the first one was filled in. -/
theorem not_onlyNewKeys_chats :
    (chats "" 1).checkStructure.valid = true ∧ (chats "topic" 2).checkStructure.valid = true ∧
      describeTexts (chats "" 1).snapshot (chats "topic" 2).snapshot =
        some (keyText "custom input param" (.str "a") "topic") ∧
      ¬∀ n ∈ (chats "topic" 2).nodes, ∀ m, (chats "" 1).node? n.id = some m →
        m.data.OnlyNewKeys n.data := by
  obtain ⟨before, told, after, _, _, hsplit, _, _, hbefore, _, _, hiff⟩ :=
    keyText_iff sound_unkeyed sound_keyed rfl rfl rfl describeTexts_chats
  refine ⟨rfl, rfl, describeTexts_chats, fun hkeys => ?_⟩
  have hseed : ¬NodeData.OnlyNewKeys
      (Node.chat "b" .origin [("seed", .int 1)] []).data
      (Node.chat "b" .origin [("seed", .int 2)] []).data := fun hsame => by
    cases hsame.config.1 _ List.mem_cons_self
  have hmem : Node.chat "b" .origin [("seed", .int 2)] [] ∈ before ++ told :: after := by
    rw [← hsplit]
    simp [chats]
  rcases List.mem_append.mp hmem with hfront | hback
  · exact hseed (hbefore _ hfront _ rfl).1
  · exact hseed (hiff.mp hkeys _ hback _ rfl)

end WorkflowStudio.Change
