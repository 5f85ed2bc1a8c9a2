import WorkflowStudio.Proofs.GraphText

/-!
Reading a graph brings it to a form that storing and reading again keep. Whatever mixture of
names, older fields and fields that no record declares the value had from which it was read,
the graph read from its text has the same text and the same fields in the same order.
-/
namespace WorkflowStudio
namespace Graph

/-- The names of the fields of each node and its data, and of each edge, that their records do
not declare. -/
def extraNames (g : Graph) : List (List String × List String) × List (List String) :=
  (g.nodes.map fun n => (n.extras.names, n.data.extras.names),
    g.edges.map fun e => e.extras.names)

theorem extraNames_finite (g : Graph) : g.finite.extraNames = g.extraNames := by
  have hnode (n : Node) : (n.finite.extras.names, n.finite.data.extras.names) =
      (n.extras.names, n.data.extras.names) :=
    congrArg₂ Prod.mk (Json.names_finiteFields _) (Json.names_finiteFields _)
  have hedge (e : Edge) : e.finite.extras.names = e.extras.names := Json.names_finiteFields _
  simp only [extraNames, finite, List.map_map, Function.comp_def, hnode, hedge]

/-- A graph whose text holds what was written is readable. -/
theorem readable_of_ofText {g : Graph} (h : g.Sound)
    (hlayer : Json.ofText g.snapshot = .ok (Json.finite (write .kept g))) : g.Readable := by
  obtain ⟨hwhole, hlegible, -⟩ := (Json.ofText_text_iff (proper_write h)).mp hlayer
  exact ⟨hwhole, hlegible⟩

/-- If the stored text of a graph that was read from a value holds what was written into it, it
reads back exactly when all positions are finite. What reads back has this text again, and keeps
every field that its records do not declare in its place. -/
theorem reread_iff_placed {medium : Medium} {v : Json} {g : Graph} {text : String}
    (hv : Json.proper v = true) (hread : read medium v = .ok g)
    (htext : Record.stored g = .ok text) :
    (Json.ofText text = .ok (Json.finite (write .kept g)) →
      ((∃ again, ofSnapshot text = .ok again) ↔ ∀ n ∈ g.nodes, n.position.isFinite = true)) ∧
    ∀ again, ofSnapshot text = .ok again →
      Record.stored again = .ok text ∧ again.extraNames = g.extraNames ∧ again = g.finite := by
  have hsound := sound_of_read hv hread
  obtain ⟨-, rfl⟩ := stored_eq_ok_iff.mp htext
  constructor
  · intro hlayer
    constructor
    · rintro ⟨again, hagain⟩
      exact ((ofSnapshot_snapshot_iff hsound).mp hagain).2.1
    · intro hplaced
      have hreadable := readable_of_ofText hsound hlayer
      exact ⟨g.finite, (ofSnapshot_snapshot_iff hsound).mpr ⟨hreadable, hplaced, rfl⟩⟩
  · intro again hagain
    obtain ⟨-, -, rfl⟩ := (ofSnapshot_snapshot_iff hsound).mp hagain
    exact ⟨(stored_finite g).trans htext, extraNames_finite g, rfl⟩

/-! A graph with names of every form, an older guard and fields that no record declares. -/

def untidyValue : Json :=
  .obj [("nodes", .arr
      [.obj [("zone", .str "north"), ("id", .str "a"), ("position", .obj [("x", .int 10)]),
        ("data", .obj [("label", .str "Old"), ("tint", .int 3), ("node_type", .str "LLM_CHAT"),
          ("nodeLabel", .str "New"), ("param_bindings", .arr [])])]]),
    ("edges", .arr
      [.obj [("data", .obj [("condition", .str "x == 1"), ("weight", .num (.ofInt 2))]),
        ("source", .str "a"), ("note", .null), ("source_handle", .str "out"),
        ("target", .str "a")]]),
    ("version", .int 1)]

def untidyGraph : Graph where
  nodes :=
    [⟨"a", "custom", ⟨.ofInt 10, .zero false⟩,
      ⟨some "a", .llmChat, "New", [], .idle, [], [], [], [("label", .str "Old"), ("tint", .int 3)]⟩,
      [("zone", .str "north")]⟩]
  edges :=
    [⟨"e-a-out-a", "a", "a", some "out", none, none, some "x == 1",
      [("note", .null), ("data", .obj [("weight", .num (.ofInt 2))])]⟩]

theorem readable_untidyGraph : untidyGraph.Readable :=
  ⟨Option.isNone_iff_eq_none.mp (by decide +kernel), by decide +kernel⟩

theorem reread_untidyGraph :
    Json.proper untidyValue = true ∧ read .value untidyValue = .ok untidyGraph ∧
      Record.stored untidyGraph = .ok untidyGraph.snapshot ∧
      ∃ again, ofSnapshot untidyGraph.snapshot = .ok again ∧
        Record.stored again = .ok untidyGraph.snapshot ∧
        again.extraNames = ([(["zone"], ["label", "tint"])], [["note", "data"]]) := by
  have hproper : Json.proper untidyValue = true := by decide
  have hread : read .value untidyValue = .ok untidyGraph := rfl
  have hstored : Record.stored untidyGraph = .ok untidyGraph.snapshot := by
    rw [Record.stored, readable_untidyGraph.checkText_eq_ok]
    rfl
  obtain ⟨hsucceeds, hagain⟩ := reread_iff_placed hproper hread hstored
  have hlayer : Json.ofText untidyGraph.snapshot =
      .ok (Json.finite (write .kept untidyGraph)) :=
    (Json.ofText_text_iff (proper_write (sound_of_read hproper hread))).mpr
      ⟨readable_untidyGraph.whole, readable_untidyGraph.legible, rfl⟩
  obtain ⟨again, hread'⟩ := (hsucceeds hlayer).mpr fun n hn => List.mem_singleton.mp hn ▸ rfl
  obtain ⟨htext, hnames, -⟩ := hagain again hread'
  exact ⟨hproper, hread, hstored, again, hread', htext, hnames⟩

end Graph
end WorkflowStudio
