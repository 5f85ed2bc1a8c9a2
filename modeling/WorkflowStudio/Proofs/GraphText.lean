import WorkflowStudio.Proofs.WrittenParts

/-!
The stored text of a graph. A sound graph reads back from its text exactly when the text holds
whole characters only, nothing in it nests too deep, no whole number in it is too long, and all
positions are finite.
-/
namespace WorkflowStudio

/-! Texts that read back. -/

/-- A written value is read again if it can be, with null for numbers that are not finite. -/
theorem Json.ofText_text_iff {v w : Json} (hv : proper v = true) :
    ofText (text compact v) = .ok w ↔
      v.Whole ∧ legible strict strict.deepest v = true ∧ w = v.finite := by
  rw [ofText, isBroken_text, read?_text hv]
  constructor
  · intro h
    split at h
    · cases h
    · rename_i hwhole
      split at h
      · rename_i read hread
        cases h
        split at hread
        · rename_i hlegible
          exact ⟨by simpa [Whole] using hwhole, hlegible, (Option.some.inj hread).symm⟩
        · cases hread
      · cases h
  · rintro ⟨hwhole, hlegible, rfl⟩
    rw [hwhole, hlegible, Option.isSome_none, if_neg Bool.false_ne_true, if_pos rfl]

theorem Checked.andThen_eq_ok {α β : Type} {a : Checked α} {f : α → Checked β} {b : β} :
    a.andThen f = .ok b ↔ ∃ x, a = .ok x ∧ f x = .ok b := by
  cases a with
  | ok x => exact ⟨fun h => ⟨x, rfl, h⟩, fun ⟨_, hx, h⟩ => by cases hx; exact h⟩
  | bad problems => exact ⟨fun h => (by cases h), fun ⟨_, hx, _⟩ => (by cases hx)⟩

namespace Graph

/-- A graph whose text can be read: all its texts hold whole characters, nothing in it nests
too deep, and no whole number in it is too long. -/
structure Readable (g : Graph) : Prop where
  whole : Json.Whole (write .kept g)
  legible : Json.legible Json.strict Json.strict.deepest (write .kept g) = true

/-- What can be read can be stored, since it nests less deep than what is written may. -/
theorem Readable.storable {g : Graph} (h : g.Readable) : g.Storable := by
  refine ⟨fun v hv => ?_, h.whole⟩
  rcases part_of_parts hv with ⟨name, rfl⟩ | hpart
  · rfl
  · obtain ⟨below, hbelow, hlegible⟩ := hpart.legible h.legible
    rw [← Json.exceeds_finite]
    exact Json.exceeds_of_legible _ hlegible (Nat.lt_of_le_of_lt hbelow (by decide))

theorem Readable.checkText_eq_ok {g : Graph} (h : g.Readable) :
    Record.checkText g = .ok () := checkText_eq_ok_iff.mpr h.storable

theorem ofSnapshot_snapshot_iff {g loaded : Graph} (h : g.Sound) :
    ofSnapshot g.snapshot = .ok loaded ↔ g.Readable ∧ g.Placed ∧ loaded = g.finite := by
  have hsnapshot : ofSnapshot g.snapshot =
      (Json.ofText (Json.text Json.compact (write .kept g))).andThen (read .text) := rfl
  rw [hsnapshot, Checked.andThen_eq_ok]
  simp only [Json.ofText_text_iff (proper_write h)]
  constructor
  · rintro ⟨v, ⟨hwhole, hlegible, rfl⟩, hload⟩
    have hplaced := placed_of_read hload
    rw [finite_write hplaced, read_write h] at hload
    cases hload
    exact ⟨⟨hwhole, hlegible⟩, hplaced, rfl⟩
  · rintro ⟨⟨hwhole, hlegible⟩, hplaced, rfl⟩
    refine ⟨_, ⟨hwhole, hlegible, rfl⟩, ?_⟩
    rw [finite_write hplaced]
    exact read_write h .text

/-! What a graph with null for numbers that are not finite is written as. -/

theorem parts_finiteFields (fs : Fields) :
    Fields.parts (Json.finiteFields fs) = fs.parts.map Json.finite := by
  rw [Json.finiteFields_eq_map, Fields.parts, Fields.parts, List.flatMap_map, List.map_flatMap]
  rfl

theorem parts_param_finite (p : ParamDefinition) :
    Record.parts p.finite = (Record.parts p).map Json.finite := by
  simp only [Record.parts, ParamDefinition.finite, List.map_cons, List.map_nil, Json.finite,
    Json.finite_ofOption_str]

theorem parts_params_finite (ps : List ParamDefinition) :
    (ps.map ParamDefinition.finite).flatMap Record.parts =
      (ps.flatMap Record.parts).map Json.finite := by
  rw [List.flatMap_map, List.map_flatMap]
  exact List.flatMap_congr fun p _ => parts_param_finite p

theorem parts_bindings_finite (bs : List ParamBinding) :
    (bs.flatMap Record.parts).map Json.finite = bs.flatMap Record.parts := by
  rw [List.map_flatMap]
  refine List.flatMap_congr fun b _ => ?_
  simp only [Record.parts, List.map_cons, List.map_nil, Json.finite, Json.finite_ofOption_str]

theorem parts_data_finite (d : NodeData) :
    Record.parts d.finite = (Record.parts d).map Json.finite := by
  have hparts (d : NodeData) : Record.parts d = [Json.ofOption .str d.id, .str d.label] ++
      d.config.parts ++ d.bindings.flatMap Record.parts ++
        (d.customInputs ++ d.customOutputs).flatMap Record.parts ++ d.extras.parts := rfl
  simp only [hparts, NodeData.finite, List.map_append, List.map_cons, List.map_nil, Json.finite,
    Json.finite_ofOption_str, List.flatMap_append, parts_params_finite, parts_bindings_finite,
    parts_finiteFields]

theorem parts_node_finite (n : Node) :
    Record.parts n.finite = (Record.parts n).map Json.finite := by
  have hparts (n : Node) : Record.parts n =
      [.str n.id, .str n.type] ++ Record.parts n.data ++ n.extras.parts := rfl
  simp only [hparts, Node.finite, List.map_append, List.map_cons, List.map_nil, Json.finite,
    parts_data_finite, parts_finiteFields]

theorem parts_edge_finite (e : Edge) :
    Record.parts e.finite = (Record.parts e).map Json.finite := by
  have hparts (e : Edge) : Record.parts e = e.fields.values ++ e.extras.parts := rfl
  simp only [hparts, Edge.fields, Fields.values, Edge.finite, List.map_append,
    List.map_cons, List.map_nil, Json.finite, Json.finite_ofOption_str, parts_finiteFields]

theorem parts_finite (g : Graph) : Record.parts g.finite = (Record.parts g).map Json.finite := by
  have hparts (g : Graph) : Record.parts g =
      g.nodes.flatMap Record.parts ++ g.edges.flatMap Record.parts := rfl
  rw [hparts, hparts, List.map_append, List.map_flatMap, List.map_flatMap, finite,
    List.flatMap_map, List.flatMap_map]
  congr 1
  · exact List.flatMap_congr fun n _ => parts_node_finite n
  · exact List.flatMap_congr fun e _ => parts_edge_finite e

theorem textFault?_finite (v : Json) : Record.textFault? v.finite = Record.textFault? v := by
  rw [Record.textFault?, Record.textFault?, Json.exceeds_finite, Json.brokenText?_finite]

theorem stored_finite (g : Graph) : Record.stored g.finite = Record.stored g := by
  have hcheck : Record.checkText g.finite = Record.checkText g := by
    rw [Record.checkText, Record.checkText, parts_finite, List.findSome?_map]
    have hsame : Record.textFault? ∘ Json.finite = Record.textFault? := funext textFault?_finite
    rw [hsame]
  have htext : Record.storedText g.finite = Record.storedText g :=
    congrArg (Json.text Json.compact) (write_finite g)
  rw [Record.stored, Record.stored, hcheck, htext]

end Graph
end WorkflowStudio
