import WorkflowStudio.Editing.LooseEditor

/-!
Pokes: assignments to the live graph of an editor, of which nobody is told.
-/
namespace WorkflowStudio

/-- An assignment to a setting of a node, to a field of a node or of its payload, or
to a field of an edge. -/
inductive Poke where
  | setting (id key value : Json)
  | node (id name value : Json)
  | data (id name value : Json)
  | edge (id name value : Json)

/-- The text of a name, which has to be one. -/
def nameOf : Json → Except Fault String
  | .str name => .ok name
  | v => .error (.nameRequired v)

namespace LooseEditor

def pokeData (e : LooseEditor) (id : Json) (assign : LooseData → Except Fault LooseData) :
    LooseEditor × Except Fault Unit :=
  match e.node? id with
  | none => (e, .error (.noAttribute .null "data"))
  | some node => match assign node.data with
      | .error fault => (e, .error fault)
      | .ok data => (e.changeData node.id fun _ => data, .ok ())

def pokeNode (e : LooseEditor) (id : Json) (name : String) (value : Json) :
    LooseEditor × Except Fault Unit :=
  match e.node? id with
  | none => (e, .error (.noAttribute .null name))
  | some node => match node.assign name value with
      | .error fault => (e, .error fault)
      | .ok node => (e.changeNode node.id fun _ => node, .ok ())

def pokeEdge (e : LooseEditor) (id : Json) (name : String) (value : Json) :
    LooseEditor × Except Fault Unit :=
  match e.edge? id with
  | none => (e, .error (.noAttribute .null name))
  | some edge => match edge.assign name value with
      | .error fault => (e, .error fault)
      | .ok edge => ({ e with edges := replaceFirst id edge e.edges }, .ok ())

def poke (e : LooseEditor) : Poke → LooseEditor × Except Fault Unit
  | .setting id key value => e.pokeData id fun data =>
      (assignSetting data.config key value).map fun config => { data with config := config }
  | .data id name value => e.pokeData id fun data => (nameOf name).bind (data.assign · value)
  | .node id name value => match nameOf name with
      | .ok name => e.pokeNode id name value
      | .error fault => (e, .error fault)
  | .edge id name value => match nameOf name with
      | .ok name => e.pokeEdge id name value
      | .error fault => (e, .error fault)

/-- Whether a poke replaces a payload. Without its payload a node cannot be shown. -/
def brokenBy? (e : LooseEditor) : Poke → Option Fault
  | .node id (.str "data") value =>
      (e.node? id).map fun _ => .noAttribute value "node_label"
  | _ => none

end LooseEditor
end WorkflowStudio
