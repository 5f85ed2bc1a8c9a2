import WorkflowStudio.Checks.Structure
import WorkflowStudio.Checks.Completeness

/-!
Whether a workflow can be published. Three checks run in order, and the first
that finds something is reported: the structure, the nodes of the flow, and the
settings of the application.
-/
namespace WorkflowStudio

/-- The settings of the application that are not present. -/
def appErrors (app : Node) : List String :=
  (["appName", "modelId"].filter fun key =>
    !((Fields.get? app.config key).map Json.isPresent).getD false).map missingSetting

def checkPublication (catalog : Catalog) (g : Graph) : GraphReport :=
  let structural := g.checkStructure
  if !structural.valid then structural
  else
    let nodes := catalog.checkNodes g.flowNodes
    if !nodes.valid then .ofErrors [nodes.text]
    else .ofErrors ((g.appInfo?.map appErrors).getD [])

end WorkflowStudio
