import PayloadTypes.Project.Loading
import PayloadTypes.Project.Scan
import PayloadTypes.Settings.Basic
/-!
# Projects by settings

The settings name a directory of sources, a manifest, or both. What the
manifest declares is put over what the sources declare.
-/

namespace PayloadTypes

open Files (Path)

/-- The project that the sources below a directory declare. -/
def scanProject (inputs : Inputs) (s : Settings) (dir : String) : Noting Project := do
  let root := Path.ofText dir
  if ← Noting.look (inputs.tree.isDir root) then
    let r ← scan inputs.tree dir s.takeIn s.leaveOut
    Noting.note (.sourcesRead root.text r.project.size)
    return r.project
  else Noting.fail (.noSourceDir dir)

/-- The project that settings name. -/
def assemble (inputs : Inputs) (s : Settings) : Noting Project := do
  match filled? s.sourceDir, filled? s.manifest with
  | none, none => Noting.fail .nothingToRead
  | some dir, none => scanProject inputs s dir
  | none, some source => return Project.empty.merge (← loadManifest inputs source)
  | some dir, some source =>
    let scanned ← scanProject inputs s dir
    return scanned.merge (← loadManifest inputs source)

end PayloadTypes
