import RegisterBank.Files.Session
import RegisterBank.Reference.Page

/-!
# Generated files

The bridge and the reference page of a register map are written into a
directory.  Their names start from the configured name, or else from the path
that the map was read from.
-/

namespace RegisterBank.Files

/-- The name of what is generated for a map that may have come from a file. -/
def outputName (config : Configuration) (input : Option Path) : Result String :=
  match config.name with
  | some name => .ok name
  | none => orConfigError .noOutputName (input.bind Path.stem?)

/-- The layout of a map. -/
def resolve (map : RegisterMap) : Action Layout := do
  Action.tell (Event.ofPlacements map.config.addressWidth (Layout.placements map).1)
  Action.ofResult (Layout.resolve map)

/-- Write the bridge of a map into a directory.  Nothing is written and no path
is given if no bridge is asked for. -/
def generateBridge (map : RegisterMap) (directory : Path) (input : Option Path) :
    Action (Option Path) := do
  let layout ← resolve map
  if map.config.protocol.isNone then
    Action.tell [.bridgeSkipped]
    return none
  let mapName ← Action.ofResult (outputName map.config input)
  match ← Action.ofResult (layout.renderBridge mapName) with
  | none => return none
  | some source =>
    Action.tell [Event.ofBridge source]
    let path := directory.join source.fileName
    Action.write path source.text
    Action.tell [.bridgeWritten source.protocol.title path]
    return some path

/-- Write the reference page of a map into a directory. -/
def generateReference (map : RegisterMap) (directory : Path) (input : Option Path) :
    Action Path := do
  let layout ← resolve map
  let mapName ← Action.ofResult (outputName map.config input)
  let path := directory.join (mapName ++ ".md")
  Action.write path (Reference.page layout mapName)
  Action.tell [.referenceWritten path]
  return path

end RegisterBank.Files
