import RegisterBank.Files.Session
import RegisterBank.Schema.ConfigDocument
import RegisterBank.Schema.MapDocument

/-!
# Document files

Register maps and configurations are read from files and written to them.  The
format of a document follows from its path, and its path stands for it in
errors.
-/

namespace RegisterBank.Files

open RegisterBank.Document
open RegisterBank.Schema

/-- What reading a tree as a map with a certain outcome tells. -/
def treeEvents (document : String) (tree : Tree) : RegisterMap × Result Unit → List Event
  | (map, result) =>
    let isMissing := result.isOk && (tree.get? registersKey).isNone
    (if isMissing then [.mapWithoutRegisters document] else [])
      ++ Event.ofRegisters map.registers

/-- Write the text of a document that renders in the format of a path, and tell
so. -/
def save (path : Path) (render : Format → Result String) (event : Event) : Action Unit := do
  let format ← Action.ofResult path.format
  let text ← Action.ofResult (render format)
  Action.write path text
  Action.tell [event]

section Codec

variable (codec : Codec)

/-- The register map in a file. -/
def readMap (path : Path) (config : Configuration) : Action RegisterMap := do
  let format ← Action.ofResult path.format
  let text ← Action.read path
  let tree ← Action.ofResult (readTree codec format text path.text)
  let (map, result) := readMapTree path.text config tree
  Action.tell (treeEvents path.text tree (map, result))
  Action.ofResult result
  Action.tell [.mapRead map.registers.length path]
  return map

/-- Write a register map to a file. -/
def writeMap (path : Path) (map : RegisterMap) : Action Unit :=
  save path (fun format => Schema.writeMap codec format map) (.mapWritten path)

/-- The configuration in a file.  What it leaves out has its default. -/
def readConfig (path : Path) : Action Configuration := do
  let format ← Action.ofResult path.format
  let text ← Action.read path
  Action.ofResult (Schema.readConfig codec format text path.text)

/-- Write a configuration to a file. -/
def writeConfig (path : Path) (config : Configuration) : Action Unit :=
  save path (fun format => Schema.writeConfig codec format config) (.configurationWritten path)

/-- Write the starter map to a file. -/
def writeMapTemplate (path : Path) (config : Configuration) : Action Unit := do
  writeMap codec path (← Action.ofResult (RegisterMap.template config))

/-- Write the defaults of all options to a file. -/
def writeConfigTemplate (path : Path) : Action Unit := writeConfig codec path .default

end Codec

end RegisterBank.Files
