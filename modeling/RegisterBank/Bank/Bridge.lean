import RegisterBank.Bank.Emission
import RegisterBank.Bank.Machine

/-!
# Bridges of a layout

A bridge is generated for the bus family that the configuration asks for, if
the layout can be reached over that bus: the data widths agree, the family
supports the width, registers do not share a bus word, and the filler fits.
The hardware description and the cycle model come from one plan.
-/

namespace RegisterBank

open RegisterBank.Bank

/-- The bus family that a word selects.  The word `none` selects no bridge. -/
def Bus.Protocol.lookup (word : String) : Result (Option Bus.Protocol) :=
  if word = "none" then .ok none
  else (orConfigError (.unknownProtocol word) (Bus.Protocol.ofWord? word)).map some

/-- A generated bridge. -/
structure BridgeSource where
  protocol : Bus.Protocol
  moduleName : String
  fileName : String
  text : String
  /-- The registers behind the bridge. -/
  registerCount : Nat

namespace Layout

/-- The rule of a bridge to a bus family that the layout breaks. -/
def bridgeProblem? (layout : Layout) (protocol : Bus.Protocol) : Option Error :=
  let config := layout.config
  if layout.dataWidth ≠ config.dataWidth then
    some (.conflict (.widthMismatch layout.dataWidth config.dataWidth))
  else if !protocol.supports config.dataWidth then
    some (.conflict (.unsupportedWidth protocol.title config.dataWidth protocol.dataWidths))
  else if config.addressIncrement < config.dataBytes then
    some (.conflict (.incrementTooSmall config.addressIncrement config.dataBytes))
  else if !Bits.fits config.rawReadFiller config.dataWidth then
    some (.config (.fillerTooWide config.rawReadFiller config.dataWidth))
  else none

/-- The bus family that is asked for and the plan of the bank, or nothing if no
bridge is asked for. -/
def prepare (layout : Layout) : Result (Option (Bus.Protocol × Plan)) :=
  match layout.config.protocol with
  | none => .ok none
  | some protocol =>
    match layout.bridgeProblem? protocol with
    | some error => .error error
    | none => (Plan.make layout protocol).map fun plan => some (protocol, plan)

/-- The bus of the layout. -/
def geometry (layout : Layout) : Bus.Geometry :=
  ⟨layout.addressWidth, layout.dataWidth, layout.config.registerReset⟩

/-- The bridge of a layout for a map with a name, or nothing if no bridge is
asked for. -/
def renderBridge (layout : Layout) (mapName : String) : Result (Option BridgeSource) :=
  match layout.prepare with
  | .error error => .error error
  | .ok none => .ok none
  | .ok (some (protocol, plan)) =>
    if !Text.isIdentifier mapName then configError (.badModuleName mapName)
    else
      let moduleName := protocol.moduleName mapName
      let bridge : Bridge :=
        { plan, protocol, moduleName, mapName
          bus := layout.geometry
          readFiller := layout.config.readFiller }
      .ok (some
        { protocol, moduleName
          fileName := moduleName ++ ".v"
          text := bridge.text
          registerCount := plan.registers.length })

/-- The machine behind the bridge of a layout with its bus family, or nothing
if no bridge is asked for. -/
def buildMachine (layout : Layout) : Result (Option (Machine × Bus.Protocol)) :=
  match layout.prepare with
  | .error error => .error error
  | .ok none => .ok none
  | .ok (some (protocol, plan)) =>
    .ok (some (Machine.make plan layout.dataWidth layout.config.readFiller, protocol))

end Layout

end RegisterBank
