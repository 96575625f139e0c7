import RegisterBank.Bank.Bridge
import RegisterBank.Files.Path

/-!
# Events

What is told about while files are read and written, by cause, and how much it
matters.
-/

namespace RegisterBank.Files

/-- How much an event matters. -/
inductive Level where
  | warning
  | information
  | detail
  deriving DecidableEq, Repr

/-- Something worth telling. -/
inductive Event where
  /-- A document without the list of registers. -/
  | mapWithoutRegisters (document : String)
  /-- A register without fields was added to a map. -/
  | registerWithoutFields (name : String)
  | registerPlaced (name : String) (address addressWidth : Nat) (isExplicit : Bool)
  /-- No bridge is asked for. -/
  | bridgeSkipped
  | bridgeRendered (fileName : String) (registers lines : Nat)
  | mapRead (registers : Nat) (path : Path)
  | fileWritten (bytes : Nat) (path : Path)
  | mapWritten (path : Path)
  | configurationWritten (path : Path)
  | bridgeWritten (title : String) (path : Path)
  | referenceWritten (path : Path)
  deriving DecidableEq, Repr

namespace Event

/-- How much the event matters. -/
def level : Event → Level
  | .mapWithoutRegisters _ | .registerWithoutFields _ => .warning
  | .bridgeSkipped | .mapWritten _ | .configurationWritten _ | .bridgeWritten _ _
  | .referenceWritten _ => .information
  | .registerPlaced _ _ _ _ | .bridgeRendered _ _ _ | .mapRead _ _ | .fileWritten _ _ => .detail

/-- The event in words. -/
def message : Event → String
  | .mapWithoutRegisters document => s!"{document}: register map has no registers"
  | .registerWithoutFields name => s!"register '{name}' has no bit fields"
  | .registerPlaced name address addressWidth isExplicit =>
    s!"placed register '{name}' at " ++ Text.hexAddress address addressWidth
      ++ (if isExplicit then "" else " (auto)")
  | .bridgeSkipped => "lb_bridge.type is 'none', skipping bridge generation"
  | .bridgeRendered fileName registers lines =>
    s!"rendered {fileName} ({registers} registers, {lines} lines)"
  | .mapRead registers path => s!"read {registers} registers from {path.text}"
  | .fileWritten bytes path => s!"wrote {bytes} bytes to {path.text}"
  | .mapWritten path => s!"wrote register map {path.text}"
  | .configurationWritten path => s!"wrote configuration {path.text}"
  | .bridgeWritten title path => s!"wrote {title} bridge {path.text}"
  | .referenceWritten path => s!"wrote documentation {path.text}"

/-! ## Events of a map -/

/-- The events of the registers that were added to a map. -/
def ofRegisters (registers : List Register) : List Event :=
  (registers.filter fun register => register.fields.isEmpty).map
    fun register => .registerWithoutFields register.name

/-- The events of the registers that were placed on a bus. -/
def ofPlacements (addressWidth : Nat) (registers : List PlacedRegister) : List Event :=
  registers.map fun placed =>
    .registerPlaced placed.name placed.address addressWidth placed.register.address.isSome

/-- The events of a generated bridge. -/
def ofBridge (source : BridgeSource) : Event :=
  .bridgeRendered source.fileName source.registerCount (source.text.toList.count '\n')

end Event

end RegisterBank.Files
