import RegisterBank.Bank.Plan
import RegisterBank.Bus.FrontEnd
import RegisterBank.Verilog.Printer

/-!
# Bridges in Verilog

The module of a bridge: its ports, the Local Bus, the front end of the bus
family, the address decoder, one block for each bit field after its template,
and the read multiplexer, whose output is registered.
-/

namespace RegisterBank.Bank

open RegisterBank.Verilog
open RegisterBank.Bus (Geometry Protocol)

/-- What a bridge is generated from. -/
structure Bridge where
  plan : Plan
  protocol : Protocol
  bus : Geometry
  readFiller : Nat
  moduleName : String
  mapName : String

/-! ## Ports -/

/-- Ports below a comment that stands above the first. -/
def portGroup (comment : String) : List ModulePort → List ModulePort
  | [] => []
  | port :: rest => { port with comment? := some comment } :: rest

/-- The ports of a register's fields. -/
def registerPorts (plan : RegisterPlan) : List ModulePort :=
  portGroup s!"Register {plan.name}"
    (plan.fields.map fun field =>
      ⟨none, field.template.direction, field.field.bits.width, field.port⟩)

/-- All ports of a bridge. -/
def Bridge.ports (bridge : Bridge) : List ModulePort :=
  portGroup "Clock and reset"
      [⟨none, .input, 1, "clk"⟩, ⟨none, .input, 1, bridge.bus.reset.port⟩]
    ++ portGroup s!"{bridge.protocol.title} interface"
      (bridge.protocol.ports.map fun port =>
        ⟨none, port.direction, bridge.bus.portWidth port.width, port.name⟩)
    ++ bridge.plan.registers.flatMap registerPorts

/-! ## The Local Bus -/

/-- The constants for the states that some field has. -/
def stateConstants (plan : Plan) : List Item :=
  (if plan.uses (· == .selfClearing) then
    SelfClearState.all.map fun state => .parameter state.constant state.encoding
  else [])
    ++ (if plan.uses Template.isWriteOnce then
      WriteOnceState.all.map fun state => .parameter state.constant state.encoding
    else [])

/-- The declarations of the Local Bus and its fixed assignments. -/
def localBus (bus : Geometry) : List Item :=
  let wire (width : Nat) (name : String) : Item :=
    .declare ⟨.wire, width, false, portColumn, name, none⟩
  let reg (width : Nat) (name : String) : Item :=
    .declare ⟨.reg, width, false, portColumn, name, none⟩
  [.comment "Local Bus",
    wire bus.addressWidth "lb_waddr",
    wire bus.dataWidth "lb_wdata",
    .declare ⟨.wire, bus.strobeWidth, true, portColumn, "lb_wstrb", none⟩,
    wire bus.dataWidth "lb_wmask",
    wire 1 "lb_wen",
    wire 1 "lb_wready",
    wire bus.addressWidth "lb_raddr",
    wire 1 "lb_ren",
    reg bus.dataWidth "lb_rdata",
    reg 1 "lb_rvalid",
    .blank,
    .assign "lb_wready" 9 (.binary 1 1),
    .assign "lb_wmask" 9
      (.concat ((List.range bus.strobeWidth).reverse.map fun byte =>
        .replicate 8 (.select "lb_wstrb" ⟨byte, 1⟩)))]

/-- The address decoder. -/
def decoder (addressWidth : Nat) (plan : Plan) : List Item :=
  let selected (enable address : String) (register : RegisterPlan) : Expr :=
    .bitAnd (.net enable)
      (.paren (.equals (.net address) (.hex addressWidth register.placed.address)))
  .comment "Address decode" :: plan.registers.flatMap fun register =>
    [Bus.follow register.writeSelect (selected "lb_wen" "lb_waddr" register),
      Bus.follow register.readSelect (selected "lb_ren" "lb_raddr" register)]

/-! ## Fields -/

/-- A clocked block with its reset. -/
def clocked (reset : ResetStyle) (onReset otherwise : Stmt) : Item :=
  .always reset.sensitivity (.branch (Bus.resetCondition reset) onReset otherwise)

/-- The flip-flops of a field's value. -/
def declareValue (plan : FieldPlan) : Item :=
  .declare ⟨.reg, plan.field.bits.width, false, 0, plan.valueNet, none⟩

/-- The written bits of a field, with those that are not strobed at zero. -/
def writtenBits (plan : FieldPlan) : Expr :=
  .bitAnd (.select "lb_wdata" plan.field.bits) (.select "lb_wmask" plan.field.bits)

/-- The value of a field with its strobed bits taken from the bus. -/
def mergedBits (plan : FieldPlan) : Expr :=
  .bitOr
    (.paren (.bitAnd (.net plan.valueNet) (.invert (.select "lb_wmask" plan.field.bits))))
    (.paren (writtenBits plan))

/-- A zero of a field's width. -/
def zeroOf (plan : FieldPlan) : Expr := .hex plan.field.bits.width 0

/-- The initial value of a field. -/
def initialOf (plan : FieldPlan) : Expr := .hex plan.field.bits.width plan.field.initial

/-- The block of a field whose input bits pile up. -/
def stickyItems (reset : ResetStyle) (readSelect : String) (plan : FieldPlan) : List Item :=
  [declareValue plan,
    clocked reset (.set plan.valueNet 0 (initialOf plan))
      (.seq
        (.set plan.valueNet 0
          (.bitOr
            (.paren (.choose (.net readSelect) (zeroOf plan) (.net plan.valueNet)))
            (.net plan.port)))
        .skip)]

/-- The block of a field that keeps what is written. -/
def storedItems (reset : ResetStyle) (readSelect : String) (plan : FieldPlan)
    (readClear writeOnce : Bool) : List Item :=
  let stateIs (state : WriteOnceState) : Stmt := .set plan.stateNet 0 (.net state.constant)
  let load : Stmt := .set plan.valueNet 0 (mergedBits plan)
  let clear : Stmt :=
    if readClear then .branch (.net readSelect) (.set plan.valueNet 0 (zeroOf plan)) .skip
    else .skip
  let start : Stmt := .set plan.valueNet 0 (initialOf plan)
  let block : Item :=
    if writeOnce then
      clocked reset (.seq start (stateIs .unlocked))
        (.branch
          (.both (.net plan.enableNet)
            (.equals (.net plan.stateNet) (.net WriteOnceState.unlocked.constant)))
          (.seq load (stateIs .locked)) clear)
    else clocked reset start (.branch (.net plan.enableNet) load clear)
  declareValue plan
    :: (if writeOnce then [Bus.flipFlop plan.stateNet] else [])
    ++ [block, .assign plan.port 0 (.net plan.valueNet)]

/-- The block of a field that holds a write for one cycle. -/
def selfClearingItems (reset : ResetStyle) (plan : FieldPlan) : List Item :=
  let stateIs (state : SelfClearState) : Stmt := .set plan.stateNet 0 (.net state.constant)
  let rest : Stmt := .seq (stateIs .idle) (.set plan.valueNet 0 (zeroOf plan))
  [Bus.flipFlop plan.stateNet,
    declareValue plan,
    clocked reset rest
      (.seq
        (.select (.net plan.stateNet)
          (.arm (.net SelfClearState.idle.constant)
            (.branch (.net plan.enableNet)
              (.seq (stateIs .asserted) (.set plan.valueNet 0 (writtenBits plan))) .skip)
            (.otherwise rest)))
        .skip),
    .assign plan.port 0 (.net plan.valueNet)]

/-- The comment above the block of a field. -/
def fieldComment (register : RegisterPlan) (plan : FieldPlan) : String :=
  s!"{register.name}.{plan.field.name} {plan.field.bits.text}: "
    ++ ", ".intercalate (plan.field.access.word :: plan.field.modifiers.words)

/-- The block of a field. -/
def fieldItems (reset : ResetStyle) (register : RegisterPlan) (plan : FieldPlan) : List Item :=
  let enable : List Item :=
    if plan.template.direction = .output then
      [Bus.follow plan.enableNet
        (.bitAnd (.net register.writeSelect)
          (.paren (.anyBit (.select "lb_wmask" plan.field.bits))))]
    else []
  let body : List Item := match plan.template with
    | .hardwareDriven => [.comment s!"driven by {plan.port}"]
    | .sticky => stickyItems reset register.readSelect plan
    | .stored readClear writeOnce =>
      storedItems reset register.readSelect plan readClear writeOnce
    | .selfClearing => selfClearingItems reset plan
    | .pulse =>
      [.assign plan.port 0
        (.choose (.net plan.enableNet) (.paren (writtenBits plan)) (zeroOf plan))]
  [.blank, .comment (fieldComment register plan)] ++ enable ++ body

/-! ## The read multiplexer -/

/-- A segment of a read word. -/
def segmentExpr (readFiller : Nat) : Segment → Expr
  | .field plan => .net plan.readSource
  | .filler lsb width => .hex width (Bits.extract readFiller lsb width)

/-- The word that reading a register gives. -/
def readWordExpr (dataWidth readFiller : Nat) (register : RegisterPlan) : Expr :=
  .concat ((register.readSegments dataWidth).map (segmentExpr readFiller))

/-- The arms of the read multiplexer. -/
def readArms (bus : Geometry) (readFiller : Nat) : List RegisterPlan → Arms
  | [] => .otherwise (.set "lb_rdata" 0 (.hex bus.dataWidth readFiller))
  | register :: rest =>
    .arm (.hex bus.addressWidth register.placed.address)
      (.set "lb_rdata" 0 (readWordExpr bus.dataWidth readFiller register))
      (readArms bus readFiller rest)

/-- The read multiplexer with its registered output. -/
def readMultiplexer (bus : Geometry) (readFiller : Nat) (plan : Plan) : List Item :=
  [.comment "Read data, registered on the cycle after lb_ren",
    clocked bus.reset
      (.seq (.set "lb_rvalid" 0 (.binary 1 0))
        (.set "lb_rdata" 9 (.hex bus.dataWidth readFiller)))
      (.seq (.set "lb_rvalid" 0 (.net "lb_ren"))
        (.branch (.net "lb_ren")
          (.select (.net "lb_raddr") (readArms bus readFiller plan.registers)) .skip))]

/-! ## The module -/

/-- The part of a bridge behind the Local Bus. -/
def bankItems (bus : Geometry) (readFiller : Nat) (plan : Plan) : List Item :=
  decoder bus.addressWidth plan
    ++ plan.registers.flatMap (fun register =>
      register.fields.flatMap (fieldItems bus.reset register))
    ++ .blank :: readMultiplexer bus readFiller plan

/-- The module of a bridge. -/
def Bridge.toModule (bridge : Bridge) : Module where
  comments :=
    ["Generated by regmap-compiler, do not edit.",
      s!"{bridge.protocol.title} bridge to the Local Bus of register map '{bridge.mapName}'."]
  name := bridge.moduleName
  ports := bridge.ports
  items :=
    stateConstants bridge.plan ++ localBus bridge.bus ++ [.blank]
      ++ bridge.protocol.frontEnd bridge.bus ++ [.blank]
      ++ bankItems bridge.bus bridge.readFiller bridge.plan

/-- The text of a bridge. -/
def Bridge.text (bridge : Bridge) : String := bridge.toModule.text

end RegisterBank.Bank
