import RegisterBank.Bank.Emission
import RegisterBank.Bank.Machine
import RegisterBank.Verilog.Meaning

/-!
# The circuit of a register bank

The part of a bridge behind the Local Bus, run by the meaning of its items.  A
circuit is driven with the same requests as the machine of its plan and shows
the same kind of trace, so the two can be compared cycle by cycle.
-/

namespace RegisterBank.Bank

open RegisterBank.Verilog
open RegisterBank.Bus (Geometry)

/-- A register bank as hardware. -/
structure Circuit where
  plan : Plan
  bus : Geometry
  readFiller : Nat
  /-- The values of the flip-flops and of the input ports. -/
  values : Nets

namespace Circuit

/-- The items behind the front end. -/
def items (circuit : Circuit) : List Item :=
  stateConstants circuit.plan ++ localBus circuit.bus
    ++ bankItems circuit.bus circuit.readFiller circuit.plan

/-- The ports on the hardware's side and the reset, with their widths. -/
def ports (circuit : Circuit) : List (String × Nat) :=
  (circuit.bus.reset.port, 1)
    :: (circuit.plan.registers.flatMap registerPorts).map fun port => (port.name, port.width)

/-- The widths of all nets. -/
def widths (circuit : Circuit) : Nets :=
  circuit.ports ++ circuit.items.filterMap Item.declared?

/-- The level of the reset port. -/
def resetLevel (reset : ResetStyle) (isHeld : Bool) : Nat := truth (isHeld != reset.isActiveLow)

/-- The nets of the Local Bus that a request drives. -/
def driveRequest (request : Request) (values : Nets) : Nets :=
  let write (values : Nets) : Nets :=
    match request with
    | .write address data strobe | .writeRead address data strobe _ =>
      (((values.set "lb_wen" 1).set "lb_waddr" address).set "lb_wdata" data).set "lb_wstrb" strobe
    | .idle | .read _ =>
      (((values.set "lb_wen" 0).set "lb_waddr" 0).set "lb_wdata" 0).set "lb_wstrb" 0
  match request.readAddress? with
  | some address => ((write values).set "lb_ren" 1).set "lb_raddr" address
  | none => ((write values).set "lb_ren" 0).set "lb_raddr" 0

/-- The settled nets during a cycle with a request. -/
def settled (circuit : Circuit) (isReset : Bool) (request : Request) : Nets :=
  settle circuit.widths circuit.items
    (driveRequest request
      (circuit.values.set circuit.bus.reset.port (resetLevel circuit.bus.reset isReset)))

/-- The circuit after a reset. -/
def reset (circuit : Circuit) : Circuit :=
  { circuit with values := edge circuit.widths circuit.items (circuit.settled true .idle) }

/-- The circuit of a plan, right after reset. -/
def make (plan : Plan) (bus : Geometry) (readFiller : Nat) : Circuit :=
  reset ⟨plan, bus, readFiller, []⟩

/-- What is seen on the ports of output fields. -/
def outputs (plan : Plan) (values : Nets) : List ((String × String) × Nat) :=
  plan.registers.flatMap fun register =>
    (register.fields.filter fun field => field.template.direction == .output).map fun field =>
      ((register.name, field.field.name), values.get field.port)

/-- What is seen during a cycle with a request. -/
def observe (circuit : Circuit) (request : Request) : Trace :=
  let settled := circuit.settled false request
  { outputs := outputs circuit.plan settled
    readData := settled.get "lb_rdata"
    readValid := settled.get "lb_rvalid" != 0 }

/-- The circuit after the clock edge of a cycle with a request. -/
def step (circuit : Circuit) (request : Request) : Circuit :=
  { circuit with values := edge circuit.widths circuit.items (circuit.settled false request) }

/-- One clock cycle: what is seen, then the edge. -/
def cycle (circuit : Circuit) (request : Request) : Trace × Circuit :=
  (circuit.observe request, circuit.step request)

/-- The plan of a field. -/
def field? (circuit : Circuit) (register field : String) : Option FieldPlan := do
  let found ← circuit.plan.registers.find? fun other => other.name == register
  found.fields.find? fun plan => plan.field.name == field

/-- The circuit with the input port of a field driven, or nothing if the field
does not exist or has no input. -/
def setInput? (circuit : Circuit) (register field : String) (value : Nat) : Option Circuit :=
  match circuit.field? register field with
  | none => none
  | some plan =>
    if plan.template.direction = .input then
      some { circuit with
        values := circuit.values.set plan.port (value &&& Bits.ones plan.field.bits.width) }
    else none

end Circuit

end RegisterBank.Bank
