import RegisterBank.Bank.Plan

/-!
# The cycle model of a register bank

A machine holds the value, the input and the states of every bit field, and
what the Local Bus shows of the last read.  One cycle takes a request, shows
the outputs as they are before the clock edge, and applies the edge.
-/

namespace RegisterBank.Bank

/-! ## Requests and traces -/

/-- What the Local Bus asks for during one clock cycle. -/
inductive Request where
  | idle
  | write (address data strobe : Nat)
  | read (address : Nat)
  /-- A write and a read in the same cycle, on channels of their own. -/
  | writeRead (writeAddress data strobe readAddress : Nat)
  deriving DecidableEq, Repr

/-- A write as the Local Bus carries it: the strobes are spread to bits. -/
structure BusWrite where
  address : Nat
  data : Nat
  mask : Nat
  deriving DecidableEq, Repr

namespace Request

/-- The write of a request. -/
def write? : Request → Option BusWrite
  | .idle | .read _ => none
  | .write address data strobe => some ⟨address, data, Bits.strobeMask strobe⟩
  | .writeRead address data strobe _ => some ⟨address, data, Bits.strobeMask strobe⟩

/-- The address that a request reads. -/
def readAddress? : Request → Option Nat
  | .idle | .write _ _ _ => none
  | .read address => some address
  | .writeRead _ _ _ address => some address

end Request

/-- What is seen during one cycle, before the clock edge. -/
structure Trace where
  /-- The value of every output port, under the register's and the field's
  name. -/
  outputs : List ((String × String) × Nat)
  readData : Nat
  readValid : Bool
  deriving DecidableEq, Repr

namespace Trace

/-- The output of a field. -/
def output? (trace : Trace) (register field : String) : Option Nat :=
  (trace.outputs.find? fun output => output.1 == (register, field)).map Prod.snd

end Trace

/-! ## Cells -/

/-- A bit field of a machine. -/
structure Cell where
  name : String
  template : Template
  bits : BitRange
  /-- Whether reads give the field's value. -/
  isReadable : Bool
  initial : Nat
  value : Nat
  input : Nat
  selfClear : SelfClearState
  writeOnce : WriteOnceState
  deriving DecidableEq, Repr

namespace Cell

/-- The cell of a field, before reset. -/
def ofPlan (plan : FieldPlan) : Cell where
  name := plan.field.name
  template := plan.template
  bits := plan.field.bits
  isReadable := readsBack plan.field
  initial := plan.field.initial
  value := 0
  input := 0
  selfClear := .idle
  writeOnce := .unlocked

/-- The value on reset. -/
def resetValue (cell : Cell) : Nat :=
  match cell.template with
  | .hardwareDriven | .pulse | .selfClearing => 0
  | .sticky | .stored _ _ => cell.initial

/-- The cell after reset, which leaves the hardware input alone. -/
def reset (cell : Cell) : Cell :=
  { cell with value := cell.resetValue, selfClear := .idle, writeOnce := .unlocked }

/-- The field's bits of a bus word. -/
def extract (cell : Cell) (word : Nat) : Nat := Bits.extract word cell.bits.lsb cell.bits.width

/-- Whether the field has a hardware input. -/
def hasInput (cell : Cell) : Bool := cell.template.direction == .input

/-- The cell with its hardware input driven. -/
def drive (cell : Cell) (value : Nat) : Cell :=
  { cell with input := value &&& Bits.ones cell.bits.width }

/-- The value that a read gives. -/
def readValue (cell : Cell) : Nat :=
  match cell.template with
  | .hardwareDriven => cell.input
  | _ => cell.value

/-- What the port shows while a write may be going on at the register. -/
def output (cell : Cell) (write : Option BusWrite) : Nat :=
  match cell.template, write with
  | .pulse, some write => cell.extract write.data &&& cell.extract write.mask
  | .pulse, none => 0
  | _, _ => cell.value

/-- Whether a write strobes some bit of the field. -/
def isStrobed (cell : Cell) (write : Option BusWrite) : Bool :=
  match write with
  | some write => cell.extract write.mask != 0
  | none => false

/-- The written bits, with those that are not strobed at zero. -/
def writtenBits (cell : Cell) (write : Option BusWrite) : Nat :=
  match write with
  | some write => cell.extract write.data &&& cell.extract write.mask
  | none => 0

/-- The value with the strobed bits taken from the bus. -/
def loaded (cell : Cell) (write : Option BusWrite) : Nat :=
  match write with
  | some write => Bits.merge cell.value (cell.extract write.data) (cell.extract write.mask)
  | none => cell.value

/-- A clock edge with a write to the register and whether it is read. -/
def step (cell : Cell) (write : Option BusWrite) (isRead : Bool) : Cell :=
  let strobed := cell.isStrobed write
  match cell.template with
  | .hardwareDriven | .pulse => cell
  | .sticky => { cell with value := (if isRead then 0 else cell.value) ||| cell.input }
  | .stored readClear writeOnce =>
    if strobed && (!writeOnce || cell.writeOnce.acceptsWrite) then
      { cell with
        value := cell.loaded write
        writeOnce := if writeOnce then cell.writeOnce.next true else cell.writeOnce }
    else if readClear && isRead then { cell with value := 0 }
    else cell
  | .selfClearing =>
    { cell with
      value := if cell.selfClear == .idle && strobed then cell.writtenBits write else 0
      selfClear := cell.selfClear.next strobed }

end Cell

/-! ## Registers -/

/-- A register of a machine. -/
structure RegisterCell where
  name : String
  address : Nat
  cells : List Cell
  deriving DecidableEq, Repr

namespace RegisterCell

/-- The part of a write that is meant for the register. -/
def write? (register : RegisterCell) (request : Request) : Option BusWrite :=
  request.write?.filter fun write => write.address == register.address

/-- Whether a request reads the register. -/
def isRead (register : RegisterCell) (request : Request) : Bool :=
  request.readAddress? == some register.address

/-- The register after a clock edge. -/
def step (register : RegisterCell) (request : Request) : RegisterCell :=
  { register with
    cells := register.cells.map fun cell =>
      cell.step (register.write? request) (register.isRead request) }

/-- The outputs of the register's fields during a request. -/
def outputs (register : RegisterCell) (request : Request) : List ((String × String) × Nat) :=
  (register.cells.filter fun cell => cell.template.direction == .output).map fun cell =>
    ((register.name, cell.name), cell.output (register.write? request))

/-- The word that reading the register gives, on top of a filler. -/
def readWord (register : RegisterCell) (filler : Nat) : Nat :=
  (register.cells.filter Cell.isReadable).foldl
    (fun word cell => Bits.insert word cell.readValue cell.bits.lsb cell.bits.width) filler

end RegisterCell

/-! ## Machines -/

/-- The state of a register bank. -/
structure Machine where
  dataWidth : Nat
  readFiller : Nat
  registers : List RegisterCell
  /-- The word of the last read. -/
  readData : Nat
  /-- Whether the last cycle had a read. -/
  readValid : Bool
  deriving DecidableEq, Repr

namespace Machine

/-- The machine after reset, which leaves the hardware inputs alone. -/
def reset (machine : Machine) : Machine :=
  { machine with
    registers := machine.registers.map fun register =>
      { register with cells := register.cells.map Cell.reset }
    readData := machine.readFiller
    readValid := false }

/-- The machine of a plan, right after reset. -/
def make (plan : Plan) (dataWidth readFiller : Nat) : Machine :=
  reset
    { dataWidth
      readFiller := readFiller &&& Bits.ones dataWidth
      registers := plan.registers.map fun register =>
        ⟨register.name, register.placed.address, register.fields.map Cell.ofPlan⟩
      readData := 0
      readValid := false }

/-- The word at an address. -/
def readWord (machine : Machine) (address : Nat) : Nat :=
  match machine.registers.find? fun register => register.address == address with
  | some register => register.readWord machine.readFiller
  | none => machine.readFiller

/-- What is seen during a cycle with a request. -/
def observe (machine : Machine) (request : Request) : Trace where
  outputs := machine.registers.flatMap fun register => register.outputs request
  readData := machine.readData
  readValid := machine.readValid

/-- The machine after the clock edge of a cycle with a request.  Read data is
taken from the values before the edge. -/
def step (machine : Machine) (request : Request) : Machine :=
  { machine with
    registers := machine.registers.map fun register => register.step request
    readData := match request.readAddress? with
      | some address => machine.readWord address
      | none => machine.readData
    readValid := request.readAddress?.isSome }

/-- One clock cycle: what is seen, then the edge. -/
def cycle (machine : Machine) (request : Request) : Trace × Machine :=
  (machine.observe request, machine.step request)

/-- The cell of a field. -/
def cell? (machine : Machine) (register field : String) : Option Cell := do
  let found ← machine.registers.find? fun other => other.name == register
  found.cells.find? fun cell => cell.name == field

/-- The registered value of a field.  Pulses are seen in a trace only. -/
def output? (machine : Machine) (register field : String) : Option Nat :=
  (machine.cell? register field).map Cell.value

/-- The first element that passes a test changed, the others as they are. -/
def changeFirst {α : Type} (test : α → Bool) (change : α → α) : List α → List α
  | [] => []
  | element :: rest =>
    if test element then change element :: rest else element :: changeFirst test change rest

/-- The machine with the hardware input of a field driven, or nothing if the
field does not exist or has no input. -/
def setInput? (machine : Machine) (register field : String) (value : Nat) : Option Machine :=
  if (machine.cell? register field).any Cell.hasInput then
    some { machine with
      registers := changeFirst (fun other => other.name == register)
        (fun found =>
          { found with
            cells := changeFirst (fun cell => cell.name == field)
              (fun cell => cell.drive value) found.cells })
        machine.registers }
  else none

end Machine

end RegisterBank.Bank
