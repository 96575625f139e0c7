import RegisterBank.Bank.Template
import RegisterBank.Layout
import RegisterBank.Verilog.Keyword

/-!
# Plans of register banks

A plan names every signal of a register bank: the hardware-side ports, whose
names follow the configured convention, and the internal nets, whose names
start with the register and the field.  A plan is accepted if no two things in
the generated module have one name and none has a reserved one.
-/

namespace RegisterBank.Bank

/-- The nets of the internal Local Bus, which every bridge declares. -/
def localBusNets : List String :=
  ["lb_waddr", "lb_wdata", "lb_wstrb", "lb_wmask", "lb_wen", "lb_wready", "lb_raddr", "lb_ren",
    "lb_rdata", "lb_rvalid"]

/-! ## Fields and registers -/

/-- A bit field with its template and the names of its signals. -/
structure FieldPlan where
  field : Field
  template : Template
  /-- The hardware-side port. -/
  port : String
  /-- The start of the names of internal nets. -/
  base : String
  deriving DecidableEq, Repr

namespace FieldPlan

/-- The flip-flops of the value. -/
def valueNet (plan : FieldPlan) : String := plan.base ++ "_ff"

/-- The write enable. -/
def enableNet (plan : FieldPlan) : String := plan.base ++ "_we"

/-- The flip-flop of the state. -/
def stateNet (plan : FieldPlan) : String := plan.base ++ "_state"

/-- The signal that is read back. -/
def readSource (plan : FieldPlan) : String :=
  match plan.template with
  | .hardwareDriven => plan.port
  | _ => plan.valueNet

/-- The internal nets that the field's template declares. -/
def internalNets (plan : FieldPlan) : List String :=
  (if plan.template.direction = .output then [plan.enableNet] else [])
    ++ (if plan.template.isStored then [plan.valueNet] else [])
    ++ (if plan.template.hasState then [plan.stateNet] else [])

end FieldPlan

/-- A register with the plans of its fields. -/
structure RegisterPlan where
  placed : PlacedRegister
  fields : List FieldPlan
  deriving DecidableEq, Repr

/-- A part of the word that reading a register gives. -/
inductive Segment where
  | field (plan : FieldPlan)
  /-- Bits that no field covers. -/
  | filler (lsb width : Nat)
  deriving DecidableEq, Repr

namespace RegisterPlan

/-- The register's name. -/
def name (plan : RegisterPlan) : String := plan.placed.name

/-- The net that tells a write to the register. -/
def writeSelect (plan : RegisterPlan) : String := plan.name ++ "_wsel"

/-- The net that tells a read of the register. -/
def readSelect (plan : RegisterPlan) : String := plan.name ++ "_rsel"

/-- The fields that can be read back, the highest first. -/
def readableFields (plan : RegisterPlan) : List FieldPlan :=
  (plan.fields.filter fun field => readsBack field.field).mergeSort
    fun first second => second.field.bits.lsb ≤ first.field.bits.lsb

/-- The segments below bit `top` for fields that are given from the highest to
the lowest. -/
def segmentsBelow (top : Nat) : List FieldPlan → List Segment
  | [] => if top > 0 then [.filler 0 top] else []
  | plan :: rest =>
    let above := plan.field.bits.above
    (if above < top then [.filler above (top - above)] else [])
      ++ .field plan :: segmentsBelow plan.field.bits.lsb rest

/-- The segments of the register's read word, the most significant first. -/
def readSegments (plan : RegisterPlan) (dataWidth : Nat) : List Segment :=
  segmentsBelow dataWidth plan.readableFields

end RegisterPlan

/-! ## Banks -/

/-- The plans of all registers of a layout. -/
structure Plan where
  registers : List RegisterPlan
  deriving DecidableEq, Repr

/-- The plan of a field. -/
def planField (config : Configuration) (register : Register) (field : Field) : FieldPlan :=
  let template := Template.ofField field
  let base := s!"{register.name}_{field.name}"
  { field
    template
    port := config.namingCase.apply (config.namingPrefix ++ base ++ template.portSuffix)
    base }

/-- The plan of a register. -/
def planRegister (config : Configuration) (placed : PlacedRegister) : RegisterPlan where
  placed
  fields := placed.register.fields.map (planField config placed.register)

namespace Plan

/-- The plan of a layout, before its names are checked. -/
def draft (layout : Layout) : Plan where
  registers := layout.registers.map (planRegister layout.config)

/-- The fields of all registers. -/
def fields (plan : Plan) : List FieldPlan := plan.registers.flatMap RegisterPlan.fields

/-- Whether a field has a certain template. -/
def uses (plan : Plan) (test : Template → Bool) : Bool :=
  plan.fields.any fun field => test field.template

/-! ## Names -/

/-- A name that the generated module declares, and what it belongs to. -/
structure Claim where
  name : String
  owner : SignalOwner
  deriving DecidableEq, Repr

/-- The names that a register's part of the bank declares. -/
def registerClaims (plan : RegisterPlan) : List Claim :=
  let fieldClaims (field : FieldPlan) : List Claim :=
    (field.port :: field.internalNets).map
      fun name => ⟨name, .field plan.name field.field.name⟩
  [⟨plan.writeSelect, .register plan.name⟩, ⟨plan.readSelect, .register plan.name⟩]
    ++ plan.fields.flatMap fieldClaims

/-- All names that the generated module declares, in the order in which they
are claimed. -/
def claims (config : Configuration) (protocol : Bus.Protocol) (plan : Plan) : List Claim :=
  ["clk", config.registerReset.port].map (fun name => ⟨name, .clockAndReset⟩)
    ++ protocol.ports.map (fun port => ⟨port.name, .busInterface protocol.title⟩)
    ++ (localBusNets ++ protocol.internals).map (fun name => ⟨name, .busBridge⟩)
    ++ plan.registers.flatMap registerClaims

/-- The first claim that fails beside those already granted: its name is
reserved or taken. -/
def refusedClaim? (granted : List Claim) : List Claim → Option Conflict
  | [] => none
  | claim :: rest =>
    if Verilog.isKeyword claim.name then some (.keywordSignal claim.name claim.owner)
    else
      match granted.find? fun other => other.name == claim.name with
      | some first => some (.signalCollision claim.name claim.owner first.owner)
      | none => refusedClaim? (claim :: granted) rest

/-- The plan of a layout for a bus family, if all its names are granted. -/
def make (layout : Layout) (protocol : Bus.Protocol) : Result Plan :=
  let plan := draft layout
  match refusedClaim? [] (claims layout.config protocol plan) with
  | some problem => conflict problem
  | none => .ok plan

end Plan

end RegisterBank.Bank
