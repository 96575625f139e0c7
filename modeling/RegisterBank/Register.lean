import RegisterBank.Field

/-!
# Registers

A register is a named list of bit fields, which may have an explicit address.
Its fields have different names and share no bit.
-/

namespace RegisterBank

/-- A named list of bit fields. -/
structure Register where
  name : String
  description : String
  /-- The explicit byte address, if one is declared. -/
  address : Option Nat
  fields : List Field
  deriving DecidableEq, Repr

namespace Register

/-- A register without description, address and fields. -/
def make (name : String) : Result Register :=
  if Text.isIdentifier name then .ok ⟨name, "", none, []⟩ else conflict (.registerName name)

/-- The register with another description. -/
def withDescription (register : Register) (description : String) : Register :=
  { register with description := description }

/-- The register at an explicit byte address. -/
def withAddress (register : Register) (address : Nat) : Register :=
  { register with address := some address }

/-! ## Adding fields -/

/-- The rule that `added` breaks beside a field that the register has. -/
def clash? (register : Register) (added existing : Field) : Option Conflict :=
  if existing.name == added.name then some (.duplicateField register.name added.name)
  else if existing.overlaps added then
    some (.fieldsOverlap register.name added.name added.bits existing.name existing.bits)
  else none

/-- The register with a field at its end. -/
def addField (register : Register) (added : Field) : Result Register :=
  match register.fields.findSome? (register.clash? added) with
  | some problem => conflict problem
  | none => .ok { register with fields := register.fields ++ [added] }

/-- The register with the fields of a list added one after the other, up to the
first that cannot be added, and the reason why that one cannot. -/
def addFields (register : Register) : List Field → Register × Result Unit
  | [] => (register, .ok ())
  | added :: rest =>
    match register.addField added with
    | .ok register => register.addFields rest
    | .error error => (register, .error error)

/-! ## What follows from a register -/

/-- The field with a name. -/
def field? (register : Register) (name : String) : Option Field :=
  register.fields.find? fun field => field.name == name

/-- The bits up to the highest field; none for a register without fields. -/
def usedWidth (register : Register) : Nat :=
  register.fields.foldl (fun width field => max width field.bits.above) 0

/-- The value that the register's storage takes on reset.  What is driven by
hardware has no storage and does not count. -/
def resetValue (register : Register) : Nat :=
  (register.fields.filter fun field => !field.isHardwareDriven).foldl
    (fun value field => value ||| (field.initial <<< field.bits.lsb)) 0

end Register

end RegisterBank
