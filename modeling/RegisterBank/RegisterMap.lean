import RegisterBank.Configuration
import RegisterBank.Register

/-!
# Register maps

A register map is a list of registers with the configuration they were checked
against.  Its registers have different names, their fields fit the data bus,
and explicit addresses are multiples of the increment, fit the address bus and
differ.  Registers without an address get theirs when the map is laid out.
-/

namespace RegisterBank

/-- A list of registers with their configuration. -/
structure RegisterMap where
  config : Configuration
  registers : List Register
  deriving DecidableEq, Repr

namespace RegisterMap

/-- A map without registers. -/
def empty (config : Configuration) : RegisterMap := ⟨config, []⟩

/-- The register with a name. -/
def register? (map : RegisterMap) (name : String) : Option Register :=
  map.registers.find? fun register => register.name == name

/-! ## Adding registers -/

/-- The rule about a field and the data bus that `added` breaks. -/
def fieldProblem? (map : RegisterMap) (added : Register) (field : Field) : Option Conflict :=
  if field.bits.msb ≥ map.config.dataWidth then
    some (.fieldExceedsBus added.name field.name field.bits map.config.dataWidth)
  else none

/-- The rule about explicit addresses that `added` breaks. -/
def addressProblem? (map : RegisterMap) (added : Register) : Option Conflict :=
  match added.address with
  | none => none
  | some address =>
    if address % map.config.addressIncrement ≠ 0 then
      some (.misaligned added.name address map.config.addressIncrement)
    else if !Bits.fits address map.config.addressWidth then
      some (.addressTooLarge added.name address map.config.addressWidth)
    else
      match map.registers.find? fun register => register.address == some address with
      | some other => some (.sharedAddress other.name added.name address)
      | none => none

/-- The first rule that `added` breaks in the map. -/
def problem? (map : RegisterMap) (added : Register) : Option Conflict :=
  if (map.register? added.name).isSome then some (.duplicateRegister added.name)
  else
    match added.fields.findSome? (map.fieldProblem? added) with
    | some problem => some problem
    | none => map.addressProblem? added

/-- The map with a register at its end. -/
def addRegister (map : RegisterMap) (added : Register) : Result RegisterMap :=
  match map.problem? added with
  | some problem => conflict problem
  | none => .ok { map with registers := map.registers ++ [added] }

/-- The map with the registers of a list added one after the other, up to the
first that cannot be added, and the reason why that one cannot. -/
def addRegisters (map : RegisterMap) : List Register → RegisterMap × Result Unit
  | [] => (map, .ok ())
  | added :: rest =>
    match map.addRegister added with
    | .ok map => map.addRegisters rest
    | .error error => (map, .error error)

/-! ## The starter map -/

/-- The first register of the starter map. -/
def spam : Result Register := do
  let foo ← (← Field.make "foo" 0 7 .readWrite).withDescription "Bit field foo" |>.withInitial 42
  let bar ← (← Field.make "bar" 24 1 .writeOnly).withDescription "Bit field bar"
    |>.withModifier .selfClear
  let register := (← Register.make "spam").withDescription "Register spam" |>.withAddress 0
  (← register.addField foo).addField bar

/-- The second register of the starter map. -/
def eggs : Result Register := do
  let baz := (← Field.make "baz" 16 16 .readOnly).withDescription "Bit field baz"
  let register := (← Register.make "eggs").withDescription "Register eggs" |>.withAddress 4
  register.addField baz

/-- The map from which new documents start. -/
def template (config : Configuration) : Result RegisterMap := do
  let (map, result) := (empty config).addRegisters [← spam, ← eggs]
  result
  return map

end RegisterMap

end RegisterBank
