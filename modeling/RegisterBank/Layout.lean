import RegisterBank.RegisterMap

/-!
# Layouts

A layout gives every register of a map its address.  Registers are placed in
declaration order: an explicit address is kept, and a register without one gets
the first multiple of the increment above all addresses used so far.  No two
registers may end up at one address.
-/

namespace RegisterBank

/-- A register at its address. -/
structure PlacedRegister where
  register : Register
  address : Nat
  deriving DecidableEq, Repr

/-- A bit field with its position. -/
structure PlacedField where
  field : Field
  /-- The address of the field's register. -/
  address : Nat
  lsb : Nat
  msb : Nat
  deriving DecidableEq, Repr

namespace PlacedRegister

/-- The register's name. -/
def name (placed : PlacedRegister) : String := placed.register.name

/-- The register's fields with their positions. -/
def fields (placed : PlacedRegister) : List PlacedField :=
  placed.register.fields.map fun field =>
    ⟨field, placed.address, field.bits.lsb, field.bits.msb⟩

/-- The first bit of a field, counted from bit 0 of address 0. -/
def absoluteBit (placed : PlacedRegister) (field : Field) : Nat :=
  placed.address * 8 + field.bits.lsb

end PlacedRegister

/-- A register map whose registers all have an address. -/
structure Layout where
  map : RegisterMap
  dataWidth : Nat
  addressWidth : Nat
  registers : List PlacedRegister
  deriving DecidableEq, Repr

namespace Layout

/-- One more than the greatest address. -/
def addressLimit : Nat := Nat.pow 2 64

/-- The first multiple of the increment above an address. -/
def nextAddress? (increment highest : Nat) : Option Nat :=
  let next := (highest / increment + 1) * increment
  if increment ≠ 0 ∧ next < addressLimit then some next else none

/-- The address that a register asks for after those already placed. -/
def requestedAddress (config : Configuration) (placed : List PlacedRegister)
    (register : Register) : Result Nat :=
  match register.address with
  | some address =>
    if address % config.addressIncrement ≠ 0 then
      conflict (.misaligned register.name address config.addressIncrement)
    else .ok address
  | none =>
    match (placed.map PlacedRegister.address).max? with
    | none => .ok 0
    | some highest =>
      match nextAddress? config.addressIncrement highest with
      | some address => .ok address
      | none => conflict (.noAddressLeft register.name highest)

/-- A register at its address after those already placed. -/
def place (config : Configuration) (placed : List PlacedRegister) (register : Register) :
    Result PlacedRegister :=
  match requestedAddress config placed register with
  | .error error => .error error
  | .ok address =>
    if !Bits.fits address config.addressWidth then
      conflict (.addressTooLarge register.name address config.addressWidth)
    else
      match placed.find? fun other => other.address == address with
      | some other =>
        conflict (.sameAddress other.name register.name address config.addressWidth)
      | none => .ok ⟨register, address⟩

/-- The registers of a list placed after those of `placed`, up to the first
that cannot be placed, and the reason why that one cannot. -/
def placeAll (config : Configuration) (placed : List PlacedRegister) :
    List Register → List PlacedRegister × Result Unit
  | [] => (placed, .ok ())
  | register :: rest =>
    match place config placed register with
    | .ok next => placeAll config (placed ++ [next]) rest
    | .error error => (placed, .error error)

/-- The registers of a map that can be placed before the first that cannot. -/
def placements (map : RegisterMap) : List PlacedRegister × Result Unit :=
  placeAll map.config [] map.registers

/-- The layout of a map. -/
def resolve (map : RegisterMap) : Result Layout :=
  match placements map with
  | (_, .error error) => .error error
  | (registers, .ok ()) => .ok ⟨map, map.config.dataWidth, map.config.addressWidth, registers⟩

/-- The configuration of the map. -/
def config (layout : Layout) : Configuration := layout.map.config

/-- The register with a name. -/
def register? (layout : Layout) (name : String) : Option PlacedRegister :=
  layout.registers.find? fun placed => placed.name == name

/-- The register at an address. -/
def at? (layout : Layout) (address : Nat) : Option PlacedRegister :=
  layout.registers.find? fun placed => placed.address == address

end Layout

end RegisterBank
