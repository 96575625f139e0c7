import RegisterBank.RegisterMap
import RegisterBank.Schema.Expect

/-!
# Register map documents

The document of a register map is a table whose one key holds a list of
registers, each a table with a list of bit fields.  Reading adds the registers
one after the other to an empty map, so a document is accepted exactly if the
map could be built by hand.  Writing lists explicit addresses only.
-/

namespace RegisterBank.Schema

open RegisterBank.Document

/-- The key of the list of registers. -/
def registersKey : String := "regmap"

/-- The keys of a register. -/
def registerKeys : List String := ["name", "description", "address", "bitfields"]

/-- The keys of a bit field. -/
def fieldKeys : List String :=
  ["name", "description", "lsb", "width", "access", "initial", "modifiers"]

/-! ## Reading -/

/-- An entry of a list, called by its name where it has one. -/
def entryPlace (base : Place) (index : Nat) (found : Tree) : Place :=
  base.entry index ((found.get? "name").bind Tree.text?)

/-- The description of a table, which may be left out. -/
def readDescription (place : Place) (entries : List (String × Tree)) : Result String :=
  match lookup? "description" entries with
  | some found => expectText (place.member "description") found
  | none => .ok ""

/-- The modifiers of a list, from a certain index on. -/
def readModifiers (base : Place) : Nat → List Tree → Result (List Modifier)
  | _, [] => .ok []
  | index, found :: rest => do
    let word ← expectText (base.entry index none) found
    let modifier ← orConfigError (.unknownModifier word) (Modifier.ofWord? word)
    return modifier :: (← readModifiers base (index + 1) rest)

/-- The bit field of an entry. -/
def readField (base : Place) (index : Nat) (found : Tree) : Result Field := do
  let place := entryPlace base index found
  let entries ← expectTable place found
  checkKeys place fieldKeys entries
  let name ← expectText (place.member "name") (← required place "name" entries)
  let lsb ← expectSmall (place.member "lsb") (← required place "lsb" entries)
  let width ← expectSmall (place.member "width") (← required place "width" entries)
  let accessWord ← expectText (place.member "access") (← required place "access" entries)
  let access ← orConfigError (.unknownAccess accessWord) (Access.ofWord? accessWord)
  let field ← Field.make name lsb width access
  let field := field.withDescription (← readDescription place entries)
  let field ← match lookup? "initial" entries with
    | some found => field.withInitial (← expectUnsigned (place.member "initial") found)
    | none => pure field
  match lookup? "modifiers" entries with
  | some found =>
    let base := place.member "modifiers"
    field.withModifiers (← readModifiers base 0 (← expectList base found))
  | none => pure field

/-- A register with the bit fields of a list added, from a certain index on. -/
def readFields (base : Place) (register : Register) : Nat → List Tree → Result Register
  | _, [] => .ok register
  | index, found :: rest => do
    let field ← readField base index found
    readFields base (← register.addField field) (index + 1) rest

/-- The register of an entry. -/
def readRegister (index : Nat) (found : Tree) : Result Register := do
  let place := entryPlace (.named registersKey) index found
  let entries ← expectTable place found
  checkKeys place registerKeys entries
  let name ← expectText (place.member "name") (← required place "name" entries)
  let register ← Register.make name
  let register := register.withDescription (← readDescription place entries)
  let register ← match lookup? "address" entries with
    | some found => pure (register.withAddress (← expectUnsigned (place.member "address") found))
    | none => pure register
  match lookup? "bitfields" entries with
  | some found =>
    let base := place.member "bitfields"
    readFields base register 0 (← expectList base found)
  | none => pure register

/-- A map with the registers of a list added, from a certain index on, up to
the first that cannot be read or added, and the reason why that one cannot. -/
def readRegisters (map : RegisterMap) : Nat → List Tree → RegisterMap × Result Unit
  | _, [] => (map, .ok ())
  | index, found :: rest =>
    match readRegister index found >>= map.addRegister with
    | .ok map => readRegisters map (index + 1) rest
    | .error error => (map, .error error)

/-- The map that a tree describes, as far as it can be read, and the reason if
it cannot be read to its end. -/
def readMapTree (document : String) (config : Configuration) (tree : Tree) :
    RegisterMap × Result Unit :=
  let empty := RegisterMap.empty config
  let items : Result (List Tree) := do
    let root ← expectTable (.named document) tree
    checkKeys (.named document) [registersKey] root
    match lookup? registersKey root with
    | none => pure []
    | some found => expectList (.named registersKey) found
  match items with
  | .ok items => readRegisters empty 0 items
  | .error error => (empty, .error error)

/-- The map that a text describes.  The document's name stands in errors. -/
def readMap (codec : Codec) (format : Format) (text document : String)
    (config : Configuration) : Result RegisterMap := do
  let (map, result) := readMapTree document config (← readTree codec format text document)
  result
  return map

/-! ## Writing -/

/-- The tree of a bit field. -/
def fieldTree (field : Field) : Tree :=
  .table
    [("name", .text field.name), ("description", .text field.description),
      ("lsb", .int field.bits.lsb), ("width", .int field.bits.width),
      ("access", .text field.access.word), ("initial", intTree field.initial),
      ("modifiers", .list (field.modifiers.words.map .text))]

/-- The tree of a register. -/
def registerTree (register : Register) : Tree :=
  let address := match register.address with
    | some address => [("address", intTree address)]
    | none => []
  .table
    ([("name", .text register.name), ("description", .text register.description)] ++ address
      ++ [("bitfields", .list (register.fields.map fieldTree))])

/-- The tree of a register map. -/
def mapTree (map : RegisterMap) : Tree :=
  .table [(registersKey, .list (map.registers.map registerTree))]

/-- The text of a register map. -/
def writeMap (codec : Codec) (format : Format) (map : RegisterMap) : Result String :=
  renderTree codec format (mapTree map) "register map"

end RegisterBank.Schema
