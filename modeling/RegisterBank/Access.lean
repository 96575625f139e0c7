/-!
# Access modes and modifiers

What software may do with a bit field, seen from the bus, and the behaviour
the hardware attaches to it.
-/

namespace RegisterBank

/-- Software access to a bit field. -/
inductive Access where
  | readWrite
  | readOnly
  | writeOnly
  deriving DecidableEq, Repr

namespace Access

/-- The word a document uses for the mode. -/
def word : Access → String
  | .readWrite => "rw"
  | .readOnly => "ro"
  | .writeOnly => "wo"

/-- The mode a document names. -/
def ofWord? (word : String) : Option Access :=
  [readWrite, readOnly, writeOnly].find? fun access => access.word == word

/-- Whether the bus may read the field. -/
def isReadable : Access → Bool
  | .readWrite | .readOnly => true
  | .writeOnly => false

/-- Whether the bus may write the field. -/
def isWritable : Access → Bool
  | .readWrite | .writeOnly => true
  | .readOnly => false

end Access

/-- Hardware behaviour attached to a bit field. -/
inductive Modifier where
  /-- The field holds a written value for one cycle, then reverts to zero. -/
  | selfClear
  /-- A write makes a pulse of one cycle and stores nothing. -/
  | writePulse
  /-- Reading the field clears it. -/
  | readClear
  /-- Only the first write after reset takes effect. -/
  | writeOnce
  deriving DecidableEq, Repr

namespace Modifier

/-- Every modifier, in the order in which sets of modifiers are listed. -/
def all : List Modifier := [selfClear, writePulse, readClear, writeOnce]

/-- The word a document uses for the modifier. -/
def word : Modifier → String
  | .selfClear => "self_clear"
  | .writePulse => "write_pulse"
  | .readClear => "read_clear"
  | .writeOnce => "write_once"

/-- The modifier a document names. -/
def ofWord? (word : String) : Option Modifier :=
  all.find? fun modifier => modifier.word == word

/-- Whether the modifier acts on writes and so needs a writable field. -/
def needsWrite : Modifier → Bool
  | .selfClear | .writePulse | .writeOnce => true
  | .readClear => false

/-- Pairs of modifiers that no field may combine, in the order in which they
are looked for. -/
def exclusivePairs : List (Modifier × Modifier) :=
  [(selfClear, writePulse), (selfClear, writeOnce), (writePulse, writeOnce),
    (selfClear, readClear), (writePulse, readClear)]

end Modifier

/-- A set of modifiers, one flag for each. -/
structure Modifiers where
  selfClear : Bool
  writePulse : Bool
  readClear : Bool
  writeOnce : Bool
  deriving DecidableEq, Repr

namespace Modifiers

/-- No modifier. -/
def none : Modifiers := ⟨false, false, false, false⟩

/-- Whether the set holds a modifier. -/
def has (set : Modifiers) : Modifier → Bool
  | .selfClear => set.selfClear
  | .writePulse => set.writePulse
  | .readClear => set.readClear
  | .writeOnce => set.writeOnce

/-- The set with one modifier more. -/
def insert (set : Modifiers) : Modifier → Modifiers
  | .selfClear => { set with selfClear := true }
  | .writePulse => { set with writePulse := true }
  | .readClear => { set with readClear := true }
  | .writeOnce => { set with writeOnce := true }

/-- The set with the modifiers of a list added. -/
def insertAll (set : Modifiers) (modifiers : List Modifier) : Modifiers :=
  modifiers.foldl insert set

/-- The modifiers of the set in their listing order. -/
def toList (set : Modifiers) : List Modifier := Modifier.all.filter set.has

/-- The words of the modifiers in their listing order. -/
def words (set : Modifiers) : List String := set.toList.map Modifier.word

end Modifiers

end RegisterBank
