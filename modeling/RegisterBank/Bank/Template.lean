import RegisterBank.Bus.Protocol
import RegisterBank.Field

/-!
# Hardware templates of bit fields

Every bit field is built after one of a few templates, which its access mode
and its modifiers decide.  The hardware description and the cycle model both
follow the template.
-/

namespace RegisterBank.Bank

/-! ## States -/

/-- State of a field that clears itself. -/
inductive SelfClearState where
  | idle
  /-- The written value is held for this one cycle. -/
  | asserted
  deriving DecidableEq, Repr

namespace SelfClearState

/-- Every state, in the order of the encodings. -/
def all : List SelfClearState := [idle, asserted]

/-- The state after a clock edge.  While the field is asserted a write is
ignored. -/
def next (state : SelfClearState) (write : Bool) : SelfClearState :=
  match state with
  | .idle => if write then .asserted else .idle
  | .asserted => .idle

/-- The constant for the state in the hardware description. -/
def constant : SelfClearState → String
  | .idle => "SC_IDLE"
  | .asserted => "SC_ASSERTED"

/-- The value of the constant. -/
def encoding : SelfClearState → Nat
  | .idle => 0
  | .asserted => 1

end SelfClearState

/-- State of a field that is written once. -/
inductive WriteOnceState where
  /-- No write has landed since reset. -/
  | unlocked
  /-- A write has landed, and further ones are dropped until reset. -/
  | locked
  deriving DecidableEq, Repr

namespace WriteOnceState

/-- Every state, in the order of the encodings. -/
def all : List WriteOnceState := [unlocked, locked]

/-- The state after a clock edge. -/
def next (state : WriteOnceState) (write : Bool) : WriteOnceState :=
  match state with
  | .unlocked => if write then .locked else .unlocked
  | .locked => .locked

/-- Whether a write takes effect. -/
def acceptsWrite (state : WriteOnceState) : Bool := state == .unlocked

/-- The constant for the state in the hardware description. -/
def constant : WriteOnceState → String
  | .unlocked => "WO_OPEN"
  | .locked => "WO_LOCKED"

/-- The value of the constant. -/
def encoding : WriteOnceState → Nat
  | .unlocked => 0
  | .locked => 1

end WriteOnceState

/-! ## Templates -/

/-- Hardware template of a bit field. -/
inductive Template where
  /-- Read-only, driven by a hardware input without storage. -/
  | hardwareDriven
  /-- Read-only and cleared by reads: input bits pile up until the field is
  read. -/
  | sticky
  /-- A level that the bus writes.  A write that is accepted in the same cycle
  as a clearing read wins. -/
  | stored (readClear writeOnce : Bool)
  /-- A level that holds a write for one cycle. -/
  | selfClearing
  /-- A pulse during the write; nothing is stored. -/
  | pulse
  deriving DecidableEq, Repr

namespace Template

/-- The template of a field. -/
def ofField (field : Field) : Template :=
  if field.has .writePulse then .pulse
  else if field.has .selfClear then .selfClearing
  else if field.isHardwareDriven then .hardwareDriven
  else if !field.access.isWritable then .sticky
  else .stored (field.has .readClear) (field.has .writeOnce)

/-- Direction of the hardware-side port. -/
def direction : Template → Bus.Direction
  | .hardwareDriven | .sticky => .input
  | .stored _ _ | .selfClearing | .pulse => .output

/-- The end of the port's name. -/
def portSuffix (template : Template) : String :=
  match template.direction with
  | .input => "_in"
  | .output => "_out"

/-- Whether the field has flip-flops for its value. -/
def isStored : Template → Bool
  | .hardwareDriven | .pulse => false
  | .sticky | .stored _ _ | .selfClearing => true

/-- Whether the field is written once. -/
def isWriteOnce : Template → Bool
  | .stored _ writeOnce => writeOnce
  | _ => false

/-- Whether the field has a state beside its value. -/
def hasState (template : Template) : Bool := template == .selfClearing || template.isWriteOnce

end Template

/-- Whether reading the field gives its value rather than the filler. -/
def readsBack (field : Field) : Bool :=
  field.access.isReadable && Template.ofField field != .pulse

end RegisterBank.Bank
