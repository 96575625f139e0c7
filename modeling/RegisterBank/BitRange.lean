import RegisterBank.Bits

/-!
# Bit ranges

A contiguous run of bits in a register, given by its least significant bit and
its width.
-/

namespace RegisterBank

/-- The bits `lsb` to `lsb + width - 1`. -/
structure BitRange where
  lsb : Nat
  width : Nat
  deriving DecidableEq, Repr

namespace BitRange

/-- The most significant bit of the range. -/
def msb (range : BitRange) : Nat := range.lsb + range.width - 1

/-- The first bit above the range. -/
def above (range : BitRange) : Nat := range.lsb + range.width

/-- The bits of the range within the register. -/
def mask (range : BitRange) : Nat := Bits.ones range.width <<< range.lsb

/-- Whether two ranges share a bit. -/
def overlaps (range other : BitRange) : Bool := range.mask &&& other.mask != 0

/-- The range in brackets, as hardware description writes it: one index for a
single bit, both ends otherwise. -/
def text (range : BitRange) : String :=
  if range.width = 1 then s!"[{range.lsb}]" else s!"[{range.msb}:{range.lsb}]"

end BitRange

end RegisterBank
