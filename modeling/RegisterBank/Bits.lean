/-!
# Bit ranges of a bus word

Register values, bus data and byte strobes are natural numbers read in binary.
No bus is wider than 64 bits, so a mask never grows beyond `ones 64`, and each
operation below is described bit by bit: `Nat.testBit` is the view in which
they are compared.
-/

namespace RegisterBank.Bits

/-- The widest word any bus carries, in bits. -/
def wordWidth : Nat := 64

/-- A number whose low `width` bits are set, and no more than 64 of them. -/
def ones (width : Nat) : Nat := Nat.pow 2 (min width wordWidth) - 1

/-- The bits of `mask` switched off in `word`. -/
def clear (word mask : Nat) : Nat := word ^^^ (word &&& mask)

/-- `word` with the bits of `mask` taken from `incoming`. -/
def merge (word incoming mask : Nat) : Nat := clear word mask ||| (incoming &&& mask)

/-- The `width` bits of `word` starting at bit `lsb`, moved down to bit 0. -/
def extract (word lsb width : Nat) : Nat := (word >>> lsb) &&& ones width

/-- `word` with the `width` bits starting at bit `lsb` replaced by `value`. -/
def insert (word value lsb width : Nat) : Nat :=
  clear word (ones width <<< lsb) ||| (value <<< lsb)

/-- Byte strobes spread out to a bit mask: strobe `i` covers bits `8 * i` to
`8 * i + 7`.  A word has eight bytes, so higher strobes select nothing. -/
def strobeMask (strobe : Nat) : Nat :=
  (List.range 8).foldl
    (fun mask byte => if strobe.testBit byte then mask ||| (0xff <<< (byte * 8)) else mask) 0

/-- Whether `value` has no bit at or above `width`. -/
def fits (value width : Nat) : Bool := clear value (ones width) == 0

end RegisterBank.Bits
