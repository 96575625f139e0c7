import Mathlib.Data.Nat.Bitwise
import RegisterBank.Bits

/-!
# Bus words bit by bit

Every operation of `RegisterBank.Bits` seen through `Nat.testBit`, and the
bounds that follow.  Nothing after this module opens the operations: an
equation between words is proved by comparing bits, and a bound by showing
that all bits from some index on are off.
-/

namespace RegisterBank.Bits

/-! ## Masks -/

theorem ones_eq (width : Nat) : ones width = 2 ^ min width wordWidth - 1 := rfl

/-- Masks are of 64 bits at most. -/
theorem testBit_ones (width i : Nat) :
    (ones width).testBit i = decide (i < min width wordWidth) := by
  rw [ones_eq]
  exact Nat.testBit_two_pow_sub_one _ _

theorem testBit_clear (word mask i : Nat) :
    (clear word mask).testBit i = (word.testBit i && !mask.testBit i) := by
  rw [clear, Nat.testBit_xor, Nat.testBit_and]
  cases word.testBit i <;> cases mask.testBit i <;> rfl

/-- Merging takes the bits under the mask and keeps the others. -/
theorem testBit_merge (word incoming mask i : Nat) :
    (merge word incoming mask).testBit i =
      if mask.testBit i then incoming.testBit i else word.testBit i := by
  rw [merge, Nat.testBit_or, testBit_clear, Nat.testBit_and]
  cases mask.testBit i <;> cases word.testBit i <;> cases incoming.testBit i <;> rfl

/-- Masked bits are switched off by inverting the mask within the width. -/
theorem and_invert_or_eq_merge {word width : Nat} (bound : word < 2 ^ width)
    (narrow : width ≤ wordWidth) (incoming mask : Nat) :
    word &&& (ones width ^^^ mask) ||| incoming &&& mask = merge word incoming mask := by
  rw [merge]
  congr 1
  apply Nat.eq_of_testBit_eq
  intro i
  rw [testBit_clear, Nat.testBit_and, Nat.testBit_xor, testBit_ones, Nat.min_eq_left narrow]
  by_cases inside : i < width
  · rw [decide_eq_true inside, Bool.true_xor]
  · have off : word.testBit i = false :=
      Nat.testBit_lt_two_pow
        (Nat.lt_of_lt_of_le bound (Nat.pow_le_pow_right (by omega) (Nat.le_of_not_lt inside)))
    rw [off, Bool.false_and, Bool.false_and]

/-- A word has no bit at or above a width that bounds it. -/
theorem testBit_of_lt {word width i : Nat} (bound : word < 2 ^ width) (high : width ≤ i) :
    word.testBit i = false :=
  Nat.testBit_lt_two_pow (Nat.lt_of_lt_of_le bound (Nat.pow_le_pow_right (by omega) high))

/-! ## Extracting and inserting -/

/-- Bits are moved down to the start and cut to their width. -/
theorem testBit_extract (word lsb width i : Nat) :
    (extract word lsb width).testBit i =
      (word.testBit (lsb + i) && decide (i < min width wordWidth)) := by
  rw [extract, Nat.testBit_and, Nat.testBit_shiftRight, testBit_ones]

/-- A field's bits replaced in a word: inside the field the value counts, and
outside it the word, as long as the value stays inside the field. -/
theorem testBit_insert {value width : Nat} (bound : value < 2 ^ width)
    (narrow : width ≤ wordWidth) (word lsb i : Nat) :
    (insert word value lsb width).testBit i =
      if lsb ≤ i ∧ i < lsb + width then value.testBit (i - lsb) else word.testBit i := by
  rw [insert, Nat.testBit_or, testBit_clear, Nat.testBit_shiftLeft, Nat.testBit_shiftLeft,
    testBit_ones, Nat.min_eq_left narrow]
  by_cases low : lsb ≤ i
  · by_cases high : i < lsb + width
    · have inside : i - lsb < width := by omega
      simp [low, high, inside]
    · have outside : ¬ i - lsb < width := by omega
      have clear : value.testBit (i - lsb) = false := testBit_of_lt bound (by omega)
      simp [low, high, outside, clear]
  · simp [low]

/-! ## Byte strobes -/

theorem testBit_byte (byte i : Nat) :
    ((0xff : Nat) <<< (byte * 8)).testBit i = decide (i / 8 = byte) := by
  have ones : (0xff : Nat) = 2 ^ 8 - 1 := rfl
  rw [Nat.testBit_shiftLeft, ones, Nat.testBit_two_pow_sub_one]
  by_cases low : byte * 8 ≤ i
  · by_cases high : i - byte * 8 < 8
    · have inside : i / 8 = byte := by omega
      simp [low, high, inside]
    · have outside : ¬ i / 8 = byte := by omega
      simp [high, outside]
  · have outside : ¬ i / 8 = byte := by omega
    simp [low, outside]

/-- By induction on the bytes: each adds its eight bits if it is strobed. -/
theorem testBit_strobes (strobe i : Nat) (bytes : List Nat) (mask : Nat) :
    (bytes.foldl
        (fun mask byte => if strobe.testBit byte then mask ||| (0xff <<< (byte * 8)) else mask)
        mask).testBit i =
      (mask.testBit i || (decide (i / 8 ∈ bytes) && strobe.testBit (i / 8))) := by
  induction bytes generalizing mask with
  | nil => simp
  | cons byte rest ih =>
    rw [List.foldl_cons, ih]
    by_cases here : i / 8 = byte
    · subst here
      cases set : strobe.testBit (i / 8)
      · simp
      · rw [if_pos rfl, Nat.testBit_or, testBit_byte]
        simp
    · cases set : strobe.testBit byte
      · simp [here]
      · rw [if_pos rfl, Nat.testBit_or, testBit_byte]
        simp [here]

/-- A bit of a write is strobed if its byte is, and if it lies in the widest
word. -/
theorem testBit_strobeMask (strobe i : Nat) :
    (strobeMask strobe).testBit i = (decide (i < wordWidth) && strobe.testBit (i / 8)) := by
  rw [strobeMask, testBit_strobes, Nat.zero_testBit, Bool.false_or]
  have range : i / 8 ∈ List.range 8 ↔ i < wordWidth := by
    rw [List.mem_range, wordWidth]
    omega
  rw [decide_eq_decide.mpr range]

/-! ## Bounds -/

theorem ones_lt (width : Nat) : ones width < 2 ^ width := by
  have positive := Nat.two_pow_pos (min width wordWidth)
  have narrower : 2 ^ min width wordWidth ≤ 2 ^ width :=
    Nat.pow_le_pow_right (by omega) (Nat.min_le_left _ _)
  rw [ones_eq]
  omega

theorem and_ones_lt (word width : Nat) : word &&& ones width < 2 ^ width :=
  Nat.and_lt_two_pow word (ones_lt width)

/-- Cutting a word that fits changes nothing. -/
theorem and_ones_of_lt {word width : Nat} (bound : word < 2 ^ width)
    (narrow : width ≤ wordWidth) : word &&& ones width = word := by
  rw [ones_eq, Nat.min_eq_left narrow, Nat.and_two_pow_sub_one_eq_mod, Nat.mod_eq_of_lt bound]

theorem extract_lt (word lsb width : Nat) : extract word lsb width < 2 ^ width :=
  and_ones_lt _ _

/-- Merging adds no bit above its operands. -/
theorem merge_lt {word incoming mask width : Nat} (kept : word < 2 ^ width)
    (taken : incoming < 2 ^ width) : merge word incoming mask < 2 ^ width := by
  apply Nat.lt_pow_two_of_testBit
  intro i high
  rw [testBit_merge, testBit_of_lt kept high, testBit_of_lt taken high, ite_self]

/-- A value inside its range stays below the end of the word. -/
theorem insert_lt {word value lsb width total : Nat} (narrow : width ≤ wordWidth)
    (kept : word < 2 ^ total) (bound : value < 2 ^ width) (inside : lsb + width ≤ total) :
    insert word value lsb width < 2 ^ total := by
  apply Nat.lt_pow_two_of_testBit
  intro i high
  have outside : ¬ (lsb ≤ i ∧ i < lsb + width) := by omega
  rw [testBit_insert bound narrow, if_neg outside, testBit_of_lt kept high]

theorem fits_iff {value width : Nat} (narrow : width ≤ wordWidth) :
    fits value width = true ↔ value < 2 ^ width := by
  rw [fits, beq_iff_eq]
  constructor
  · intro none
    apply Nat.lt_pow_two_of_testBit
    intro i high
    have off : (clear value (ones width)).testBit i = false := by rw [none, Nat.zero_testBit]
    rw [testBit_clear, testBit_ones, Nat.min_eq_left narrow] at off
    have above : ¬ i < width := by omega
    simpa [above] using off
  · intro bound
    rw [clear, and_ones_of_lt bound narrow, Nat.xor_self]

end RegisterBank.Bits
