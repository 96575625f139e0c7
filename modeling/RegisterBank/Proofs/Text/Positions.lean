import Mathlib.Data.List.Induction
import RegisterBank.Text.Position

/-!
# Positions mark offsets

The line of an offset is counted from the front and its column is searched from
the back; both have to meet at the start of the line.  They do because a
position can be carried along the text as well: `Position.advance` moves it over
one byte, and `Marks`, which says what a position tells of an offset, survives
each such step.  `locate?` makes the cut, the search and the difference of a
position one by one, each of which fails out of range, and never does fail.
-/

namespace RegisterBank.Text

/-! ## Byte by byte -/

/-- The position behind one more byte. -/
def Position.advance (position : Position) (byte : UInt8) : Position :=
  if byte = newlineByte then ⟨position.line + 1, 1⟩ else ⟨position.line, position.column + 1⟩

/-- One more byte moves the position one step on. -/
theorem positionAfter_concat (before : List UInt8) (byte : UInt8) :
    positionAfter (before ++ [byte]) = (positionAfter before).advance byte := by
  unfold positionAfter Position.advance
  rw [List.count_append, List.count_singleton, List.reverse_concat]
  by_cases newline : byte = newlineByte
  · subst newline
    rw [if_pos rfl, List.takeWhile_cons_of_neg (by simp)]
    simp
  · rw [if_neg newline, List.takeWhile_cons_of_pos (by simpa using newline)]
    simp [newline]

section Bytes

variable {bytes : List UInt8} {offset : Nat} {byte : UInt8}

theorem take_succ_of_getElem? (here : bytes[offset]? = some byte) :
    bytes.take (offset + 1) = bytes.take offset ++ [byte] := by
  rw [List.take_add_one, here]
  rfl

theorem positionAfter_take_succ (here : bytes[offset]? = some byte) :
    positionAfter (bytes.take (offset + 1)) =
      (positionAfter (bytes.take offset)).advance byte := by
  rw [take_succ_of_getElem? here, positionAfter_concat]

/-! ## Lines -/

/-- No line ends from `start` up to, and without, `stop`. -/
def Unbroken (bytes : List UInt8) (start stop : Nat) : Prop :=
  ∀ place, start ≤ place → place < stop → bytes[place]? ≠ some newlineByte

/-- Where the lines start: the first with the text, and each other one behind the
newline that ends the line before it. -/
inductive LineStart (bytes : List UInt8) : Nat → Nat → Prop
  | first : LineStart bytes 1 0
  | next {line start stop : Nat} :
    LineStart bytes line start → start ≤ stop → Unbroken bytes start stop →
    bytes[stop]? = some newlineByte → LineStart bytes (line + 1) (stop + 1)

/-- What a position tells of an offset. -/
structure Marks (bytes : List UInt8) (offset : Nat) (position : Position) : Prop where
  line_pos : 1 ≤ position.line
  column_pos : 1 ≤ position.column
  column_le : position.column - 1 ≤ offset
  newlines : (bytes.take offset).count newlineByte = position.line - 1
  starts : LineStart bytes position.line (offset - (position.column - 1))
  unbroken : Unbroken bytes (offset - (position.column - 1)) offset

theorem Unbroken.refl (bytes : List UInt8) (start : Nat) : Unbroken bytes start start := by
  intro place after before
  omega

/-- A line goes on over each byte that does not end it. -/
theorem Unbroken.succ {start : Nat} (unbroken : Unbroken bytes start offset)
    (here : bytes[offset]? = some byte) (other : byte ≠ newlineByte) :
    Unbroken bytes start (offset + 1) := by
  intro place after before
  rcases Nat.lt_succ_iff_lt_or_eq.mp before with earlier | rfl
  · exact unbroken place after earlier
  · rw [here]
    exact fun newline => other (Option.some.inj newline)

/-- A text starts at line 1, column 1. -/
theorem Marks.first (bytes : List UInt8) : Marks bytes 0 ⟨1, 1⟩ where
  line_pos := Nat.le_refl 1
  column_pos := Nat.le_refl 1
  column_le := Nat.le_refl 0
  newlines := rfl
  starts := .first
  unbroken := .refl bytes 0

/-- Behind a line break the next line starts. -/
theorem Marks.newline {position : Position} (marks : Marks bytes offset position)
    (here : bytes[offset]? = some newlineByte) :
    Marks bytes (offset + 1) ⟨position.line + 1, 1⟩ where
  line_pos := Nat.le_add_left 1 _
  column_pos := Nat.le_refl 1
  column_le := Nat.zero_le _
  newlines := by
    rw [take_succ_of_getElem? here, List.count_append, marks.newlines, List.count_singleton_self]
    exact Nat.sub_add_cancel marks.line_pos
  starts := .next marks.starts (Nat.sub_le _ _) marks.unbroken here
  unbroken := .refl bytes (offset + 1)

/-- Within a line the start stays where it is, one more byte away. -/
theorem Marks.within {position : Position} (marks : Marks bytes offset position)
    (here : bytes[offset]? = some byte) (other : byte ≠ newlineByte) :
    Marks bytes (offset + 1) ⟨position.line, position.column + 1⟩ := by
  have column_pos := marks.column_pos
  have column_le := marks.column_le
  have start : offset + 1 - (position.column + 1 - 1) = offset - (position.column - 1) := by omega
  refine ⟨marks.line_pos, Nat.le_add_left 1 _, ?column_le, ?newlines, ?starts, ?unbroken⟩
  case column_le =>
    dsimp only
    omega
  case newlines =>
    rw [take_succ_of_getElem? here, List.count_append, marks.newlines,
      List.count_singleton, beq_eq_false_iff_ne.mpr other]
    rfl
  case starts =>
    rw [start]
    exact marks.starts
  case unbroken =>
    rw [start]
    exact marks.unbroken.succ here other

/-- A step keeps the position right, whichever byte it goes over. -/
theorem Marks.advance {position : Position} (marks : Marks bytes offset position)
    (here : bytes[offset]? = some byte) : Marks bytes (offset + 1) (position.advance byte) := by
  unfold Position.advance
  split
  · rename_i newline
    exact marks.newline (newline ▸ here)
  · rename_i other
    exact marks.within here other

/-- By induction on the offset: counting line breaks marks the offset. -/
theorem marks_positionAfter (within : offset ≤ bytes.length) :
    Marks bytes offset (positionAfter (bytes.take offset)) := by
  induction offset with
  | zero => exact .first bytes
  | succ offset ih =>
    have here := List.getElem?_eq_getElem within
    rw [positionAfter_take_succ here]
    exact (ih (Nat.le_of_succ_le within)).advance here

/-! ## One position for each offset -/

/-- Each line but the first starts behind a line break. -/
theorem LineStart.opens {line start : Nat} (starts : LineStart bytes line start)
    (later : 0 < start) : bytes[start - 1]? = some newlineByte := by
  cases starts with
  | first => cases later
  | next _ _ _ ends => exact ends

/-- A line that starts behind the start of an unbroken stretch starts behind its
end as well. -/
theorem LineStart.le_of_unbroken {line start other : Nat} (starts : LineStart bytes line start)
    (unbroken : Unbroken bytes other offset) (within : start ≤ offset) : start ≤ other := by
  refine Nat.le_of_not_lt fun behind => ?_
  exact unbroken (start - 1) (by omega) (by omega) (starts.opens (by omega))

/-- An offset has one position only. -/
theorem Marks.unique {first second : Position} (marks : Marks bytes offset first)
    (others : Marks bytes offset second) : first = second := by
  have left := marks.starts.le_of_unbroken others.unbroken (Nat.sub_le _ _)
  have right := others.starts.le_of_unbroken marks.unbroken (Nat.sub_le _ _)
  obtain ⟨line_pos, column_pos, column_le, newlines, -, -⟩ := marks
  obtain ⟨line_pos', column_pos', column_le', newlines', -, -⟩ := others
  obtain ⟨line, column⟩ := first
  obtain ⟨line', column'⟩ := second
  dsimp only at *
  obtain rfl : line = line' := by omega
  obtain rfl : column = column' := by omega
  rfl

/-! ## The order of positions -/

/-- Positions in reading order: by lines, and by columns within a line. -/
def Position.Before (first second : Position) : Prop :=
  first.line < second.line ∨ first.line = second.line ∧ first.column < second.column

theorem Position.Before.trans {first second third : Position} (low : first.Before second)
    (high : second.Before third) : first.Before third := by
  unfold Position.Before at *
  omega

theorem Position.not_before_self (position : Position) : ¬ position.Before position := by
  unfold Position.Before
  omega

/-- Positions move forward with every byte. -/
theorem Position.before_advance (position : Position) (byte : UInt8) :
    position.Before (position.advance byte) := by
  unfold Position.advance
  split
  · exact .inl (Nat.lt_succ_self _)
  · exact .inr ⟨rfl, Nat.lt_succ_self _⟩

/-- So the position of a later offset comes behind. -/
theorem before_positionAfter {earlier later : Nat} (behind : earlier < later)
    (within : later ≤ bytes.length) :
    (positionAfter (bytes.take earlier)).Before (positionAfter (bytes.take later)) := by
  induction later with
  | zero => cases behind
  | succ later ih =>
    have here := List.getElem?_eq_getElem within
    have step := (positionAfter (bytes.take later)).before_advance bytes[later]
    rw [positionAfter_take_succ here]
    rcases Nat.lt_succ_iff_lt_or_eq.mp behind with earlier | rfl
    · exact (ih earlier (Nat.le_of_succ_le within)).trans step
    · exact step

end Bytes

/-! ## The steps of a search -/

/-- The bytes before `stop`, unless there are too few. -/
def bytesBefore? (bytes : List UInt8) (stop : Nat) : Option (List UInt8) :=
  if stop ≤ bytes.length then some (bytes.take stop) else none

/-- Where the last newline stands. -/
def lastNewline? : List UInt8 → Option Nat
  | [] => none
  | byte :: rest =>
    match lastNewline? rest with
    | some place => some (place + 1)
    | none => if byte = newlineByte then some 0 else none

/-- How far `place` is from `stop`, unless it is behind it. -/
def distance? (place stop : Nat) : Option Nat :=
  if place ≤ stop then some (stop - place) else none

/-- The column behind some bytes: the distance to the last newline. -/
def columnAfter? (before : List UInt8) : Option Nat :=
  match lastNewline? before with
  | some place => distance? place before.length
  | none => some (before.length + 1)

/-- The position of byte `offset`, nothing if a step is out of range.  Bytes are
cut and not characters, so the offset may be within one. -/
def locate? (text : String) (offset : Nat) : Option Position := do
  let bytes := text.toUTF8.toList
  let before ← bytesBefore? bytes (min offset bytes.length)
  let column ← columnAfter? before
  return ⟨before.count newlineByte + 1, column⟩

/-- The last line break is the new byte, or the one that was last before. -/
theorem lastNewline?_concat (before : List UInt8) (byte : UInt8) :
    lastNewline? (before ++ [byte]) =
      if byte = newlineByte then some before.length else lastNewline? before := by
  induction before with
  | nil => rfl
  | cons first rest ih =>
    rw [List.cons_append, lastNewline?, ih]
    by_cases newline : byte = newlineByte
    · rw [if_pos newline, if_pos newline]
      rfl
    · rw [if_neg newline, if_neg newline, lastNewline?]

/-- The search from the back finds the column that counting gives. -/
theorem columnAfter?_eq (before : List UInt8) :
    columnAfter? before = some (positionAfter before).column := by
  -- From the last byte back: it is a line break, or one more byte behind the last one.
  induction before using List.reverseRecOn with
  | nil => rfl
  | append_singleton before byte ih =>
    unfold columnAfter? distance? at ih ⊢
    rw [positionAfter_concat, lastNewline?_concat, List.length_append, List.length_singleton]
    unfold Position.advance
    by_cases newline : byte = newlineByte
    · rw [if_pos newline, if_pos newline]
      simp
    · rw [if_neg newline, if_neg newline]
      cases found : lastNewline? before with
      | none =>
        simp only [found, Option.some.injEq] at ih ⊢
        rw [ih]
      | some place =>
        simp only [found] at ih ⊢
        split at ih
        · rename_i within
          rw [if_pos (Nat.le_succ_of_le within), ← Option.some.inj ih, Nat.succ_sub within]
        · cases ih

/-- Cutting never fails once the offset is clamped to the text. -/
theorem bytesBefore?_min (bytes : List UInt8) (offset : Nat) :
    bytesBefore? bytes (min offset bytes.length) = some (bytes.take offset) := by
  unfold bytesBefore?
  rw [if_pos (Nat.min_le_right _ _)]
  exact congrArg some List.take_eq_take_min.symm

/-- Searching backward for the line break, step by step, gives the same position
and never fails. -/
theorem locate?_eq (text : String) (offset : Nat) :
    locate? text offset = some (lineColumn text offset) := by
  unfold locate?
  simp only [bytesBefore?_min, columnAfter?_eq]
  rfl

/-! ## Texts -/

theorem toList_loop_eq (bytes : ByteArray) (place : Nat) (read : List UInt8) :
    ByteArray.toList.loop bytes place read = read.reverse ++ bytes.data.toList.drop place := by
  fun_induction ByteArray.toList.loop bytes place read with
  | case1 place read inside ih =>
    have within : place < bytes.data.toList.length := inside
    have here : bytes.get! place = bytes.data.toList[place] :=
      getElem!_pos bytes.data place inside
    rw [ih, here, List.reverse_cons, List.append_assoc, List.drop_eq_getElem_cons within]
    rfl
  | case2 place read outside =>
    have done : bytes.data.toList.length ≤ place := Nat.le_of_not_lt outside
    rw [List.drop_eq_nil_of_le done, List.append_nil]

/-- Offsets count the bytes of a text. -/
theorem length_toUTF8 (text : String) : text.toUTF8.toList.length = text.utf8ByteSize :=
  congrArg List.length (toList_loop_eq text.toUTF8 0 [])

section Text

variable {text : String} {earlier later : Nat}

/-- An offset past the end is taken for the end. -/
theorem marks_lineColumn (text : String) (offset : Nat) :
    Marks text.toUTF8.toList (min offset text.utf8ByteSize) (lineColumn text offset) := by
  unfold lineColumn
  rw [List.take_eq_take_min, length_toUTF8]
  exact marks_positionAfter (length_toUTF8 text ▸ Nat.min_le_right _ _)

/-- Later offsets have later positions, also inside a character. -/
theorem lineColumn_before (behind : earlier < later) (within : later ≤ text.utf8ByteSize) :
    (lineColumn text earlier).Before (lineColumn text later) :=
  before_positionAfter behind (length_toUTF8 text ▸ within)

/-- Positions compare as their offsets do. -/
theorem lineColumn_before_iff (first : earlier ≤ text.utf8ByteSize)
    (second : later ≤ text.utf8ByteSize) :
    (lineColumn text earlier).Before (lineColumn text later) ↔ earlier < later := by
  refine ⟨fun before => ?_, fun behind => lineColumn_before behind second⟩
  rcases Nat.lt_trichotomy earlier later with behind | rfl | ahead
  · exact behind
  · exact absurd before (Position.not_before_self _)
  · exact absurd (before.trans (lineColumn_before ahead first)) (Position.not_before_self _)

/-- No two offsets of a text share a position. -/
theorem lineColumn_inj (first : earlier ≤ text.utf8ByteSize) (second : later ≤ text.utf8ByteSize) :
    lineColumn text earlier = lineColumn text later ↔ earlier = later := by
  refine ⟨fun same => ?_, fun same => same ▸ rfl⟩
  rcases Nat.lt_trichotomy earlier later with behind | equal | ahead
  · exact absurd (same ▸ lineColumn_before behind second) (Position.not_before_self _)
  · exact equal
  · exact absurd (same ▸ lineColumn_before ahead first) (Position.not_before_self _)

end Text

/-- **Positions identify offsets.**  No step of the search is out of range, and
what it finds is the one position that marks the offset.  Within a text the
positions have the order of their offsets, and other offsets have others. -/
theorem positions_identify (text : String) :
    (∀ offset, locate? text offset = some (lineColumn text offset) ∧
      ∀ position, lineColumn text offset = position ↔
        Marks text.toUTF8.toList (min offset text.utf8ByteSize) position) ∧
    ∀ earlier later, earlier ≤ text.utf8ByteSize → later ≤ text.utf8ByteSize →
      ((lineColumn text earlier).Before (lineColumn text later) ↔ earlier < later) ∧
      (lineColumn text earlier = lineColumn text later ↔ earlier = later) := by
  refine ⟨fun offset => ⟨locate?_eq text offset, fun position => ?_⟩, ?_⟩
  · constructor
    · rintro rfl
      exact marks_lineColumn text offset
    · exact (marks_lineColumn text offset).unique
  · intro earlier later first second
    exact ⟨lineColumn_before_iff first second, lineColumn_inj first second⟩

/-- From within a character of two bytes to behind an empty line. -/
theorem positions_identify_accent :
    1 ≤ "é\n\nx".utf8ByteSize ∧ 4 ≤ "é\n\nx".utf8ByteSize ∧
      lineColumn "é\n\nx" 1 = ⟨1, 2⟩ ∧ lineColumn "é\n\nx" 4 = ⟨3, 1⟩ ∧
      Position.Before ⟨1, 2⟩ ⟨3, 1⟩ := by
  have first : 1 ≤ "é\n\nx".utf8ByteSize := by decide
  have second : 4 ≤ "é\n\nx".utf8ByteSize := by decide
  have low : lineColumn "é\n\nx" 1 = ⟨1, 2⟩ := by decide +kernel
  have high : lineColumn "é\n\nx" 4 = ⟨3, 1⟩ := by decide +kernel
  have before := ((positions_identify "é\n\nx").2 1 4 first second).1.mpr (by decide)
  rw [low, high] at before
  exact ⟨first, second, low, high, before⟩

end RegisterBank.Text
