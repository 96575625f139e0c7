import RegisterBank.Bank.Plan
import RegisterBank.Proofs.Construction.Fields

/-!
# Tilings of a bus word

The segments of a read word are laid from the top of the bus word down.
`Tiles top` says that a list of segments covers the bits below `top` in this
way: each segment ends where the one before it started, none is empty, and the
last one starts at bit 0.  A word put together from such segments shows, at
every bit, the one segment that covers it.

`tiles_segmentsBelow` is the loop invariant of `segmentsBelow`: fields that
are listed from the highest down and do not overlap leave a tiling below the
bit they start from, whether or not there is room for a filler between them.
-/

namespace RegisterBank.Bank

namespace Segment

/-- The bits of a segment in the bus word. -/
def bits : Segment → BitRange
  | .field plan => plan.field.bits
  | .filler lsb width => ⟨lsb, width⟩

/-- The value of a segment: that of its field, or the filler's bits. -/
def value (fieldValue : FieldPlan → Nat) (readFiller : Nat) : Segment → Nat
  | .field plan => fieldValue plan
  | .filler lsb width => Bits.extract readFiller lsb width

end Segment

/-- Values of segments side by side, the first one highest. -/
def concatenate (value : Segment → Nat) : List Segment → Nat
  | [] => 0
  | segment :: rest =>
    (value segment <<< (rest.map fun other => other.bits.width).sum) ||| concatenate value rest

/-! ## Tilings -/

/-- Segments that cover the bits below `top` from the highest down, without a
gap. -/
inductive Tiles : Nat → List Segment → Prop
  | nil : Tiles 0 []
  | cons {top : Nat} {segment : Segment} {rest : List Segment} :
    0 < segment.bits.width → segment.bits.above = top → Tiles segment.bits.lsb rest →
    Tiles top (segment :: rest)

namespace Tiles

variable {top : Nat} {segments : List Segment}

/-- Tiles fill the word. -/
theorem sum_eq (tiles : Tiles top segments) :
    (segments.map fun segment => segment.bits.width).sum = top := by
  induction tiles with
  | nil => rfl
  | cons _ above _ ih =>
    rw [List.map_cons, List.sum_cons, ih, ← above, BitRange.above, Nat.add_comm]

theorem above_le (tiles : Tiles top segments) :
    ∀ segment ∈ segments, segment.bits.above ≤ top := by
  induction tiles with
  | nil =>
    intro segment listed
    cases listed
  | cons _ above _ ih =>
    intro segment listed
    rcases List.mem_cons.mp listed with rfl | listed
    · exact Nat.le_of_eq above
    · have lower := ih segment listed
      unfold BitRange.above at above
      omega

/-- Each bit of the word lies in a tile. -/
theorem exists_covers (tiles : Tiles top segments) {i : Nat} (inside : i < top) :
    ∃ segment ∈ segments, segment.bits.Covers i := by
  induction tiles with
  | nil => exact absurd inside (Nat.not_lt_zero i)
  | @cons top segment rest _ above _ ih =>
    by_cases low : segment.bits.lsb ≤ i
    · exact ⟨segment, List.mem_cons_self, low, by rw [above]; exact inside⟩
    · rcases ih (Nat.lt_of_not_le low) with ⟨other, listed, covers⟩
      exact ⟨other, List.mem_cons_of_mem _ listed, covers⟩

/-- No bit lies in two tiles. -/
theorem eq_of_covers (tiles : Tiles top segments) {segment other : Segment}
    (listed : segment ∈ segments) (otherListed : other ∈ segments) {i : Nat}
    (covers : segment.bits.Covers i) (otherCovers : other.bits.Covers i) : segment = other := by
  induction tiles with
  | nil => cases listed
  | cons _ _ tiles ih =>
    -- Nothing behind the first segment reaches up to it.
    have below := tiles.above_le
    rcases List.mem_cons.mp listed with rfl | behind
    · rcases List.mem_cons.mp otherListed with rfl | otherBehind
      · rfl
      · have low := below other otherBehind
        exact absurd (Nat.lt_of_lt_of_le otherCovers.2 low) (Nat.not_lt.mpr covers.1)
    · rcases List.mem_cons.mp otherListed with rfl | otherBehind
      · have low := below segment behind
        exact absurd (Nat.lt_of_lt_of_le covers.2 low) (Nat.not_lt.mpr otherCovers.1)
      · exact ih behind otherBehind

variable {value : Segment → Nat}

/-- What tiles put together fits the word. -/
theorem concatenate_lt (tiles : Tiles top segments)
    (bounded : ∀ segment ∈ segments, value segment < 2 ^ segment.bits.width) :
    concatenate value segments < 2 ^ top := by
  induction tiles with
  | nil => exact Nat.one_pos
  | @cons top segment rest _ above tiles ih =>
    rw [concatenate, tiles.sum_eq]
    have lower := ih fun other listed => bounded other (List.mem_cons_of_mem _ listed)
    have bound := bounded segment List.mem_cons_self
    unfold BitRange.above at above
    refine Nat.or_lt_two_pow ?_ ?_
    · rw [← above, Nat.pow_add, Nat.shiftLeft_eq, Nat.mul_comm]
      exact Nat.mul_lt_mul_of_pos_left bound (Nat.two_pow_pos _)
    · exact Nat.lt_of_lt_of_le lower (Nat.pow_le_pow_right (by omega) (by omega))

/-- A concatenation shows at every bit the segment that covers it. -/
theorem testBit_concatenate (tiles : Tiles top segments)
    (bounded : ∀ segment ∈ segments, value segment < 2 ^ segment.bits.width)
    {segment : Segment} (listed : segment ∈ segments) {i : Nat} (covers : segment.bits.Covers i) :
    (concatenate value segments).testBit i = (value segment).testBit (i - segment.bits.lsb) := by
  induction tiles with
  | nil => cases listed
  | @cons top first rest _ above tiles ih =>
    have restBounded : ∀ other ∈ rest, value other < 2 ^ other.bits.width :=
      fun other member => bounded other (List.mem_cons_of_mem _ member)
    rw [concatenate, tiles.sum_eq, Nat.testBit_or, Nat.testBit_shiftLeft]
    rcases List.mem_cons.mp listed with rfl | listed
    -- The segments below do not reach into the first one.
    · have lower := concatenate_lt tiles restBounded
      rw [Bits.testBit_of_lt lower covers.1]
      simp [covers.1]
    · have below := tiles.above_le segment listed
      have low : ¬ first.bits.lsb ≤ i := by
        have high := covers.2
        omega
      rw [ih restBounded listed]
      simp [low]

end Tiles

/-! ## The segments of a register -/

namespace RegisterPlan

/-- Every field has its segment, whatever the gaps around it are. -/
theorem mem_segmentsBelow_of_mem {fields : List FieldPlan} {field : FieldPlan} (top : Nat)
    (listed : field ∈ fields) : .field field ∈ segmentsBelow top fields := by
  induction fields generalizing top with
  | nil => cases listed
  | cons first rest ih =>
    unfold segmentsBelow
    refine List.mem_append_right _ ?_
    rcases List.mem_cons.mp listed with rfl | listed
    · exact List.mem_cons_self
    · exact List.mem_cons_of_mem _ (ih first.field.bits.lsb listed)

/-- Segments stand for no other fields. -/
theorem mem_of_mem_segmentsBelow {fields : List FieldPlan} {field : FieldPlan} {top : Nat}
    (listed : .field field ∈ segmentsBelow top fields) : field ∈ fields := by
  induction fields generalizing top with
  | nil =>
    unfold segmentsBelow at listed
    split at listed
    · simp at listed
    · cases listed
  | cons first rest ih =>
    unfold segmentsBelow at listed
    rcases List.mem_append.mp listed with filler | listed
    · split at filler
      · simp at filler
      · cases filler
    · rcases List.mem_cons.mp listed with same | listed
      · cases same
        exact List.mem_cons_self
      · exact List.mem_cons_of_mem _ (ih listed)

/-- Fields from the highest down, each below the one before it, leave a tiling
below any bit above the first. -/
theorem tiles_segmentsBelow {fields : List FieldPlan} {top : Nat}
    (wide : ∀ field ∈ fields, 0 < field.field.bits.width)
    (below : ∀ field ∈ fields, field.field.bits.above ≤ top)
    (descending : fields.Pairwise fun field next => next.field.bits.above ≤ field.field.bits.lsb) :
    Tiles top (segmentsBelow top fields) := by
  -- On the fields; the next one has to end at or below the start of this one.
  induction fields generalizing top with
  | nil =>
    unfold segmentsBelow
    by_cases room : top > 0
    · rw [if_pos room]
      exact .cons room (Nat.zero_add top) .nil
    · rw [if_neg room]
      have zero : top = 0 := by omega
      rw [zero]
      exact .nil
  | cons field rest ih =>
    obtain ⟨lower, descending⟩ := List.pairwise_cons.mp descending
    have tail : Tiles field.field.bits.lsb (segmentsBelow field.field.bits.lsb rest) :=
      ih (fun other listed => wide other (List.mem_cons_of_mem _ listed)) lower descending
    have head : Tiles field.field.bits.above
        (.field field :: segmentsBelow field.field.bits.lsb rest) :=
      .cons (wide field List.mem_cons_self) rfl tail
    have reach := below field List.mem_cons_self
    unfold segmentsBelow
    dsimp only
    by_cases room : field.field.bits.above < top
    · rw [if_pos room]
      refine .cons (Nat.sub_pos_of_lt room) ?_ head
      show field.field.bits.above + (top - field.field.bits.above) = top
      omega
    · rw [if_neg room]
      have touching : field.field.bits.above = top := by omega
      rw [← touching]
      exact head

theorem mem_readableFields_iff {plan : RegisterPlan} {field : FieldPlan} :
    field ∈ plan.readableFields ↔ field ∈ plan.fields ∧ readsBack field.field = true := by
  unfold readableFields
  rw [(List.mergeSort_perm _ _).mem_iff, List.mem_filter]

/-- Sorting by position turns fields that are apart into fields that descend. -/
theorem descending_readableFields {plan : RegisterPlan}
    (wide : ∀ field ∈ plan.fields, 0 < field.field.bits.width)
    (apart : plan.fields.Pairwise fun field other => field.field.Apart other.field) :
    plan.readableFields.Pairwise fun field next =>
      next.field.bits.above ≤ field.field.bits.lsb := by
  have sorted : plan.readableFields.Pairwise fun first second =>
      decide (second.field.bits.lsb ≤ first.field.bits.lsb) = true := by
    refine List.pairwise_mergeSort ?_ ?_ _
    · intro first second third
      simp only [decide_eq_true_eq]
      omega
    · intro first second
      simp only [Bool.or_eq_true, decide_eq_true_eq]
      omega
  have apart' : plan.readableFields.Pairwise fun field other =>
      field.field.bits.Apart other.field.bits := by
    unfold readableFields
    rw [(List.mergeSort_perm _ _).pairwise_iff fun apart => apart.symm]
    exact (apart.imp fun apart => apart.2).filter _
  refine (sorted.and apart').imp_of_mem ?_
  rintro field next listed - ⟨order, split⟩
  rw [decide_eq_true_eq] at order
  have positive := wide field (mem_readableFields_iff.mp listed).1
  unfold BitRange.Apart BitRange.above at split
  unfold BitRange.above
  omega

end RegisterPlan

end RegisterBank.Bank
