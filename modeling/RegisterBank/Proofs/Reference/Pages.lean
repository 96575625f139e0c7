import RegisterBank.Reference.Page

/-!
# Lines of reference pages

A page is its first block and the others, each behind an empty line
(`pageLines_cons`).  So what stands in a block stands on the page
(`mem_pageLines`), and each register of a layout has its row in the summary, its
paragraph, and a row for each of its fields.
-/

namespace RegisterBank.Reference

/-- Behind the first block of a page, each has an empty line in front. -/
theorem pageLines_cons (block : Block) (rest : List Block) : pageLines (block :: rest) =
    block.lines ++ rest.flatMap fun block => "" :: block.lines := by
  induction rest generalizing block with
  | nil => exact (List.append_nil _).symm
  | cons next rest ih => rw [pageLines, ih, List.flatMap_cons, List.cons_append]

/-- Blocks behind others are told apart from them by an empty line each. -/
theorem pageLines_append (block : Block) (first second : List Block) :
    pageLines (block :: first ++ second) =
      pageLines (block :: first) ++ second.flatMap fun block => "" :: block.lines := by
  rw [List.cons_append, pageLines_cons, pageLines_cons, List.flatMap_append, List.append_assoc]

theorem flatMap_lines {blocks : List Block} (filled : blocks ≠ []) :
    (blocks.flatMap fun block => "" :: block.lines) = "" :: pageLines blocks := by
  cases blocks with
  | nil => exact absurd rfl filled
  | cons block rest => rw [pageLines_cons, List.flatMap_cons, List.cons_append]

/-- No line of a block is lost on the page. -/
theorem mem_pageLines {blocks : List Block} {block : Block} (listed : block ∈ blocks)
    {line : String} (inside : line ∈ block.lines) : line ∈ pageLines blocks := by
  cases blocks with
  | nil => cases listed
  | cons first rest =>
    rw [pageLines_cons]
    rcases List.mem_cons.mp listed with rfl | later
    · exact List.mem_append_left _ inside
    · exact List.mem_append_right _
        (List.mem_flatMap.mpr ⟨block, later, List.mem_cons_of_mem _ inside⟩)

theorem rowText_mem_lines {table : Table} {row : List String} (listed : row ∈ table.rows) :
    rowText row ∈ (Block.table table).lines :=
  List.mem_cons_of_mem _ (List.mem_cons_of_mem _ (List.mem_map_of_mem listed))

section Registers

variable {layout : Layout} {placed : PlacedRegister} (listed : placed ∈ layout.registers)
  (mapName : String)

include listed

/-- A placed register stands in the summary. -/
theorem summaryRow_mem_pageLines :
    rowText (summaryRow layout placed) ∈ pageLines (pageBlocks layout mapName) := by
  have row : summaryRow layout placed ∈ (summaryTable layout).rows := List.mem_map_of_mem listed
  have filled : layout.registers.isEmpty = false :=
    List.isEmpty_eq_false_iff.mpr (List.ne_nil_of_mem listed)
  refine mem_pageLines ?_ (rowText_mem_lines row)
  unfold pageBlocks
  rw [filled]
  simp

theorem mem_pageBlocks {block : Block} (inside : block ∈ registerBlocks layout placed) :
    block ∈ pageBlocks layout mapName :=
  List.mem_append_right _ (List.mem_flatMap.mpr ⟨placed, listed, inside⟩)

/-- Its section says where a register is and what it holds after reset. -/
theorem resetParagraph_mem_pageLines :
    s!"Address: `{addressText layout placed}`, reset value: `{resetText layout placed}`" ∈
      pageLines (pageBlocks layout mapName) := by
  have paragraph : Block.paragraph
      s!"Address: `{addressText layout placed}`, reset value: `{resetText layout placed}`" ∈
        registerBlocks layout placed := by
    unfold registerBlocks
    simp
  exact mem_pageLines (mem_pageBlocks listed mapName paragraph) List.mem_cons_self

/-- Each field of a placed register has its row on the page. -/
theorem fieldRow_mem_pageLines {field : Field} (declared : field ∈ placed.register.fields) :
    rowText (fieldRow field) ∈ pageLines (pageBlocks layout mapName) := by
  have row : fieldRow field ∈ (fieldTable placed.register).rows :=
    List.mem_map_of_mem (List.mem_mergeSort.mpr declared)
  have filled : placed.register.fields.isEmpty = false :=
    List.isEmpty_eq_false_iff.mpr (List.ne_nil_of_mem declared)
  refine mem_pageLines (mem_pageBlocks listed mapName ?_) (rowText_mem_lines row)
  unfold registerBlocks
  rw [filled]
  simp

end Registers

end RegisterBank.Reference
