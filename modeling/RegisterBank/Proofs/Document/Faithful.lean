import RegisterBank.Document.Format
import RegisterBank.Proofs.Document.Placed
import RegisterBank.Proofs.Document.Sorted

/-!
# What is asked of a codec

Documents come back only if the libraries that parse and print them do their
part.  `Codec.Faithful` says what that part is, and nothing else is assumed of a
codec.  It is asked of `Tree.IsDocument` alone, the trees that documents of this
project consist of: plain values, keys that need no quotes, a place for every
table, and few levels.
-/

namespace RegisterBank.Document

/-- How many levels a document has at most.  Register maps need as many: the
table at the root, the list of registers, a register, its list of bit fields, a
bit field, and its list of modifiers. -/
def documentDepth : Nat := 6

/-- Trees that are whole documents. -/
structure Tree.IsDocument (tree : Tree) : Prop where
  table : tree.isTable = true
  placed : tree.Placed
  shallow : tree.depth ≤ documentDepth

/-- A codec that loses nothing. -/
structure Codec.Faithful (codec : Codec) : Prop where
  /-- A document is printed, and its text parses to the tree, the tables in key
  order.  A line break behind the text makes no difference. -/
  restores : ∀ (format : Format) (tree : Tree), tree.IsDocument →
    ∃ text, codec.print format tree = .ok text ∧ codec.read format text = .ok tree.sorted ∧
      codec.read format (text ++ "\n") = .ok tree.sorted
  /-- Signed 64-bit integers that are not negative become part of a tree. -/
  int : ∀ value : Nat, value < Nat.pow 2 63 → codec.convert (.int value) = .ok (.int value)
  /-- Texts become part of a tree. -/
  text : ∀ value : String, codec.convert (.text value) = .ok (.text value)

/-- What is rendered of a document is read back, whether or not a line break had
to be added. -/
theorem Codec.Faithful.render {codec : Codec} (faithful : codec.Faithful) (format : Format)
    {tree : Tree} (document : tree.IsDocument) :
    ∃ text, codec.render format tree = .ok text ∧ codec.read format text = .ok tree.sorted := by
  obtain ⟨text, printed, read, readEnded⟩ := faithful.restores format tree document
  have rendered : codec.render format tree = .ok (endLine text) := by
    unfold Codec.render
    rw [printed]
    rfl
  refine ⟨endLine text, rendered, ?_⟩
  unfold endLine
  by_cases ended : text.toList.getLast? = some '\n'
  · rw [if_pos ended]
    exact read
  · rw [if_neg ended]
    exact readEnded

end RegisterBank.Document
