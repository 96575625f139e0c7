import RegisterBank.Document.Standard
import RegisterBank.Proofs.Document.Faithful
import RegisterBank.Proofs.Document.Json.RoundTrip
import RegisterBank.Proofs.Document.Toml.Assembly

/-!
# Documents read back

The readers and printers that programs run with are faithful: a table whose inner
tables all have a place is read back from its text, with its tables sorted.  Both
readers follow a document far deeper than documents go.
-/

namespace RegisterBank.Document

theorem read_standard_json {text : String} {tree : Tree} (read : Json.read text = .ok tree) :
    Codec.standard.read .json text = .ok tree := by
  unfold Codec.read Codec.standard
  simp only [read]

theorem read_standard_toml {text : String} {tree : Tree} (read : Toml.read text = .ok tree) :
    Codec.standard.read .toml text = .ok tree := by
  unfold Codec.read Codec.standard
  simp only [read]

variable {entries : List (String × Tree)}

/-- A document in JSON, with or without a line break behind it. -/
theorem read_json (document : (Tree.table entries).IsDocument) :
    Json.read (Json.render (.table entries)) = .ok (Tree.table entries).sorted ∧
      Json.read (Json.render (.table entries) ++ "\n") = .ok (Tree.table entries).sorted := by
  have plain := plain_of_placed document.placed
  have shallow : (Tree.table entries).depth ≤ Json.depthLimit :=
    Nat.le_trans document.shallow (by decide)
  have alone : Json.read (Json.render (.table entries) ++ "") = .ok (Tree.table entries).sorted :=
    Json.read_render plain shallow Json.ends_nil rfl
  rw [String.append_empty] at alone
  exact ⟨alone, Json.read_render plain shallow (Json.ends_cons (Or.inr rfl) []) rfl⟩

/-- A document in TOML, with or without a line break behind it. -/
theorem read_toml (document : (Tree.table entries).IsDocument) :
    Toml.read (Toml.render (.table entries)) = .ok (Tree.table entries).sorted ∧
      Toml.read (Toml.render (.table entries) ++ "\n") = .ok (Tree.table entries).sorted := by
  have shallow : (Tree.table entries).depth ≤ Toml.depthLimit :=
    Nat.le_trans document.shallow (by decide)
  cases document.placed with
  | inline inline => cases inline
  | table keys placed =>
    have alone := Toml.says_render keys placed shallow Toml.says_nil
    have ended := Toml.says_render keys placed shallow Toml.says_nil.newLine
    rw [List.append_nil, List.append_nil] at alone
    rw [List.append_nil] at ended
    refine ⟨Toml.read_of_says keys placed alone, Toml.read_of_says keys placed ?_⟩
    rw [String.toList_append]
    exact ended

/-- The codec that programs run with is faithful. -/
theorem Codec.faithful_standard : Codec.standard.Faithful where
  restores format tree document := by
    obtain ⟨entries, rfl⟩ : ∃ entries, tree = .table entries := by
      cases tree with
      | table entries => exact ⟨entries, rfl⟩
      | _ => cases document.table
    cases format with
    | json =>
      obtain ⟨alone, ended⟩ := read_json document
      exact ⟨_, rfl, read_standard_json alone, read_standard_json ended⟩
    | toml =>
      obtain ⟨alone, ended⟩ := read_toml document
      exact ⟨_, rfl, read_standard_toml alone, read_standard_toml ended⟩
  int _ _ := rfl
  text _ := rfl

end RegisterBank.Document
