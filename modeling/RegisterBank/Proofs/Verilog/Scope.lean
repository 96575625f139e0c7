import Mathlib.Algebra.Group.Nat.Defs
import RegisterBank.Proofs.Verilog.Tokens
import RegisterBank.Text.Integer
import RegisterBank.Verilog.Nets

/-!
# Scopes

What can be asked of a list of tokens that is read as hardware description:
that every name is declared once and before its first use (`WellScoped`), that
constant selects lie within their vectors, and that sized constants hold their
values.

`Scoped known names declared` goes through the names from the first to the last
and keeps account of what is declared.  It is put together piece by piece, and
says where every declaration stands (`Scoped.wellScoped`).
-/

namespace RegisterBank.Verilog

/-! ## Names -/

/-- The words after which a name is declared. -/
def declaringWords : List String := ["wire", "reg", "localparam"]

/-- The other words of the language that the text of a module has. -/
def plainWords : List String :=
  ["module", "input", "output", "assign", "always", "posedge", "negedge", "or", "begin", "end",
    "if", "else", "case", "endcase", "default", "endmodule"]

/-- All words of the language that the text of a module has. -/
def templateWords : List String := plainWords ++ declaringWords

/-- Whether a token is a name or a word of the language, which start alike. -/
def isName (token : String) : Bool := token.toList.head?.any Text.isIdentifierStart

/-- A name is declared at a position of a list of names. -/
def Declares (names : List String) (i : Nat) (name : String) : Prop :=
  ∃ word ∈ declaringWords, names[i]? = some word ∧ names[i + 1]? = some name

/-- Every name but the words of the language is declared before it stands
anywhere else, and only once. -/
def WellScoped (names : List String) : Prop :=
  ∀ i name, names[i]? = some name → name ∉ templateWords →
    ∃ j < i, Declares names j name ∧ ∀ k, Declares names k name → k = j

/-! ## Sized constants and selects -/

/-- A sized constant, in hexadecimal or in binary, whose value has no more bits
than it says. -/
def HoldsValue (token : String) : Prop :=
  ∃ width base mark digits value, (mark, base) ∈ [('h', 16), ('b', 2)] ∧
    token.toList = (toString width).toList ++ '\'' :: mark :: digits ∧
    Text.digitsValue? base 0 (digits.filter (· != '_')) = some value ∧ value < 2 ^ width

/-- Tokens start with the rest of a constant select, behind its bracket, of
bits up to a highest one. -/
def SelectsUpTo (top : Nat) (after : List String) : Prop :=
  ∃ high low rest, low ≤ high ∧ high ≤ top ∧
    (after = toString high :: ":" :: toString low :: "]" :: rest ∨
      high = low ∧ after = toString high :: "]" :: rest)

/-- Whatever is selected lies within its vector. -/
def SelectsWithin (widths : Nets) (tokens : List String) : Prop :=
  ∀ before name after, tokens = before ++ name :: "[" :: after →
    name ∈ declaringWords ∨ SelectsUpTo (widths.get name - 1) after

/-! ## Going through the names -/

/-- Names from the first to the last: `known` are declared before them, and
`declared` after them. -/
inductive Scoped : List String → List String → List String → Prop
  | nil {known : List String} : Scoped known [] known
  | word {known declared names : List String} {word : String} :
    word ∈ plainWords → Scoped known names declared → Scoped known (word :: names) declared
  | use {known declared names : List String} {name : String} :
    name ∈ known → Scoped known names declared → Scoped known (name :: names) declared
  | declare {known declared names : List String} {word name : String} :
    word ∈ declaringWords → name ∉ known → name ∉ templateWords →
    Scoped (known ++ [name]) names declared → Scoped known (word :: name :: names) declared

theorem not_plain_of_declaring {word : String} (declaring : word ∈ declaringWords) :
    word ∉ plainWords := by
  have apart : ∀ word ∈ declaringWords, word ∉ plainWords := by decide
  exact apart word declaring

theorem template_of_declaring {word : String} (declaring : word ∈ declaringWords) :
    word ∈ templateWords :=
  List.mem_append_right _ declaring

/-- Nothing is declared by a word that is not for that. -/
theorem exists_of_declares_cons {first name : String} {names : List String}
    (other : first ∉ declaringWords) {i : Nat} (declares : Declares (first :: names) i name) :
    ∃ k, i = k + 1 ∧ Declares names k name := by
  cases i with
  | zero =>
    obtain ⟨_, declaring, here, _⟩ := declares
    cases here
    exact absurd declaring other
  | succ k => exact ⟨k, rfl, declares⟩

/-- A declaration at the front is that of its name, or one behind it. -/
theorem declares_declaration {word first name : String} {names : List String}
    (template : first ∉ templateWords) {i : Nat}
    (declares : Declares (word :: first :: names) i name) :
    (i = 0 ∧ name = first) ∨ ∃ k, i = k + 2 ∧ Declares names k name := by
  cases i with
  | zero =>
    obtain ⟨_, _, _, second⟩ := declares
    cases second
    exact Or.inl ⟨rfl, rfl⟩
  | succ i =>
    have other : first ∉ declaringWords := fun declaring =>
      template (template_of_declaring declaring)
    obtain ⟨k, rfl, behind⟩ := exists_of_declares_cons other declares
    exact Or.inr ⟨k, rfl, behind⟩

namespace Scoped

variable {known declared names : List String}

theorem trans {later others : List String} (first : Scoped known names declared)
    (second : Scoped declared others later) : Scoped known (names ++ others) later := by
  induction first with
  | nil => exact second
  | word plain _ ih => exact .word plain (ih second)
  | use listed _ ih => exact .use listed (ih second)
  | declare word fresh name _ ih => exact .declare word fresh name (ih second)

/-- Names that are only used declare nothing. -/
theorem of_forall (used : ∀ name ∈ names, name ∈ plainWords ∨ name ∈ known) :
    Scoped known names known := by
  induction names with
  | nil => exact .nil
  | cons name rest ih =>
    have behind := ih fun other listed => used other (List.mem_cons_of_mem _ listed)
    rcases used name List.mem_cons_self with plain | listed
    · exact .word plain behind
    · exact .use listed behind

theorem subset (walk : Scoped known names declared) : known ⊆ declared := by
  induction walk with
  | nil => exact List.Subset.refl _
  | word _ _ ih => exact ih
  | use _ _ ih => exact ih
  | declare _ _ _ _ ih => exact fun name listed => ih (List.mem_append_left _ listed)

/-- No known name may be taken for a word of the language. -/
def Plain (known : List String) : Prop := ∀ name ∈ known, name ∉ templateWords

theorem Plain.concat (plain : Plain known) {name : String} (fresh : name ∉ templateWords) :
    Plain (known ++ [name]) := by
  intro other listed
  rcases List.mem_append.mp listed with old | new
  · exact plain other old
  · rw [List.mem_singleton.mp new]
    exact fresh

theorem Plain.not_declaring (plain : Plain known) {name : String} (listed : name ∈ known) :
    name ∉ declaringWords :=
  fun declaring => plain name listed (template_of_declaring declaring)

/-- What is declared on the way is new, and is known at the end. -/
theorem fresh_of_declares (walk : Scoped known names declared) (plain : Plain known) {i : Nat}
    {name : String} (declares : Declares names i name) : name ∉ known ∧ name ∈ declared := by
  -- On the walk; a word or a use is no part of a declaration.
  induction walk generalizing i with
  | nil =>
    obtain ⟨_, _, missing, _⟩ := declares
    cases missing
  | word listed _ ih =>
    obtain ⟨k, -, behind⟩ := exists_of_declares_cons
      (fun declaring => not_plain_of_declaring declaring listed) declares
    exact ih plain behind
  | use listed _ ih =>
    obtain ⟨k, -, behind⟩ := exists_of_declares_cons (plain.not_declaring listed) declares
    exact ih plain behind
  | declare _ fresh template walk ih =>
    rcases declares_declaration template declares with ⟨-, rfl⟩ | ⟨k, -, behind⟩
    · exact ⟨fresh, walk.subset (List.mem_append_right _ List.mem_cons_self)⟩
    · have later := ih (plain.concat template) behind
      exact ⟨fun listed => later.1 (List.mem_append_left _ listed), later.2⟩

/-- Two places at which one name is declared are the same. -/
theorem declares_unique (walk : Scoped known names declared) (plain : Plain known) {i j : Nat}
    {name : String} (here : Declares names i name) (there : Declares names j name) : i = j := by
  induction walk generalizing i j with
  | nil =>
    obtain ⟨_, _, missing, _⟩ := here
    cases missing
  | word listed _ ih =>
    have other := fun declaring => not_plain_of_declaring declaring listed
    obtain ⟨k, rfl, behind⟩ := exists_of_declares_cons other here
    obtain ⟨l, rfl, again⟩ := exists_of_declares_cons other there
    rw [ih plain behind again]
  | use listed _ ih =>
    obtain ⟨k, rfl, behind⟩ := exists_of_declares_cons (plain.not_declaring listed) here
    obtain ⟨l, rfl, again⟩ := exists_of_declares_cons (plain.not_declaring listed) there
    rw [ih plain behind again]
  | declare _ _ template walk ih =>
    have next := plain.concat template
    -- The name that is declared first is known from then on.
    have once {k : Nat} (behind : Declares _ k _) : False :=
      (walk.fresh_of_declares next behind).1 (List.mem_append_right _ List.mem_cons_self)
    rcases declares_declaration template here with ⟨rfl, rfl⟩ | ⟨k, rfl, behind⟩
    · rcases declares_declaration template there with ⟨rfl, -⟩ | ⟨l, -, again⟩
      · rfl
      · exact (once again).elim
    · rcases declares_declaration template there with ⟨-, rfl⟩ | ⟨l, rfl, again⟩
      · exact (once behind).elim
      · rw [ih next behind again]

/-- What stands anywhere is known or declared before. -/
theorem known_or_declares (walk : Scoped known names declared) {i : Nat} {name : String}
    (stands : names[i]? = some name) (template : name ∉ templateWords) :
    name ∈ known ∨ ∃ j < i, Declares names j name := by
  -- On the walk; only a declaration adds to what is known behind it.
  induction walk generalizing i with
  | nil => cases stands
  | word listed _ ih =>
    cases i with
    | zero =>
      cases stands
      exact absurd (List.mem_append_left _ listed) template
    | succ i =>
      refine (ih stands).imp_right ?_
      rintro ⟨j, before, declares⟩
      exact ⟨j + 1, Nat.succ_lt_succ before, declares⟩
  | use listed _ ih =>
    cases i with
    | zero =>
      cases stands
      exact Or.inl listed
    | succ i =>
      refine (ih stands).imp_right ?_
      rintro ⟨j, before, declares⟩
      exact ⟨j + 1, Nat.succ_lt_succ before, declares⟩
  | @declare known _ names word other declaring _ _ _ ih =>
    have here : Declares (word :: other :: names) 0 other := ⟨word, declaring, rfl, rfl⟩
    rcases i with _ | _ | i
    · cases stands
      exact absurd (template_of_declaring declaring) template
    · cases stands
      exact Or.inr ⟨0, Nat.zero_lt_one, here⟩
    · rcases ih stands with listed | ⟨j, before, declares⟩
      · rcases List.mem_append.mp listed with old | new
        · exact Or.inl old
        · rw [List.mem_singleton.mp new]
          exact Or.inr ⟨0, Nat.succ_pos _, here⟩
      · exact Or.inr ⟨j + 2, Nat.add_lt_add_right before 2, declares⟩

/-- All names are known in the end. -/
theorem mem_declared (walk : Scoped known names declared) {name : String} (listed : name ∈ names)
    (template : name ∉ templateWords) : name ∈ declared := by
  induction walk with
  | nil => cases listed
  | word plain walk ih =>
    rcases List.mem_cons.mp listed with rfl | behind
    · exact absurd (List.mem_append_left _ plain) template
    · exact ih behind
  | use old walk ih =>
    rcases List.mem_cons.mp listed with rfl | behind
    · exact walk.subset old
    · exact ih behind
  | declare declaring _ _ walk ih =>
    rcases List.mem_cons.mp listed with rfl | behind
    · exact absurd (template_of_declaring declaring) template
    rcases List.mem_cons.mp behind with rfl | behind
    · exact walk.subset (List.mem_append_right _ List.mem_cons_self)
    · exact ih behind

theorem wellScoped (walk : Scoped [] names declared) : WellScoped names := by
  intro i name stands template
  have nothing : Plain [] := fun name listed => absurd listed List.not_mem_nil
  rcases walk.known_or_declares stands template with known | ⟨j, before, declares⟩
  · cases known
  · exact ⟨j, before, declares, fun k again => walk.declares_unique nothing again declares⟩

end Scoped

/-! ## Going through the tokens -/

theorem SelectsWithin.append {widths : Nets} {first second : List String}
    (here : SelectsWithin widths first) (there : SelectsWithin widths second)
    (opening : second.head? ≠ some "[") : SelectsWithin widths (first ++ second) := by
  intro before name after split
  rcases List.append_eq_append_iff.mp split with ⟨start, -, behind⟩ | ⟨start, ahead, rest⟩
  · exact there start name after behind
  · rcases start with _ | ⟨_, _ | ⟨_, start⟩⟩
    · exact there [] name after rest.symm
    · -- The bracket would be the first token of the second list.
      cases rest
      exact absurd rfl opening
    · cases rest
      refine (here before name start ahead).imp_right ?_
      rintro ⟨high, low, rest, ordered, inside, pair | ⟨same, single⟩⟩
      · exact ⟨high, low, rest ++ second, ordered, inside, Or.inl (by rw [pair]; rfl)⟩
      · exact ⟨high, low, rest ++ second, ordered, inside, Or.inr ⟨same, by rw [single]; rfl⟩⟩

/-- Tokens whose constants hold their values and whose selects lie within their
vectors, to be put behind others. -/
structure Sound (widths : Nets) (tokens : List String) : Prop where
  constants : ∀ token ∈ tokens, '\'' ∈ token.toList → HoldsValue token
  selects : SelectsWithin widths tokens
  opening : tokens.head? ≠ some "["

namespace Sound

variable {widths : Nets} {first second : List String}

theorem nil : Sound widths [] where
  constants := by intro token listed; cases listed
  selects := by intro before name after split; cases before <;> cases split
  opening := by simp

theorem append (here : Sound widths first) (there : Sound widths second) :
    Sound widths (first ++ second) where
  constants := by
    intro token listed
    rcases List.mem_append.mp listed with ahead | behind
    · exact here.constants token ahead
    · exact there.constants token behind
  selects := here.selects.append there.selects there.opening
  opening := by
    have ahead := here.opening
    cases first with
    | nil => exact there.opening
    | cons token rest => exact ahead

/-- A token that is no bracket selects nothing. -/
theorem single {token : String} (constant : '\'' ∈ token.toList → HoldsValue token)
    (other : token ≠ "[") : Sound widths [token] where
  constants := by
    intro found listed
    rw [List.mem_singleton.mp listed]
    exact constant
  selects := by
    intro before name after split
    rcases before with _ | ⟨_, _ | ⟨_, _⟩⟩ <;> cases split
  opening := by simpa using other

theorem of_forall {tokens : List String}
    (plain : ∀ token ∈ tokens, token ≠ "[" ∧ '\'' ∉ token.toList) : Sound widths tokens := by
  induction tokens with
  | nil => exact .nil
  | cons token rest ih =>
    obtain ⟨other, unquoted⟩ := plain token List.mem_cons_self
    exact (single (fun quoted => absurd quoted unquoted) other).append
      (ih fun other listed => plain other (List.mem_cons_of_mem _ listed))

/-- A range behind a declaring word, or a select within its vector. -/
theorem bracket {name : String} {rest : List String}
    (inside : name ∈ declaringWords ∨ SelectsUpTo (widths.get name - 1) rest)
    (other : name ≠ "[") (unquoted : '\'' ∉ name.toList) (behind : Sound widths rest) :
    Sound widths (name :: "[" :: rest) where
  constants := by
    intro token listed
    rcases List.mem_cons.mp listed with rfl | listed
    · exact fun quoted => absurd quoted unquoted
    rcases List.mem_cons.mp listed with rfl | listed
    · exact fun quoted => absurd quoted (by decide)
    · exact behind.constants token listed
  selects := by
    intro before selected after split
    rcases before with _ | ⟨_, _ | ⟨_, before⟩⟩
    · cases split
      exact inside
    · cases split
      exact absurd rfl behind.opening
    · cases split
      exact behind.selects before selected after rfl
  opening := by simpa using other

end Sound

/-- Sound tokens between names that are known and names that are declared. -/
structure Reads (widths : Nets) (known tokens declared : List String) : Prop where
  walk : Scoped known (tokens.filter isName) declared
  sound : Sound widths tokens

theorem Reads.nil {widths : Nets} {known : List String} : Reads widths known [] known :=
  ⟨.nil, .nil⟩

theorem Reads.trans {widths : Nets} {known first declared second later : List String}
    (here : Reads widths known first declared) (there : Reads widths declared second later) :
    Reads widths known (first ++ second) later where
  walk := by
    rw [List.filter_append]
    exact here.walk.trans there.walk
  sound := here.sound.append there.sound

end RegisterBank.Verilog
