import RegisterBank.Proofs.Document.Placed
import RegisterBank.Proofs.Document.Toml.Values

/-!
# Lines read back from TOML

A line is an entry, a key with its value, or the header of a table or of an
element of an array of tables.  Keys here are bare, so no quotes stand around
them, and a path is its keys with dots between them.
-/

namespace RegisterBank.Document.Toml

/-! ## Bare keys -/

theorem keyLiteral_bare {key : String} (bare : IsBare key) : keyLiteral key = key := by
  unfold keyLiteral
  exact if_pos bare

/-- A bare key has no characters that need quotes. -/
theorem isKeyChar_of_bare {key : String} (bare : IsBare key) : ∀ c ∈ key.toList, isKeyChar c = true :=
  List.all_eq_true.mp bare.2

theorem isKeyChar_ne {c d : Char} (inside : isKeyChar c = true) (outside : isKeyChar d = false) :
    c ≠ d := by
  rintro rfl
  rw [outside] at inside
  cases inside

/-- A bare key is not empty. -/
theorem exists_cons_of_bare {key : String} (bare : IsBare key) :
    ∃ c rest, key.toList = c :: rest ∧ isKeyChar c = true := by
  have filled : key.toList ≠ [] := by
    intro empty
    exact bare.1 (String.toList_eq_nil_iff.mp empty)
  rcases List.exists_cons_of_ne_nil filled with ⟨c, rest, start⟩
  exact ⟨c, rest, start, isKeyChar_of_bare bare c (by rw [start]; exact List.mem_cons_self)⟩

theorem isBlank_isKeyChar {c : Char} (inside : isKeyChar c = true) : isBlank c = false := by
  unfold isBlank
  simp [isKeyChar_ne inside (show isKeyChar ' ' = false from rfl),
    isKeyChar_ne inside (show isKeyChar '\t' = false from rfl)]

section Keys

variable {key : String} {path : List String} {rest : List Char}

/-- No blank stands in front of a bare key. -/
theorem skipBlanks_bare (bare : IsBare key) (rest : List Char) :
    skipBlanks (key.toList ++ rest) = key.toList ++ rest := by
  obtain ⟨c, more, start, inside⟩ := exists_cons_of_bare bare
  rw [start, List.cons_append]
  exact skipBlanks_solid (isBlank_isKeyChar inside) _

/-- A bare key is read up to the first character that is none of its own. -/
theorem simpleKey_bare (bare : IsBare key) (stops : ∀ c more, rest = c :: more → isKeyChar c = false)
    (fuel : Nat) : simpleKey fuel (key.toList ++ rest) = .ok (key, rest) := by
  obtain ⟨c, more, start, inside⟩ := exists_cons_of_bare bare
  have taken : (key.toList ++ rest).takeWhile isKeyChar = key.toList := by
    rw [List.takeWhile_append_of_pos (isKeyChar_of_bare bare)]
    cases rest with
    | nil => simp
    | cons d rest => simp [stops d rest rfl]
  have dropped : (key.toList ++ rest).dropWhile isKeyChar = rest := by
    rw [List.dropWhile_append_of_pos (isKeyChar_of_bare bare)]
    cases rest with
    | nil => rfl
    | cons d rest => simp [stops d rest rfl]
  have filled : key.toList.isEmpty = false := by rw [start]; rfl
  unfold simpleKey
  split
  · rename_i same
    rw [start] at same
    exact absurd (List.cons.inj same).1 (isKeyChar_ne inside rfl)
  · rename_i same
    rw [start] at same
    exact absurd (List.cons.inj same).1 (isKeyChar_ne inside rfl)
  · simp only [taken, dropped, filled, Bool.false_eq_true, if_false, String.ofList_toList]

/-- The keys of a path behind the first. -/
def laterKeys (path : List String) : List Char := path.flatMap fun key => '.' :: key.toList

/-- A path is its keys with dots between. -/
theorem toList_pathText (bare : IsBare key) (bares : ∀ step ∈ path, IsBare step) :
    (pathText (key :: path)).toList = key.toList ++ laterKeys path := by
  unfold pathText
  induction path generalizing key with
  | nil =>
    simp [keyLiteral_bare bare, laterKeys]
  | cons next path ih =>
    have later := ih (bares next List.mem_cons_self)
      (fun step listed => bares step (List.mem_cons_of_mem next listed))
    rw [List.map_cons, String.intercalate_cons_of_ne_nil (by simp), keyLiteral_bare bare,
      String.toList_append, later, String.toList_append, List.append_assoc]
    rfl

/-- What stands behind a path: the bracket that closes a header, or a blank and
the equals sign of an entry. -/
def EndsPath (rest : List Char) : Prop := ∃ more, rest = ']' :: more ∨ rest = ' ' :: '=' :: more

/-- Neither a dot nor what ends a path belongs to a key. -/
theorem EndsPath.stops (ends : EndsPath rest) (path : List String) :
    ∀ c more, laterKeys path ++ rest = c :: more → isKeyChar c = false := by
  intro c more same
  cases path with
  | nil =>
    rcases ends with ⟨others, rfl | rfl⟩
    · rw [← (List.cons.inj same).1]
      decide
    · rw [← (List.cons.inj same).1]
      decide
  | cons next path =>
    have first : '.' = c := (List.cons.inj same).1
    rw [← first]
    decide

/-- The keys of a path are read back up to its end. -/
theorem moreKeys_laterKeys (bares : ∀ step ∈ path, IsBare step) (ends : EndsPath rest)
    (done : List String) {fuel : Nat} (enough : path.length ≤ fuel) :
    moreKeys fuel done (skipBlanks (laterKeys path ++ rest)) =
      .ok (done.reverse ++ path, skipBlanks rest) := by
  induction path generalizing done fuel with
  | nil =>
    rw [List.append_nil]
    show moreKeys fuel done (skipBlanks rest) = _
    rcases ends with ⟨more, rfl | rfl⟩
    · cases fuel with
      | zero => rfl
      | succ fuel => rfl
    · cases fuel with
      | zero => rfl
      | succ fuel => rfl
  | cons next path ih =>
    rw [List.length_cons] at enough
    obtain ⟨fuel, rfl⟩ : ∃ less, fuel = less + 1 := ⟨fuel - 1, by omega⟩
    have bare := bares next List.mem_cons_self
    have read := simpleKey_bare bare (ends.stops path) fuel
    have others := ih (fun step listed => bares step (List.mem_cons_of_mem next listed))
      (next :: done) (show path.length ≤ fuel by omega)
    have shape : laterKeys (next :: path) ++ rest =
        '.' :: (next.toList ++ (laterKeys path ++ rest)) := by
      unfold laterKeys
      rw [List.flatMap_cons, List.cons_append, List.cons_append, List.append_assoc]
    rw [shape, skipBlanks_solid rfl, moreKeys, skipBlanks_bare bare, read]
    simp only [others]
    rw [List.reverse_cons, List.append_assoc]
    rfl

/-- A path is read back, its last key apart. -/
theorem key_pathText (bare : IsBare key) (bares : ∀ step ∈ path, IsBare step)
    (ends : EndsPath rest) (short : path.length < depthLimit) {fuel : Nat}
    (enough : path.length ≤ fuel) :
    Toml.key fuel ((pathText (key :: path)).toList ++ rest) =
      .ok (((key :: path).dropLast, (key :: path).getLast (List.cons_ne_nil key path)),
        skipBlanks rest) := by
  have read := simpleKey_bare bare (ends.stops path) fuel
  have others := moreKeys_laterKeys bares ends [key] enough
  rw [toList_pathText bare bares, List.append_assoc]
  unfold Toml.key
  rw [skipBlanks_bare bare, read]
  simp only [others, List.reverse_singleton, List.singleton_append]
  rw [if_neg (by rw [List.length_cons]; omega), List.getLast?_eq_some_getLast (List.cons_ne_nil _ _)]
  rfl

end Keys

/-! ## Statements -/

/-- The line of an entry. -/
def entryText (key : String) (value : Tree) : List Char :=
  key.toList ++ ' ' :: '=' :: ' ' :: ((valueLiteral value).toList ++ ['\n'])

/-- The line of a header, between one bracket and another or two of each. -/
def headerText (isElement : Bool) (path : List String) : List Char :=
  if isElement then '[' :: '[' :: ((pathText path).toList ++ [']', ']', '\n'])
  else '[' :: ((pathText path).toList ++ [']', '\n'])

theorem length_le_laterKeys (path : List String) : path.length ≤ (laterKeys path).length := by
  unfold laterKeys
  induction path with
  | nil => exact Nat.le_refl 0
  | cons next path ih =>
    rw [List.flatMap_cons, List.length_append, List.length_cons, List.length_cons]
    omega

/-- A header is at least as long as its path, so that the fuel for its text is
enough. -/
theorem length_le_headerText (isElement : Bool) {outer : List String} {last : String}
    (bares : ∀ step ∈ outer ++ [last], IsBare step) :
    outer.length ≤ (headerText isElement (outer ++ [last])).length := by
  obtain ⟨key, path, split⟩ := List.exists_cons_of_ne_nil
    (show outer ++ [last] ≠ [] by simp)
  have counts := congrArg List.length split
  rw [List.length_append, List.length_singleton, List.length_cons] at counts
  have long := length_le_laterKeys path
  rw [split] at bares ⊢
  have chars := toList_pathText (bares key List.mem_cons_self)
    (fun step listed => bares step (List.mem_cons_of_mem key listed))
  unfold headerText
  rw [chars]
  cases isElement with
  | true =>
    simp only [if_true, List.length_cons, List.length_append]
    omega
  | false =>
    simp only [Bool.false_eq_true, if_false, List.length_cons, List.length_append]
    omega

/-- The statement of a header. -/
def headerSaid (isElement : Bool) (outer : List String) (last : String) : Statement :=
  if isElement then .element outer last else .header outer last

section Statements

variable {rest : List Char} {fuel : Nat}

/-- The line of an entry is read back as the entry. -/
theorem statement_entry {key : String} {content : Tree} (bare : IsBare key)
    (inline : content.Inline) (shallow : content.depth ≤ depthLimit)
    (enough : 4 * (entryText key content).length ≤ fuel) :
    statement fuel (entryText key content ++ rest) = .ok (.entry [] key content, rest) := by
  obtain ⟨c, more, start, inside⟩ := exists_cons_of_bare bare
  rcases valueLiteral_head inline with ⟨d, tail, first, solid⟩
  unfold entryText at enough ⊢
  rw [List.length_append, List.length_cons, List.length_cons, List.length_cons, List.length_append]
    at enough
  simp only [List.append_assoc, List.cons_append, List.nil_append]
  have ends : EndsPath (' ' :: '=' :: ' ' :: ((valueLiteral content).toList ++ '\n' :: rest)) :=
    ⟨_, Or.inr rfl⟩
  have keyed := key_pathText bare (fun step listed => absurd listed List.not_mem_nil) ends
    (show ([] : List String).length < depthLimit by decide) (Nat.zero_le fuel)
  have path : pathText [key] = key := by
    unfold pathText
    rw [List.map_singleton, String.intercalate_singleton, keyLiteral_bare bare]
  rw [path] at keyed
  have read := restored inline fuel depthLimit ('\n' :: rest) shallow (by omega)
    ⟨'\n', rest, rfl, Or.inr (Or.inr rfl)⟩
  have kept : skipBlanks (' ' :: ((valueLiteral content).toList ++ '\n' :: rest)) =
      (valueLiteral content).toList ++ '\n' :: rest := by
    rw [first, List.cons_append]
    exact skipBlanks_solid solid.1 _
  have isEntry : statement fuel (key.toList ++
      ' ' :: '=' :: ' ' :: ((valueLiteral content).toList ++ '\n' :: rest)) = entryLine fuel
      (key.toList ++ ' ' :: '=' :: ' ' :: ((valueLiteral content).toList ++ '\n' :: rest)) := by
    have noBracket : c ≠ '[' := isKeyChar_ne inside rfl
    rw [start, List.cons_append]
    unfold statement
    split
    · rename_i same
      exact absurd (List.cons.inj same).1 noBracket
    · rename_i same
      exact absurd (List.cons.inj same).1 noBracket
    · rename_i same
      exact absurd (List.cons.inj same).1 noBracket
    · rfl
  have behind : skipBlanks (' ' :: '=' :: ' ' :: ((valueLiteral content).toList ++ '\n' :: rest)) =
      '=' :: ' ' :: ((valueLiteral content).toList ++ '\n' :: rest) :=
    skipBlanks_solid (show isBlank '=' = false from rfl) _
  rw [isEntry]
  unfold entryLine
  rw [keyed, behind]
  simp only [kept, read]
  rfl

/-- The line of a header is read back as its path, for tables and for
elements. -/
theorem statement_header (isElement : Bool) {outer : List String} {last : String}
    (bares : ∀ step ∈ outer ++ [last], IsBare step) (short : outer.length < depthLimit)
    (enough : outer.length ≤ fuel) :
    statement fuel (headerText isElement (outer ++ [last]) ++ rest) =
      .ok (headerSaid isElement outer last, rest) := by
  obtain ⟨key, path, split⟩ := List.exists_cons_of_ne_nil
    (show outer ++ [last] ≠ [] by simp)
  have counts : outer.length = path.length := by
    have lengths := congrArg List.length split
    simp at lengths
    omega
  have before : (key :: path).dropLast = outer := by rw [← split]; simp
  have final : (key :: path).getLast (List.cons_ne_nil key path) = last := by simp [← split]
  rw [split] at bares
  have bare := bares key List.mem_cons_self
  have later : ∀ step ∈ path, IsBare step :=
    fun step listed => bares step (List.mem_cons_of_mem key listed)
  have keyed : ∀ more, Toml.key fuel ((pathText (key :: path)).toList ++ ']' :: more) =
      .ok ((outer, last), ']' :: more) := by
    intro more
    have read := key_pathText bare later (show EndsPath (']' :: more) from ⟨more, Or.inl rfl⟩)
      (by omega) (show path.length ≤ fuel by omega)
    rw [before, final] at read
    exact read
  obtain ⟨c, more, start, inside⟩ := exists_cons_of_bare bare
  have noBracket : ∀ tail text, (pathText (key :: path)).toList ++ text ≠ '[' :: tail := by
    intro tail text same
    rw [toList_pathText bare later, start] at same
    exact isKeyChar_ne inside (show isKeyChar '[' = false from rfl) (List.cons.inj same).1
  rw [split]
  unfold headerText headerSaid
  cases isElement with
  | true =>
    simp only [if_true, List.cons_append, List.append_assoc]
    show headerLine fuel true ((pathText (key :: path)).toList ++ ']' :: ']' :: '\n' :: rest) = _
    unfold headerLine
    rw [keyed]
    rfl
  | false =>
    simp only [Bool.false_eq_true, if_false, List.cons_append, List.append_assoc]
    have isHeader : statement fuel ('[' :: ((pathText (key :: path)).toList ++
        ']' :: '\n' :: rest)) =
        headerLine fuel false ((pathText (key :: path)).toList ++ ']' :: '\n' :: rest) := by
      unfold statement
      split
      · rename_i same
        exact absurd (List.cons.inj same).2 (by simp)
      · rename_i same
        exact absurd (List.cons.inj same).2 (noBracket _ _)
      · rename_i same
        rw [(List.cons.inj same).2]
      · rename_i other
        exact absurd rfl (other _)
    show statement fuel ('[' :: ((pathText (key :: path)).toList ++ ']' :: '\n' :: rest)) = _
    rw [isHeader]
    unfold headerLine
    rw [keyed]
    rfl

end Statements

end RegisterBank.Document.Toml
