import RegisterBank.Document.Toml.Number
import RegisterBank.Document.Toml.Outline
import RegisterBank.Document.Toml.Quoted
import RegisterBank.Text.Position

/-!
# Reading TOML

A document is a list of statements, each on a line.  The statements are read
one after the other up to the first that cannot be read; the tree is assembled
from those before it, so of a wrong statement and a wrong line the earlier one
is reported.
-/

namespace RegisterBank.Document.Toml

/-! ## Keys -/

/-- Characters of a key without quotes. -/
def isKeyChar (c : Char) : Bool := c.isAlphanum || c == '-' || c == '_'

/-- One part of a key. -/
def simpleKey (fuel : Nat) (text : List Char) : Step String :=
  match text with
  | '"' :: rest => basicText fuel rest
  | '\'' :: rest => literalText rest
  | rest =>
    let word := rest.takeWhile isKeyChar
    if word.isEmpty then .error (stopAt rest)
    else .ok (String.ofList word, rest.dropWhile isKeyChar)

/-- The greatest number of containers inside each other, and of parts of a key. -/
def depthLimit : Nat := 79

/-- The parts of a key after those of `done`, which is in reverse.  A dot that
no part follows does not belong to the key. -/
def moreKeys : Nat → List String → List Char → Step (List String)
  | 0, done, text => .ok (done.reverse, text)
  | fuel + 1, done, text =>
    match text with
    | '.' :: rest =>
      match simpleKey fuel (skipBlanks rest) with
      | .ok (part, rest) => moreKeys fuel (part :: done) (skipBlanks rest)
      | .error stop => if stop.committed then .error stop else .ok (done.reverse, text)
    | _ => .ok (done.reverse, text)

/-- A key with its parts, and blanks around them: the parts before the last,
and the last one. -/
def key (fuel : Nat) (text : List Char) : Step (List String × String) :=
  match simpleKey fuel (skipBlanks text) with
  | .error stop => .error stop
  | .ok (part, rest) =>
    match moreKeys fuel [part] (skipBlanks rest) with
    | .error stop => .error stop
    | .ok (parts, rest) =>
      if depthLimit < parts.length then .error (stopAt text)
      else .ok ((parts.dropLast, parts.getLast?.getD part), rest)

/-! ## Values -/

/-- A tree whose word starts the text. -/
def word (spelling : String) (value : Tree) (text : List Char) : Step Tree :=
  if spelling.toList.isPrefixOf text then .ok (value, text.drop spelling.length)
  else .error (failAt text)

mutual

/-- A value, at most `depth` containers deep. -/
def value (fuel depth : Nat) (text : List Char) : Step Tree :=
  match fuel with
  | 0 => .error (failAt text)
  | fuel + 1 =>
    match text with
    | [] => .error (stopAt [])
    | c :: rest =>
      if c = '"' ∨ c = '\'' then
        (quotedText fuel text).map fun (content, rest) => (.text content, rest)
      else if c = '[' then
        if depth = 0 then .error (failAt text) else array fuel (depth - 1) rest
      else if c = '{' then
        if depth = 0 then .error (failAt text) else inline fuel (depth - 1) rest
      else if c = '+' ∨ c = '-' ∨ c.isDigit then number text
      else if c = 't' then word "true" (.bool true) text
      else if c = 'f' then word "false" (.bool false) text
      else if c = 'i' ∨ c = 'n' then specialFloat text
      else .error (stopAt text)

/-- An array after its opening bracket. -/
def array (fuel depth : Nat) (text : List Char) : Step Tree :=
  match fuel with
  | 0 => .error (failAt text)
  | fuel + 1 =>
    match text with
    | ']' :: rest => .ok (.list [], rest)
    | _ =>
      match elements fuel depth [] text with
      | .error stop => .error stop
      | .ok (items, rest) =>
        let rest := match items, rest with
          | _ :: _, ',' :: after => after
          | _, rest => rest
        match skipLines fuel rest with
        | .error stop => .error stop.commit
        | .ok (']' :: rest) => .ok (.list items, rest)
        | .ok rest => .error (failAt rest)

/-- The elements of an array after those of `done`, which is in reverse, with
the text after the last of them. -/
def elements (fuel depth : Nat) (done : List Tree) (text : List Char) : Step (List Tree) :=
  match fuel with
  | 0 => .ok (done.reverse, text)
  | fuel + 1 =>
    let start? : Option (List Char) := match done, text with
      | [], text => some text
      | _, ',' :: after => some after
      | _, _ => none
    match start? with
    | none => .ok (done.reverse, text)
    | some start =>
      match element fuel depth start with
      | .ok (item, rest) => elements fuel depth (item :: done) rest
      | .error stop => if stop.committed then .error stop else .ok (done.reverse, text)

/-- An element of an array with the blanks, line breaks and comments around it. -/
def element (fuel depth : Nat) (text : List Char) : Step Tree :=
  match fuel with
  | 0 => .error (failAt text)
  | fuel + 1 =>
    match skipLines fuel text with
    | .error stop => .error stop
    | .ok rest =>
      match value fuel depth rest with
      | .error stop => .error stop
      | .ok (item, rest) => (skipLines fuel rest).map fun rest => (item, rest)

/-- An inline table after its opening brace. -/
def inline (fuel depth : Nat) (text : List Char) : Step Tree :=
  match fuel with
  | 0 => .error (failAt text)
  | fuel + 1 =>
    match pairs fuel depth [] text with
    | .error stop => .error stop
    | .ok (entries, rest) =>
      match inlineTable? entries with
      | none => .error (failAt text)
      | some table =>
        match skipBlanks rest with
        | '}' :: rest => .ok (table, rest)
        | rest => .error (failAt rest)

/-- The entries of an inline table after those of `done`, which is in reverse,
with the text after the last of them. -/
def pairs (fuel depth : Nat) (done : List (List String × String × Tree)) (text : List Char) :
    Step (List (List String × String × Tree)) :=
  match fuel with
  | 0 => .ok (done.reverse, text)
  | fuel + 1 =>
    let start? : Option (List Char) := match done, text with
      | [], text => some text
      | _, ',' :: after => some after
      | _, _ => none
    match start? with
    | none => .ok (done.reverse, text)
    | some start =>
      match pair fuel depth start with
      | .ok (entry, rest) => pairs fuel depth (entry :: done) rest
      | .error stop => if stop.committed then .error stop else .ok (done.reverse, text)

/-- An entry of an inline table.  Once its key is read, every stop is
committed. -/
def pair (fuel depth : Nat) (text : List Char) : Step (List String × String × Tree) :=
  match fuel with
  | 0 => .error (failAt text)
  | fuel + 1 =>
    match key fuel text with
    | .error stop => .error stop
    | .ok ((path, last), rest) =>
      match rest with
      | '=' :: after =>
        match value fuel depth (skipBlanks after) with
        | .error stop => .error stop.commit
        | .ok (item, rest) => .ok ((path, last, item), skipBlanks rest)
      | rest => .error (failAt rest)

end

/-! ## Statements -/

/-- A line with a key and a value. -/
def entryLine (fuel : Nat) (text : List Char) : Step Statement :=
  match key fuel text with
  | .error stop => .error stop
  | .ok ((path, last), rest) =>
    match rest with
    | '=' :: after =>
      match value fuel depthLimit (skipBlanks after) with
      | .error stop => .error stop
      | .ok (content, rest) =>
        (lineEnd rest).map fun rest => (.entry path last content, rest)
    | rest => .error (stopAt rest)

/-- The line of a header, after its opening brackets. -/
def headerLine (fuel : Nat) (isElement : Bool) (text : List Char) : Step Statement :=
  match key fuel text with
  | .error stop => .error stop
  | .ok ((path, last), rest) =>
    match isElement, rest with
    | true, ']' :: ']' :: rest => (lineEnd rest).map fun rest => (.element path last, rest)
    | false, ']' :: rest => (lineEnd rest).map fun rest => (.header path last, rest)
    | _, rest => .error (stopAt rest)

/-- The statement that `text` starts with. -/
def statement (fuel : Nat) (text : List Char) : Step Statement :=
  match text with
  | ['['] => .error (stopAt text)
  | '[' :: '[' :: rest => headerLine fuel true rest
  | '[' :: rest => headerLine fuel false rest
  | rest => entryLine fuel rest

/-- The statements of a text, each with the text from its start on, and where
reading stopped if it did not reach the end. -/
def statements : Nat → List Char → List (List Char × Statement) × Option Stop
  | 0, text => ([], some (stopAt text))
  | fuel + 1, text =>
    match skipBlanks text with
    | [] => ([], none)
    | '#' :: rest =>
      match lineEnd ('#' :: rest) with
      | .ok rest => statements fuel rest
      | .error stop => ([], some stop)
    | '\n' :: rest => statements fuel rest
    | '\r' :: '\n' :: rest => statements fuel rest
    | '\r' :: rest => ([], some (stopAt ('\r' :: rest)))
    | start =>
      match statement fuel start with
      | .error stop => ([], some stop)
      | .ok (found, rest) =>
        let (more, stop) := statements fuel rest
        ((start, found) :: more, stop)

/-- The root table of some statements, or the text from the start of the first
that is refused. -/
def assemble (found : List (List Char × Statement)) : Except (List Char) Entries :=
  match found.foldlM
      (fun outline (start, said) =>
        match outline.add said with
        | some outline => Except.ok outline
        | none => Except.error start)
      Outline.empty with
  | .error start => .error start
  | .ok outline =>
    match outline.finish with
    | some root => .ok root
    | none => .error []

/-- A text without the mark of its byte order. -/
def skipMark : List Char → List Char
  | '\uFEFF' :: rest => rest
  | text => text

/-- The bytes of a text in front of `rest`, which is the end of it. -/
def offsetOf (text : String) (rest : List Char) : Nat :=
  text.utf8ByteSize - Text.byteCount rest

/-- The tree that a text writes, or the byte where it goes wrong.  A
character takes four rounds at most, one for each level from the statement to
the element of an array, so the fuel never ends first. -/
def read (text : String) : Except Nat Tree :=
  let chars := skipMark text.toList
  let (found, stop) := statements (4 * chars.length + 4) chars
  match assemble found, stop with
  | .error start, _ => .error (offsetOf text start)
  | .ok _, some stop => .error (offsetOf text stop.rest)
  | .ok root, none => .ok (.table (entriesTree root))

end RegisterBank.Document.Toml
