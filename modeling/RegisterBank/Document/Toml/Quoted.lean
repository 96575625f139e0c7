import RegisterBank.Document.Toml.Step
import RegisterBank.Text.Integer

/-!
# Quoted texts in TOML

Four forms: between double quotes, where a backslash escapes, and between
single quotes, where nothing does; each on one line, or over several lines
between three quotes.  Once the opening quotes are read, every stop is
committed.
-/

namespace RegisterBank.Document.Toml

/-- The character with a code point, if there is one. -/
def charOf? (code : Nat) : Option Char :=
  if code < 0xd800 ∨ (0xdfff < code ∧ code < 0x110000) then some (Char.ofNat code) else none

/-- The character whose code point the next `count` digits write. -/
def codeEscape (count : Nat) (text : List Char) : Step Char :=
  let code := (text.take count).mapM (Text.digitValue? 16)
  match code with
  | none => .error (failAt text)
  | some digits =>
    if digits.length < count then .error (failAt text)
    else
      match charOf? (digits.foldl (fun value d => value * 16 + d) 0) with
      | some c => .ok (c, text.drop count)
      | none => .error (failAt text)

/-- The character of an escape, after its backslash. -/
def escape : List Char → Step Char
  | [] => .error (stopAt [])
  | 'b' :: rest => .ok ('\x08', rest)
  | 't' :: rest => .ok ('\t', rest)
  | 'n' :: rest => .ok ('\n', rest)
  | 'f' :: rest => .ok ('\x0c', rest)
  | 'r' :: rest => .ok ('\r', rest)
  | '"' :: rest => .ok ('"', rest)
  | '\\' :: rest => .ok ('\\', rest)
  | 'u' :: rest => codeEscape 4 rest
  | 'U' :: rest => codeEscape 8 rest
  | c :: rest => .error (failAt (if c.toNat < 0x80 then rest else c :: rest))

/-! ## Texts on one line -/

/-- The characters up to the closing double quote, after those of `done`,
which is in reverse. -/
def basicChars : Nat → List Char → List Char → Step String
  | 0, _, text => .error (failAt text)
  | _ + 1, _, [] => .error (failAt [])
  | fuel + 1, done, c :: rest =>
    if c = '"' then .ok (String.ofList done.reverse, rest)
    else if c = '\\' then
      if rest.isEmpty then .error (failAt (c :: rest))
      else
        match escape rest with
        | .ok (escaped, rest) => basicChars fuel (escaped :: done) rest
        | .error stop => .error stop
    else if isPlain c then basicChars fuel (c :: done) rest
    else .error (failAt (c :: rest))

/-- A text after its opening double quote. -/
def basicText (fuel : Nat) (text : List Char) : Step String := basicChars fuel [] text

/-- A text after its opening single quote. -/
def literalText (text : List Char) : Step String :=
  let isContent (c : Char) : Bool := isPlain c && c != '\''
  let rest := text.dropWhile isContent
  match rest with
  | '\'' :: after => .ok (String.ofList (text.takeWhile isContent), after)
  | _ => .error (failAt rest)

/-! ## Texts over several lines -/

/-- The text after an opening line break, which does not count. -/
def skipFirstBreak (text : List Char) : List Char := (lineBreak? text).getD text

/-- Blanks and line breaks. -/
def skipSpace : Nat → List Char → List Char
  | 0, text => text
  | fuel + 1, text =>
    let rest := skipBlanks text
    match lineBreak? rest with
    | some rest => skipSpace fuel rest
    | none => rest

/-- The text after escaped line ends: a backslash that only blanks separate
from the line break, and all blanks and line breaks behind it. -/
def skipEscapedBreak? (fuel : Nat) : List Char → Option (List Char)
  | '\\' :: rest => (lineBreak? (skipBlanks rest)).map (skipSpace fuel)
  | _ => none

/-- One piece of a text between three double quotes that is no quote: the
characters it stands for, or nothing when there is no such piece. -/
def basicPiece? (fuel : Nat) (text : List Char) :
    Except Stop (Option (List Char × List Char)) :=
  match text with
  | [] => .ok none
  | c :: rest =>
    if isPlain c && c != '"' && c != '\\' then .ok (some ([c], rest))
    else
      match skipEscapedBreak? fuel text with
      | some rest => .ok (some ([], rest))
      | none =>
        if c = '\\' then
          if rest.isEmpty then .ok none
          else
            match escape rest with
            | .ok (escaped, rest) => .ok (some ([escaped], rest))
            | .error stop => .error stop
        else .ok ((lineBreak? text).map fun rest => (['\n'], rest))

/-- The one or two quotes at the start of `text` that a character other than
the quote follows. -/
def innerQuotes? (quote : Char) : List Char → Option (List Char × List Char)
  | a :: b :: c :: rest =>
    if a = quote ∧ b = quote ∧ c ≠ quote then some ([a, b], c :: rest)
    else if a = quote ∧ b ≠ quote then some ([a], b :: c :: rest)
    else none
  | [a, b] => if a = quote ∧ b ≠ quote then some ([a], [b]) else none
  | _ => none

/-- The end of a text between three quotes each: up to two quotes that belong
to the text, then the closing three. -/
def closingQuotes (quote : Char) (text : List Char) : Step (List Char) :=
  let quotes := (text.takeWhile (· == quote)).length
  if quotes < 3 then .error (failAt text)
  else
    let inner := min (quotes - 3) 2
    .ok (List.replicate inner quote, text.drop (inner + 3))

/-- The body of a text between three double quotes, after the characters of
`done`, which is in reverse. -/
def basicBody : Nat → List Char → List Char → Step String
  | 0, _, text => .error (failAt text)
  | fuel + 1, done, text =>
    match basicPiece? fuel text with
    | .error stop => .error stop
    | .ok (some (piece, rest)) => basicBody fuel (piece.reverse ++ done) rest
    | .ok none =>
      match innerQuotes? '"' text with
      | none =>
        (closingQuotes '"' text).map fun (quotes, rest) =>
          (String.ofList (quotes ++ done).reverse, rest)
      | some (quotes, rest) =>
        match basicPiece? fuel rest with
        | .error stop => .error stop
        | .ok (some (piece, rest)) => basicBody fuel (piece.reverse ++ quotes ++ done) rest
        | .ok none => .error (failAt rest)

/-- A text after its three opening double quotes. -/
def basicLines (fuel : Nat) (text : List Char) : Step String :=
  basicBody fuel [] (skipFirstBreak text)

/-- One piece of a text between three single quotes that is no quote. -/
def literalPiece? (text : List Char) : Option (Char × List Char) :=
  match text with
  | [] => none
  | c :: rest =>
    if isPlain c && c != '\'' then some (c, rest)
    else (lineBreak? text).map fun rest => ('\n', rest)

/-- The body of a text between three single quotes, after the characters of
`done`, which is in reverse. -/
def literalBody : Nat → List Char → List Char → Step String
  | 0, _, text => .error (failAt text)
  | fuel + 1, done, text =>
    match literalPiece? text with
    | some (c, rest) => literalBody fuel (c :: done) rest
    | none =>
      match (innerQuotes? '\'' text).bind fun (quotes, rest) =>
          (literalPiece? rest).map fun (c, rest) => (c :: quotes, rest) with
      | some (piece, rest) => literalBody fuel (piece ++ done) rest
      | none =>
        (closingQuotes '\'' text).map fun (quotes, rest) =>
          (String.ofList (quotes ++ done).reverse, rest)

/-- A text after its three opening single quotes. -/
def literalLines (fuel : Nat) (text : List Char) : Step String :=
  literalBody fuel [] (skipFirstBreak text)

/-- A text in any of the four forms. -/
def quotedText (fuel : Nat) (text : List Char) : Step String :=
  match text with
  | '"' :: '"' :: '"' :: rest => basicLines fuel rest
  | '"' :: rest => basicText fuel rest
  | '\'' :: '\'' :: '\'' :: rest => literalLines fuel rest
  | '\'' :: rest => literalText rest
  | rest => .error (stopAt rest)

end RegisterBank.Document.Toml
