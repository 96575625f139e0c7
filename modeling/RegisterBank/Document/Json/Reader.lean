import RegisterBank.Document.Json.Problem
import RegisterBank.Document.Tree
import RegisterBank.Text.Integer
import RegisterBank.Text.Position

/-!
# Reading JSON

Reading works on the characters that are left.  A step gives its result with
the rest of the text, or a fault that says how many bytes were still left; the
bytes before them give the position of the fault.  A fault about a byte counts
that byte as used, and no other byte of a longer character.
-/

namespace RegisterBank.Document.Json

open RegisterBank.Text (byteCount integerLimit)

/-- A problem, with the number of bytes of the text after its place. -/
structure Fault where
  problem : Problem
  left : Nat
  deriving DecidableEq, Repr

/-- A fault right before `rest`. -/
def before (problem : Problem) (rest : List Char) : Fault := ⟨problem, byteCount rest⟩

/-- A fault at the first byte of `rest`, or at the end of the text. -/
def looking (problem : Problem) (rest : List Char) : Fault := ⟨problem, byteCount rest - 1⟩

/-- What a step of reading gives. -/
abbrev Step (α : Type) := Except Fault (α × List Char)

/-- Blanks between tokens. -/
def isBlank (c : Char) : Bool := c == ' ' || c == '\t' || c == '\n' || c == '\r'

/-- The text from its first character that is not blank. -/
def skipBlanks (text : List Char) : List Char := text.dropWhile isBlank

/-! ## Words -/

/-- A tree whose word goes on with `expected`. -/
def readWord (value : Tree) : List Char → List Char → Step Tree
  | [], rest => .ok (value, rest)
  | _ :: _, [] => .error (before .endInValue [])
  | expected :: more, c :: rest =>
    if c = expected then readWord value more rest
    else .error (looking .wordExpected (c :: rest))

/-! ## Numbers -/

/-- The value of a decimal digit. -/
def digit (c : Char) : Nat := c.toNat - '0'.toNat

/-- `value` continued by digits as long as it stays an integer, with the number
of digits that were left out. -/
def absorbDigits (value : Nat) : List Char → Nat × Nat
  | [] => (value, 0)
  | c :: rest =>
    let next := value * 10 + digit c
    if next < integerLimit then absorbDigits next rest else (value, rest.length + 1)

/-- The power of ten as a magnitude. -/
def powerOfTen (exponent : Nat) : Number.Magnitude :=
  (Number.Magnitude.ofDecimal? 1 exponent).getD Number.Magnitude.zero

/-- The greatest power of ten that has a magnitude. -/
def greatestPower : Nat := 308

/-- A magnitude divided by a large power of ten, in steps that each round. -/
def divideByPower : Nat → Number.Magnitude → Nat → Number.Magnitude
  | 0, _, _ => Number.Magnitude.zero
  | steps + 1, m, exponent =>
    if m.isZero then m
    else if exponent ≤ greatestPower then (m.div? (powerOfTen exponent)).getD m
    else divideByPower steps ((m.div? (powerOfTen greatestPower)).getD m) (exponent - greatestPower)

/-- The number `significand * 10 ^ exponent`: the significand is rounded first
and then multiplied or divided by a rounded power of ten.  Four steps of
division take any significand to zero. -/
def scaled? (significand : Nat) (exponent : Int) : Option Number.Magnitude :=
  match Number.Magnitude.ofQuotient? significand 1 with
  | none => none
  | some m =>
    if exponent < 0 then some (divideByPower 4 m exponent.natAbs)
    else if exponent.toNat ≤ greatestPower then m.mul? (powerOfTen exponent.toNat)
    else if m.isZero then some m
    else none

/-- The floating-point number with a sign, digits and a power of ten, read up
to `rest`. -/
def floatTree (negative : Bool) (significand : Nat) (exponent : Int) (rest : List Char) :
    Step Tree :=
  match scaled? significand exponent with
  | some magnitude => .ok (.float ⟨negative, magnitude⟩, rest)
  | none => .error (before .numberTooLarge rest)

/-- One more than the largest exponent that is counted. -/
def exponentLimit : Nat := Nat.pow 2 31

/-- The value of an exponent's digits, or the digits after the one with which
it grew too large. -/
def exponentValue (value : Nat) : List Char → Except (List Char) Nat
  | [] => .ok value
  | c :: rest =>
    let next := value * 10 + digit c
    if next < exponentLimit then exponentValue next rest else .error rest

/-- The rest of a number after the letter that opens its exponent. -/
def readExponent (negative : Bool) (significand : Nat) (start : Int) (text : List Char) :
    Step Tree :=
  let (down, text) := match text with
    | '+' :: rest => (false, rest)
    | '-' :: rest => (true, rest)
    | rest => (false, rest)
  match text with
  | [] => .error (before .endInValue [])
  | c :: rest =>
    if !c.isDigit then .error (looking .badNumber (c :: rest))
    else
      let digits := text.takeWhile Char.isDigit
      let rest := text.dropWhile Char.isDigit
      match exponentValue 0 digits with
      | .ok value =>
        floatTree negative significand (if down then start - value else start + value) rest
      | .error unread =>
        if significand ≠ 0 ∧ !down then .error (before .numberTooLarge (unread ++ rest))
        else .ok (.float ⟨negative, Number.Magnitude.zero⟩, rest)

/-- The rest of a number after its point. -/
def readFraction (negative : Bool) (significand : Nat) (start : Int) (text : List Char) :
    Step Tree :=
  let digits := text.takeWhile Char.isDigit
  let rest := text.dropWhile Char.isDigit
  if digits.isEmpty then
    .error (looking (if rest.isEmpty then .endInValue else .badNumber) rest)
  else
    let (significand, unused) := absorbDigits significand digits
    let exponent : Int := start - (digits.length - unused)
    match rest with
    | 'e' :: after => readExponent negative significand exponent after
    | 'E' :: after => readExponent negative significand exponent after
    | _ => floatTree negative significand exponent rest

/-- The tree of an integer literal.  One that no 64-bit integer holds, and
minus zero, become floating-point numbers. -/
def integerTree (negative : Bool) (value : Nat) (rest : List Char) : Step Tree :=
  if !negative then .ok (.int value, rest)
  else if 0 < value ∧ value ≤ Nat.pow 2 63 then .ok (.int (-(value : Int)), rest)
  else floatTree true value 0 rest

/-- A number after its sign. -/
def readNumber (negative : Bool) (text : List Char) : Step Tree :=
  match text with
  | [] => .error (before .endInValue [])
  | c :: rest =>
    if !c.isDigit then .error (looking .badNumber (c :: rest))
    else if c = '0' ∧ (rest.head?.any Char.isDigit) then .error (looking .badNumber rest)
    else
      let (significand, unused) := absorbDigits 0 (text.takeWhile Char.isDigit)
      let rest := text.dropWhile Char.isDigit
      match rest with
      | '.' :: after => readFraction negative significand unused after
      | 'e' :: after => readExponent negative significand unused after
      | 'E' :: after => readExponent negative significand unused after
      | _ =>
        if unused = 0 then integerTree negative significand rest
        else floatTree negative significand unused rest

/-! ## Texts -/

/-- Four hexadecimal digits.  They are looked for in the next four bytes, so a
bad one is reported after those. -/
def readHex (text : List Char) : Step Nat :=
  if byteCount (text.take 4) < 4 then .error (before .endInText [])
  else
    match (text.take 4).mapM (Text.digitValue? 16) with
    | some digits => .ok (digits.foldl (fun value d => value * 16 + d) 0, text.drop 4)
    | none => .error ⟨.badEscape, byteCount text - 4⟩

/-- Whether a code unit is the first of a surrogate pair. -/
def isLeading (unit : Nat) : Bool := 0xd800 ≤ unit && unit ≤ 0xdbff

/-- Whether a code unit is the second of a surrogate pair. -/
def isTrailing (unit : Nat) : Bool := 0xdc00 ≤ unit && unit ≤ 0xdfff

/-- The character of a surrogate pair. -/
def pairChar (leading trailing : Nat) : Char :=
  Char.ofNat (0x10000 + (leading - 0xd800) * 0x400 + (trailing - 0xdc00))

/-- The character of an escape by code units. -/
def readUnicode (text : List Char) : Except Fault (Char × List Char) := do
  let (unit, rest) ← readHex text
  if isTrailing unit then throw (before .loneSurrogate rest)
  else if !isLeading unit then return (Char.ofNat unit, rest)
  else
    match rest with
    | [] => throw (before .endInText [])
    | '\\' :: [] => throw (before .endInText [])
    | '\\' :: 'u' :: rest =>
      let (second, rest) ← readHex rest
      if isTrailing second then return (pairChar unit second, rest)
      else throw (before .loneSurrogate rest)
    | '\\' :: rest => throw (looking .surrogateCut rest)
    | rest => throw (looking .surrogateCut rest)

/-- The character of an escape, after its backslash. -/
def readEscape : List Char → Step Char
  | [] => .error (before .endInText [])
  | '"' :: rest => .ok ('"', rest)
  | '\\' :: rest => .ok ('\\', rest)
  | '/' :: rest => .ok ('/', rest)
  | 'b' :: rest => .ok ('\x08', rest)
  | 'f' :: rest => .ok ('\x0c', rest)
  | 'n' :: rest => .ok ('\n', rest)
  | 'r' :: rest => .ok ('\r', rest)
  | 't' :: rest => .ok ('\t', rest)
  | 'u' :: rest => readUnicode rest
  | rest => .error (looking .badEscape rest)

/-- The characters of a text after its opening quote, given those before them
in reverse.  Each step takes a character, so the length of the text and one
more is fuel enough. -/
def readChars : Nat → List Char → List Char → Step String
  | 0, _, rest => .error (before .endInText rest)
  | _ + 1, _, [] => .error (before .endInText [])
  | fuel + 1, done, c :: rest =>
    if c = '"' then .ok (String.ofList done.reverse, rest)
    else if c = '\\' then
      match readEscape rest with
      | .ok (escaped, rest) => readChars fuel (escaped :: done) rest
      | .error fault => .error fault
    else if c.toNat < 0x20 then .error (before .controlInText rest)
    else readChars fuel (c :: done) rest

/-- A text after its opening quote. -/
def readText (fuel : Nat) (text : List Char) : Step String := readChars fuel [] text

/-! ## Values -/

/-- The greatest number of containers inside each other. -/
def depthLimit : Nat := 127

/-- The text after the colon behind a key. -/
def skipColon (text : List Char) : Except Fault (List Char) :=
  match skipBlanks text with
  | [] => .error (looking .endInObject [])
  | ':' :: rest => .ok rest
  | rest => .error (looking .colonExpected rest)

mutual

/-- A value, at most `depth` containers deep. -/
def readValue (fuel depth : Nat) (text : List Char) : Step Tree :=
  match fuel with
  | 0 => .error (looking .tooDeep text)
  | fuel + 1 =>
    match skipBlanks text with
    | [] => .error (looking .endInValue [])
    | 'n' :: rest => readWord .null "ull".toList rest
    | 't' :: rest => readWord (.bool true) "rue".toList rest
    | 'f' :: rest => readWord (.bool false) "alse".toList rest
    | '-' :: rest => readNumber true rest
    | '"' :: rest => (readText fuel rest).map fun (value, rest) => (.text value, rest)
    | '[' :: rest =>
      if depth = 0 then .error (looking .tooDeep ('[' :: rest))
      else readItems fuel (depth - 1) true [] rest
    | '{' :: rest =>
      if depth = 0 then .error (looking .tooDeep ('{' :: rest))
      else readEntries fuel (depth - 1) true [] rest
    | c :: rest =>
      if c.isDigit then readNumber false (c :: rest)
      else .error (looking .valueExpected (c :: rest))

/-- The items of a list that follow those of `done`, which is in reverse. -/
def readItems (fuel depth : Nat) (first : Bool) (done : List Tree) (text : List Char) :
    Step Tree :=
  match fuel with
  | 0 => .error (looking .tooDeep text)
  | fuel + 1 =>
    match skipBlanks text with
    | [] => .error (looking .endInList [])
    | ']' :: rest => .ok (.list done.reverse, rest)
    | c :: rest =>
      if first then
        match readValue fuel depth (c :: rest) with
        | .ok (item, rest) => readItems fuel depth false (item :: done) rest
        | .error fault => .error fault
      else if c = ',' then
        match skipBlanks rest with
        | [] => .error (looking .endInValue [])
        | ']' :: rest => .error (looking .trailingComma (']' :: rest))
        | rest =>
          match readValue fuel depth rest with
          | .ok (item, rest) => readItems fuel depth false (item :: done) rest
          | .error fault => .error fault
      else .error (looking .listEndExpected (c :: rest))

/-- The entries of a table that follow those of `done`. -/
def readEntries (fuel depth : Nat) (first : Bool) (done : List (String × Tree))
    (text : List Char) : Step Tree :=
  match fuel with
  | 0 => .error (looking .tooDeep text)
  | fuel + 1 =>
    match skipBlanks text with
    | [] => .error (looking .endInObject [])
    | '}' :: rest => .ok (.table done, rest)
    | c :: rest =>
      if first then
        if c = '"' then readEntry fuel depth done rest
        else .error (looking .keyNotText (c :: rest))
      else if c = ',' then
        match skipBlanks rest with
        | [] => .error (looking .endInValue [])
        | '"' :: rest => readEntry fuel depth done rest
        | '}' :: rest => .error (looking .trailingComma ('}' :: rest))
        | rest => .error (looking .keyNotText rest)
      else .error (looking .objectEndExpected (c :: rest))

/-- An entry after the opening quote of its key, and the entries after it. -/
def readEntry (fuel depth : Nat) (done : List (String × Tree)) (text : List Char) :
    Step Tree :=
  match fuel with
  | 0 => .error (looking .tooDeep text)
  | fuel + 1 =>
    match readText fuel text with
    | .error fault => .error fault
    | .ok (key, rest) =>
      match skipColon rest with
      | .error fault => .error fault
      | .ok rest =>
        match readValue fuel depth rest with
        | .ok (value, rest) => readEntries fuel depth false (insertEntry key value done) rest
        | .error fault => .error fault

end

/-- The one value of a text.  A value and a place between two values take at
most three steps for each character, so the fuel never ends first. -/
def readAll (text : List Char) : Except Fault Tree :=
  match readValue (3 * text.length + 3) depthLimit text with
  | .error fault => .error fault
  | .ok (tree, rest) =>
    match skipBlanks rest with
    | [] => .ok tree
    | rest => .error (looking .trailingCharacters rest)

/-! ## Documents -/

/-- The line of a fault, and the bytes of that line up to it. -/
def Fault.position (fault : Fault) (text : String) : Text.Position :=
  let position := Text.lineColumn text (text.utf8ByteSize - fault.left)
  { position with column := position.column - 1 }

/-- The tree that a text writes, or the problem and its position. -/
def read (text : String) : Except (Problem × Text.Position) Tree :=
  match readAll text.toList with
  | .ok tree => .ok tree
  | .error fault => .error (fault.problem, fault.position text)

end RegisterBank.Document.Json
