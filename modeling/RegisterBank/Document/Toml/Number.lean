import RegisterBank.Document.Toml.Step
import RegisterBank.Document.Tree

/-!
# Numbers, dates and times in TOML

A value that starts with a sign or a digit is a date or a time, a
floating-point number, or an integer, looked for in this order.  Integers are
signed with 64 bits.  Infinities and "not a number" have no place in a tree and
become null.
-/

namespace RegisterBank.Document.Toml

/-! ## Runs of digits -/

/-- Digits that single underscores may separate, with the text after them.  An
underscore that no digit follows is a committed stop. -/
def digitRun (isDigit : Char → Bool) : List Char → Step (List Char)
  | [] => .ok ([], [])
  | c :: rest =>
    if isDigit c then (digitRun isDigit rest).map fun (digits, rest) => (c :: digits, rest)
    else if c = '_' then
      if rest.head?.any isDigit then digitRun isDigit rest else .error (failAt rest)
    else .ok ([], c :: rest)

/-- A run with one digit at least. -/
def someDigits (isDigit : Char → Bool) (text : List Char) : Step (List Char) :=
  if text.head?.any isDigit then digitRun isDigit text else .error (failAt text)

/-- The value of a digit, whatever its base. -/
def digitValue (c : Char) : Nat :=
  if c.isDigit then c.toNat - '0'.toNat
  else if 'a' ≤ c ∧ c ≤ 'f' then c.toNat - 'a'.toNat + 10
  else c.toNat - 'A'.toNat + 10

/-- The value of digits in a base. -/
def digitsValue (base : Nat) (digits : List Char) : Nat :=
  digits.foldl (fun value c => value * base + digitValue c) 0

/-- Hexadecimal digits. -/
def isHexDigit (c : Char) : Bool :=
  c.isDigit || ('a' ≤ c && c ≤ 'f') || ('A' ≤ c && c ≤ 'F')

/-! ## Dates and times -/

/-- Exactly `count` digits at the start of a text. -/
def fixedDigits? (count : Nat) (text : List Char) : Option (List Char × List Char) :=
  let digits := text.take count
  if digits.length = count ∧ digits.all Char.isDigit then some (digits, text.drop count) else none

/-- A number of two digits between two bounds. -/
def twoDigits (least greatest : Nat) (text : List Char) : Step (List Char) :=
  match fixedDigits? 2 text with
  | some (digits, rest) =>
    let value := digitsValue 10 digits
    if least ≤ value ∧ value ≤ greatest then .ok (digits, rest) else .error (stopAt text)
  | none => .error (stopAt text)

/-- The text after one character that must stand there. -/
def expectChar (c : Char) : List Char → Except Stop (List Char)
  | [] => .error (stopAt [])
  | d :: rest => if d = c then .ok rest else .error (stopAt (d :: rest))

/-- The days of a month. -/
def daysInMonth (year month : Nat) : Nat :=
  if month = 2 then
    if year % 4 = 0 ∧ (year % 100 ≠ 0 ∨ year % 400 = 0) then 29 else 28
  else if month = 4 ∨ month = 6 ∨ month = 9 ∨ month = 11 then 30
  else 31

/-- A date.  After the year and a dash, every stop is committed. -/
def date (text : List Char) : Except Stop (List Char × List Char) := do
  match fixedDigits? 4 text with
  | none => throw (stopAt text)
  | some (year, rest) =>
    let rest ← expectChar '-' rest
    let (month, rest) ← committed (twoDigits 1 12 rest)
    let dayText ← committed (expectChar '-' rest)
    let (day, rest) ← committed (twoDigits 1 31 dayText)
    if digitsValue 10 day ≤ daysInMonth (digitsValue 10 year) (digitsValue 10 month) then
      return (year ++ '-' :: month ++ '-' :: day, rest)
    else throw (failAt dayText)

/-- The fraction of a second, cut after nine digits and without zeros at its
end; nothing is left of a fraction that is zero. -/
def fraction (text : List Char) : List Char × List Char :=
  match text with
  | '.' :: after =>
    let digits := after.takeWhile Char.isDigit
    if digits.isEmpty then ([], text)
    else
      let kept := ((digits.take 9).reverse.dropWhile (· == '0')).reverse
      (if kept.isEmpty then [] else '.' :: kept, after.dropWhile Char.isDigit)
  | _ => ([], text)

/-- A time.  After the hour and a colon, every stop is committed. -/
def time (text : List Char) : Except Stop (List Char × List Char) := do
  let (hour, rest) ← twoDigits 0 23 text
  let rest ← expectChar ':' rest
  let (minute, rest) ← committed (twoDigits 0 59 rest)
  let rest ← committed (expectChar ':' rest)
  let (second, rest) ← committed (twoDigits 0 60 rest)
  let (part, rest) := fraction rest
  return (hour ++ ':' :: minute ++ ':' :: second ++ part, rest)

/-- The distance from universal time that may follow a time of day.  After its
sign, every stop is committed. -/
def offset (text : List Char) : Except Stop (List Char × List Char) := do
  match text with
  | 'Z' :: rest => return (['Z'], rest)
  | 'z' :: rest => return (['Z'], rest)
  | sign :: rest =>
    if sign = '+' ∨ sign = '-' then
      let (hour, rest) ← committed (twoDigits 0 23 rest)
      let rest ← committed (expectChar ':' rest)
      let (minute, rest) ← committed (twoDigits 0 59 rest)
      let isZero := digitsValue 10 hour = 0 ∧ digitsValue 10 minute = 0
      return ((if isZero then '+' else sign) :: hour ++ ':' :: minute, rest)
    else return ([], text)
  | [] => return ([], [])

/-- The time of day that may follow a date, with the letter before it. -/
def timeAfterDate (text : List Char) : Except Stop (List Char × List Char) :=
  match text with
  | [] => .ok ([], [])
  | c :: rest =>
    if c = 'T' ∨ c = 't' ∨ c = ' ' then
      match time rest with
      | .ok (part, rest) => (offset rest).map fun (zone, rest) => ('T' :: part ++ zone, rest)
      | .error stop => if stop.committed then .error stop else .ok ([], text)
    else .ok ([], text)

/-- The key under which a tree holds the text of a date or a time. -/
def dateKey : String := "$__toml_private_datetime"

/-- The tree of a date or a time. -/
def dateTree (text : List Char) : Tree := .table [(dateKey, .text (String.ofList text))]

/-- A date, a time of day, or both. -/
def dateTime (text : List Char) : Except Stop (Tree × List Char) :=
  match date text with
  | .ok (day, rest) =>
    (timeAfterDate rest).map fun (part, rest) => (dateTree (day ++ part), rest)
  | .error stop =>
    if stop.committed then .error stop
    else (time text).map fun (part, rest) => (dateTree part, rest)

/-! ## Numbers -/

/-- A sign, and the text after it. -/
def splitSign : List Char → Bool × List Char
  | '-' :: rest => (true, rest)
  | '+' :: rest => (false, rest)
  | text => (false, text)

/-- The digits of a decimal integer after its sign: a lone zero, or a run that
does not start with one. -/
def decimalDigits (text : List Char) : Step (List Char) :=
  match text with
  | '0' :: rest => .ok (['0'], rest)
  | c :: _ => if c.isDigit then digitRun Char.isDigit text else .error (stopAt text)
  | [] => .error (stopAt [])

/-- The exponent after its letter. -/
def exponent (text : List Char) : Step Int :=
  let (negative, text) := splitSign text
  (someDigits Char.isDigit text).map fun (digits, rest) =>
    let value : Int := digitsValue 10 digits
    (if negative then -value else value, rest)

/-- The exponent that may follow the digits of a number. -/
def exponent? (text : List Char) : Step (Option Int) :=
  match text with
  | 'e' :: rest => (exponent rest).map fun (value, rest) => (some value, rest)
  | 'E' :: rest => (exponent rest).map fun (value, rest) => (some value, rest)
  | rest => .ok (none, rest)

/-- The tree of a floating-point number that starts at `text`. -/
def floatTree (text : List Char) (negative : Bool) (digits : List Char) (power : Int)
    (rest : List Char) : Step Tree :=
  match Number.Magnitude.ofDecimal? (digitsValue 10 digits) power with
  | some magnitude => .ok (.float ⟨negative, magnitude⟩, rest)
  | none => if negative then .ok (.null, rest) else .error (failAt text)

/-- A number with digits and a fraction, an exponent, or both. -/
def decimalFloat (text : List Char) : Except Stop (Tree × List Char) := do
  let (negative, unsigned) := splitSign text
  let (whole, rest) ← decimalDigits unsigned
  match rest with
  | '.' :: after =>
    let (part, rest) ← someDigits Char.isDigit after
    let (power, rest) ← exponent? rest
    floatTree text negative (whole ++ part) (power.getD 0 - part.length) rest
  | _ =>
    match ← exponent? rest with
    | (some power, rest) => floatTree text negative whole power rest
    | (none, _) => throw (stopAt rest)

/-- The words for infinity and for "not a number". -/
def specialFloat (text : List Char) : Step Tree :=
  match (splitSign text).2 with
  | 'i' :: 'n' :: 'f' :: rest => .ok (.null, rest)
  | 'n' :: 'a' :: 'n' :: rest => .ok (.null, rest)
  | rest => .error (stopAt rest)

/-- A floating-point number. -/
def float (text : List Char) : Step Tree :=
  match decimalFloat text with
  | .ok result => .ok result
  | .error stop => if stop.committed then .error stop else specialFloat text

/-- An integer that starts at `text`, if it has 64 bits with its sign. -/
def integerTree (text : List Char) (value : Int) (rest : List Char) : Step Tree :=
  let limit : Int := Nat.pow 2 63
  if -limit ≤ value ∧ value < limit then .ok (.int value, rest) else .error (failAt text)

/-- An integer in a base that its first two characters announce. -/
def basedInteger (text : List Char) (base : Nat) (isDigit : Char → Bool) (after : List Char) :
    Step Tree :=
  match someDigits isDigit after with
  | .ok (digits, rest) => integerTree text (digitsValue base digits) rest
  | .error stop => .error stop

/-- An integer. -/
def integer (text : List Char) : Step Tree :=
  match text with
  | '0' :: 'x' :: rest => basedInteger text 16 isHexDigit rest
  | '0' :: 'o' :: rest => basedInteger text 8 (fun c => '0' ≤ c && c ≤ '7') rest
  | '0' :: 'b' :: rest => basedInteger text 2 (fun c => c == '0' || c == '1') rest
  | _ =>
    let (negative, unsigned) := splitSign text
    match decimalDigits unsigned with
    | .ok (digits, rest) =>
      let value : Int := digitsValue 10 digits
      integerTree text (if negative then -value else value) rest
    | .error stop => .error stop

/-- A value that starts with a sign or a digit. -/
def number (text : List Char) : Step Tree :=
  match dateTime text with
  | .ok result => .ok result
  | .error stop =>
    if stop.committed then .error stop
    else
      match float text with
      | .ok result => .ok result
      | .error stop => if stop.committed then .error stop else integer text

end RegisterBank.Document.Toml
