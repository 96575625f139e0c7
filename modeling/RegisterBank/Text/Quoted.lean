import RegisterBank.Text.HexDigits
import RegisterBank.Text.Unprintable

/-!
# Quoted texts

Messages that show a value as it is stored put a text between double quotes.
Quotes and backslashes are escaped, a few controls have a letter of their own,
and every other character without a printed form is written by its code point.
-/

namespace RegisterBank.Text

/-- One character as it stands between double quotes. -/
def quotedChar (c : Char) : String :=
  if c = '\x00' then "\\0"
  else if c = '\t' then "\\t"
  else if c = '\r' then "\\r"
  else if c = '\n' then "\\n"
  else if c = '\\' then "\\\\"
  else if c = '"' then "\\\""
  else if isPrintable c then c.toString
  else "\\u\x7b" ++ String.ofList (hexDigits c.toNat) ++ "\x7d"

/-- `text` between double quotes. -/
def quoted (text : String) : String :=
  "\"" ++ text.toList.foldl (fun shown c => shown ++ quotedChar c) "" ++ "\""

/-- Items between brackets, a comma and a blank between two of them. -/
def bracketed (items : List String) : String := "[" ++ ", ".intercalate items ++ "]"

end RegisterBank.Text
