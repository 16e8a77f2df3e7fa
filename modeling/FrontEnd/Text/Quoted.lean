/-
# Quoted forms

A quoted form shows a text or a character between two marks.  A backslash, the mark itself
and the characters NUL, tab, carriage return and line feed are written with a backslash;
a character that is not printable is written as its code point in lower-case hexadecimal
digits, between braces.
-/
import FrontEnd.Text.Printable

namespace FrontEnd.Text

/-- The digits of a code point, in base 16, lower case, no leading zero. -/
def hexDigits (n : Nat) : List Char := Nat.toDigits 16 n

/-- A character inside a quoted form whose marks are `mark`. -/
def escapeChar (mark c : Char) : List Char :=
  if c = '\x00' then ['\\', '0']
  else if c = '\t' then ['\\', 't']
  else if c = '\r' then ['\\', 'r']
  else if c = '\n' then ['\\', 'n']
  else if c = '\\' then ['\\', '\\']
  else if c = mark then ['\\', mark]
  else if isPrintable c then [c]
  else ['\\', 'u', '{'] ++ hexDigits c.toNat ++ ['}']

/-- The characters between two marks. -/
def quote (mark : Char) (chars : List Char) : List Char :=
  mark :: chars.flatMap (escapeChar mark) ++ [mark]

/-- A text between double quotes; a single quote is shown as it is. -/
def quoteText (text : String) : String := String.ofList (quote '"' text.toList)

/-- A character between single quotes; a double quote is shown as it is. -/
def quoteChar (c : Char) : String := String.ofList (quote '\'' [c])

end FrontEnd.Text
