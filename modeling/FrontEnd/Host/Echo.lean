/-
# Echoed text

What the program `echo` writes.  Its options say whether a line feed ends the output and
whether escapes are replaced: a backslash and a letter, octal digits, or `x` and one or two
hexadecimal digits.
-/
import FrontEnd.Host.Shell.Format

namespace FrontEnd.Host

open Text (Octets)
open Shell (isHexDigit isOctalDigit ofDigits ofOctal)

/-- The octet that a backslash and a letter stand for. -/
def escapedLetter? (c : Char) : Option Char :=
  match c with
  | 'a' => some '\x07'
  | 'b' => some '\x08'
  | 'e' => some '\x1b'
  | 'f' => some '\x0c'
  | 'n' => some '\n'
  | 'r' => some '\r'
  | 't' => some '\t'
  | 'v' => some '\x0b'
  | '\\' => some '\\'
  | _ => none

/-- What stands after a backslash, and what follows.  A backslash that starts no escape stays,
and so does the character after it. -/
def readEscape (c : Char) (rest : Octets) : Octets × Octets :=
  if c = 'x' then
    let digits := (rest.takeWhile isHexDigit).take 2
    if digits.isEmpty then (['\\', c], rest)
    else ([Char.ofNat (ofDigits 16 digits)], rest.drop digits.length)
  else if c = '0' then
    let digits := (rest.takeWhile isOctalDigit).take 3
    ([ofOctal digits], rest.drop digits.length)
  else if isOctalDigit c then
    let digits := c :: (rest.takeWhile isOctalDigit).take 2
    ([ofOctal digits], (c :: rest).drop digits.length)
  else match escapedLetter? c with
    | some e => ([e], rest)
    | none => (['\\', c], rest)

/-- Replaces the escapes of a text.  The output ends at `\c`: then the second answer is true.
`bound` is the number of characters at most. -/
def unescape : Nat → Octets → Octets × Bool
  | 0, _ => ([], false)
  | _, [] => ([], false)
  | bound + 1, '\\' :: c :: rest =>
    if c = 'c' then ([], true)
    else
      let (shown, after) := readEscape c rest
      let (text, stops) := unescape bound after
      (shown ++ text, stops)
  | bound + 1, c :: rest =>
    let (text, stops) := unescape bound rest
    (c :: text, stops)

/-- How `echo` was asked to write. -/
structure EchoOptions where
  newline : Bool := true
  escapes : Bool := false
  deriving DecidableEq, Repr

/-- Applies the letter of an option. -/
def EchoOptions.apply (o : EchoOptions) (letter : Char) : EchoOptions :=
  if letter = 'n' then { o with newline := false } else { o with escapes := letter == 'e' }

/-- The options of `echo`: leading words of a hyphen and letters of `n`, `e` and `E`. -/
def echoOptions (o : EchoOptions) : List Octets → EchoOptions × List Octets
  | [] => (o, [])
  | word :: words =>
    match word with
    | '-' :: c :: letters =>
      if (c :: letters).all fun l => l == 'n' || l == 'e' || l == 'E' then
        echoOptions ((c :: letters).foldl EchoOptions.apply o) words
      else (o, word :: words)
    | _ => (o, word :: words)

/-- What `echo` writes. -/
def echo (arguments : List Octets) : Octets :=
  let (o, words) := echoOptions {} arguments
  let text : Octets := List.intercalate [' '] words
  let (text, stops) := if o.escapes then unescape (text.length + 1) text else (text, false)
  if o.newline && !stops then text ++ ['\n'] else text

end FrontEnd.Host
