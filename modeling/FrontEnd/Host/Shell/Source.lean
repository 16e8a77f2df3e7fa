/-
# Reading scripts

Tokens, and what of a script is still to be read.  A backslash before a line feed joins two
lines; `Reading.peek` does not show it, `Source.peekRaw` does.

A command name may stand for a text, which is then read in its place (`Reading.replaceAlias`).
-/
import FrontEnd.Host.Shell.Syntax

namespace FrontEnd.Shell

open Text (Octets)

/-- Why a script is not understood, and the line where that was noticed. -/
structure Complaint where
  line : Nat
  message : String
  deriving DecidableEq, Repr

/-- What a redirection does with its operand. -/
inductive Direction where
  | read
  | write
  /-- A file that is there may be lost. -/
  | overwrite
  | append
  | readWrite
  | duplicate
  /-- The operand ends a text that follows.  Tabs at the start of its lines may be dropped. -/
  | document (dropTabs : Bool)
  deriving DecidableEq, Repr

inductive Token where
  | endOfText
  | newline
  | operator (symbol : String)
  | redirection (descriptor : Nat) (direction : Direction)
  | keyword (text : String)
  | word (word : Word)

/-- The words that have a meaning where a command starts. -/
def keywords : List String :=
  ["!", "case", "do", "done", "elif", "else", "esac", "fi", "for", "if", "in", "then", "until",
    "while", "\x7b", "\x7d"]

namespace Token

/-- How a token is called in a complaint. -/
def describe : Token → String
  | endOfText => "end of file"
  | newline => "newline"
  | operator symbol => "\"" ++ symbol ++ "\""
  | redirection _ _ => "redirection"
  | keyword text => "\"" ++ text ++ "\""
  | word _ => "word"

/-- A word that is a keyword, as such. -/
def recognise : Token → Token
  | word [.text octets] =>
    let text := String.ofList octets
    if text ∈ keywords then keyword text else word [.text octets]
  | token => token

def isOperator (symbol : String) : Token → Bool
  | operator s => s == symbol
  | _ => false

def isKeyword (text : String) : Token → Bool
  | keyword t => t == text
  | _ => false

/-- No command starts with the token, because it ends a list of commands. -/
def endsList : Token → Bool
  | endOfText => true
  | operator symbol => symbol == ")" || symbol == ";;"
  | keyword text => text ∈ ["do", "done", "elif", "else", "esac", "fi", "then", "\x7d"]
  | _ => false

end Token

/-- The line after a text that a redirection asks for. -/
structure Delimiter where
  text : Octets
  /-- Tabs at the start of lines are dropped. -/
  dropTabs : Bool
  deriving DecidableEq, Repr

/-- A text that a redirection has asked for and that has not been reached yet. -/
structure Pending where
  /-- The number under which the text is found. -/
  index : Nat
  delimiter : Delimiter
  /-- Nothing is expanded in the text. -/
  isLiteral : Bool
  deriving DecidableEq, Repr

/-- A text that stands for a command name and is being read. -/
structure Substitute where
  name : Octets
  /-- How much is left to be read after the text. -/
  after : Nat
  /-- The text ends in a blank: then the word after it is looked up as well. -/
  goesOn : Bool
  deriving DecidableEq, Repr

/-- What of a script is still to be read. -/
structure Source where
  rest : Octets
  /-- The texts that command names stand for. -/
  aliases : List (Octets × Octets) := []
  /-- Those that are being read, the last one first. -/
  substitutes : List Substitute := []
  line : Nat := 1
  /-- A token that was put back. -/
  ahead : Option Token := none
  /-- The texts asked for, the last one first. -/
  pending : List Pending := []
  /-- The texts of redirections that were reached, by their numbers. -/
  documents : List (Nat × Word) := []
  /-- The number of the next text that is asked for. -/
  nextIndex : Nat := 0

namespace Source

/-- Drops what joins lines. -/
def joinLines (s : Source) : Source :=
  let rec go (line : Nat) : Octets → Nat × Octets
    | '\\' :: '\n' :: rest => go (line + 1) rest
    | rest => (line, rest)
  let (line, rest) := go s.line s.rest
  { s with line, rest }

/-- The next character, unless lines have to be joined to see it. -/
def peekRaw (s : Source) : Option Char := s.rest.head?

/-- Goes past the next character. -/
def skipRaw (s : Source) : Source :=
  match s.rest with
  | [] => s
  | c :: rest => { s with rest, line := if c = '\n' then s.line + 1 else s.line }

/-- Takes the longest run of characters with a property. -/
def takeRun (p : Char → Bool) (s : Source) : Octets × Source :=
  let run := s.rest.takeWhile p
  (run, { s with rest := s.rest.drop run.length, line := s.line + run.count '\n' })

end Source

/-- Reads from a source, or complains about it. -/
abbrev Reading := StateT Source (Except Complaint)

namespace Reading

def complain {α : Type} (message : String) : Reading α := do
  throw ⟨(← get).line, message⟩

/-- Puts the text that a word stands for in its place, if there is one.  A name is not replaced
in its own text. -/
def replaceAlias : Token → Reading Bool
  | .word [.text name] => do
    let s ← get
    match s.aliases.lookup name with
    | none => return false
    | some text =>
      let after := s.rest.length
      if s.substitutes.any fun other => other.name == name && other.after ≤ after then
        return false
      else
        let goesOn := match text.getLast? with
          | some c => c == ' ' || c == '\t'
          | none => false
        set { s with rest := text ++ s.rest, substitutes := ⟨name, after, goesOn⟩ :: s.substitutes }
        return true
  | _ => return false

/-- A text that goes on with the next word was read to its end, and so much was left before. -/
def endsSubstitute (before : Nat) : Reading Bool := do
  let s ← get
  return s.substitutes.any fun text =>
    text.goesOn && text.after ≤ before && s.rest.length < text.after

/-- The token cannot stand here, where perhaps another one was expected. -/
def unexpected {α : Type} (found : Token) (expected : Option Token := none) : Reading α :=
  complain <| found.describe ++ " unexpected" ++
    match expected with
    | some token => " (expecting " ++ token.describe ++ ")"
    | none => ""

/-- The next character, which stays where it is. -/
def peek : Reading (Option Char) := do
  modify Source.joinLines
  return (← get).peekRaw

/-- Goes past the next character. -/
def skip : Reading Unit := modify Source.skipRaw

/-- Takes a character if it comes next. -/
def accept (c : Char) : Reading Bool := do
  if (← peek) = some c then
    skip
    return true
  else return false

/-- Takes characters with a property, at most `bound` of them. -/
def takeWhile (p : Char → Bool) : Nat → Reading Octets
  | 0 => return []
  | bound + 1 => do
    match ← peek with
    | some c =>
      if p c then
        skip
        return c :: (← takeWhile p bound)
      else return []
    | none => return []

/-- Takes a name or a number. -/
def takeName : Reading Octets := do
  takeWhile isNamePart (← get).rest.length

def takeDigits : Reading Octets := do
  takeWhile Char.isDigit (← get).rest.length

def putBack (token : Token) : Reading Unit :=
  modify fun s => { s with ahead := some token }

/-- Asks for a text that comes after the line. -/
def await (delimiter : Delimiter) (isLiteral : Bool) : Reading Nat := do
  let s ← get
  set { s with
    pending := ⟨s.nextIndex, delimiter, isLiteral⟩ :: s.pending
    nextIndex := s.nextIndex + 1 }
  return s.nextIndex

/-- At the start of a line: takes the delimiter of a text if it is the line, and drops tabs
where they are to be dropped. -/
def takeDelimiter (d : Delimiter) : Reading Bool := do
  let s ← get
  let rest := if d.dropTabs then s.rest.dropWhile (· == '\t') else s.rest
  let line := rest.takeWhile (· != '\n')
  if line == d.text && !rest.isEmpty then
    set { s with rest := (rest.drop line.length).drop 1, line := s.line + 1 }
    return true
  else
    set { s with rest }
    return false

/-- Takes the lines up to the delimiter, or all that is left.  `bound` is the number of lines
at most. -/
def takeLines (d : Delimiter) : Nat → Reading Octets
  | 0 => return []
  | bound + 1 => do
    if ← takeDelimiter d then return []
    else
      let (line, s) := (← get).takeRun (· != '\n')
      if s.rest.isEmpty then
        set s
        return line
      else
        set s.skipRaw
        return line ++ '\n' :: (← takeLines d bound)

end Reading

end FrontEnd.Shell
