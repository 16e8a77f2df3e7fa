/-
# Scripts

What a script says: commands, and the words that they are made of.  A word is a list of
parts; what a part gives is known when the command runs.

Redirections to texts that stand in the script itself name them by an index, because such a
text comes after the line that asks for it.
-/
import FrontEnd.Text.Octets

namespace FrontEnd.Shell

open Text (Octets)

/-- An end of a text. -/
inductive End where
  | front
  | back
  deriving DecidableEq, Repr

mutual

/-- A part of a word. -/
inductive Part where
  /-- Stands outside of quotes. -/
  | text (octets : Octets)
  /-- Stands inside quotes, and means nothing but itself. -/
  | quoted (octets : Octets)
  | parameter (name : Octets) (use : Use) (isQuoted : Bool)
  /-- What a command writes. -/
  | output (command : Command) (isQuoted : Bool)
  /-- The value of an expression. -/
  | arithmetic (expression : List Part) (isQuoted : Bool)

/-- What is made of a parameter.  With `ifEmpty` an empty parameter counts as one that is not
set. -/
inductive Use where
  | value
  | length
  /-- The word, if the parameter is not set. -/
  | default (ifEmpty : Bool) (word : List Part)
  /-- As before, and the parameter is set to the word. -/
  | assign (ifEmpty : Bool) (word : List Part)
  /-- An error with the word as message, if the parameter is not set. -/
  | require (ifEmpty : Bool) (word : List Part)
  /-- The word, if the parameter is set. -/
  | alternative (ifEmpty : Bool) (word : List Part)
  /-- The value without what the pattern matches at one end. -/
  | trim (side : End) (longest : Bool) (pattern : List Part)
  /-- The value and then the word.  What follows in the word around it does not count. -/
  | leading (word : List Part)
  /-- Nothing that is known. -/
  | unknown

/-- What a descriptor is redirected to. -/
inductive Target where
  | read (path : List Part)
  | write (path : List Part)
  /-- A file that is there may be lost. -/
  | overwrite (path : List Part)
  | append (path : List Part)
  | readWrite (path : List Part)
  /-- Another descriptor, or nothing if the word is a hyphen. -/
  | duplicate (word : List Part)
  /-- A text of the script. -/
  | document (index : Nat)

inductive Redirection where
  | mk (descriptor : Nat) (target : Target)

inductive Command where
  | nothing
  /-- Assignments, and a command with its arguments. -/
  | simple (line : Nat) (assignments : List (Octets × List Part)) (words : List (List Part))
      (redirections : List Redirection)
  | pipeline (commands : List Command)
  | negation (command : Command)
  | sequence (first second : Command)
  /-- The second runs if the first succeeds. -/
  | conjunction (first second : Command)
  /-- The second runs if the first fails. -/
  | disjunction (first second : Command)
  | background (command : Command)
  | group (line : Nat) (command : Command) (redirections : List Redirection)
  /-- A group whose effects on the shell are forgotten. -/
  | subshell (line : Nat) (command : Command) (redirections : List Redirection)
  | choice (test thenPart elsePart : Command)
  /-- Repeats the body while the test succeeds, or until it does. -/
  | loop (isUntil : Bool) (test body : Command)
  /-- Runs the body for each of the words, or for each word that the script was given. -/
  | each (line : Nat) (name : Octets) (words : Option (List (List Part))) (body : Command)
  /-- Runs the first of the clauses one of whose patterns matches. -/
  | select (line : Nat) (subject : List Part) (clauses : List (List (List Part) × Command))
  | define (name : Octets) (body : Command)

end

/-- A word of a script. -/
abbrev Word := List Part

/-- A name, as variables have one: letters, digits and underscores, no digit first. -/
def isNameStart (c : Char) : Bool := c.isAlpha || c == '_'

def isNamePart (c : Char) : Bool := c.isAlphanum || c == '_'

def isName : Octets → Bool
  | [] => false
  | c :: rest => isNameStart c && rest.all isNamePart

end FrontEnd.Shell
