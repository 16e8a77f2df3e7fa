/-
# Patterns

A pattern is matched against a whole text.  `?` matches any character, `*` any run of
characters, and brackets match one of the characters that they name.  A quoted character
matches itself.

* `Pattern.ofGlyphs` reads a pattern;
* `Pattern.trim` removes what a pattern matches at an end of a text.
-/
import FrontEnd.Host.Shell.Syntax

namespace FrontEnd.Shell

open Text (Octets)

/-- A character, and whether it may mean something else in a pattern. -/
structure Glyph where
  char : Char
  isActive : Bool
  deriving DecidableEq, Repr

/-- The characters without what they may mean. -/
def plainText (glyphs : List Glyph) : Octets := glyphs.map Glyph.char

/-- A class of characters that has a name. -/
inductive Class where
  | alpha
  | digit
  | alnum
  | upper
  | lower
  | space
  | blank
  | punct
  | print
  | graph
  | control
  | hexDigit
  deriving DecidableEq, Repr

namespace Class

def ofName? (name : String) : Option Class :=
  match name with
  | "alpha" => some alpha
  | "digit" => some digit
  | "alnum" => some alnum
  | "upper" => some upper
  | "lower" => some lower
  | "space" => some space
  | "blank" => some blank
  | "punct" => some punct
  | "print" => some print
  | "graph" => some graph
  | "cntrl" => some control
  | "xdigit" => some hexDigit
  | _ => none

def contains (k : Class) (c : Char) : Bool :=
  match k with
  | alpha => c.isAlpha
  | digit => c.isDigit
  | alnum => c.isAlphanum
  | upper => c.isUpper
  | lower => c.isLower
  | space => c == ' ' || 9 ≤ c.toNat && c.toNat ≤ 13
  | blank => c == ' ' || c == '\t'
  | punct => 33 ≤ c.toNat && c.toNat ≤ 126 && !c.isAlphanum
  | print => 32 ≤ c.toNat && c.toNat ≤ 126
  | graph => 33 ≤ c.toNat && c.toNat ≤ 126
  | control => c.toNat < 32 || c.toNat == 127
  | hexDigit => c.isDigit || 'a' ≤ c && c ≤ 'f' || 'A' ≤ c && c ≤ 'F'

end Class

/-- What brackets name. -/
inductive Member where
  | range (least greatest : Char)
  | classOf (k : Class)
  deriving DecidableEq, Repr

def Member.contains (m : Member) (c : Char) : Bool :=
  match m with
  | range least greatest => least ≤ c && c ≤ greatest
  | classOf k => k.contains c

/-- A part of a pattern. -/
inductive Piece where
  | char (c : Char)
  | anyChar
  | anyRun
  | oneOf (isNegated : Bool) (members : List Member)
  deriving DecidableEq, Repr

/-- A pattern, part by part. -/
abbrev Pattern := List Piece

/-- A character that the part matches. -/
def Piece.accepts (p : Piece) (c : Char) : Bool :=
  match p with
  | char d => c == d
  | anyChar | anyRun => true
  | oneOf isNegated members => members.any (·.contains c) != isNegated

namespace Pattern

/-- The class whose name stands in brackets of its own, and what follows them. -/
def readClass? (glyphs : List Glyph) : Option (Class × List Glyph) :=
  match glyphs with
  | ⟨'[', true⟩ :: ⟨':', _⟩ :: rest =>
    let name := rest.takeWhile fun g => g.char.isAlpha
    match rest.drop name.length with
    | ⟨':', _⟩ :: ⟨']', true⟩ :: after =>
      (Class.ofName? (String.ofList (plainText name))).map fun k => (k, after)
    | _ => none
  | _ => none

/-- A backslash that means something is dropped: the character after it means only itself. -/
def readChar? (glyphs : List Glyph) : Option (Char × List Glyph) :=
  match glyphs with
  | ⟨'\\', true⟩ :: ⟨c, _⟩ :: rest => some (c, rest)
  | ⟨c, _⟩ :: rest => some (c, rest)
  | [] => none

/-- The members up to the closing bracket, and what follows it.  A bracket that comes first
does not close.  `bound` is the number of characters at most. -/
def readMembers? (isFirst : Bool) : Nat → List Glyph → Option (List Member × List Glyph)
  | 0, _ => none
  | bound + 1, glyphs =>
    match glyphs with
    | [] => none
    | g :: rest =>
      if g = ⟨']', true⟩ ∧ !isFirst then some ([], rest)
      else match readClass? glyphs with
        | some (k, after) =>
          (readMembers? false bound after).map fun (ms, left) => (.classOf k :: ms, left)
        | none =>
          match readChar? glyphs with
          | none => none
          | some (least, after) =>
            let goOn (greatest : Char) (after : List Glyph) : Option (List Member × List Glyph) :=
              (readMembers? false bound after).map fun (ms, left) =>
                (.range least greatest :: ms, left)
            match after with
            | ⟨'-', true⟩ :: next :: more =>
              if next = ⟨']', true⟩ then goOn least after
              else (readChar? (next :: more)).bind fun (greatest, after) => goOn greatest after
            | _ => goOn least after

/-- Reads a pattern.  Brackets that are not closed mean nothing.  `bound` is the number of
characters at most. -/
def read : Nat → List Glyph → Pattern
  | 0, _ => []
  | _, [] => []
  | bound + 1, ⟨c, isActive⟩ :: rest =>
    if !isActive then .char c :: read bound rest
    else if c = '?' then .anyChar :: read bound rest
    else if c = '*' then .anyRun :: read bound rest
    else if c = '[' then
      let (isNegated, inside) := match rest with
        | ⟨'!', true⟩ :: inside => (true, inside)
        | _ => (false, rest)
      match readMembers? true (inside.length + 1) inside with
      | some (members, after) => .oneOf isNegated members :: read bound after
      | none => .char c :: read bound rest
    else if c = '\\' then
      match rest with
      | [] => [.char c]
      | g :: rest => .char g.char :: read bound rest
    else .char c :: read bound rest

def ofGlyphs (glyphs : List Glyph) : Pattern := read glyphs.length glyphs

/-- The whole text is matched. -/
def matches? : Pattern → Octets → Bool
  | [], text => text.isEmpty
  | .anyRun :: p, text =>
    (List.range (text.length + 1)).any fun n => matches? p (text.drop n)
  | piece :: p, c :: text => piece.accepts c && matches? p text
  | _ :: _, [] => false

/-- The text without what the pattern matches at one of its ends: the longest such part, or
the shortest.  In the text nothing may stand between texts; the pattern sees the first of
them. -/
def trim (p : Pattern) (side : End) (longest : Bool) (text : List (Option Char)) :
    List (Option Char) :=
  let isMatched (part : List (Option Char)) : Bool :=
    p.matches? ((part.takeWhile Option.isSome).filterMap id)
  let lengths := if longest then (List.range (text.length + 1)).reverse
    else List.range (text.length + 1)
  match side with
  | .front =>
    match lengths.find? fun n => isMatched (text.take n) with
    | some n => text.drop n
    | none => text
  | .back =>
    match lengths.find? fun n => isMatched (text.drop (text.length - n)) with
    | some n => text.take (text.length - n)
    | none => text

end Pattern
end FrontEnd.Shell
