/-
# Expected output in a source text

Every line of a source that starts with two slashes is one line of the output that is
expected for it (`from_source`).  `check` compares the expected lines with an output, line by line; blanks
at the end of a line do not count.
-/
import FrontEnd.Text.Blank
import FrontEnd.Text.Lines
import FrontEnd.Text.Quoted

namespace FrontEnd

/-- A line of output that is not the expected one.  `line` counts from 1. -/
structure LineMismatch where
  line : Nat
  expected : Option String
  actual : Option String
  deriving DecidableEq, Repr

namespace LineMismatch

/-- One side of a mismatch: the quoted line, or that there is none. -/
def displaySide : Option String → String
  | some text => Text.quoteText text
  | none => "nothing"

def display (m : LineMismatch) : String :=
  "line " ++ toString m.line ++ ": expected " ++ displaySide m.expected ++ ", got "
    ++ displaySide m.actual

end LineMismatch

/-- The result of a check. -/
structure TestOutcome where
  mismatches : List LineMismatch
  deriving DecidableEq, Repr

namespace TestOutcome

def passed (o : TestOutcome) : Bool := o.mismatches.isEmpty

def display (o : TestOutcome) : String :=
  String.join (o.mismatches.map fun m => m.display ++ "\n")

end TestOutcome

/-- The expected lines of output. -/
structure Expectations where
  lines : List String
  deriving DecidableEq, Repr

namespace Expectations

/-- The line of output that a line of source asks for, if it starts with the marker: what
follows the marker and at most one space, without blanks at the end. -/
def ofLine? : List Char → Option (List Char)
  | '/' :: '/' :: ' ' :: rest => some (Text.dropBlanksAtEnd rest)
  | '/' :: '/' :: rest => some (Text.dropBlanksAtEnd rest)
  | _ => none

/-- The expected lines that a source text holds (`from_source`). -/
def ofSource (source : String) : Expectations :=
  ⟨((Text.splitLines source.toList).filterMap ofLine?).map String.ofList⟩

def isEmpty (e : Expectations) : Bool := e.lines.isEmpty

/-- The mismatches between two lists of lines, the first of which have the number `line`. -/
def compareFrom (line : Nat) : List String → List String → List LineMismatch
  | [], [] => []
  | e :: expected, [] => ⟨line, some e, none⟩ :: compareFrom (line + 1) expected []
  | [], a :: actual => ⟨line, none, some a⟩ :: compareFrom (line + 1) [] actual
  | e :: expected, a :: actual =>
    if e = a then compareFrom (line + 1) expected actual
    else ⟨line, some e, some a⟩ :: compareFrom (line + 1) expected actual

theorem compareFrom_self (n : Nat) (lines : List String) : compareFrom n lines lines = [] := by
  induction lines generalizing n with
  | nil => simp [compareFrom]
  | cons line lines ih => simp [compareFrom, ih]

/-- The lines of an output, as they are compared. -/
def actualLines (output : String) : List String := (Text.lines output).map Text.trimEnd

/-- Compares the expected lines with an output (`check`). -/
def check (e : Expectations) (output : String) : TestOutcome :=
  ⟨compareFrom 1 e.lines (actualLines output)⟩

end Expectations
end FrontEnd
