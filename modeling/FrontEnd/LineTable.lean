/-
# Line tables

A line table holds the byte offset at which each line of a text starts, and turns offsets
into lines and columns without looking at the text again.

* `push` (`push_line_start`) refuses an offset that is not after the last line's start, so the
  starts increase strictly whatever is pushed;
* `lineCol` (`line_col`) finds the last line that starts at or before an offset, and counts the
  column from there.  Columns start at 1, and the sum can be out of range: the greatest offset
  has no column on a line that starts at 0.
-/
import FrontEnd.Machine

namespace FrontEnd

/-- The line starts of a text.  The first line starts at 0; `later` holds the starts of the
other lines, the latest first. -/
structure LineTable where
  later : List Nat := []
  deriving DecidableEq, Repr, Inhabited

namespace LineTable

/-- The table of a text that has one line so far. -/
def empty : LineTable := {}

/-- Where the last line starts. -/
def lastStart (t : LineTable) : Nat := t.later.head?.getD 0

/-- All line starts, in the order of the lines. -/
def starts (t : LineTable) : List Nat := 0 :: t.later.reverse

def lineCount (t : LineTable) : Nat := t.later.length + 1

/-- Adds a line that starts at `offset` (`push_line_start`), if that is after the start of the last
line. -/
def push? (t : LineTable) (offset : Nat) : Option LineTable :=
  if t.lastStart < offset then some ⟨offset :: t.later⟩ else none

/-- Adds a line; an offset that is not after the last start changes nothing. -/
def push (t : LineTable) (offset : Nat) : LineTable := (t.push? offset).getD t

def pushAll (t : LineTable) (offsets : List Nat) : LineTable := offsets.foldl push t

/-- The line on which an offset lies, counted from 1, and where the line starts. -/
def lineAt (t : LineTable) (offset : Nat) : Nat × Nat :=
  match t.later.dropWhile (fun start => offset < start) with
  | [] => (1, 0)
  | start :: before => (before.length + 2, start)

/-- The line, and the column in bytes, of an offset (`line_col`); both count from 1. -/
def lineCol (t : LineTable) (offset : Nat) : Except Panic (Nat × Nat) :=
  let (line, start) := t.lineAt offset
  (Machine.add (offset - start) 1).map fun column => (line, column)

/-- A column is a sum that is in range. -/
theorem lineCol_of_lt {t : LineTable} {offset : Nat}
    (h : offset - (t.lineAt offset).2 < Machine.greatest) :
    t.lineCol offset = .ok ((t.lineAt offset).1, offset - (t.lineAt offset).2 + 1) := by
  have hcolumn : Machine.add (offset - (t.lineAt offset).2) 1 = .ok _ := Machine.add_of_le h
  simp only [lineCol, hcolumn]
  rfl

/-- The column of an offset that is too far from the start of its line is no number of the machine.
-/
theorem lineCol_of_le {t : LineTable} {offset : Nat}
    (h : Machine.greatest ≤ offset - (t.lineAt offset).2) :
    t.lineCol offset = .error .overflow := by
  have hcolumn : Machine.add (offset - (t.lineAt offset).2) 1 = .error .overflow :=
    Machine.add_of_lt (Nat.lt_succ_of_le h)
  simp only [lineCol, hcolumn]
  rfl

/-- What is looked up, and when. -/
theorem lineCol_eq_ok_iff {t : LineTable} {offset : Nat} {p : Nat × Nat} :
    t.lineCol offset = .ok p ↔ offset - (t.lineAt offset).2 < Machine.greatest ∧
      p = ((t.lineAt offset).1, offset - (t.lineAt offset).2 + 1) := by
  rcases Nat.lt_or_ge (offset - (t.lineAt offset).2) Machine.greatest with h | h
  · simp [lineCol_of_lt h, h, eq_comm]
  · simp [lineCol_of_le h, Nat.not_lt.mpr h]

@[simp] theorem length_starts (t : LineTable) : t.starts.length = t.lineCount := by
  simp [starts, lineCount]

/-- What is refused is not after the last start. -/
theorem push?_eq_none_iff {t : LineTable} {offset : Nat} :
    t.push? offset = none ↔ offset ≤ t.lastStart := by
  simp [push?]

end LineTable
end FrontEnd
