/-
# Numbers of a machine, and what ends a program

Offsets, lines and columns are numbers of 64 bits.  They are natural numbers here, and an
addition that could leave the range is checked where the program adds.  A sum that is out of
range ends the program without an answer, and so does a margin that is too wide to be printed.
-/

namespace FrontEnd

/-- Why a program ends where it stands, without an answer. -/
inductive Panic where
  /-- A sum is greater than every number of the machine. -/
  | overflow
  /-- A line of a printed tree stands too far to the right. -/
  | marginTooWide
  deriving DecidableEq, Repr

def Panic.message : Panic → String
  | overflow => "attempt to add with overflow"
  | marginTooWide => "Formatting argument out of range"

namespace Machine

/-- The greatest number. -/
def greatest : Nat := UInt64.size - 1

/-- A sum, if it is a number of the machine. -/
def add (a b : Nat) : Except Panic Nat := if a + b ≤ greatest then .ok (a + b) else .error .overflow

variable {a b : Nat}

theorem add_of_le (h : a + b ≤ greatest) : add a b = .ok (a + b) := if_pos h

theorem add_of_lt (h : greatest < a + b) : add a b = .error .overflow := if_neg (Nat.not_le.mpr h)

end Machine
end FrontEnd
