/-
# Margins

The margin of a line is as wide as its depth times the indentation.  It is written as a width in
a format, and no width above `Printer.widestMargin` can be written: printing such a line ends the
program.  A tree of several levels has a line on each of them and its deepest line on the last,
so that one product decides whether all its margins can be printed (`Printer.checkMargins`).  The
levels of a tree are counted here, and `Printer.print` prints what passes the check.
-/
import FrontEnd.Machine
import FrontEnd.Tree.Printer

namespace FrontEnd

/-! ## Levels -/

mutual
/-- The levels of a printed node, with the one on which its own line stands. -/
def Node.levels : Node → Nat
  | .conditional condition thenBranch elseBranch =>
    max condition.levels (max (nodesLevels thenBranch + 1) (elseLevels elseBranch)) + 1
  | .returned value => value.levels + 1
  | .binary left _ right => max left.levels right.levels + 1
  | .identifier _ => 1
  | .literal .. => 1
  | .call _ arguments => nodesLevels arguments + 1
  | .assignment _ value => value.levels + 1
  | .garbage _ => 1
/-- The levels of nodes that are printed one after the other. -/
def nodesLevels : List Node → Nat
  | [] => 0
  | n :: ns => max n.levels (nodesLevels ns)
/-- The levels of an else branch: its own line, the line of its block, and the nodes. -/
def elseLevels : Option (List Node) → Nat
  | none => 0
  | some b => nodesLevels b + 2
end

/-- The levels of a printed function.  Its block is a level deeper than its own line, and so
are its parameters. -/
def Function.levels (f : Function) : Nat := nodesLevels f.body + 2

/-- The levels of a printed program, whose functions stand one under the other. -/
def Program.levels (p : Program) : Nat := (p.functions.map Function.levels).foldr max 0

/-- The levels of a printed item. -/
def Printer.Item.levels : Printer.Item → Nat
  | .node n => n.levels
  | .block b => nodesLevels b + 1
  | .parameter _ => 1
  | .function f => f.levels
  | .program p => p.levels

/-! ## The check -/

namespace Printer

/-- The widest margin that can be printed. -/
def widestMargin : Nat := 65535

/-- Fails where the last of these levels has a margin that is too wide.  A margin is the
wider the deeper it stands, so that all others can be printed where the last one can. -/
def checkMargins (indent levels : Nat) : Except Panic Unit :=
  if (levels - 1) * indent ≤ widestMargin then .ok () else .error .marginTooWide

/-- Fails where a margin of an item is too wide. -/
def checkItems (indent : Nat) (items : List Item) : Except Panic Unit :=
  items.forM fun i => checkMargins indent i.levels

/-- The text that a fresh printer prints for items, one after the other. -/
def print (indent : Nat) (items : List Item) : Except Panic String :=
  (checkItems indent items).map fun _ => ((start indent).items items).text

/-- The text of one item. -/
theorem print_single (indent : Nat) (i : Item) :
    print indent [i] =
      if (i.levels - 1) * indent ≤ widestMargin then .ok ((start indent).item i).text
      else .error .marginTooWide := by
  show Except.map _ (checkMargins indent i.levels >>= fun _ => pure ()) = _
  unfold checkMargins
  split <;> rfl

end Printer

/-- The printed form of a program (`print_ast_with_indent`). -/
def Program.print (p : Program) (indent : Nat) : Except Panic String :=
  Printer.print indent [.program p]

theorem Program.print_eq (p : Program) (indent : Nat) :
    p.print indent =
      if (p.levels - 1) * indent ≤ Printer.widestMargin then
        .ok ((Printer.start indent).program p).text
      else .error .marginTooWide :=
  Printer.print_single indent (.program p)

/-- What is printed is what a fresh printer has at its end. -/
theorem Program.text_of_print {p : Program} {indent : Nat} {text : String}
    (h : p.print indent = .ok text) : text = ((Printer.start indent).program p).text := by
  rw [print_eq] at h
  split at h
  · exact (Except.ok.inj h).symm
  · cases h

end FrontEnd
