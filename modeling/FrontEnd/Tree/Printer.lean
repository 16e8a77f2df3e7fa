/-
# Printed trees

A printed tree has one line per construct, and the children of a construct are indented
under it.  A printer (`AstPrinter`) keeps the text so far and the depth at which it stands; each
visit leaves it at the depth at which it found it.  How it visits a construct is said by the method
of the same name (`visit_if_stmt` and its like).

The target of an assignment stands in the assignment's own line.  An else branch has a line
of its own, which its block is indented under.
-/
import FrontEnd.Tree

namespace FrontEnd

/-- A tree being printed. -/
structure Printer where
  /-- Blanks per level. -/
  indent : Nat
  depth : Nat
  text : String
  deriving DecidableEq, Repr

namespace Printer

/-- Blanks per level unless another number is asked for. -/
def defaultIndent : Nat := 2

/-- A printer that has printed nothing (`with_indent`). -/
def start (indent : Nat) : Printer := ⟨indent, 0, ""⟩

/-- The blanks before a line of the given depth. -/
def margin (indent depth : Nat) : String := String.ofList (List.replicate (depth * indent) ' ')

/-- Prints one line at the present depth (`line`), whatever the width of its margin. -/
def line (p : Printer) (content : String) : Printer :=
  { p with text := p.text ++ margin p.indent p.depth ++ content ++ "\n" }

/-- Prints one level deeper (`nested`). -/
def nested (p : Printer) (print : Printer → Printer) : Printer :=
  let inner := print { p with depth := p.depth + 1 }
  { inner with depth := inner.depth - 1 }

/-- Prints a line and, one level deeper, what belongs under it. -/
def headed (p : Printer) (content : String) (children : Printer → Printer) : Printer :=
  (p.line content).nested children

mutual
/-- Prints a node and what is below it (`visit_node`). -/
def node (p : Printer) : Node → Printer
  | .conditional condition thenBranch elseBranch =>
    p.headed "If" fun p =>
      ((p.node condition).headed "Block" fun p => p.nodes thenBranch).elseBlock elseBranch
  | .returned value => p.headed "Return" fun p => p.node value
  | .binary left operator right =>
    p.headed ("Binary " ++ operator.symbol) fun p => (p.node left).node right
  | .identifier name => p.line ("Identifier " ++ name)
  | .literal kind value => p.line ("Literal " ++ kind.name ++ " " ++ value)
  | .call callee arguments => p.headed ("Call " ++ callee) fun p => p.nodes arguments
  | .assignment target value => p.headed ("Assignment " ++ target) fun p => p.node value
  | .garbage token => p.line ("Garbage " ++ token.display)
/-- Prints nodes one after the other. -/
def nodes (p : Printer) : List Node → Printer
  | [] => p
  | n :: ns => (p.node n).nodes ns
/-- Prints the branch for a condition that does not hold, if there is one (`visit_if_stmt`). -/
def elseBlock (p : Printer) : Option (List Node) → Printer
  | none => p
  | some b => p.headed "Else" fun p => p.headed "Block" fun p => p.nodes b
end

/-- Prints a block (`visit_block`). -/
def block (p : Printer) (b : Block) : Printer := p.headed "Block" fun p => p.nodes b

/-- Prints a parameter in one line (`visit_parameter`). -/
def parameter (p : Printer) (q : Parameter) : Printer :=
  p.line ("Parameter " ++ q.typeName ++ " " ++ q.name)

/-- Prints a function, with its parameters and its block under it (`visit_function_decl`). -/
def function (p : Printer) (f : Function) : Printer :=
  p.headed ("FunctionDecl " ++ f.name) fun p =>
    (f.parameters.foldl parameter p).block f.body

/-- Prints functions one under the other (`visit_ast`). -/
def program (p : Printer) (q : Program) : Printer := q.functions.foldl function p

/-- What a printer can be asked to print. -/
inductive Item where
  | node (node : Node)
  | block (block : Block)
  | parameter (parameter : Parameter)
  | function (function : Function)
  | program (program : Program)
  deriving DecidableEq, Repr

def item (p : Printer) : Item → Printer
  | .node n => p.node n
  | .block b => p.block b
  | .parameter q => p.parameter q
  | .function f => p.function f
  | .program q => p.program q

/-- Prints items one after the other. -/
def items (p : Printer) (is : List Item) : Printer := is.foldl item p

end Printer
end FrontEnd
