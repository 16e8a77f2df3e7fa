/-
# Walks

A walk goes through a tree in pre-order and performs an action at every construct: first at
the construct itself, then at its children in the order of the source.  A node is visited
twice, as a node and as the construct that it is.  The target of an assignment is visited
as an identifier only.

The action runs in any monad; where it fails, the walk ends with that failure.  An action
that does nothing at a construct still lets the walk go on below it.
-/
import FrontEnd.Tree

namespace FrontEnd

/-- A place in a tree at which a walk acts. -/
inductive Construct where
  | program (program : Program)
  | function (function : Function)
  | parameter (parameter : Parameter)
  | block (block : Block)
  | node (node : Node)
  | conditional (condition : Node) (thenBranch : Block) (elseBranch : Option Block)
  | returned (value : Node)
  | binary (left : Node) (operator : Operator) (right : Node)
  | identifier (name : String)
  | literal (kind : LiteralKind) (value : String)
  | call (callee : String) (arguments : List Node)
  | assignment (target : String) (value : Node)
  | garbage (token : Token)
  deriving DecidableEq, Repr

/-- The construct that a node is. -/
def Node.construct : Node → Construct
  | conditional condition thenBranch elseBranch => .conditional condition thenBranch elseBranch
  | returned value => .returned value
  | binary left operator right => .binary left operator right
  | identifier name => .identifier name
  | literal kind value => .literal kind value
  | call callee arguments => .call callee arguments
  | assignment target value => .assignment target value
  | garbage token => .garbage token

section
variable {m : Type → Type} [Monad m] (act : Construct → m Unit)

mutual
/-- Walks a node and what is below it. -/
def Node.walk : Node → m Unit
  | n@(.conditional condition thenBranch elseBranch) => do
    act (.node n)
    act n.construct
    condition.walk
    act (.block thenBranch)
    walkNodes thenBranch
    walkElse elseBranch
  | n@(.returned value) => do
    act (.node n)
    act n.construct
    value.walk
  | n@(.binary left _ right) => do
    act (.node n)
    act n.construct
    left.walk
    right.walk
  | n@(.call _ arguments) => do
    act (.node n)
    act n.construct
    walkNodes arguments
  | n@(.assignment target value) => do
    act (.node n)
    act n.construct
    act (.identifier target)
    value.walk
  | n@(.identifier _) => do
    act (.node n)
    act n.construct
  | n@(.literal ..) => do
    act (.node n)
    act n.construct
  | n@(.garbage _) => do
    act (.node n)
    act n.construct
/-- Walks nodes one after the other. -/
def walkNodes : List Node → m Unit
  | [] => pure ()
  | n :: ns => do
    n.walk
    walkNodes ns
/-- Walks the branch for a condition that does not hold, if there is one. -/
def walkElse : Option (List Node) → m Unit
  | none => pure ()
  | some b => do
    act (.block b)
    walkNodes b
end

/-- Walks a block. -/
def walkBlock (b : Block) : m Unit := do
  act (.block b)
  walkNodes act b

/-- Walks a function. -/
def Function.walk (f : Function) : m Unit := do
  act (.function f)
  f.parameters.forM fun p => act (.parameter p)
  walkBlock act f.body

/-- Walks a program. -/
def Program.walk (p : Program) : m Unit := do
  act (.program p)
  p.functions.forM fun f => f.walk act

end
end FrontEnd
