/-
# Trees

The tree of a program: functions with parameters and a body, whose statements are nodes.
Statements and expressions share one type of nodes.  A token that starts no expression
stands in the tree as garbage.

`Node.same` decides equality; `same_iff` says so.
-/
import FrontEnd.Token

namespace FrontEnd

/-- What a literal in a tree is. -/
inductive LiteralKind where
  | integer
  | float
  | string
  | char
  deriving DecidableEq, Repr, Inhabited

namespace LiteralKind

def all : List LiteralKind := [integer, float, string, char]

/-- The name that printed trees use. -/
def name : LiteralKind → String
  | integer => "Int"
  | float => "Float"
  | string => "String"
  | char => "Char"

/-- The literal with this name, if there is one. -/
def ofName? (name : String) : Option LiteralKind := all.find? fun k => k.name == name

end LiteralKind

/-- A statement or an expression.  A block is a list of nodes. -/
inductive Node where
  | conditional (condition : Node) (thenBranch : List Node) (elseBranch : Option (List Node))
  | returned (value : Node)
  | binary (left : Node) (operator : Operator) (right : Node)
  | identifier (name : String)
  | literal (kind : LiteralKind) (value : String)
  | call (callee : String) (arguments : List Node)
  | assignment (target : String) (value : Node)
  | garbage (token : Token)
  deriving Repr, Inhabited

/-- The statements between two braces. -/
abbrev Block := List Node

structure Parameter where
  typeName : String
  name : String
  deriving DecidableEq, Repr, Inhabited

/-! ## Equality -/

mutual
/-- Both nodes are the same, garbage tokens with their spans included. -/
def Node.same : Node → Node → Bool
  | .conditional c t e, .conditional c' t' e' => c.same c' && sameNodes t t' && sameElse e e'
  | .returned v, .returned v' => v.same v'
  | .binary l o r, .binary l' o' r' => l.same l' && o == o' && r.same r'
  | .identifier n, .identifier n' => n == n'
  | .literal k v, .literal k' v' => k == k' && v == v'
  | .call f as, .call f' as' => f == f' && sameNodes as as'
  | .assignment x v, .assignment x' v' => x == x' && v.same v'
  | .garbage t, .garbage t' => t == t'
  | _, _ => false
def sameNodes : List Node → List Node → Bool
  | [], [] => true
  | n :: ns, n' :: ns' => n.same n' && sameNodes ns ns'
  | _, _ => false
def sameElse : Option (List Node) → Option (List Node) → Bool
  | none, none => true
  | some b, some b' => sameNodes b b'
  | _, _ => false
end

mutual
theorem Node.same_iff : ∀ n m : Node, n.same m = true ↔ n = m
  | .conditional c t e, m => by
    cases m <;>
      simp [Node.same, Node.same_iff c, sameNodes_iff t, sameElse_iff e, and_assoc]
  | .returned v, m => by cases m <;> simp [Node.same, Node.same_iff v]
  | .binary l o r, m => by
    cases m <;> simp [Node.same, Node.same_iff l, Node.same_iff r, and_assoc]
  | .identifier n, m => by cases m <;> simp [Node.same]
  | .literal k v, m => by cases m <;> simp [Node.same]
  | .call f as, m => by cases m <;> simp [Node.same, sameNodes_iff as]
  | .assignment x v, m => by cases m <;> simp [Node.same, Node.same_iff v]
  | .garbage t, m => by cases m <;> simp [Node.same]
theorem sameNodes_iff : ∀ ns ms : List Node, sameNodes ns ms = true ↔ ns = ms
  | [], ms => by cases ms <;> simp [sameNodes]
  | n :: ns, ms => by cases ms <;> simp [sameNodes, Node.same_iff n, sameNodes_iff ns]
theorem sameElse_iff : ∀ b b' : Option (List Node), sameElse b b' = true ↔ b = b'
  | none, b' => by cases b' <;> simp [sameElse]
  | some b, b' => by cases b' <;> simp [sameElse, sameNodes_iff b]
end

instance : DecidableEq Node := fun n m => decidable_of_iff (n.same m = true) (n.same_iff m)

/-! ## Functions and programs -/

structure Function where
  name : String
  parameters : List Parameter
  body : Block
  deriving DecidableEq, Repr, Inhabited

structure Program where
  functions : List Function
  deriving DecidableEq, Repr, Inhabited

/-- The first function of this name. -/
def Program.function? (p : Program) (name : String) : Option Function :=
  p.functions.find? fun f => f.name == name

end FrontEnd
