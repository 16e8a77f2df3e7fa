/-
# Expressions

The value of an expression is a word of 64 bits with a sign.  It is found while the expression
is read: what stands before a fault has been carried out.  The operand that a `&&`, a `||` or
a choice does not need is read and not carried out.
-/
import FrontEnd.Host.Shell.Machine

namespace FrontEnd.Shell

open Text (Octets octets)

/-- A symbol of an expression. -/
inductive Symbol where
  | number (value : Int64)
  | name (octets : Octets)
  | operator (text : String)
  /-- A character that nothing starts with. -/
  | unknown (c : Char)
  deriving DecidableEq

namespace Symbol

/-- The operators, longer ones before those that they start with. -/
def operators : List String :=
  ["<<=", ">>=", "&&", "||", "==", "!=", "<=", ">=", "<<", ">>", "+=", "-=", "*=", "/=", "%=",
    "&=", "|=", "^=", "<", ">", "=", "+", "-", "*", "/", "%", "&", "|", "^", "!", "~", "(", ")",
    "?", ":"]

/-- The first symbol of a text that does not start with a blank, and what follows it. -/
def first (c : Char) (rest : Octets) : Symbol × Octets :=
  if c.isDigit then
    match readNatural? (c :: rest) with
    | some (magnitude, after) => (number (Int64.ofInt (saturate false magnitude).1), after)
    | none => (unknown c, rest)
  else if isNameStart c then
    let letters := rest.takeWhile isNamePart
    (name (c :: letters), rest.drop letters.length)
  else match operators.find? fun o => o.toList.isPrefixOf (c :: rest) with
    | some o => (operator o, (c :: rest).drop o.length)
    | none => (unknown c, rest)

/-- The symbols of a text.  `bound` is the number of characters at most. -/
def readAll : Nat → Octets → List Symbol
  | 0, _ => []
  | _, [] => []
  | bound + 1, c :: rest =>
    if isBlank c || c == '\n' then readAll bound rest
    else
      let (symbol, after) := first c rest
      symbol :: readAll bound after

end Symbol

/-- How tightly an operator binds; zero binds most. -/
def rank? (operator : String) : Option Nat :=
  if operator ∈ ["*", "/", "%"] then some 0
  else if operator ∈ ["+", "-"] then some 1
  else if operator ∈ ["<<", ">>"] then some 2
  else if operator ∈ ["<", ">", "<=", ">="] then some 3
  else if operator ∈ ["==", "!="] then some 4
  else if operator = "&" then some 5
  else if operator = "^" then some 6
  else if operator = "|" then some 7
  else none

def truth (b : Bool) : Int64 := if b then 1 else 0

/-- The value of an operator, unless it divides by zero. -/
def operate? (operator : String) (a b : Int64) : Option Int64 :=
  match operator with
  | "*" => some (a * b)
  | "/" => if b = 0 then none else some (a / b)
  | "%" => if b = 0 then none else some (a % b)
  | "+" => some (a + b)
  | "-" => some (a - b)
  | "<<" => some (a <<< b)
  | ">>" => some (a >>> b)
  | "<" => some (truth (a < b))
  | ">" => some (truth (b < a))
  | "<=" => some (truth (a ≤ b))
  | ">=" => some (truth (b ≤ a))
  | "==" => some (truth (a == b))
  | "!=" => some (truth (a != b))
  | "&" => some (a &&& b)
  | "^" => some (a ^^^ b)
  | "|" => some (a ||| b)
  | _ => none

/-- Reads symbols and carries them out. -/
abbrev Calculation := StateT (List Symbol) Action

namespace Calculation

/-- The text of the expression stands in the complaint. -/
def fault {α : Type} (expression : Octets) (message : String) : Calculation α :=
  StateT.lift <| Action.fail <|
    octets ("arithmetic expression: " ++ message ++ ": \"") ++ expression ++ ['"']

/-- Takes an operator if it comes next. -/
def accept (text : String) : Calculation Bool := do
  match ← get with
  | .operator o :: rest =>
    if o = text then
      set rest
      return true
    else return false
  | _ => return false

/-- The value of a variable; one that is empty or not set counts as zero. -/
def fetch (name : Octets) : Action Int64 := do
  let text := ((← get).value? name).getD []
  if text.all isSpace then return 0
  else match integer? readNatural? text with
    | some value => return Int64.ofInt value
    | none => Action.fail (octets "Illegal number: " ++ text)

def combine (expression : Octets) (operator : String) (a b : Int64) : Calculation Int64 :=
  match operate? operator a b with
  | some value => pure value
  | none => fault expression "division by zero"

mutual

/-- An assignment, or a choice.  Nothing is carried out if `skips` says so. -/
def assignment (expression : Octets) (skips : Bool) : Nat → Calculation Int64
  | 0 => fault expression "expecting primary"
  | n + 1 => do
    match ← get with
    | .name name :: .operator o :: rest =>
      let text := o.toList
      let isAssignment := text.getLast? = some '=' && o ∉ ["==", "!=", "<=", ">="]
      if isAssignment then
        set rest
        let value ← assignment expression skips n
        if skips then return value
        else
          let value ←
            if o = "=" then pure value
            else combine expression (String.ofList text.dropLast) (← fetch name) value
          StateT.lift (Action.setVariable name (octets (toString value.toInt)))
          return value
      else choice expression skips n
    | _ => choice expression skips n

def choice (expression : Octets) (skips : Bool) : Nat → Calculation Int64
  | 0 => fault expression "expecting primary"
  | n + 1 => do
    let test ← disjunction expression skips n
    if ← accept "?" then
      let a ← assignment expression (skips || test == 0) n
      if ← accept ":" then
        let b ← choice expression (skips || test != 0) n
        return if test = 0 then b else a
      else fault expression "expecting ':'"
    else return test

def disjunction (expression : Octets) (skips : Bool) : Nat → Calculation Int64
  | 0 => fault expression "expecting primary"
  | n + 1 => do
    let a ← conjunction expression skips n
    if ← accept "||" then
      let b ← disjunction expression (skips || a != 0) n
      return truth (a != 0 || b != 0)
    else return a

def conjunction (expression : Octets) (skips : Bool) : Nat → Calculation Int64
  | 0 => fault expression "expecting primary"
  | n + 1 => do
    let a ← binary expression skips 7 n
    if ← accept "&&" then
      let b ← conjunction expression (skips || a == 0) n
      return truth (a != 0 && b != 0)
    else return a

/-- Operators of at most a rank, the tighter ones first. -/
def binary (expression : Octets) (skips : Bool) (rank : Nat) : Nat → Calculation Int64
  | 0 => fault expression "expecting primary"
  | n + 1 => do
    binaryRest expression skips rank (← primary expression skips n) n

/-- What follows an operand. -/
def binaryRest (expression : Octets) (skips : Bool) (rank : Nat) (a : Int64) :
    Nat → Calculation Int64
  | 0 => fault expression "expecting primary"
  | n + 1 => do
    match ← get with
    | .operator o :: rest =>
      match rank? o with
      | some r =>
        if r ≤ rank then
          set rest
          let b ← primary expression skips n
          let b ← if r = 0 then pure b else binaryRest expression skips (r - 1) b n
          let value ← if skips then pure b else combine expression o a b
          binaryRest expression skips rank value n
        else return a
      | none => return a
    | _ => return a

def primary (expression : Octets) (skips : Bool) : Nat → Calculation Int64
  | 0 => fault expression "expecting primary"
  | n + 1 => do
    match ← get with
    | .number value :: rest =>
      set rest
      return value
    | .name name :: rest =>
      set rest
      if skips then return 0 else StateT.lift (fetch name)
    | .operator "(" :: rest =>
      set rest
      let value ← assignment expression skips n
      if ← accept ")" then return value else fault expression "expecting ')'"
    | .operator "+" :: rest =>
      set rest
      primary expression skips n
    | .operator "-" :: rest =>
      set rest
      return -(← primary expression skips n)
    | .operator "!" :: rest =>
      set rest
      return truth ((← primary expression skips n) == 0)
    | .operator "~" :: rest =>
      set rest
      return ~~~(← primary expression skips n)
    | _ => fault expression "expecting primary"

end

end Calculation

/-- The value of an expression. -/
def evaluate (expression : Octets) : Action Int64 := do
  let symbols := Symbol.readAll (expression.length + 1) expression
  let calculation : Calculation Int64 := do
    let value ← Calculation.assignment expression false (8 * (symbols.length + 4))
    if (← get).isEmpty then return value else Calculation.fault expression "expecting EOF"
  return (← calculation.run symbols).1

end FrontEnd.Shell
