/-
# Conditions

What `test` and `[` find out.  A condition of one, two, three or four words is read by their
number; a longer one has operators that bind in the order `!`, `-a`, `-o`.
-/
import FrontEnd.Host.Shell.Expansion

namespace FrontEnd.Shell

open Text (Octets octets)

namespace Condition

/-- What a word can mean in a condition. -/
inductive Meaning where
  | unary
  | binary
  | other
  deriving DecidableEq, Repr

/-- The meaning of a word that is an operator. -/
def meaning? (word : Octets) : Option Meaning :=
  let text := String.ofList word
  if text ∈ ["-r", "-w", "-x", "-e", "-f", "-d", "-c", "-b", "-p", "-u", "-g", "-k", "-s", "-t",
      "-z", "-n", "-h", "-O", "-G", "-L", "-S"] then some .unary
  else if text ∈ ["=", "!=", "<", ">", "-eq", "-ne", "-ge", "-gt", "-le", "-lt", "-nt", "-ot",
      "-ef"] then some .binary
  else if text ∈ ["!", "-a", "-o", "(", ")"] then some .other
  else none

/-- What the first of the words is, if it is an operator here: an operator with one operand
is none where it is itself an operand. -/
def operator? : List Octets → Option (Meaning × String)
  | [] => none
  | word :: rest =>
    match meaning? word with
    | none => none
    | some m =>
      let isOperand := m = .unary &&
        match rest with
        | [] => true
        | [_] => false
        | next :: _ => meaning? next == some .binary
      if isOperand || word == ['('] && rest.isEmpty then none else some (m, String.ofList word)

/-- Complains about a word. -/
def fault {α : Type} (word : Octets) (message : String) : Action α :=
  Action.fail (if word.isEmpty then octets message else word ++ octets (": " ++ message))

def number (word : Octets) : Action Int :=
  match integer? readDecimal? word with
  | some value => return value
  | none => Action.fail (octets "Illegal number: " ++ word)

/-- What an operator with one operand finds out. -/
def unary (operator : String) (operand : Octets) : Action Bool := do
  let s ← get
  match operator with
  | "-z" => return operand.isEmpty
  | "-n" => return !operand.isEmpty
  | "-t" =>
    discard (number operand)
    return false
  | _ =>
    let isDevice := operand == octets "/dev/null"
    match operator, s.world.lookup (s.resolve operand) with
    | "-f", .ok (.file _) => return true
    | "-s", .ok (.file bytes) => return bytes.size != 0
    | "-d", .ok .directory => return true
    | "-s", .ok .directory => return true
    | "-x", .ok .directory => return true
    | "-x", .ok (.file _) => return World.isExecutable operand
    | "-e", .ok _ | "-r", .ok _ | "-w", .ok _ | "-O", .ok _ | "-G", .ok _ => return true
    | "-e", _ | "-r", _ | "-w", _ | "-c", _ => return isDevice
    | _, _ => return false

/-- What an operator with two operands finds out. -/
def binary (operator : String) (a b : Octets) : Action Bool := do
  match operator with
  | "=" => return a == b
  | "!=" => return a != b
  | "<" => return a < b
  | ">" => return b < a
  | "-eq" => compare (· == ·)
  | "-ne" => compare (· != ·)
  | "-ge" => compare (· ≥ ·)
  | "-gt" => compare (· > ·)
  | "-le" => compare (· ≤ ·)
  | "-lt" => compare (· < ·)
  | "-ef" => return a == b && (← get).exists? a
  | _ => return false
where
  compare (holds : Int → Int → Bool) : Action Bool := do
    let m ← number a
    let n ← number b
    return holds m n

/-- The words of a condition: the last one that was taken, and those to come. -/
structure Position where
  last : Octets
  rest : List Octets
  deriving DecidableEq, Repr

/-- Takes words and finds out. -/
abbrev Inquiry := StateT Position Action

/-- The operator that comes next, as a text. -/
def next? : Inquiry (Option (Meaning × String)) := do return operator? (← get).rest

/-- Takes a word. -/
def skip : Inquiry Unit :=
  modify fun p =>
    match p.rest with
    | [] => p
    | word :: rest => ⟨word, rest⟩

/-- Takes an operator if it comes next. -/
def accept (text : String) : Inquiry Bool := do
  match ← next? with
  | some (_, o) =>
    if o = text then
      skip
      return true
    else return false
  | none => return false

mutual

def disjunction : Nat → Inquiry Bool
  | 0 => return false
  | n + 1 => do
    let a ← conjunction n
    if ← accept "-o" then
      let b ← disjunction n
      return a || b
    else return a

def conjunction : Nat → Inquiry Bool
  | 0 => return false
  | n + 1 => do
    let a ← negation n
    if ← accept "-a" then
      let b ← conjunction n
      return a && b
    else return a

def negation : Nat → Inquiry Bool
  | 0 => return false
  | n + 1 => do
    if ← accept "!" then return !(← negation n) else primary n

def primary : Nat → Inquiry Bool
  | 0 => return false
  | n + 1 => do
    match (← get).rest with
    | [] => return false
    | word :: rest =>
      match ← next? with
      | some (.other, "(") =>
        skip
        if ← accept ")" then return false
        else
          let value ← disjunction n
          if ← accept ")" then return value
          else StateT.lift (fault [] "closing paren expected")
      | some (.unary, o) =>
        skip
        match rest with
        | [] => StateT.lift (fault word "argument expected")
        | operand :: _ =>
          skip
          StateT.lift (unary o operand)
      | _ =>
        skip
        match operator? rest, rest with
        | some (.binary, _), [operator] => StateT.lift (fault operator "argument expected")
        | some (.binary, o), _ :: b :: _ =>
          skip
          skip
          StateT.lift (binary o word b)
        | _, _ => return !word.isEmpty

end

/-- The value of a whole condition.  No word may be left over. -/
def whole (isNegated : Bool) (words : List Octets) : Action Bool := do
  let (value, place) ← (disjunction (4 * (words.length + 2))).run ⟨[], words⟩
  if place.rest.isEmpty then return value != isNegated
  else fault place.last "unexpected operator"

/-- The value of an operator between two words, if these are three such words. -/
def three? : List Octets → Option (String × Octets × Octets)
  | [a, o, b] => if meaning? o = some .binary then some (String.ofList o, a, b) else none
  | _ => none

/-- The value of a condition. -/
def value (isNegated : Bool) : List Octets → Action Bool
  | [] => return isNegated
  | word :: rest => do
    let words := word :: rest
    match three? words with
    | some (o, a, b) => return (← binary o a b) != isNegated
    | none =>
      if words.length = 3 ∨ words.length = 4 then
        if word = ['('] ∧ words.getLast? = some [')'] then
          whole isNegated (rest.dropLast)
        else if word = ['!'] then value (!isNegated) rest
        else whole isNegated words
      else whole isNegated words

end Condition
end FrontEnd.Shell
