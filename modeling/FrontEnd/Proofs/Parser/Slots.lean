/-
# The written form of a tree

Written out under the grammar, a tree is a sequence of slots, one for each token.  A slot
for a keyword, a bracket or an operator asks for a kind; one for a name or a literal also
asks for a text; a token that the tree keeps is its own slot.

`Edited` says that a sequence of tokens is the written form of a tree but for mistakes, and
that a list of diagnostics reports exactly these, one each and in order.
-/
import FrontEnd.Parser.Run
import Mathlib.Data.List.Forall2

namespace FrontEnd

/-- A place for one token in the written form of a tree. -/
inductive Slot where
  /-- A keyword, a bracket or an operator. -/
  | fixed (kind : Kind)
  /-- A name or a literal. -/
  | text (kind : Kind) (text : String)
  /-- A token that the tree keeps. -/
  | token (token : Token)
  deriving DecidableEq, Repr

namespace Slot

def kind : Slot → Kind
  | fixed k => k
  | text k _ => k
  | token t => t.kind

/-- The token is the one that the slot asks for. -/
def Fits : Slot → Token → Prop
  | fixed k, t => t.kind = k
  | text k x, t => t.kind = k ∧ t.text = x
  | token u, t => t = u

/-- The tree has the text of the token in the place of the slot, if it has a text there. -/
def Shows : Slot → Token → Prop
  | fixed _, _ => True
  | text _ x, t => t.text = x
  | token _, _ => False

theorem Fits.kind_eq {s : Slot} {t : Token} (h : s.Fits t) : t.kind = s.kind := by
  cases s with
  | fixed => exact h
  | text => exact h.1
  | token => exact congrArg Token.kind h

end Slot

/-! ## 1. Written forms -/

def LiteralKind.kind : LiteralKind → Kind
  | integer => .integerLiteral
  | float => .floatLiteral
  | string => .stringLiteral
  | char => .charLiteral

mutual
def Node.slots : Node → List Slot
  | .conditional c t e =>
    .fixed .keywordIf :: c.slots ++ .fixed .openScope :: nodeSlots t ++ .fixed .closeScope
      :: elseSlots e
  | .returned v => .fixed .keywordReturn :: v.slots
  | .binary l o r => l.slots ++ .fixed o.kind :: r.slots
  | .identifier n => [.text .identifier n]
  | .literal k v => [.text k.kind v]
  | .call f as =>
    .text .identifier f :: .fixed .openParenthesis :: nodeSlots as ++ [.fixed .closeParenthesis]
  | .assignment x v => .text .identifier x :: .fixed .assignment :: v.slots
  | .garbage t => [.token t]
def nodeSlots : List Node → List Slot
  | [] => []
  | n :: ns => n.slots ++ nodeSlots ns
def elseSlots : Option (List Node) → List Slot
  | none => []
  | some b =>
    .fixed .keywordElse :: .fixed .openScope :: nodeSlots b ++ [.fixed .closeScope]
end

theorem nodeSlots_eq_flatMap (ns : List Node) : nodeSlots ns = ns.flatMap Node.slots := by
  induction ns with
  | nil => rfl
  | cons n ns ih => rw [nodeSlots, List.flatMap_cons, ih]

/-- Arguments with their parentheses. -/
def argumentSlots (as : List Node) : List Slot :=
  .fixed .openParenthesis :: as.flatMap Node.slots ++ [.fixed .closeParenthesis]

/-- A block with its braces. -/
def blockSlots (b : Block) : List Slot :=
  .fixed .openScope :: b.flatMap Node.slots ++ [.fixed .closeScope]

def Parameter.slots (p : Parameter) : List Slot :=
  [.text .identifier p.typeName, .text .identifier p.name]

def Function.slots (f : Function) : List Slot :=
  .fixed .keywordFunc :: .text .identifier f.name :: .fixed .openParenthesis
    :: f.parameters.flatMap Parameter.slots ++ .fixed .closeParenthesis :: blockSlots f.body

def Program.slots (p : Program) : List Slot := p.functions.flatMap Function.slots

theorem slots_call (f : String) (as : List Node) :
    (Node.call f as).slots = .text .identifier f :: argumentSlots as := by
  simp [Node.slots, argumentSlots, nodeSlots_eq_flatMap]

theorem slots_conditional_none (c : Node) (t : Block) :
    (Node.conditional c t none).slots = [.fixed .keywordIf] ++ c.slots ++ blockSlots t := by
  simp [Node.slots, elseSlots, blockSlots, nodeSlots_eq_flatMap]

theorem slots_conditional_some (c : Node) (t e : Block) :
    (Node.conditional c t (some e)).slots =
      [.fixed .keywordIf] ++ c.slots ++ blockSlots t ++ [.fixed .keywordElse]
        ++ blockSlots e := by
  simp [Node.slots, elseSlots, blockSlots, nodeSlots_eq_flatMap]

/-! ## 2. Edits -/

/-- The tokens are those that the slots ask for, but for one edit per diagnostic, in order
and each at a slot of its own: the slot holds the token that was found, or it holds none and
the token that was found comes next.  The tokens `after` follow. -/
inductive Edited (after : List Token) : List Slot → List Token → List Diagnostic → Prop
  | nil : Edited after [] [] []
  | keep {s : Slot} {t : Token} {ss : List Slot} {ts : List Token} {ds : List Diagnostic} :
      s.Fits t → Edited after ss ts ds → Edited after (s :: ss) (t :: ts) ds
  | standIn {s : Slot} {t : Token} {d : Diagnostic} {ss : List Slot} {ts : List Token}
      {ds : List Diagnostic} :
      s.Shows t → t.kind ≠ s.kind → d.problem = .mismatch s.kind t →
      Edited after ss ts ds → Edited after (s :: ss) (t :: ts) (d :: ds)
  | missing {s : Slot} {t : Token} {d : Diagnostic} {ss : List Slot} {ts : List Token}
      {ds : List Diagnostic} :
      s.Shows t → t.kind ≠ s.kind → d.problem = .mismatch s.kind t →
      (ts ++ after).head? = some t → Edited after ss ts ds → Edited after (s :: ss) ts (d :: ds)

namespace Edited

variable {after : List Token} {ss ss' : List Slot} {ts ts' : List Token}
  {ds ds' : List Diagnostic}

theorem append (h : Edited (ts' ++ after) ss ts ds) (h' : Edited after ss' ts' ds') :
    Edited after (ss ++ ss') (ts ++ ts') (ds ++ ds') := by
  induction h with
  | nil => exact h'
  | keep hs _ ih => exact .keep hs ih
  | standIn hs hk hd _ ih => exact .standIn hs hk hd ih
  | missing hs hk hd ht _ ih => exact .missing hs hk hd (by rwa [List.append_assoc]) ih

/-- Of what follows, only the first token matters. -/
theorem congr_after {after' : List Token} (h : Edited after ss ts ds)
    (he : after.head? = after'.head?) : Edited after' ss ts ds := by
  induction h with
  | nil => exact .nil
  | keep hs _ ih => exact .keep hs ih
  | standIn hs hk hd _ ih => exact .standIn hs hk hd ih
  | @missing s t d ss ts ds hs hk hd ht _ ih =>
    refine .missing hs hk hd ?_ ih
    cases ts with
    | nil => exact he ▸ ht
    | cons u us => exact ht

/-- **Without a diagnostic nothing is edited.** -/
theorem forall₂ (h : Edited after ss ts []) : List.Forall₂ Slot.Fits ss ts := by
  generalize hd : ([] : List Diagnostic) = ds at h
  induction h with
  | nil => exact .nil
  | keep hs _ ih => exact .cons hs (ih hd)
  | standIn => cases hd
  | missing => cases hd

end Edited
end FrontEnd
