/-
# Every tree is well formed

Statements and expressions share one type of nodes, and a parse that recovers from wrong
tokens goes on as if nothing had happened.  The trees that it answers are trees of the
grammar all the same.

* `Node.Proper`: what stands directly in a node is what the grammar allows there;
* `Program.WellFormed`: statements stand in blocks, and every node of the tree is proper;
* `Builds`: what a success of a parser answers, by the kind of the token that it starts at;
* `wellFormed_of_tree`: a parse that ends with a tree ends with a well-formed one, however
  many mismatches it recorded.

Two things are not said by the shape of the rules.  An argument does not start with a closing
parenthesis that was kept as garbage, nor an assigned expression with `if` or `return`: the
lookahead was tested before the expression was read.  And no garbage is the end of the text:
it can be read as an operand, but then the parse does not end with a tree.
-/
import FrontEnd.Proofs.Parser.Completion
import FrontEnd.Proofs.Parser.Shapes
import FrontEnd.Proofs.Parser.Sites

namespace FrontEnd

/-! ## 1. Well-formed trees -/

namespace Node

/-- Can be an operand. -/
def IsOperand : Node → Prop
  | .identifier _ | .literal .. | .call .. | .garbage _ => True
  | .binary .. | .conditional .. | .returned _ | .assignment .. => False

/-- Can be an expression: an operand, or two with an operator between them. -/
def IsExpression : Node → Prop
  | .identifier _ | .literal .. | .call .. | .garbage _ | .binary .. => True
  | .conditional .. | .returned _ | .assignment .. => False

/-- Can stand in a block. -/
def IsStatement : Node → Prop
  | .conditional .. | .returned _ | .call .. | .assignment .. => True
  | .identifier _ | .literal .. | .binary .. | .garbage _ => False

/-- The token that an expression starts with, if it is garbage. -/
def leading? : Node → Option Token
  | .garbage token => some token
  | .binary left _ _ => left.leading?
  | _ => none

/-- The expression does not start with garbage of these kinds. -/
def StartsWithout (kinds : List Kind) (n : Node) : Prop := ∀ t ∈ n.leading?, t.kind ∉ kinds

/-- What stands directly in the node is what the grammar allows there. -/
def Proper : Node → Prop
  | .conditional condition thenBranch elseBranch =>
    condition.IsExpression ∧ (∀ n ∈ thenBranch, n.IsStatement) ∧
      ∀ b ∈ elseBranch, ∀ n ∈ b, n.IsStatement
  | .returned value => value.IsExpression
  | .binary left _ right => left.IsOperand ∧ right.IsOperand
  | .identifier _ => True
  | .literal kind _ => kind ≠ .char
  | .call _ arguments => ∀ a ∈ arguments, a.IsExpression ∧ a.StartsWithout [.closeParenthesis]
  | .assignment _ value =>
    value.IsExpression ∧ value.StartsWithout [.keywordIf, .keywordReturn] ∨ value.IsStatement
  | .garbage token =>
    token.kind ∉ [.identifier, .integerLiteral, .floatLiteral, .stringLiteral, .eof]

end Node

mutual
/-- The nodes below a node. -/
def Node.descendants : Node → List Node
  | .conditional condition thenBranch elseBranch =>
    condition :: condition.descendants ++ nodesWithin thenBranch ++ elseWithin elseBranch
  | .returned value => value :: value.descendants
  | .binary left _ right => left :: left.descendants ++ right :: right.descendants
  | .call _ arguments => nodesWithin arguments
  | .assignment _ value => value :: value.descendants
  | .identifier _ | .literal .. | .garbage _ => []
/-- Nodes, and the nodes below them. -/
def nodesWithin : List Node → List Node
  | [] => []
  | n :: ns => n :: n.descendants ++ nodesWithin ns
/-- The nodes of the branch for a condition that does not hold, if there is one. -/
def elseWithin : Option (List Node) → List Node
  | none => []
  | some b => nodesWithin b
end

/-- All nodes of a tree. -/
def Program.nodes (p : Program) : List Node := p.functions.flatMap fun f => nodesWithin f.body

/-- The node is proper, and so are all nodes below it. -/
def Node.WellFormed (n : Node) : Prop := n.Proper ∧ ∀ m ∈ n.descendants, m.Proper

/-- The tree is one that the grammar has. -/
structure Program.WellFormed (p : Program) : Prop where
  statements : ∀ f ∈ p.functions, ∀ n ∈ f.body, n.IsStatement
  proper : ∀ n ∈ p.nodes, n.Proper

/-- Below well-formed nodes all nodes are proper. -/
theorem proper_of_mem_nodesWithin {ns : List Node} (h : ∀ n ∈ ns, n.WellFormed) :
    ∀ m ∈ nodesWithin ns, m.Proper := by
  induction ns with
  | nil =>
    intro m hm
    cases hm
  | cons n ns ih =>
    intro m hm
    obtain ⟨hn, hns⟩ := List.forall_mem_cons.mp h
    rw [nodesWithin, List.mem_append, List.mem_cons] at hm
    rcases hm with (rfl | hm) | hm
    · exact hn.1
    · exact hn.2 m hm
    · exact ih hns m hm

namespace Node

/-- A well-formed node of a form.  If it starts with garbage, this is of a kind that passes. -/
structure Built (form : Node → Prop) (start : Kind → Prop) (n : Node) : Prop where
  form : form n
  leading : ∀ t ∈ n.leading?, start t.kind
  wellFormed : n.WellFormed

variable {form : Node → Prop} {start : Kind → Prop}

theorem Built.isExpression {n : Node} (h : n.Built IsOperand start) :
    n.Built IsExpression start := by
  refine ⟨?_, h.leading, h.wellFormed⟩
  have hform := h.form
  cases n with
  | identifier | literal | call | garbage => trivial
  | binary | conditional | returned | assignment => exact hform.elim

/-- What a node was built from at its start is not the garbage that it begins with. -/
theorem Built.startsWithout {n : Node} {kinds : List Kind} (h : n.Built form start)
    (hk : ∀ k, start k → k ∉ kinds) : n.StartsWithout kinds :=
  fun t ht => hk t.kind (h.leading t ht)

/-- A call can be an operand and a statement. -/
theorem wellFormed_call {callee : String} {as : List Node}
    (h : ∀ a ∈ as, a.Built IsExpression (· ≠ .closeParenthesis)) :
    (Node.call callee as).WellFormed := by
  constructor
  · intro a ha
    refine ⟨(h a ha).form, (h a ha).startsWithout fun k hk => ?_⟩
    simpa using hk
  · exact proper_of_mem_nodesWithin fun a ha => (h a ha).wellFormed

/-- The garbage that a node begins with is that of its left operand. -/
theorem built_binary {left right : Node} (operator : Operator) {start' : Kind → Prop}
    (hl : left.Built IsOperand start) (hr : right.Built IsOperand start') :
    (Node.binary left operator right).Built IsExpression start := by
  refine ⟨trivial, hl.leading, ⟨hl.form, hr.form⟩, ?_⟩
  intro m hm
  rw [descendants, List.mem_append, List.mem_cons, List.mem_cons] at hm
  rcases hm with (rfl | hm) | (rfl | hm)
  · exact hl.wellFormed.1
  · exact hl.wellFormed.2 m hm
  · exact hr.wellFormed.1
  · exact hr.wellFormed.2 m hm

/-- A statement of the grammar. -/
abbrev BuiltStatement (n : Node) : Prop := n.Built IsStatement Parser.anyKind

theorem built_returned {value : Node} (h : value.Built IsExpression start) :
    (Node.returned value).BuiltStatement := by
  refine ⟨trivial, fun _ _ => trivial, h.form, ?_⟩
  rw [descendants]
  exact List.forall_mem_cons.mpr h.wellFormed

/-- What is assigned is an expression that begins with neither keyword, or a statement. -/
theorem built_assignment {target : String} {value : Node} (hvalue : value.WellFormed)
    (h : value.IsExpression ∧ value.StartsWithout [.keywordIf, .keywordReturn] ∨
      value.IsStatement) : (Node.assignment target value).BuiltStatement := by
  refine ⟨trivial, fun _ _ => trivial, h, ?_⟩
  rw [descendants]
  exact List.forall_mem_cons.mpr hvalue

/-- The nodes of a condition are those of its three parts. -/
theorem built_conditional {condition : Node} {thenBranch : Block} {elseBranch : Option Block}
    (hc : condition.Built IsExpression start) (ht : ∀ n ∈ thenBranch, n.BuiltStatement)
    (he : ∀ b ∈ elseBranch, ∀ n ∈ b, n.BuiltStatement) :
    (Node.conditional condition thenBranch elseBranch).BuiltStatement := by
  refine ⟨trivial, fun _ _ => trivial, ⟨hc.form, ?_, ?_⟩, ?_⟩
  · intro n hn
    exact (ht n hn).form
  · intro b hb n hn
    exact (he b hb n hn).form
  · intro m hm
    rw [descendants, List.mem_append, List.mem_append, List.mem_cons] at hm
    rcases hm with ((rfl | hm) | hm) | hm
    · exact hc.wellFormed.1
    · exact hc.wellFormed.2 m hm
    · exact proper_of_mem_nodesWithin (fun n hn => (ht n hn).wellFormed) m hm
    · cases elseBranch with
      | none => cases hm
      | some b => exact proper_of_mem_nodesWithin (fun n hn => (he b rfl n hn).wellFormed) m hm

end Node

/-! ## 2. The judgement -/

namespace Parser

section
variable {α β : Type} {pre : Kind → Prop} {good : α → Prop}

/-- From a lookahead whose kind passes, what a success of the parser answers is good, unless it
met the end of the text. -/
def Builds (pre : Kind → Prop) (p : Parser α) (good : α → Prop) : Prop :=
  ∀ ⦃stack c a es c'⦄, Facing pre c → p.run stack c = .ok ⟨.ok a, es, c'⟩ → EofFree es → good a

/-- What a parser answers wherever it starts. -/
theorem Yields.builds {p : Parser α} (h : Yields p good) : Builds pre p good := by
  intro stack c a es c' _ hr _
  exact h stack c a es c' hr

/-- Less may be said of what was built. -/
theorem Builds.mono {p : Parser α} {good' : α → Prop} (h : Builds pre p good)
    (hgood : ∀ a, good a → good' a) : Builds pre p good' := by
  intro stack c a es c' hc hr hfree
  exact hgood a (h hc hr hfree)

/-- More may be known of the token at the start. -/
theorem Builds.weaken {p : Parser α} {pre' : Kind → Prop} (h : Builds pre p good)
    (hpre : ∀ k, pre' k → pre k) : Builds pre' p good := by
  intro stack c a es c' hc hr hfree
  exact h (fun t ht => hpre _ (hc t ht)) hr hfree

theorem builds_pure {a : α} (h : good a) : Builds pre (pure a) good := (yields_pure h).builds

theorem builds_unhandled (t : Token) : Builds pre (unhandled t) good := by
  intro stack c a es c' _ hr _
  cases hr

/-- A token that is consumed is the lookahead, and not the end of the text. -/
theorem builds_advance : Builds pre advance fun t => pre t.kind ∧ t.kind ≠ .eof := by
  intro stack c t es c' hc hr hfree
  obtain ⟨u, rest, rfl, hr⟩ := run_advance_cases hr
  cases hr
  exact ⟨hc t rfl, hfree (.consume t) (List.mem_singleton_self _)⟩

/-- Of what comes first something may be known. -/
theorem Builds.bind {p : Parser β} {f : β → Parser α} {known : β → Prop}
    (hp : Builds pre p known) (hf : ∀ b, known b → Builds anyKind (f b) good) :
    Builds pre (p >>= f) good := by
  intro stack c a es c' hc hr hfree
  obtain ⟨b, es₁, c₁, es₂, h₁, h₂, rfl⟩ := run_bind_success hr
  obtain ⟨hfree₁, hfree₂⟩ := eofFree_append.mp hfree
  exact hf b (hp hc h₁ hfree₁) (fun _ _ => trivial) h₂ hfree₂

/-- Of what comes first nothing is known. -/
theorem builds_bind {p : Parser β} {f : β → Parser α} (hf : ∀ b, Builds anyKind (f b) good) :
    Builds pre (p >>= f) good := by
  have hp : Builds pre p fun _ => True := fun _ _ _ _ _ _ _ _ => trivial
  exact hp.bind fun b _ => hf b

/-- What follows the look at a token starts at this token. -/
theorem builds_lookahead_bind {f : Token → Parser α}
    (hf : ∀ t, pre t.kind → Builds (· = t.kind) (f t) good) :
    Builds pre (lookahead >>= f) good := by
  intro stack c a es c' hc hr hfree
  obtain ⟨t, es₁, c₁, es₂, h₁, h₂, rfl⟩ := run_bind_success hr
  obtain ⟨u, rest, rfl, h₁⟩ := run_lookahead_cases h₁
  cases h₁
  exact hf t (hc t rfl) (by simp [Facing]) h₂ hfree

theorem Builds.inRule {p : Parser α} (rule : Rule) (h : Builds pre p good) :
    Builds pre (inRule rule p) good := by
  intro stack c a es c' hc hr hfree
  obtain ⟨t, rest, ⟨o, es, c'⟩, rfl, hb, hr⟩ := run_inRule_cases hr
  cases hr
  exact h hc hb (eofFree_enter_cons.mp hfree)

/-- A round starts at a token that passes the test, so that this is known of every item. -/
theorem Builds.repeatWhile {item : Parser α} {test : Kind → Bool}
    (h : Builds (test · = true) item good) :
    ∀ n, Builds anyKind (repeatWhile test item n) fun as => ∀ a ∈ as, good a
  | 0 => yields_outOfBound.builds
  | n + 1 => by
    refine builds_lookahead_bind fun t _ => ?_
    split
    · rename_i ht
      have hitem : Builds (· = t.kind) item good := h.weaken fun k hk => hk ▸ ht
      refine hitem.bind fun a ha => ?_
      refine (Builds.repeatWhile h n).bind fun as has => ?_
      exact builds_pure (List.forall_mem_cons.mpr ⟨ha, has⟩)
    · exact builds_pure (List.forall_mem_nil good)

theorem Builds.many {item : Parser α} {test : Kind → Bool}
    (h : Builds (test · = true) item good) :
    Builds pre (many test item) fun as => ∀ a ∈ as, good a := by
  intro stack c as es c' _ hr hfree
  rw [run_many] at hr
  exact h.repeatWhile c.length (fun _ _ => trivial) hr hfree

end

/-! ## 3. The rules -/

section
variable {pre : Kind → Prop} {s e : Parser Node}

/-- A parser of expressions, whatever it starts at. -/
abbrev BuildsExpressions (e : Parser Node) : Prop :=
  ∀ pre, Builds pre e (Node.Built Node.IsExpression pre)

/-- A parser of statements. -/
abbrev BuildsStatements (s : Parser Node) : Prop := ∀ pre, Builds pre s Node.BuiltStatement

/-- The loop of the arguments ends at a closing parenthesis, so that no argument starts at
one. -/
theorem builds_call (callee : String) (he : BuildsExpressions e) :
    Builds pre (call e callee) fun n => (∃ as, n = .call callee as) ∧ n.WellFormed := by
  refine Builds.inRule .call ?_
  refine builds_bind fun _ => ?_
  refine (he _).many.bind fun as has => ?_
  refine builds_bind fun _ => ?_
  refine builds_pure ⟨⟨as, rfl⟩, Node.wellFormed_call fun a ha => ?_⟩
  obtain ⟨hform, hleading, hwf⟩ := has a ha
  refine ⟨hform, fun t ht => ?_, hwf⟩
  have hpass := hleading t ht
  simp only [Bool.and_eq_true, bne_iff_ne] at hpass
  exact hpass.1

/-- **Garbage is the token at the start**, so that what is known of this token is known of the
garbage.  The end of the text was not read, by what is asked of the run. -/
theorem builds_unary (he : BuildsExpressions e) :
    Builds pre (unary e) (Node.Built Node.IsOperand pre) := by
  refine Builds.inRule .unary ?_
  refine builds_advance.bind fun token htoken => ?_
  obtain ⟨hpre, heof⟩ := htoken
  -- one case for each kind of operand, garbage last
  split
  · refine builds_lookahead_bind fun next _ => ?_
    split
    · refine (builds_call token.text he).mono fun n hn => ?_
      obtain ⟨⟨as, rfl⟩, hwf⟩ := hn
      exact ⟨trivial, by simp [Node.leading?], hwf⟩
    · exact builds_pure ⟨trivial, by simp [Node.leading?], trivial, by simp [Node.descendants]⟩
  · exact builds_pure ⟨trivial, nofun, nofun, nofun⟩
  · exact builds_pure ⟨trivial, nofun, nofun, nofun⟩
  · exact builds_pure ⟨trivial, nofun, nofun, nofun⟩
  · rename_i hname hinteger hfloat hstring
    refine builds_pure ⟨trivial, ?_, ?_, by simp [Node.descendants]⟩
    · intro t ht
      cases ht
      exact hpre
    · show token.kind ∉ _
      simp only [List.mem_cons, List.not_mem_nil, or_false, not_or]
      exact ⟨hname, hinteger, hfloat, hstring, heof⟩

/-- An expression begins with its first operand. -/
theorem builds_expression : ∀ bound, BuildsExpressions (expression bound)
  | 0, _ => yields_outOfBound.builds
  | bound + 1, pre => by
    have he : BuildsExpressions (expression bound) := builds_expression bound
    refine Builds.inRule .expression ?_
    refine (builds_unary he).bind fun left hl => ?_
    refine builds_lookahead_bind fun t _ => ?_
    split
    · rename_i operator _
      refine builds_bind fun _ => ?_
      refine (builds_unary he).bind fun right hr => ?_
      exact builds_pure (Node.built_binary operator hl hr)
    · exact builds_pure hl.isExpression

/-- Every statement of a block is one. -/
theorem builds_block (hs : BuildsStatements s) :
    Builds pre (block s) fun b => ∀ n ∈ b, n.BuiltStatement := by
  refine Builds.inRule .block ?_
  refine builds_bind fun _ => ?_
  refine (hs _).many.bind fun statements hstatements => ?_
  refine builds_bind fun _ => ?_
  exact builds_pure hstatements

/-- The three parts are well formed, and proper in their places. -/
theorem builds_ifStmt (hs : BuildsStatements s) (he : BuildsExpressions e) :
    Builds pre (ifStmt s e) Node.BuiltStatement := by
  refine Builds.inRule .ifStmt ?_
  refine builds_bind fun _ => ?_
  refine (he anyKind).bind fun condition hc => ?_
  refine (builds_block hs).bind fun thenBranch ht => ?_
  refine builds_lookahead_bind fun t _ => ?_
  split
  · refine builds_bind fun _ => ?_
    refine (builds_block hs).bind fun elseBranch helse => ?_
    refine builds_pure (Node.built_conditional hc ht ?_)
    intro b hb
    cases hb
    exact helse
  · refine builds_pure (Node.built_conditional hc ht ?_)
    intro b hb
    cases hb

theorem builds_returnStmt (he : BuildsExpressions e) :
    Builds pre (returnStmt e) Node.BuiltStatement := by
  refine Builds.inRule .returnStmt ?_
  refine builds_bind fun _ => ?_
  refine (he anyKind).bind fun value hvalue => ?_
  exact builds_pure (Node.built_returned hvalue)

/-- An assigned expression is read where the lookahead is neither `if` nor `return`. -/
theorem builds_assignment (hs : BuildsStatements s) (he : BuildsExpressions e) :
    ∀ bound target {pre : Kind → Prop}, Builds pre (assignment s e bound target) Node.BuiltStatement
  | 0, _, _ => yields_outOfBound.builds
  | bound + 1, target, _ => by
    refine Builds.inRule .assignment ?_
    refine builds_bind fun _ => ?_
    refine builds_lookahead_bind fun start _ => ?_
    split
    · refine (hs _).bind fun value hvalue => ?_
      exact builds_pure (Node.built_assignment hvalue.wellFormed (.inr hvalue.form))
    · rename_i hstart
      refine (he _).bind fun value hvalue => ?_
      have hwithout : value.StartsWithout [.keywordIf, .keywordReturn] := by
        refine hvalue.startsWithout ?_
        rintro k rfl
        simpa using hstart
      refine builds_lookahead_bind fun next _ => ?_
      split
      · refine (builds_assignment hs he bound _).bind fun value hvalue => ?_
        exact builds_pure (Node.built_assignment hvalue.wellFormed (.inr hvalue.form))
      · exact builds_pure (Node.built_assignment hvalue.wellFormed (.inl ⟨hvalue.form, hwithout⟩))

/-- A call and an assignment are statements. -/
theorem builds_identTail (hs : BuildsStatements s) (he : BuildsExpressions e) (bound : Nat)
    (name : String) : Builds pre (identTail s e bound name) Node.BuiltStatement := by
  refine Builds.inRule .identTail ?_
  refine builds_lookahead_bind fun t _ => ?_
  split
  · refine (builds_call name he).mono fun n hn => ?_
    obtain ⟨⟨as, rfl⟩, hwf⟩ := hn
    exact ⟨trivial, fun _ _ => trivial, hwf⟩
  · exact builds_assignment hs he bound name
  · exact builds_unhandled t

/-- Whatever the token at the start, a statement comes out or the parse stops. -/
theorem builds_statement : ∀ bound, BuildsStatements (statement bound)
  | 0, _ => yields_outOfBound.builds
  | bound + 1, pre => by
    have hs : BuildsStatements (statement bound) := builds_statement bound
    have he : BuildsExpressions (expression bound) := builds_expression bound
    refine Builds.inRule .statement ?_
    refine builds_lookahead_bind fun t _ => ?_
    split
    · refine builds_bind fun name => ?_
      exact builds_identTail hs he bound name
    · exact builds_ifStmt hs he
    · exact builds_returnStmt he
    · exact builds_unhandled t

/-- The body of a function holds statements. -/
theorem builds_functionDecl (bound : Nat) :
    Builds pre (functionDecl bound) fun f => ∀ n ∈ f.body, n.BuiltStatement := by
  refine Builds.inRule .functionDecl ?_
  refine builds_bind fun _ => ?_
  refine builds_bind fun _ => ?_
  refine builds_bind fun _ => ?_
  refine builds_bind fun _ => ?_
  refine builds_bind fun _ => ?_
  refine (builds_block (builds_statement bound)).bind fun body hbody => ?_
  exact builds_pure hbody

/-- **A program that was read is well formed.** -/
theorem builds_program (bound : Nat) : Builds pre (program bound) Program.WellFormed := by
  refine Builds.inRule .program ?_
  refine (builds_functionDecl bound).many.bind fun functions hfunctions => ?_
  refine builds_pure ⟨?_, ?_⟩
  · intro f hf n hn
    exact (hfunctions f hf n hn).form
  · intro n hn
    obtain ⟨f, hf, hn⟩ := List.mem_flatMap.mp hn
    exact proper_of_mem_nodesWithin (fun m hm => (hfunctions f hf m hm).wellFormed) n hn

end
end Parser

/-! ## 4. Streams -/

/-- **Every tree is well formed, also after recovery.**  If the parse of a stream ends with a
tree, then in every block of it there are conditions, returns, calls and assignments only.
Conditions, returned values, arguments and operands are expressions, and operators do not
chain.  What is assigned is an expression or a statement.  No literal is a character.
Garbage is neither a name nor a literal that can be an operand nor the end of the text; no
argument starts with a closing parenthesis as garbage, and no assigned expression with `if` or
`return`. -/
theorem wellFormed_of_tree {s : TokenStream} {p : Program} (h : s.run.outcome = .ok p) :
    p.WellFormed := by
  obtain ⟨hfree, -⟩ := edited_of_tree h
  have hbuilds : Parser.Builds Parser.anyKind (Parser.program s.tokens.length)
      Program.WellFormed := Parser.builds_program s.tokens.length
  exact hbuilds (fun _ _ => trivial) (TokenStream.program_run_of_tree h) hfree

/-- A parameter list that is not closed, and two tokens kept as garbage.  The parenthesis may
start what is assigned, and `if` may stand after the operator. -/
theorem wellFormed_of_tree_garbage :
    let close : Token := ⟨.closeParenthesis, ")", ⟨14, 1⟩⟩
    let keyword : Token := ⟨.keywordIf, "if", ⟨18, 2⟩⟩
    let s := TokenStream.ofTokens "" [⟨.keywordFunc, "func", ⟨0, 4⟩⟩, ⟨.identifier, "f", ⟨5, 1⟩⟩,
      ⟨.openParenthesis, "(", ⟨6, 1⟩⟩, ⟨.openScope, "\x7b", ⟨8, 1⟩⟩, ⟨.identifier, "x", ⟨10, 1⟩⟩,
      ⟨.assignment, "=", ⟨12, 1⟩⟩, close, ⟨.add, "+", ⟨16, 1⟩⟩, keyword,
      ⟨.closeScope, "\x7d", ⟨21, 1⟩⟩] .empty []
    let p : Program :=
      ⟨[⟨"f", [], [.assignment "x" (.binary (.garbage close) .add (.garbage keyword))]⟩]⟩
    s.run.outcome = .ok p ∧ s.run.diagnostics.length = 1 ∧ p.WellFormed := by
  intro close keyword s p
  have h : s.run.outcome = .ok p := by decide
  exact ⟨h, by decide, wellFormed_of_tree h⟩

end FrontEnd
