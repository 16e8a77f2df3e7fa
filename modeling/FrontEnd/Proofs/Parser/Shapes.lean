/-
# The shapes of trees

The type of nodes allows more trees than the grammar has.  `Node.Shaped` says which nodes
the grammar builds, for each of the uses that it has for them:

* an operand is a name, a literal, a call, or a token kept as garbage;
* an expression is an operand, or two with an operator between them;
* a statement is a condition, a return, a call or an assignment, and what is assigned is an
  expression or a statement.

Written out, a node starts with a token that tells its use: `Node.Shaped.opens`.  The parser
of expressions builds nothing else than expressions: `yields_expression`.
-/
import FrontEnd.Proofs.Parser.Slots

namespace FrontEnd

/-- What a node is used as. -/
inductive Form where
  | operand
  | expression
  | statement
  deriving DecidableEq, Repr

/-- The grammar builds the node for this use.  Of the tokens that start no expression it
keeps those that pass `stray`. -/
inductive Node.Shaped (stray : Token → Prop) : Form → Node → Prop
  | identifier (x : String) : Shaped stray .operand (.identifier x)
  | literal {k : LiteralKind} (text : String) : k ≠ .char → Shaped stray .operand (.literal k text)
  | garbage {t : Token} : stray t → Shaped stray .operand (.garbage t)
  | call {f : String} {as : List Node} : (∀ a ∈ as, Shaped stray .expression a) →
      Shaped stray .operand (.call f as)
  | single {n : Node} : Shaped stray .operand n → Shaped stray .expression n
  | binary {l r : Node} (o : Operator) : Shaped stray .operand l → Shaped stray .operand r →
      Shaped stray .expression (.binary l o r)
  | callAlone {f : String} {as : List Node} : (∀ a ∈ as, Shaped stray .expression a) →
      Shaped stray .statement (.call f as)
  | conditional {c : Node} {t : Block} {e : Option Block} : Shaped stray .expression c →
      (∀ n ∈ t, Shaped stray .statement n) → (∀ b ∈ e, ∀ n ∈ b, Shaped stray .statement n) →
      Shaped stray .statement (.conditional c t e)
  | returned {v : Node} : Shaped stray .expression v → Shaped stray .statement (.returned v)
  | assignExpression {x : String} {v : Node} : Shaped stray .expression v →
      Shaped stray .statement (.assignment x v)
  | assignStatement {x : String} {v : Node} : Shaped stray .statement v →
      Shaped stray .statement (.assignment x v)

/-- The grammar builds the program. -/
def Program.Shaped (stray : Token → Prop) (p : Program) : Prop :=
  ∀ f ∈ p.functions, ∀ n ∈ f.body, n.Shaped stray .statement

/-- No token is garbage. -/
def noToken (_ : Token) : Prop := False

/-! ## First slots -/

/-- The slots start with one of a kind that passes. -/
def Opens (start : Kind → Prop) (slots : List Slot) : Prop := ∃ s ∈ slots.head?, start s.kind

/-- The kinds of token that a node of this form starts with, if it is no garbage. -/
def Form.Starts : Form → Kind → Prop
  | operand, k | expression, k =>
    k ∈ [Kind.identifier, .integerLiteral, .floatLiteral, .stringLiteral]
  | statement, k => k ∈ [Kind.identifier, .keywordIf, .keywordReturn]

theorem opens_cons {start : Kind → Prop} {s : Slot} {ss : List Slot} (h : start s.kind) :
    Opens start (s :: ss) := ⟨s, rfl, h⟩

theorem Opens.append {start : Kind → Prop} {ss : List Slot} (h : Opens start ss)
    (ss' : List Slot) : Opens start (ss ++ ss') := by
  obtain ⟨s, hs, hk⟩ := h
  exact ⟨s, by simp [Option.mem_def.mp hs], hk⟩

/-- **The first token of a node tells its form.** -/
theorem Node.Shaped.opens {form : Form} {n : Node} (h : n.Shaped noToken form) :
    Opens form.Starts n.slots := by
  induction h with
  | identifier x => exact opens_cons (by simp [Form.Starts, Slot.kind])
  | @literal k text hk =>
    refine opens_cons ?_
    cases k with
    | char => exact absurd rfl hk
    | integer | float | string => simp [Form.Starts, Slot.kind, LiteralKind.kind]
  | garbage ht => exact ht.elim
  | single _ ih => exact ih
  | binary o _ _ ihl _ => exact ihl.append _
  | call | callAlone | conditional | returned | assignExpression | assignStatement =>
    exact opens_cons (by simp [Form.Starts, Slot.kind])

/-! ## What the parsers build -/

namespace Parser

section
variable {α β : Type} {good : α → Prop}

/-- What a success of the parser answers passes. -/
def Yields (p : Parser α) (good : α → Prop) : Prop :=
  ∀ stack c a es c', p.run stack c = .ok ⟨.ok a, es, c'⟩ → good a

theorem yields_pure {a : α} (h : good a) : Yields (pure a) good := by
  intro stack c b es c' hr
  cases hr
  exact h

theorem yields_outOfBound : Yields outOfBound good := by
  intro stack c a es c' hr
  cases hr

/-- Of what comes first something may be known. -/
theorem Yields.bind {p : Parser β} {f : β → Parser α} {known : β → Prop} (hp : Yields p known)
    (hf : ∀ b, known b → Yields (f b) good) : Yields (p >>= f) good := by
  intro stack c a es c' hr
  obtain ⟨b, es₁, c₁, es₂, h₁, h₂, -⟩ := run_bind_success hr
  exact hf b (hp _ _ _ _ _ h₁) _ _ _ _ _ h₂

theorem yields_bind {p : Parser β} {f : β → Parser α} (hf : ∀ b, Yields (f b) good) :
    Yields (p >>= f) good := by
  have hp : Yields p fun _ => True := fun _ _ _ _ _ _ => trivial
  exact hp.bind fun b _ => hf b

theorem Yields.inRule {p : Parser α} (rule : Rule) (h : Yields p good) :
    Yields (inRule rule p) good := by
  intro stack c a es c' hr
  obtain ⟨t, rest, ⟨o, es, c'⟩, rfl, hb, hr⟩ := run_inRule_cases hr
  cases hr
  exact h _ _ _ _ _ hb

theorem Yields.repeatWhile {item : Parser α} (test : Kind → Bool) (h : Yields item good) :
    ∀ n, Yields (repeatWhile test item n) fun as => ∀ a ∈ as, good a
  | 0 => yields_outOfBound
  | n + 1 => by
    refine yields_bind fun t => ?_
    split
    · refine h.bind fun a ha => (Yields.repeatWhile test h n).bind fun as has => yields_pure ?_
      exact List.forall_mem_cons.mpr ⟨ha, has⟩
    · exact yields_pure (by simp)

theorem Yields.many {item : Parser α} (test : Kind → Bool) (h : Yields item good) :
    Yields (many test item) fun as => ∀ a ∈ as, good a :=
  fun stack c as es c' hr =>
    h.repeatWhile test c.length stack c as es c' (run_of_many hr)

end

section
variable {stray : Token → Prop} {e : Parser Node}

theorem yields_call (callee : String) (he : Yields e (Node.Shaped stray .expression)) :
    Yields (call e callee) fun n => ∃ as, n = .call callee as ∧
      ∀ a ∈ as, Node.Shaped stray .expression a :=
  Yields.inRule _ (yields_bind fun _ => (he.many _).bind fun as has => yields_bind fun _ =>
    yields_pure ⟨as, rfl, has⟩)

theorem yields_unary (he : Yields e (Node.Shaped stray .expression))
    (hstray : ∀ t, ¬ Form.operand.Starts t.kind → stray t) :
    Yields (unary e) (Node.Shaped stray .operand) := by
  refine Yields.inRule _ (yields_bind fun token => ?_)
  split
  · refine yields_bind fun next => ?_
    split
    · intro stack c n es c' hr
      obtain ⟨as, rfl, has⟩ := yields_call _ he _ _ _ _ _ hr
      exact .call has
    · exact yields_pure (.identifier _)
  · exact yields_pure (.literal _ (by simp))
  · exact yields_pure (.literal _ (by simp))
  · exact yields_pure (.literal _ (by simp))
  · refine yields_pure (.garbage (hstray token ?_))
    simp_all [Form.Starts]

/-- **The parser of expressions builds expressions.**  What starts none it keeps as garbage. -/
theorem yields_expression (hstray : ∀ t, ¬ Form.operand.Starts t.kind → stray t) :
    ∀ bound, Yields (expression bound) (Node.Shaped stray .expression)
  | 0 => yields_outOfBound
  | bound + 1 => by
    have operand := yields_unary (yields_expression hstray bound) hstray
    refine (operand.bind fun left hl => yields_bind fun t => ?_).inRule _
    split
    · exact yields_bind fun _ => operand.bind fun right hr => yields_pure (.binary _ hl hr)
    · exact yields_pure (.single hl)

end
end Parser
end FrontEnd
