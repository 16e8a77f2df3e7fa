/-
# A parse reads kinds

A token is a kind, a text and a span.  The parser decides by kinds alone: texts and spans
go into trees, errors and diagnostics and are not looked at.  Nothing in the type of the
parser says so.  Two parses are compared here, one of the tokens as they are and one of the
same tokens with other texts and spans, and they keep step.

* `Relabelling`: any change of texts and any change of spans, and what it does to tokens,
  trees, errors, events and replies;
* `Follows`: a parser that on relabelled tokens answers what another one answers, relabelled;
* `program_follows`: the parser of programs follows itself;
* `run_relabelled`: so it is for streams, and streams with the same kinds are parsed alike
  but for what the tokens carry.

The two parsers of `Follows` are not the same one: what a rule is given on its way down, the
name of a callee or of a target, has been relabelled too.
-/
import FrontEnd.Proofs.Parser.Totality

namespace FrontEnd

/-! ## 1. Relabellings -/

/-- A change of what tokens carry beside their kind. -/
structure Relabelling where
  text : String → String
  span : Span → Span

/-- Takes every text and every span away. -/
def Relabelling.bare : Relabelling := ⟨fun _ => "", fun _ => ⟨0, 0⟩⟩

section
variable (r : Relabelling)

/-- The token with another text and span, and the same kind. -/
def Token.relabel (t : Token) : Token := ⟨t.kind, r.text t.text, r.span t.span⟩

mutual
/-- The node with other names, literals and garbage. -/
def Node.relabel : Node → Node
  | .conditional c t e => .conditional c.relabel (relabelNodes t) (relabelElse e)
  | .returned v => .returned v.relabel
  | .binary left operator right => .binary left.relabel operator right.relabel
  | .identifier x => .identifier (r.text x)
  | .literal k v => .literal k (r.text v)
  | .call f as => .call (r.text f) (relabelNodes as)
  | .assignment x v => .assignment (r.text x) v.relabel
  | .garbage t => .garbage (t.relabel r)
def relabelNodes : List Node → List Node
  | [] => []
  | n :: ns => n.relabel :: relabelNodes ns
def relabelElse : Option (List Node) → Option (List Node)
  | none => none
  | some b => some (relabelNodes b)
end

def Parameter.relabel (q : Parameter) : Parameter := ⟨r.text q.typeName, r.text q.name⟩

def Function.relabel (f : Function) : Function :=
  ⟨r.text f.name, f.parameters.map (Parameter.relabel r), f.body.map (Node.relabel r)⟩

def Program.relabel (p : Program) : Program := ⟨p.functions.map (Function.relabel r)⟩

/-- The error about the relabelled token.  Its rule and the open rules stay. -/
def SyntaxError.relabel (e : SyntaxError) : SyntaxError :=
  { e with found := e.found.relabel r, span := r.span e.span }

/-- What was expected stays; what was found is relabelled. -/
def Problem.relabel : Problem → Problem
  | .lexical fault => .lexical fault
  | .mismatch expected found => .mismatch expected (found.relabel r)

/-- The diagnostic about the relabelled token, at the same site. -/
def Diagnostic.relabel (d : Diagnostic) : Diagnostic :=
  { d with problem := d.problem.relabel r, span := d.span.map r.span }

/-- The event with the relabelled token.  Rules, depths and expected kinds stay. -/
def Event.relabel : Event → Event
  | .enter rule depth lookahead => .enter rule depth (lookahead.relabel r)
  | .consume token => .consume (token.relabel r)
  | .mismatch expected found stack => .mismatch expected (found.relabel r) stack

/-- A tree changed by `f`, or the relabelled error. -/
def relabelOutcome {α β : Type} (f : α → β) : Except SyntaxError α → Except SyntaxError β
  | .ok a => .ok (f a)
  | .error e => .error (e.relabel r)

/-- The reply to the relabelled tokens, if `f` relabels what a success answers. -/
def Reply.relabel {α β : Type} (f : α → β) (reply : Reply α) : Reply β :=
  ⟨relabelOutcome r f reply.outcome, reply.events.map (Event.relabel r),
    reply.cursor.map (Token.relabel r)⟩

@[simp] theorem Token.kind_relabel (t : Token) : (t.relabel r).kind = t.kind := rfl

theorem relabelNodes_eq_map (ns : List Node) : relabelNodes r ns = ns.map (Node.relabel r) := by
  induction ns with
  | nil => rfl
  | cons n ns ih => rw [relabelNodes, ih, List.map_cons]

theorem relabelElse_eq_map (b : Option Block) :
    relabelElse r b = b.map (List.map (Node.relabel r)) := by
  cases b with
  | none => rfl
  | some b => exact congrArg some (relabelNodes_eq_map r b)

/-- A mismatch records the relabelled diagnostic, other events none. -/
theorem Event.diagnostic?_relabel (e : Event) :
    (e.relabel r).diagnostic? = e.diagnostic?.map (Diagnostic.relabel r) := by
  cases e <;> rfl

/-- What is recorded of relabelled events is relabelled. -/
theorem recorded_relabel (es : List Event) :
    recorded (es.map (Event.relabel r)) = (recorded es).map (Diagnostic.relabel r) := by
  unfold recorded
  rw [List.filterMap_map, List.map_filterMap]
  exact congrArg (List.filterMap · es) (funext (Event.diagnostic?_relabel r))

/-- The end of the text stays the end of the text, so as many tokens are passed. -/
theorem passed_relabel (es : List Event) :
    passed (es.map (Event.relabel r)) = (passed es).map (Token.relabel r) := by
  unfold passed
  rw [List.filterMap_map, List.map_filterMap]
  refine congrArg (List.filterMap · es) (funext fun e => ?_)
  cases e with
  | enter => rfl
  | mismatch => rfl
  | consume t =>
    by_cases ht : t.kind = .eof
    · simp [Event.relabel, Event.passed?, ht]
    · simp [Event.relabel, Event.passed?, ht]

/-- A relabelling moves no token. -/
theorem position_relabel (es : List Event) :
    position (es.map (Event.relabel r)) = position es := by
  rw [position, passed_relabel, List.length_map, position]

/-- The tokens of a stream, relabelled.  What was recorded before stays. -/
def TokenStream.relabel (s : TokenStream) : TokenStream :=
  { s with
    tokens := s.tokens.map (Token.relabel r)
    endsWithEof := by
      obtain ⟨t, ht, hk⟩ := s.endsWithEof
      refine ⟨t.relabel r, ?_, hk⟩
      rw [List.getLast?_map, Option.mem_def.mp ht]
      rfl }

/-! ## 2. Cursors -/

/-- Whether the cursor may be moved depends on a kind. -/
theorem Cursor.advance_relabel (c : Cursor) :
    Cursor.advance (c.map (Token.relabel r)) = c.advance.map (Token.relabel r) := by
  cases c with
  | nil => rfl
  | cons t rest =>
    by_cases ht : t.kind = .eof
    · rw [Parser.advance_eq_self ht, List.map_cons]
      exact Parser.advance_eq_self ht
    · rw [Parser.advance_eq_rest ht, List.map_cons]
      exact Parser.advance_eq_rest ht

theorem Cursor.next?_relabel (c : Cursor) :
    Cursor.next? (c.map (Token.relabel r)) = c.next?.map (Token.relabel r) := by
  match c with
  | [] => rfl
  | [_] => rfl
  | _ :: _ :: _ => rfl

end

/-! ## 3. The judgement -/

namespace Parser

section
variable {r : Relabelling} {α β α' β' : Type} {f : α → α'} {g : β → β'}

/-- Where the first parser answers, the second one, on the relabelled tokens, gives the
relabelled answer. -/
def Follows (r : Relabelling) (f : α → α') (p : Parser α) (q : Parser α') : Prop :=
  ∀ ⦃stack c reply⦄, p.run stack c = .ok reply →
    q.run stack (c.map (Token.relabel r)) = .ok (reply.relabel r f)

theorem follows_pure {a : α} {a' : α'} (h : f a = a') : Follows r f (pure a) (pure a') := by
  intro stack c reply hr
  cases hr
  rw [← h]
  rfl

/-- A parser that gives no answer is followed by any other. -/
theorem follows_outOfBound (q : Parser α') : Follows r f outOfBound q := by
  intro stack c reply hr
  cases hr

/-- The error is about the relabelled token. -/
theorem follows_unhandled (t : Token) :
    Follows r f (unhandled t) (unhandled (t.relabel r)) := by
  intro stack c reply hr
  cases hr
  rfl

theorem follows_lookahead : Follows r (Token.relabel r) lookahead lookahead := by
  intro stack c reply hr
  obtain ⟨t, rest, rfl, rfl⟩ := run_lookahead_cases hr
  rfl

theorem follows_advance : Follows r (Token.relabel r) advance advance := by
  intro stack c reply hr
  obtain ⟨t, rest, rfl, rfl⟩ := run_advance_cases hr
  rw [List.map_cons, run_advance_cons, ← List.map_cons, Cursor.advance_relabel]
  rfl

/-- What is expected is a kind, and so is all that may follow. -/
theorem follows_eatBefore (expected : Kind) (follow : List Kind) :
    Follows r (Token.relabel r) (eatBefore expected follow) (eatBefore expected follow) := by
  rintro stack (_ | ⟨t, rest⟩) reply hr
  · cases run_eatBefore_cases hr
  obtain ⟨u, hu⟩ := exists_next t rest
  have hu' : Cursor.next? (t.relabel r :: rest.map (Token.relabel r)) = some (u.relabel r) := by
    rw [← List.map_cons, Cursor.next?_relabel, hu]
    rfl
  rw [run_eatBefore_cons hu] at hr
  rw [List.map_cons, run_eatBefore_cons hu', ← List.map_cons, Cursor.advance_relabel]
  have ht : (t.relabel r).kind = t.kind := rfl
  have hnext : (u.relabel r).kind = u.kind := rfl
  -- the kinds of both tokens decide, and nothing else
  by_cases hk : t.kind = expected
  · rw [if_pos hk] at hr
    rw [if_pos (ht.trans hk)]
    cases hr
    rfl
  · rw [if_neg hk] at hr
    rw [if_neg (ht ▸ hk)]
    by_cases hm : t.kind ∈ follow ∧ u.kind ∉ follow
    · rw [if_pos hm] at hr
      rw [if_pos (ht ▸ hnext ▸ hm)]
      cases hr
      rfl
    · rw [if_neg hm] at hr
      rw [if_neg (ht ▸ hnext ▸ hm)]
      cases hr
      rfl

theorem follows_eat (expected : Kind) :
    Follows r (Token.relabel r) (eat expected) (eat expected) :=
  follows_eatBefore expected []

/-- **Sequences are followed part by part.**  The second part is given what the first one answered,
relabelled. -/
theorem Follows.bind {p : Parser α} {q : Parser α'} {k : α → Parser β} {k' : α' → Parser β'}
    (hp : Follows r f p q) (hk : ∀ a, Follows r g (k a) (k' (f a))) :
    Follows r g (p >>= k) (q >>= k') := by
  intro stack c reply hr
  rcases run_bind_cases hr with ⟨e, es, c', h₁, rfl⟩ | ⟨a, es, c', after, h₁, h₂, rfl⟩
  · exact run_bind_of_error (hp h₁)
  · rw [run_bind_of_ok (hp h₁) (hk a h₂)]
    simp only [Reply.relabel, List.map_append]

theorem Follows.inRule {p : Parser α} {q : Parser α'} (rule : Rule) (h : Follows r f p q) :
    Follows r f (inRule rule p) (inRule rule q) := by
  intro stack c reply hr
  obtain ⟨t, rest, body, rfl, hb, rfl⟩ := run_inRule_cases hr
  exact run_inRule_of_ok (h hb)

/-- The test of a loop is on kinds, so that both loops make the same rounds. -/
theorem Follows.repeatWhile {item : Parser α} {item' : Parser α'} (test : Kind → Bool)
    (h : Follows r f item item') :
    ∀ n, Follows r (List.map f) (repeatWhile test item n) (repeatWhile test item' n)
  | 0 => follows_outOfBound _
  | n + 1 => by
    refine follows_lookahead.bind fun t => ?_
    rw [Token.kind_relabel]
    split
    · refine h.bind fun a => ?_
      refine (Follows.repeatWhile test h n).bind fun as => ?_
      exact follows_pure (List.map_cons ..)
    · exact follows_pure List.map_nil

/-- There are as many tokens left, so the loop may make as many rounds. -/
theorem Follows.many {item : Parser α} {item' : Parser α'} (test : Kind → Bool)
    (h : Follows r f item item') :
    Follows r (List.map f) (many test item) (many test item') := by
  intro stack c reply hr
  rw [run_many] at hr
  rw [run_many, List.length_map]
  exact h.repeatWhile test c.length hr

end

/-! ## 4. The rules -/

section
variable {r : Relabelling} {s e : Parser Node}

/-- A name is a text, and relabelled like one. -/
theorem follows_name (follow : List Kind) : Follows r r.text (name follow) (name follow) := by
  refine (follows_eatBefore .identifier follow).bind fun t => ?_
  exact follows_pure rfl

/-- The name of what is called came from above, and is another one here. -/
theorem follows_call (callee : String) (he : Follows r (Node.relabel r) e e) :
    Follows r (Node.relabel r) (call e callee) (call e (r.text callee)) := by
  refine Follows.inRule .call ?_
  refine (follows_eat .openParenthesis).bind fun _ => ?_
  refine (he.many _).bind fun as => ?_
  refine (follows_eat .closeParenthesis).bind fun _ => ?_
  refine follows_pure ?_
  rw [Node.relabel, relabelNodes_eq_map]

/-- The operand is chosen by the kind of its token. -/
theorem follows_unary (he : Follows r (Node.relabel r) e e) :
    Follows r (Node.relabel r) (unary e) (unary e) := by
  refine Follows.inRule .unary ?_
  refine follows_advance.bind fun token => ?_
  simp only [Token.kind_relabel]
  split
  · refine follows_lookahead.bind fun next => ?_
    rw [Token.kind_relabel]
    split
    · exact follows_call token.text he
    · exact follows_pure rfl
  all_goals exact follows_pure rfl

/-- By induction on the levels of nesting. -/
theorem expression_follows : ∀ bound,
    Follows r (Node.relabel r) (expression bound) (expression bound)
  | 0 => follows_outOfBound _
  | bound + 1 => by
    have he : Follows r (Node.relabel r) (expression bound) (expression bound) :=
      expression_follows bound
    have operand := follows_unary he
    refine Follows.inRule .expression ?_
    refine operand.bind fun left => ?_
    refine follows_lookahead.bind fun t => ?_
    rw [Token.kind_relabel]
    cases Operator.ofKind? t.kind with
    | none => exact follows_pure rfl
    | some operator =>
      refine follows_advance.bind fun _ => ?_
      refine operand.bind fun right => ?_
      exact follows_pure rfl

theorem follows_block (hs : Follows r (Node.relabel r) s s) :
    Follows r (List.map (Node.relabel r)) (block s) (block s) := by
  refine Follows.inRule .block ?_
  refine (follows_eatBefore .openScope afterOpenScope).bind fun _ => ?_
  refine (hs.many _).bind fun statements => ?_
  refine (follows_eat .closeScope).bind fun _ => ?_
  exact follows_pure rfl

theorem follows_ifStmt (hs : Follows r (Node.relabel r) s s)
    (he : Follows r (Node.relabel r) e e) :
    Follows r (Node.relabel r) (ifStmt s e) (ifStmt s e) := by
  refine Follows.inRule .ifStmt ?_
  refine (follows_eat .keywordIf).bind fun _ => ?_
  refine he.bind fun condition => ?_
  refine (follows_block hs).bind fun thenBranch => ?_
  refine follows_lookahead.bind fun t => ?_
  rw [Token.kind_relabel]
  split
  · refine (follows_eat .keywordElse).bind fun _ => ?_
    refine (follows_block hs).bind fun elseBranch => ?_
    refine follows_pure ?_
    rw [Node.relabel, relabelNodes_eq_map, relabelElse_eq_map]
    rfl
  · refine follows_pure ?_
    rw [Node.relabel, relabelNodes_eq_map, relabelElse_eq_map]
    rfl

theorem follows_returnStmt (he : Follows r (Node.relabel r) e e) :
    Follows r (Node.relabel r) (returnStmt e) (returnStmt e) := by
  refine Follows.inRule .returnStmt ?_
  refine (follows_eat .keywordReturn).bind fun _ => ?_
  refine he.bind fun value => ?_
  exact follows_pure rfl

/-- A relabelled name is a name and nothing else is, so both parses see the same chain. -/
theorem follows_assignment (hs : Follows r (Node.relabel r) s s)
    (he : Follows r (Node.relabel r) e e) : ∀ bound target,
    Follows r (Node.relabel r) (assignment s e bound target)
      (assignment s e bound (r.text target))
  | 0, _ => follows_outOfBound _
  | bound + 1, target => by
    refine Follows.inRule .assignment ?_
    refine (follows_eat .assignment).bind fun _ => ?_
    refine follows_lookahead.bind fun start => ?_
    -- the token that decides is relabelled, but its kind is the same
    by_cases hstart : start.kind = .keywordIf ∨ start.kind = .keywordReturn
    · have hstart' : (start.relabel r).kind = .keywordIf ∨ (start.relabel r).kind = .keywordReturn :=
        hstart
      rw [if_pos hstart, if_pos hstart']
      refine hs.bind fun value => ?_
      exact follows_pure rfl
    · have hstart' :
          ¬ ((start.relabel r).kind = .keywordIf ∨ (start.relabel r).kind = .keywordReturn) := hstart
      rw [if_neg hstart, if_neg hstart']
      refine he.bind fun value => ?_
      refine follows_lookahead.bind fun next => ?_
      have last : Follows r (Node.relabel r) (pure (.assignment target value))
          (pure (.assignment (r.text target) (value.relabel r))) :=
        follows_pure rfl
      rw [Token.kind_relabel]
      -- a name may be assigned again; the form of a value survives relabelling
      cases value with
      | identifier x =>
        rw [Node.relabel] at last ⊢
        split
        · rename_i hx hk
          cases hx
          simp only [hk]
          refine (follows_assignment hs he bound x).bind fun value => ?_
          exact follows_pure rfl
        · rename_i hno
          split
          · rename_i hk
            exact absurd hk (hno x rfl)
          · exact last
      | _ =>
        rw [Node.relabel] at last ⊢
        exact last

/-- The name decides nothing: the two sides are told apart by the token behind it. -/
theorem follows_identTail (hs : Follows r (Node.relabel r) s s)
    (he : Follows r (Node.relabel r) e e) (bound : Nat) (name : String) :
    Follows r (Node.relabel r) (identTail s e bound name)
      (identTail s e bound (r.text name)) := by
  refine Follows.inRule .identTail ?_
  refine follows_lookahead.bind fun t => ?_
  simp only [Token.kind_relabel]
  split
  · exact follows_call name he
  · exact follows_assignment hs he bound name
  · exact follows_unhandled t

/-- Every form of statement is told by kinds. -/
theorem statement_follows : ∀ bound,
    Follows r (Node.relabel r) (statement bound) (statement bound)
  | 0 => follows_outOfBound _
  | bound + 1 => by
    have hs : Follows r (Node.relabel r) (statement bound) (statement bound) :=
      statement_follows bound
    have he : Follows r (Node.relabel r) (expression bound) (expression bound) :=
      expression_follows bound
    refine Follows.inRule .statement ?_
    refine follows_lookahead.bind fun t => ?_
    simp only [Token.kind_relabel]
    split
    · refine (follows_name []).bind fun name => ?_
      exact follows_identTail hs he bound name
    · exact follows_ifStmt hs he
    · exact follows_returnStmt he
    · exact follows_unhandled t

theorem parameter_follows : Follows r (Parameter.relabel r) parameter parameter := by
  refine Follows.inRule .parameter ?_
  refine (follows_name [.identifier]).bind fun typeName => ?_
  refine (follows_name afterParameter).bind fun name => ?_
  exact follows_pure rfl

theorem functionDecl_follows (bound : Nat) :
    Follows r (Function.relabel r) (functionDecl bound) (functionDecl bound) := by
  refine Follows.inRule .functionDecl ?_
  refine (follows_eat .keywordFunc).bind fun _ => ?_
  refine (follows_name afterName).bind fun name => ?_
  refine (follows_eatBefore .openParenthesis afterParameter).bind fun _ => ?_
  refine (parameter_follows.many _).bind fun parameters => ?_
  refine (follows_eatBefore .closeParenthesis afterParameters).bind fun _ => ?_
  refine (follows_block (statement_follows bound)).bind fun body => ?_
  exact follows_pure rfl

/-- **The parser of programs decides by kinds.** -/
theorem program_follows (bound : Nat) :
    Follows r (Program.relabel r) (program bound) (program bound) := by
  refine Follows.inRule .program ?_
  refine ((functionDecl_follows bound).many _).bind fun functions => ?_
  exact follows_pure rfl

end
end Parser

/-! ## 5. Streams -/

/-- **The parse of the relabelled stream is the relabelled parse.**  That the parse answers is
known, and what it answers follows. -/
theorem TokenStream.run_relabel (r : Relabelling) (s : TokenStream) :
    (s.relabel r).run = s.run.relabel r (Program.relabel r) := by
  have hfollows : Parser.Follows r (Program.relabel r) (Parser.program s.tokens.length)
      (Parser.program s.tokens.length) := Parser.program_follows s.tokens.length
  have hr' := (s.relabel r).program_run
  have hlength : (s.relabel r).tokens.length = s.tokens.length := List.length_map ..
  rw [hlength] at hr'
  exact Except.ok.inj (hr'.symm.trans (hfollows s.program_run))

/-- Without texts and spans, streams with the same kinds are the same. -/
theorem relabel_bare_tokens {ts us : List Token} (h : ts.map Token.kind = us.map Token.kind) :
    ts.map (Token.relabel .bare) = us.map (Token.relabel .bare) := by
  have hbare (ts : List Token) : ts.map (Token.relabel .bare) =
      (ts.map Token.kind).map fun k => ⟨k, "", ⟨0, 0⟩⟩ := by
    rw [List.map_map]
    rfl
  rw [hbare, hbare, h]

/-- **The parser depends on tokens only through their kinds, and copies the rest.**  Whatever
is done to the texts and to the spans of the tokens of a stream, the parse goes the same way
with the same events, and ends at the same token with the same outcome, tree or error, in
which the texts and spans are changed in the same way and nothing else: the structure of the
tree, the rules that were open and the kinds that were expected are as before.  The stream
that is left has what was recorded before and the changed diagnostics after it.

So of streams with the same kinds, whatever their texts and spans are, the parses differ in
the texts and spans that they copied and in nothing else. -/
theorem run_relabelled (r : Relabelling) (s : TokenStream) :
    (s.relabel r).run.outcome = relabelOutcome r (Program.relabel r) s.run.outcome ∧
    (s.relabel r).run.diagnostics = s.run.diagnostics.map (Diagnostic.relabel r) ∧
    (s.relabel r).run.events = s.run.events.map (Event.relabel r) ∧
    position (s.relabel r).run.events = position s.run.events ∧
    (s.relabel r).run.cursor = s.run.cursor.map (Token.relabel r) ∧
    (s.relabel r).parse =
      (relabelOutcome r (Program.relabel r) s.parse.1,
        (s.relabel r).append (s.run.diagnostics.map (Diagnostic.relabel r))) ∧
    (∀ t : TokenStream, t.tokens.map Token.kind = s.tokens.map Token.kind →
      t.run.relabel .bare (Program.relabel .bare) =
        s.run.relabel .bare (Program.relabel .bare)) := by
  have hrun := s.run_relabel r
  have hdiagnostics :
      (s.relabel r).run.diagnostics = s.run.diagnostics.map (Diagnostic.relabel r) := by
    unfold Reply.diagnostics
    rw [hrun]
    exact recorded_relabel r s.run.events
  refine ⟨?_, hdiagnostics, ?_, ?_, ?_, ?_, ?_⟩
  · rw [hrun]
    rfl
  · rw [hrun]
    rfl
  · rw [hrun]
    exact position_relabel r s.run.events
  · rw [hrun]
    rfl
  · rw [← hdiagnostics, TokenStream.parse, hrun]
    rfl
  · intro t ht
    -- without texts and spans the two streams have the same tokens
    rw [← t.run_relabel, ← s.run_relabel]
    exact TokenStream.run_congr (relabel_bare_tokens ht)

end FrontEnd
