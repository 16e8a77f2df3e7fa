/-
# Where a parse complains

A mismatch and a syntax error name the rules that were open.  The parser is told which ones
these are, and nothing in the basic parsers says that it is told the truth, nor that some
requirement of the grammar can never be disappointed.  Both are facts about the grammar.

* `Rule.IsPath`: a chain of rules in which each may enter the next, from `program` on;
* `OpenAfter`: the rules that are open after some events, those that were entered and have
  not succeeded;
* `Rule.Misses`, `Rule.Refuses`: what a rule can complain of;
* `Located`: a part of a rule that complains only so, and of the rules that are open;
* `run_sites`: so it is in the parse of every stream.

Most requirements are tested before the rule is entered that makes them.  What is known of
the lookahead is therefore part of `Located`, before and after.
-/
import FrontEnd.Proofs.Parser.Lookahead
import Mathlib.Data.List.Chain

namespace FrontEnd

/-! ## 1. The call graph -/

namespace Rule

/-- The rules that a rule may enter. -/
def callees : Rule → List Rule
  | program => [functionDecl]
  | functionDecl => [parameter, block]
  | parameter => []
  | block => [statement]
  | statement => [identTail, ifStmt, returnStmt]
  | identTail => [call, assignment]
  | call => [expression]
  | assignment => [statement, expression, assignment]
  | ifStmt => [expression, block]
  | returnStmt => [expression]
  | expression => [unary]
  | unary => [call]

/-- The rules that can be entered where `here` is the innermost open rule: only `program`
where no rule is open. -/
def entries : Option Rule → List Rule
  | none => [program]
  | some caller => caller.callees

/-- Open rules, the outermost first: a path from `program` in the call graph. -/
def IsPath (stack : List Rule) : Prop :=
  stack.head? = some program ∧ stack.IsChain fun caller rule => rule ∈ caller.callees

/-- A path goes on with a rule that the innermost one may enter, and begins with the program. -/
theorem isPath_enter {rule : Rule} {stack : List Rule} (h : rule ∈ entries stack.head?)
    (hs : stack = [] ∨ IsPath stack.reverse) : IsPath (rule :: stack).reverse := by
  cases stack with
  | nil => exact ⟨congrArg some (List.mem_singleton.mp h), .singleton rule⟩
  | cons caller rest =>
    obtain ⟨hhead, hchain⟩ := hs.resolve_left (List.cons_ne_nil caller rest)
    rw [List.reverse_cons]
    refine ⟨by rw [List.head?_append, hhead, Option.some_or], hchain.append (.singleton rule) ?_⟩
    intro x hx y hy
    cases hy
    rw [List.getLast?_reverse] at hx
    cases hx
    exact h

/-! ## 2. What a rule can complain of -/

/-- The kinds that a rule can find missing. -/
def missable : Rule → List Kind
  | functionDecl => [.identifier, .openParenthesis, .closeParenthesis]
  | parameter => [.identifier]
  | block => [.openScope]
  | call => [.closeParenthesis]
  | _ => []

/-- The rule can record that it found this token and not one of the expected kind.  A call
does so only at the end of the text. -/
def Misses (rule : Rule) (expected : Kind) (found : Token) : Prop :=
  expected ∈ rule.missable ∧ found.kind ≠ expected ∧ (rule = .call → found.kind = .eof)

/-- The rule can give up on a token of this kind. -/
def Refuses (rule : Rule) (k : Kind) : Prop :=
  rule = .statement ∧ k ∉ [.identifier, .keywordIf, .keywordReturn, .closeScope] ∨
  rule = .identTail ∧ k ∉ [.openParenthesis, .assignment]

/-! ## 3. Open rules -/

/-- The parser reads the rule. -/
inductive Parses : Rule → {α : Type} → Parser α → Prop
  | program (bound : Nat) : Parses program (Parser.program bound)
  | functionDecl (bound : Nat) : Parses functionDecl (Parser.functionDecl bound)
  | parameter : Parses parameter Parser.parameter
  | block (bound : Nat) : Parses block (Parser.block (Parser.statement bound))
  | statement (bound : Nat) : Parses statement (Parser.statement bound)
  | identTail (bound : Nat) (name : String) : Parses identTail
      (Parser.identTail (Parser.statement bound) (Parser.expression bound) bound name)
  | call (bound : Nat) (callee : String) :
      Parses call (Parser.call (Parser.expression bound) callee)
  | assignment (bound chain : Nat) (target : String) : Parses assignment
      (Parser.assignment (Parser.statement bound) (Parser.expression bound) chain target)
  | ifStmt (bound : Nat) :
      Parses ifStmt (Parser.ifStmt (Parser.statement bound) (Parser.expression bound))
  | returnStmt (bound : Nat) : Parses returnStmt (Parser.returnStmt (Parser.expression bound))
  | expression (bound : Nat) : Parses expression (Parser.expression bound)
  | unary (bound : Nat) : Parses unary (Parser.unary (Parser.expression bound))

/-- The rule is run at the cursor `c` while `stack` is open, innermost first, and succeeds
with these events. -/
def Succeeds (rule : Rule) (stack : List Rule) (c : Cursor) (es : List Event) (c' : Cursor) :
    Prop :=
  ∃ (α : Type) (p : Parser α) (a : α), rule.Parses p ∧ p.run stack c = .ok ⟨.ok a, es, c'⟩

/-- The rule is run at the cursor `c` while `stack` is open, innermost first, and has not
succeeded when these events have happened: more happens, or it has failed. -/
def Running (rule : Rule) (stack : List Rule) (c : Cursor) (es : List Event) : Prop :=
  ∃ (α : Type) (p : Parser α) (r : Reply α) (after : List Event),
    rule.Parses p ∧ p.run stack c = .ok r ∧ r.events = es ++ after ∧
      (after ≠ [] ∨ ∃ e, r.outcome = .error e)

end Rule

/-- While `stack` is open these events lead from one cursor to the other, and every rule that
is entered meanwhile also succeeds. -/
inductive Passes (stack : List Rule) : Cursor → List Event → Cursor → Prop
  | nil (c : Cursor) : Passes stack c [] c
  | consume {t : Token} {rest : List Token} {c : Cursor} {es : List Event} :
      Passes stack (Cursor.advance (t :: rest)) es c →
      Passes stack (t :: rest) (.consume t :: es) c
  | mismatch {t : Token} {rest : List Token} {c : Cursor} {es : List Event} (expected : Kind) :
      Passes stack (t :: rest) es c →
      Passes stack (t :: rest) (.mismatch expected t stack.reverse :: es) c
  | call {rule : Rule} {c c' c'' : Cursor} {run es : List Event} :
      rule.Succeeds stack c run c' → Passes stack c' es c'' → Passes stack c (run ++ es) c''

/-- The events happen from when `stack` is open at the cursor, and after them `inner` is,
innermost first: `stack` and, within it, the rules that were entered and have not succeeded. -/
inductive OpenAfter : List Rule → Cursor → List Event → List Rule → Prop
  | here {stack : List Rule} {c c' : Cursor} {es : List Event} :
      Passes stack c es c' → OpenAfter stack c es stack
  | inside {stack inner : List Rule} {c : Cursor} {es body : List Event} {rule : Rule} {t : Token}
      {rest : List Token} : Passes stack c es (t :: rest) → rule ∈ Rule.entries stack.head? →
      rule.Running stack (t :: rest) (.enter rule (stack.length + 1) t :: body) →
      OpenAfter (rule :: stack) (t :: rest) body inner →
      OpenAfter stack c (es ++ .enter rule (stack.length + 1) t :: body) inner

variable {stack inner : List Rule} {c c' c'' : Cursor} {es es' : List Event}

/-- What is passed in two steps is passed. -/
theorem Passes.append (h : Passes stack c es c') (h' : Passes stack c' es' c'') :
    Passes stack c (es ++ es') c'' := by
  induction h with
  | nil => exact h'
  | consume _ ih => exact .consume (ih h')
  | mismatch expected _ ih => exact .mismatch expected (ih h')
  | call hr _ ih =>
    rw [List.append_assoc]
    exact .call hr (ih h')

/-- What is passed leaves no rule open, and counts for nothing in what is open afterwards. -/
theorem Passes.openAfter (h : Passes stack c es c') (h' : OpenAfter stack c' es' inner) :
    OpenAfter stack c (es ++ es') inner := by
  cases h' with
  | here h' => exact .here (h.append h')
  | inside h' he hb hi =>
    rw [← List.append_assoc]
    exact .inside (h.append h') he hb hi

/-- **Rules that are open are a path from `program`.** -/
theorem OpenAfter.isPath (h : OpenAfter stack c es inner)
    (hs : stack = [] ∨ Rule.IsPath stack.reverse) : inner = [] ∨ Rule.IsPath inner.reverse := by
  induction h with
  | here => exact hs
  | inside _ he _ _ ih => exact ih (.inr (Rule.isPath_enter he hs))

/-- A syntax error about its token by a rule that refuses it, the innermost of those that it
lists. -/
structure SyntaxError.Apt (e : SyntaxError) : Prop where
  span : e.span = e.found.span
  innermost : e.stack.getLast? = some e.rule
  refuses : e.rule.Refuses e.found.kind

/-- The innermost of the rules can record the mismatch. -/
def Missed (path : List Rule) (expected : Kind) (found : Token) : Prop :=
  ∃ rule, path.getLast? = some rule ∧ rule.Misses expected found

/-- Every mismatch among the events lists the rules that are open when it is recorded. -/
def Sited (stack : List Rule) (c : Cursor) (es : List Event) : Prop :=
  ∀ ⦃before expected found path after⦄, es = before ++ .mismatch expected found path :: after →
    OpenAfter stack c before path.reverse ∧ Missed path expected found

theorem sited_nil : Sited stack c [] := by
  intro before expected found path after h
  simp at h

/-- **Mismatches of a second part are sited after the first**, if the first one has left no rule
open. -/
theorem Sited.append (hp : Passes stack c es c') (hs : Sited stack c es)
    (hs' : Sited stack c' es') : Sited stack c (es ++ es') := by
  intro before expected found path after h
  rcases List.append_eq_append_iff.mp h with ⟨mid, rfl, hafter⟩ | ⟨mid, rfl, hafter⟩
  · obtain ⟨ho, hm⟩ := hs' hafter
    exact ⟨hp.openAfter ho, hm⟩
  · cases mid with
    | nil =>
      obtain ⟨ho, hm⟩ := @hs' [] _ _ _ _ hafter.symm
      have := hp.openAfter ho
      rw [List.append_nil, List.append_nil] at this
      exact ⟨this, hm⟩
    | cons e mid =>
      cases hafter
      exact hs rfl

/-- Consuming a token opens no rule. -/
theorem Sited.consume {t : Token} {rest : List Token}
    (h : Sited stack (Cursor.advance (t :: rest)) es) :
    Sited stack (t :: rest) (.consume t :: es) := by
  refine Sited.append (.consume (.nil _)) ?_ h
  intro before expected found path after he
  rcases List.cons_eq_append_iff.mp he with ⟨-, he⟩ | ⟨before', -, he⟩
  · cases he
  · simp at he

/-- A mismatch is recorded while the rules are open that the parser was given, if one of them may
miss the kind. -/
theorem Sited.mismatch {rule : Rule} {expected : Kind} {t : Token} {rest : List Token}
    (hr : stack.head? = some rule) (hm : rule.Misses expected t)
    (h : Sited stack (t :: rest) es) :
    Sited stack (t :: rest) (.mismatch expected t stack.reverse :: es) := by
  refine Sited.append (.mismatch expected (.nil _)) ?_ h
  intro before k found path after he
  rcases List.cons_eq_append_iff.mp he with ⟨rfl, he⟩ | ⟨before', -, he⟩
  · cases he
    rw [List.reverse_reverse]
    exact ⟨.here (.nil _), rule, by rw [List.getLast?_reverse, hr], hm⟩
  · simp at he

/-! ## 4. The judgement -/

/-- The kind of the lookahead passes. -/
def Facing (test : Kind → Prop) (c : Cursor) : Prop := ∀ t ∈ c.head?, test t.kind

/-- A reply, given at the cursor while `stack` is open, that complains of the rules that are
open and only as they can.  After a success they are those of the start, and the lookahead is
known. -/
structure Reply.Honest {α : Type} (r : Reply α) (stack : List Rule) (c : Cursor)
    (post : Kind → Prop) : Prop where
  sites : Sited stack c r.events
  success : ∀ a, r.outcome = .ok a → Passes stack c r.events r.cursor ∧ Facing post r.cursor
  failure : ∀ e, r.outcome = .error e → OpenAfter stack c r.events e.stack.reverse ∧ e.Apt

namespace Parser

section
variable {α β : Type} {here : Option Rule} {rule : Rule} {pre pre' mid post post' : Kind → Prop}

/-- A part of the rule `here`, or the whole of a parse, that answers honestly where the kind
of the lookahead passes `pre`.  After a success it passes `post`. -/
def Located (here : Option Rule) (pre : Kind → Prop) (p : Parser α) (post : Kind → Prop) : Prop :=
  ∀ ⦃stack c r⦄, stack.head? = here → Facing pre c → p.run stack c = .ok r →
    r.Honest stack c post

/-- Less may be known before, and less may be claimed after. -/
theorem Located.mono {p : Parser α} (h : Located here pre p post)
    (hpre : ∀ k, pre' k → pre k) (hpost : ∀ k, post k → post' k) : Located here pre' p post' := by
  intro stack c r hs hc hr
  have hr := h hs (fun t ht => hpre _ (hc t ht)) hr
  refine ⟨hr.sites, fun a ha => ?_, hr.failure⟩
  obtain ⟨hp, hn⟩ := hr.success a ha
  exact ⟨hp, fun t ht => hpost _ (hn t ht)⟩

theorem Located.weaken {p : Parser α} (h : Located here pre p post)
    (hpre : ∀ k, pre' k → pre k) : Located here pre' p post :=
  h.mono hpre fun _ => id

/-- Where a parser needs to know nothing of the lookahead. -/
theorem Located.anywhere {p : Parser α} (h : Located here anyKind p post) :
    Located here pre p post :=
  h.weaken fun _ _ => trivial

theorem located_pure {a : α} : Located here pre (pure a) pre := by
  intro stack c r hs hc hr
  cases hr
  refine ⟨sited_nil, fun _ _ => ⟨.nil c, hc⟩, fun e he => ?_⟩
  cases he

/-- Of a parser that gives no answer everything holds. -/
theorem located_outOfBound : Located here pre (outOfBound : Parser α) post :=
  fun _ _ _ _ _ hr => by cases hr

/-- **The second part is told what the first one leaves before it.**  The two cases are that the
first part fails, and that it has passed what it read. -/
theorem Located.bind {p : Parser β} {f : β → Parser α} (hp : Located here pre p mid)
    (hf : ∀ b, Located here mid (f b) post) : Located here pre (p >>= f) post := by
  intro stack c r hs hc hr
  rcases run_bind_cases hr with ⟨e, es, c', h₁, rfl⟩ | ⟨b, es, c', after, h₁, h₂, rfl⟩
  · have hr := hp hs hc h₁
    refine ⟨hr.sites, nofun, fun e' he => ?_⟩
    cases he
    exact hr.failure e rfl
  · have hr₁ := hp hs hc h₁
    obtain ⟨hpass, hc'⟩ := hr₁.success b rfl
    have hr₂ := hf b hs hc' h₂
    refine ⟨hr₁.sites.append hpass hr₂.sites, fun a ha => ?_, fun e he => ?_⟩
    · obtain ⟨hpass', hn⟩ := hr₂.success a ha
      exact ⟨hpass.append hpass', hn⟩
    · obtain ⟨ho, ha⟩ := hr₂.failure e he
      exact ⟨hpass.openAfter ho, ha⟩

/-- What follows the look at a token knows its kind. -/
theorem located_lookahead_bind {f : Token → Parser α}
    (hf : ∀ t, pre t.kind → Located here (· = t.kind) (f t) post) :
    Located here pre (lookahead >>= f) post := by
  intro stack c r hs hc hr
  rcases run_bind_cases hr with ⟨e, es, c', h₁, rfl⟩ | ⟨t, es, c', after, h₁, h₂, rfl⟩
  · obtain ⟨_, _, _, h₁⟩ := run_lookahead_cases h₁
    cases h₁
  · obtain ⟨u, rest, rfl, h₁⟩ := run_lookahead_cases h₁
    cases h₁
    have hr := hf t (hc t rfl) hs (by simp [Facing]) h₂
    exact ⟨hr.sites, hr.success, hr.failure⟩

/-- Stopping the parse is honest at a token that the innermost rule refuses. -/
theorem located_unhandled {t : Token} (h : rule.Refuses t.kind) :
    Located (some rule) pre (unhandled t : Parser α) post := by
  intro stack c r hs _ hr
  rw [run_unhandled] at hr
  cases hr
  refine ⟨sited_nil, nofun, fun e he => ?_⟩
  cases he
  refine ⟨?_, rfl, ?_, ?_⟩
  · rw [List.reverse_reverse]
    exact .here (.nil c)
  · simp [hs]
  · simpa [hs] using h

/-- After a token is consumed nothing is known of the next. -/
theorem located_advance : Located here pre advance anyKind := by
  intro stack c r hs _ hr
  obtain ⟨t, rest, rfl, rfl⟩ := run_advance_cases hr
  refine ⟨sited_nil.consume, fun _ _ => ⟨.consume (.nil _), fun _ _ => trivial⟩, fun e he => ?_⟩
  cases he

/-- A requirement that is met, or that the rule can find disappointed. -/
theorem located_eatBefore {expected : Kind} (follow : List Kind)
    (h : ∀ t, pre t.kind → t.kind ≠ expected → rule.Misses expected t) :
    Located (some rule) pre (eatBefore expected follow) anyKind := by
  intro stack c r hs hc hr
  cases run_eatBefore_cases hr with
  | found =>
    refine ⟨sited_nil.consume, fun _ _ => ⟨.consume (.nil _), fun _ _ => trivial⟩,
      fun e he => ?_⟩
    cases he
  | standIn hk =>
    have hm := h _ (hc _ rfl) hk
    refine ⟨.mismatch hs hm sited_nil.consume,
      fun _ _ => ⟨.mismatch _ (.consume (.nil _)), fun _ _ => trivial⟩, fun e he => ?_⟩
    cases he
  | missing hk =>
    have hm := h _ (hc _ rfl) hk
    refine ⟨.mismatch hs hm sited_nil, fun _ _ => ⟨.mismatch _ (.nil _), fun _ _ => trivial⟩,
      fun e he => ?_⟩
    cases he

/-- A requirement that is met. -/
theorem located_found {expected : Kind} (follow : List Kind) (h : ∀ k, pre k → k = expected) :
    Located (some rule) pre (eatBefore expected follow) anyKind :=
  located_eatBefore follow fun _ ht hk => absurd (h _ ht) hk

/-- A requirement that the rule can find disappointed. -/
theorem located_missable {expected : Kind} (follow : List Kind)
    (h : expected ∈ rule.missable) (hc : rule ≠ .call) :
    Located (some rule) pre (eatBefore expected follow) anyKind :=
  located_eatBefore follow fun _ _ hk => ⟨h, hk, fun he => absurd he hc⟩

theorem located_name {follow : List Kind}
    (h : Located (some rule) pre (eatBefore .identifier follow) anyKind) :
    Located (some rule) pre (name follow) anyKind :=
  h.bind fun _ => located_pure

/-- A loop tests the token that an item starts at, and the one that it stops before. -/
theorem located_repeatWhile {item : Parser α} {test : Kind → Bool}
    (h : Located here (test · = true) item anyKind) :
    ∀ n, Located here anyKind (repeatWhile test item n) (test · = false)
  | 0 => located_outOfBound
  | n + 1 => by
    refine located_lookahead_bind fun t _ => ?_
    split
    · rename_i ht
      have item : Located here (· = t.kind) item anyKind := h.weaken fun k hk => hk ▸ ht
      exact item.bind fun a =>
        (located_repeatWhile h n).bind fun as => located_pure
    · rename_i ht
      exact located_pure.mono (fun _ => id) fun k hk => by simpa [hk] using ht

theorem located_many {item : Parser α} {test : Kind → Bool}
    (h : Located here (test · = true) item anyKind) :
    Located here anyKind (many test item) (test · = false) :=
  fun _ _ _ hs hc hr => located_repeatWhile h _ hs hc (run_of_many hr)

/-- **A rule that is entered is open until it succeeds.** -/
theorem Located.inRule {p : Parser α} (h : Located (some rule) pre p post)
    (hp : rule.Parses (inRule rule p)) (he : rule ∈ Rule.entries here) :
    Located here pre (inRule rule p) post := by
  rintro stack c r rfl hc hr
  have hrun := hr
  -- the rule is open while its body runs, and no longer when it has succeeded
  obtain ⟨t, rest, body, rfl, hb, rfl⟩ := run_inRule_cases hr
  have hbody := h rfl hc hb
  have running {es after : List Event} (hes : body.events = es ++ after)
      (hend : after ≠ [] ∨ ∃ e, body.outcome = .error e) :
      rule.Running stack (t :: rest) (.enter rule (stack.length + 1) t :: es) :=
    ⟨α, _, _, after, hp, hrun, congrArg (Event.enter rule _ t :: ·) hes, hend⟩
  refine ⟨?_, fun a ha => ?_, fun e ho => ?_⟩
  · intro before expected found path after hes
    rcases List.cons_eq_append_iff.mp hes with ⟨-, hfirst⟩ | ⟨before, rfl, hafter⟩
    · cases hfirst
    · obtain ⟨ho, hm⟩ := hbody.sites hafter
      exact ⟨.inside (.nil _) he (running hafter (.inl (List.cons_ne_nil _ _))) ho, hm⟩
  · obtain ⟨hpass, hn⟩ := hbody.success a ha
    refine ⟨?_, hn⟩
    rw [← List.append_nil (Event.enter rule _ t :: body.events)]
    refine @Passes.call _ rule _ body.cursor _ _ _ ⟨α, _, a, hp, ?_⟩ (.nil _)
    obtain ⟨o, es, c'⟩ := body
    cases ha
    exact hrun
  · obtain ⟨hopen, hapt⟩ := hbody.failure e ho
    exact ⟨.inside (.nil _) he (running (List.append_nil _).symm (.inr ⟨e, ho⟩)) hopen, hapt⟩

end

/-! ## 5. The rules

What is required and not missable is tested before: `func`, `if`, `else`, `return`, `=` and
the parenthesis of a call by whoever enters the rule, the type of a parameter and the name of
a statement by the same test that leads there, a closing brace by the loop that it ends. -/

section
variable {here : Option Rule} {bound : Nat}

/-- The opening parenthesis was seen before the rule was entered.  The closing one is missed at the
end of the text only, because the loop stops at no other token. -/
theorem located_call (callee : String) (he : Located (some .call) anyKind (expression bound) anyKind)
    (hc : .call ∈ Rule.entries here) :
    Located here (· = .openParenthesis) (call (expression bound) callee) anyKind := by
  refine Located.inRule ?_ (.call bound callee) hc
  refine (located_found [] fun _ => id).bind fun _ => (located_many he.anywhere).bind fun _ =>
    Located.bind ?_ fun _ => located_pure
  refine located_eatBefore [] fun _ ht hk => ⟨by decide, hk, fun _ => ?_⟩
  simpa [hk] using ht

/-- Whatever token is there is accepted.  A name is looked behind before a call is entered. -/
theorem located_unary (he : Located (some .call) anyKind (expression bound) anyKind)
    (hc : .unary ∈ Rule.entries here) :
    Located here anyKind (unary (expression bound)) anyKind := by
  refine Located.inRule ?_ (.unary bound) hc
  refine located_advance.bind fun token => ?_
  split
  · refine located_lookahead_bind fun t _ => ?_
    split
    · rename_i ht
      exact (located_call _ he (by decide)).weaken fun k hk => hk.trans ht
    · exact located_pure.mono (fun _ => id) fun _ _ => trivial
  all_goals exact located_pure

/-- By induction on the levels; operands and operators refuse nothing. -/
theorem located_expression : ∀ bound {here : Option Rule}, .expression ∈ Rule.entries here →
    Located here anyKind (expression bound) anyKind
  | 0, _, _ => located_outOfBound
  | bound + 1, _, hc => by
    have he : Located (some .call) anyKind (expression bound) anyKind :=
      located_expression bound (by decide)
    refine Located.inRule ?_ (.expression (bound + 1)) hc
    refine (located_unary he (by decide)).bind fun left => located_lookahead_bind fun t _ => ?_
    split
    · exact located_advance.bind fun _ => (located_unary he (by decide)).bind fun _ => located_pure
    · exact located_pure.mono (fun _ => id) fun _ _ => trivial

/-- A statement is entered in a block or where it is assigned, in neither case at a closing
brace. -/
abbrev LocatedStatement (bound : Nat) : Prop :=
  ∀ {here : Option Rule}, .statement ∈ Rule.entries here →
    Located here (· ≠ .closeScope) (statement bound) anyKind

/-- Statements are read up to the closing brace, so that this brace is never missed. -/
theorem located_block (hs : LocatedStatement bound) (hc : .block ∈ Rule.entries here) :
    Located here anyKind (block (statement bound)) anyKind := by
  have item : Located (some .block) (fun k => (k != .closeScope) = true) (statement bound) anyKind :=
    (hs (by decide)).weaken fun k hk => by simpa using hk
  refine Located.inRule ?_ (.block bound) hc
  refine (located_missable afterOpenScope (by decide) (by decide)).bind fun _ => ?_
  refine (located_many item).bind fun _ => ?_
  exact (located_found [] fun k hk => by simpa using hk).bind fun _ => located_pure

/-- Both keywords have been seen, the second where the branch is chosen. -/
theorem located_ifStmt (hs : LocatedStatement bound) (hc : .ifStmt ∈ Rule.entries here) :
    Located here (· = .keywordIf) (ifStmt (statement bound) (expression bound)) anyKind := by
  refine Located.inRule ?_ (.ifStmt bound) hc
  refine (located_found [] fun _ => id).bind fun _ => ?_
  refine (located_expression bound (by decide)).bind fun _ => ?_
  refine (located_block hs (by decide)).bind fun _ => located_lookahead_bind fun t _ => ?_
  split
  · rename_i ht
    refine (located_found [] fun k hk => hk.trans ht).bind fun _ => ?_
    exact (located_block hs (by decide)).bind fun _ => located_pure
  · exact located_pure.mono (fun _ => id) fun _ _ => trivial

theorem located_returnStmt (hc : .returnStmt ∈ Rule.entries here) :
    Located here (· = .keywordReturn) (returnStmt (expression bound)) anyKind := by
  refine Located.inRule ?_ (.returnStmt bound) hc
  exact (located_found [] fun _ => id).bind fun _ =>
    (located_expression bound (by decide)).bind fun _ => located_pure

/-- The equals sign was seen.  What is assigned is a statement only if one of two keywords was. -/
theorem located_assignment (hs : LocatedStatement bound) :
    ∀ chain target {here : Option Rule}, .assignment ∈ Rule.entries here →
      Located here (· = .assignment)
        (assignment (statement bound) (expression bound) chain target) anyKind
  | 0, _, _, _ => located_outOfBound
  | chain + 1, target, _, hc => by
    refine Located.inRule ?_ (.assignment bound (chain + 1) target) hc
    refine (located_found [] fun _ => id).bind fun _ => located_lookahead_bind fun start _ => ?_
    split
    · rename_i hk
      refine ((hs (by decide)).weaken ?_).bind fun _ => located_pure
      rintro k rfl
      rcases hk with hk | hk <;> simp [hk]
    · refine (located_expression bound (by decide)).anywhere.bind fun value =>
        located_lookahead_bind fun next _ => ?_
      split
      · rename_i hk
        exact ((located_assignment hs chain _ (by decide)).weaken fun k h => h.trans hk).bind
          fun _ => located_pure
      · exact located_pure.mono (fun _ => id) fun _ _ => trivial

/-- Of the two tokens that it accepts each is seen before a rule is entered, and it refuses every
other. -/
theorem located_identTail (hs : LocatedStatement bound) (name : String)
    (hc : .identTail ∈ Rule.entries here) :
    Located here anyKind (identTail (statement bound) (expression bound) bound name) anyKind := by
  refine Located.inRule ?_ (.identTail bound name) hc
  refine located_lookahead_bind fun t _ => ?_
  split
  · rename_i ht
    have he : Located (some .call) anyKind (expression bound) anyKind :=
      located_expression bound (by decide)
    exact (located_call name he (by decide)).weaken fun k hk => hk.trans ht
  · rename_i ht
    exact (located_assignment hs bound name (by decide)).weaken fun k hk => hk.trans ht
  · rename_i hopen hassign
    exact located_unhandled (.inr ⟨rfl, by simpa using ⟨hopen, hassign⟩⟩)

/-- It refuses what starts no statement.  A closing brace is not among those, for no block asks for
a statement there. -/
theorem located_statement : ∀ bound, LocatedStatement bound
  | 0, _, _ => located_outOfBound
  | bound + 1, _, hc => by
    have hs : LocatedStatement bound := located_statement bound
    refine Located.inRule ?_ (.statement (bound + 1)) hc
    refine located_lookahead_bind fun t ht => ?_
    split
    · rename_i hk
      exact (located_name (located_found [] fun k h => h.trans hk)).bind fun name =>
        located_identTail hs name (by decide)
    · rename_i hk
      exact (located_ifStmt hs (by decide)).weaken fun k h => h.trans hk
    · rename_i hk
      exact (located_returnStmt (by decide)).weaken fun k h => h.trans hk
    · rename_i hname hif hreturn
      exact located_unhandled (.inl ⟨rfl, by simpa using ⟨hname, hif, hreturn, ht⟩⟩)

theorem located_parameter (hc : .parameter ∈ Rule.entries here) :
    Located here (· = .identifier) parameter anyKind := by
  refine Located.inRule ?_ .parameter hc
  refine (located_name (located_found [.identifier] fun _ => id)).bind fun _ => ?_
  refine (located_name (located_missable afterParameter (by decide) (by decide))).bind fun _ => ?_
  exact located_pure

/-- The keyword has been seen.  Of the marks any may be missed, in the order of the rule. -/
theorem located_functionDecl (bound : Nat) (hc : .functionDecl ∈ Rule.entries here) :
    Located here (· = .keywordFunc) (functionDecl bound) anyKind := by
  have item : Located (some .functionDecl) (fun k => (k == .identifier) = true) parameter anyKind :=
    (located_parameter (by decide)).weaken fun k hk => by simpa using hk
  refine Located.inRule ?_ (.functionDecl bound) hc
  refine (located_found [] fun _ => id).bind fun _ => ?_
  refine (located_name (located_missable afterName (by decide) (by decide))).bind fun _ => ?_
  refine (located_missable afterParameter (by decide) (by decide)).bind fun _ => ?_
  refine (located_many item).bind fun _ => ?_
  refine (located_missable afterParameters (by decide) (by decide)).bind fun _ => ?_
  exact (located_block (located_statement bound) (by decide)).bind fun _ => located_pure

/-- A program complains of nothing itself. -/
theorem located_program (bound : Nat) : Located none anyKind (program bound) anyKind := by
  have item : Located (some .program) (fun k => (k == .keywordFunc) = true) (functionDecl bound)
      anyKind := (located_functionDecl bound (by decide)).weaken fun k hk => by simpa using hk
  refine Located.inRule ?_ (.program bound) (by decide)
  exact (located_many item).bind fun _ => located_pure.mono (fun _ => id) fun _ _ => trivial

end
end Parser

/-! ## 6. Streams -/

/-- **The parse of a stream is honest** about where it complains. -/
theorem TokenStream.honest_run (s : TokenStream) : s.run.Honest [] s.tokens Parser.anyKind :=
  Parser.located_program _ rfl (fun _ _ => trivial) s.program_run

/-- Open rules at the innermost of which something was found are a path. -/
theorem isPath_of_openAfter {path : List Rule} {rule : Rule}
    (ho : OpenAfter [] c es path.reverse) (hr : path.getLast? = some rule) : Rule.IsPath path := by
  rcases ho.isPath (.inl rfl) with hn | hp
  · rw [List.reverse_eq_nil_iff.mp hn] at hr
    cases hr
  · rwa [List.reverse_reverse] at hp

/-- **Syntax errors and mismatches are where they say.**  A parse that fails complains of the
first token that was not consumed, in the rule that is innermost of those that it lists: a
statement that starts with no name, `if`, `return` or closing brace, or a name that is
followed by neither an opening parenthesis nor `=`.  A mismatch is one that its innermost rule
can record: for a function its name or a parenthesis, for a parameter its name, for a block
its opening brace, and for a call, at the end of the text, its closing parenthesis.  What both
list are exactly the rules that are open at that moment, and these are a path from `program`
in the call graph.  The diagnostics of the parse are its mismatches, at the site of these
rules. -/
theorem run_sites (s : TokenStream) :
    (∀ e, s.run.outcome = .error e →
      s.tokens[position s.run.events]? = some e.found ∧ e.span = e.found.span ∧
      e.stack.getLast? = some e.rule ∧ e.rule.Refuses e.found.kind ∧
      Rule.IsPath e.stack ∧ OpenAfter [] s.tokens s.run.events e.stack.reverse) ∧
    (∀ before expected found path after,
      s.run.events = before ++ .mismatch expected found path :: after →
      (∃ rule, path.getLast? = some rule ∧ rule.Misses expected found) ∧
      Rule.IsPath path ∧ OpenAfter [] s.tokens before path.reverse) ∧
    (∀ d ∈ s.run.diagnostics, ∃ before expected found path after,
      s.run.events = before ++ .mismatch expected found path :: after ∧
      d = ⟨.mismatch expected found, some found.span, .ofStack (path.map Rule.name)⟩) := by
  have hs := s.honest_run
  refine ⟨fun e he => ?_, fun before expected found path after hes => ?_, fun d hd => ?_⟩
  · obtain ⟨ho, ha⟩ := hs.failure e he
    refine ⟨?_, ha.span, ha.innermost, ha.refuses, isPath_of_openAfter ho ha.innermost, ho⟩
    rw [getElem?_position, TokenStream.found_of_error he]
  · obtain ⟨ho, rule, hr, hm⟩ := hs.sites hes
    exact ⟨⟨rule, hr, hm⟩, isPath_of_openAfter ho hr, ho⟩
  · obtain ⟨e, he, hd⟩ := List.mem_filterMap.mp hd
    obtain ⟨before, after, hes⟩ := List.append_of_mem he
    cases e with
    | enter => cases hd
    | consume => cases hd
    | mismatch expected found path =>
      cases hd
      exact ⟨before, expected, found, path, after, hes, rfl⟩

end FrontEnd
