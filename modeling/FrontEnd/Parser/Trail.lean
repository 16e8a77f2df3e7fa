/-
# The trail of a parser

The parsers of the grammar are put together from a few basic ones, and `Composed` says so.
What holds of the basic ones and survives putting together then holds of every rule: it is
proved once, by induction on `Composed`, whatever the rules look like.

The first such fact is the trail.  The events of a run lead from the cursor at its start to
the cursor at its end, one token at a time:

* `Composed.trail`: every run leaves such a trail;
* `Trail.eq_append`: the cursor has moved past exactly the tokens that were consumed, none
  of them the end of the text;
* `Trail.getElem?_token`: an event is about the token that the cursor stood on;
* `Trail.eq_of_eof`: at the end of the text the cursor stays.
-/
import FrontEnd.Parser.Grammar

namespace FrontEnd

/-- The token an event is about: the one that the parser looked at. -/
def Event.token : Event → Token
  | .enter _ _ lookahead => lookahead
  | .consume token => token
  | .mismatch _ found _ => found

/-- The token that an event moves the cursor past. -/
def Event.passed? : Event → Option Token
  | .consume token => if token.kind = .eof then none else some token
  | _ => none

/-- The tokens that the cursor was moved past, in order. -/
def passed (events : List Event) : List Token := events.filterMap Event.passed?

@[simp] theorem passed_nil : passed [] = [] := rfl

@[simp] theorem passed_append (es es' : List Event) :
    passed (es ++ es') = passed es ++ passed es' := by
  simp [passed]

@[simp] theorem passed_enter_cons (rule : Rule) (depth : Nat) (t : Token) (es : List Event) :
    passed (.enter rule depth t :: es) = passed es := rfl

@[simp] theorem passed_mismatch_cons (expected : Kind) (t : Token) (stack : List Rule)
    (es : List Event) : passed (.mismatch expected t stack :: es) = passed es := rfl

theorem passed_consume_cons {t : Token} (h : t.kind ≠ .eof) (es : List Event) :
    passed (.consume t :: es) = t :: passed es := by
  simp [passed, Event.passed?, h]

/-- The end of the text is consumed and not passed. -/
theorem passed_consume_eof_cons {t : Token} (h : t.kind = .eof) (es : List Event) :
    passed (.consume t :: es) = passed es := by
  simp [passed, Event.passed?, h]

/-- So it is never among the tokens that were passed. -/
theorem kind_ne_eof_of_mem_passed {events : List Event} {t : Token} (h : t ∈ passed events) :
    t.kind ≠ .eof := by
  obtain ⟨e, -, he⟩ := List.mem_filterMap.mp h
  cases e with
  | consume u =>
    simp only [Event.passed?] at he
    split at he
    · cases he
    · rename_i hu
      exact Option.some.inj he ▸ hu
  | enter => cases he
  | mismatch => cases he

/-! ## 1. Trails -/

/-- The events lead from a cursor to a cursor.  Each is about the lookahead, and consuming
moves on. -/
inductive Trail : Cursor → List Event → Cursor → Prop
  | nil (c : Cursor) : Trail c [] c
  | enter {t : Token} {rest : List Token} {c : Cursor} {es : List Event} (rule : Rule)
      (depth : Nat) : Trail (t :: rest) es c → Trail (t :: rest) (.enter rule depth t :: es) c
  | consume {t : Token} {rest : List Token} {c : Cursor} {es : List Event} :
      Trail (Cursor.advance (t :: rest)) es c → Trail (t :: rest) (.consume t :: es) c
  | mismatch {t : Token} {rest : List Token} {c : Cursor} {es : List Event} (expected : Kind)
      (stack : List Rule) :
      Trail (t :: rest) es c → Trail (t :: rest) (.mismatch expected t stack :: es) c

namespace Trail

variable {c c' c'' : Cursor} {es es' : List Event}

/-- Trails are put together where one ends and the other begins. -/
theorem append (h : Trail c es c') (h' : Trail c' es' c'') : Trail c (es ++ es') c'' := by
  induction h with
  | nil => exact h'
  | enter rule depth _ ih => exact .enter rule depth (ih h')
  | consume _ ih => exact .consume (ih h')
  | mismatch expected stack _ ih => exact .mismatch expected stack (ih h')

/-- A trail can be cut anywhere. -/
theorem of_append : ∀ {es : List Event} {c : Cursor}, Trail c (es ++ es') c'' →
    ∃ c', Trail c es c' ∧ Trail c' es' c''
  | [], c, h => ⟨c, .nil c, h⟩
  | _ :: _, _, .enter rule depth h => by
    obtain ⟨c', h₁, h₂⟩ := of_append h
    exact ⟨c', .enter rule depth h₁, h₂⟩
  | _ :: _, _, .consume h => by
    obtain ⟨c', h₁, h₂⟩ := of_append h
    exact ⟨c', .consume h₁, h₂⟩
  | _ :: _, _, .mismatch expected stack h => by
    obtain ⟨c', h₁, h₂⟩ := of_append h
    exact ⟨c', .mismatch expected stack h₁, h₂⟩

/-- **The cursor has moved past exactly the tokens that were consumed.** -/
theorem eq_append (h : Trail c es c') : c = passed es ++ c' := by
  induction h with
  | nil => rfl
  | enter _ _ _ ih => exact ih
  | @consume t rest c es _ ih =>
    by_cases ht : t.kind = .eof
    · rw [passed_consume_eof_cons ht, ← ih, Parser.advance_eq_self ht]
    · rw [passed_consume_cons ht, List.cons_append, ← ih, Parser.advance_eq_rest ht]
  | mismatch _ _ _ ih => exact ih

/-- The first event of a trail is about the token at its start. -/
theorem head?_token {e : Event} (h : Trail c (e :: es) c') : c.head? = some e.token := by
  cases h <;> rfl

/-- **An event is about the token that the cursor stood on.** -/
theorem getElem?_token {start : Cursor} {e : Event} (h : Trail start (es ++ e :: es') c') :
    start[(passed es).length]? = some e.token := by
  obtain ⟨c₁, h₁, h₂⟩ := of_append h
  rw [h₁.eq_append, List.getElem?_append_right (Nat.le_refl _), Nat.sub_self,
    ← List.head?_eq_getElem?]
  exact h₂.head?_token

/-- A trail never leads back. -/
theorem length_le (h : Trail c es c') : c'.length ≤ c.length := by
  rw [h.eq_append, List.length_append]
  omega

/-- **At the end of the text the cursor stays.** -/
theorem eq_of_eof {t : Token} {rest : List Token} (h : Trail (t :: rest) es c')
    (ht : t.kind = .eof) : c' = t :: rest := by
  have he := h.eq_append
  cases hp : passed es with
  | nil => simpa [hp] using he.symm
  | cons u us =>
    rw [hp, List.cons_append, List.cons.injEq] at he
    exact absurd (he.1 ▸ ht) (kind_ne_eof_of_mem_passed (hp ▸ List.mem_cons_self))

/-- A text that ends goes on to end. -/
theorem exists_eof (h : Trail c es c') (hc : ∃ t ∈ c, t.kind = .eof) :
    ∃ t ∈ c', t.kind = .eof := by
  obtain ⟨t, ht, hk⟩ := hc
  rw [h.eq_append] at ht
  rcases List.mem_append.mp ht with hp | hc'
  · exact absurd hk (kind_ne_eof_of_mem_passed hp)
  · exact ⟨t, hc', hk⟩

end Trail

namespace Parser

/-! ## 2. Composed parsers -/

/-- Neither the end of the text nor the start of a function is among the kinds.  What comes
after a function never looks as if it went on. -/
abbrev Inner (follow : List Kind) : Prop := .eof ∉ follow ∧ .keywordFunc ∉ follow

/-- A parser that is put together from the basic ones.  What may be missing is followed by
something inside the same function. -/
inductive Composed : {α : Type} → Parser α → Prop
  | pure {α : Type} (a : α) : Composed (pure a : Parser α)
  | bind {α β : Type} {p : Parser α} {f : α → Parser β} :
      Composed p → (∀ a, Composed (f a)) → Composed (p >>= f)
  | outOfBound {α : Type} : Composed (outOfBound : Parser α)
  | lookahead : Composed lookahead
  | advance : Composed advance
  | eatBefore (expected : Kind) (follow : List Kind) (h : Inner follow := by decide) :
      Composed (eatBefore expected follow)
  | unhandled {α : Type} (found : Token) : Composed (unhandled found : Parser α)
  | inRule {α : Type} {p : Parser α} (rule : Rule) : Composed p → Composed (inRule rule p)
  | many {α : Type} {item : Parser α} (test : Kind → Bool) :
      Composed item → Composed (many test item)

/-- Taking a token leaves a trail in each of the three ways. -/
theorem Eaten.trail {expected : Kind} {follow : List Kind}
    {stack : List Rule} {c : Cursor} {r : Reply Token} (h : Eaten expected follow stack c r) :
    Trail c r.events r.cursor := by
  cases h with
  | found => exact .consume (.nil _)
  | standIn => exact .mismatch _ _ (.consume (.nil _))
  | missing => exact .mismatch _ _ (.nil _)

namespace Composed

/-- A branch is composed if both sides are, whatever decides. -/
theorem ite {α : Type} {P : Prop} [Decidable P] {p q : Parser α} (hp : Composed p)
    (hq : Composed q) : Composed (if P then p else q) := by
  split
  · exact hp
  · exact hq

theorem eat (expected : Kind) : Composed (Parser.eat expected) :=
  .eatBefore expected [] (by decide)

theorem name (follow : List Kind) (h : Inner follow) :
    Composed (Parser.name follow) :=
  .bind (.eatBefore .identifier follow h) fun _ => .pure _

/-- Loops are sequences, so that they need no constructor. -/
theorem repeatWhile {α : Type} {item : Parser α} (test : Kind → Bool) (h : Composed item) :
    ∀ n, Composed (repeatWhile test item n)
  | 0 => .outOfBound
  | n + 1 => .bind .lookahead fun _ =>
    .ite (.bind h fun _ => .bind (repeatWhile test h n) fun _ => .pure _) (.pure _)

/-! ## 3. Every rule is composed -/

section
variable {s e : Parser Node}

theorem call (callee : String) (he : Composed e) :
    Composed (Parser.call e callee) :=
  .inRule _ (.bind (eat _) fun _ => .bind (many _ he) fun _ => .bind (eat _) fun _ => .pure _)

theorem unary (he : Composed e) : Composed (Parser.unary e) := by
  refine .inRule _ (.bind .advance fun token => ?_)
  split
  · exact .bind .lookahead fun _ => .ite (call _ he) (.pure _)
  all_goals exact .pure _

/-- By induction on the levels of nesting. -/
theorem expression : ∀ bound, Composed (Parser.expression bound)
  | 0 => .outOfBound
  | bound + 1 => by
    refine .inRule _ (.bind (unary (expression bound)) fun left =>
      .bind .lookahead fun token => ?_)
    split
    · exact .bind .advance fun _ => .bind (unary (expression bound)) fun _ => .pure _
    · exact .pure _

theorem block (hs : Composed s) : Composed (Parser.block s) :=
  .inRule _ (.bind (.eatBefore _ _ (by decide)) fun _ => .bind (many _ hs) fun _ =>
    .bind (eat _) fun _ => .pure _)

theorem ifStmt (hs : Composed s) (he : Composed e) :
    Composed (Parser.ifStmt s e) :=
  .inRule _ (.bind (eat _) fun _ => .bind he fun _ => .bind (block hs) fun _ =>
    .bind .lookahead fun _ =>
      .ite (.bind (eat _) fun _ => .bind (block hs) fun _ => .pure _) (.pure _))

theorem returnStmt (he : Composed e) : Composed (Parser.returnStmt e) :=
  .inRule _ (.bind (eat _) fun _ => .bind he fun _ => .pure _)

theorem assignment (hs : Composed s) (he : Composed e) :
    ∀ bound target, Composed (Parser.assignment s e bound target)
  | 0, _ => .outOfBound
  | bound + 1, target => by
    refine .inRule _ (.bind (eat _) fun _ => .bind .lookahead fun start =>
      .ite (.bind hs fun _ => .pure _) (.bind he fun value => .bind .lookahead fun next => ?_))
    split
    · exact .bind (assignment hs he bound _) fun _ => .pure _
    · exact .pure _

theorem identTail (hs : Composed s) (he : Composed e) (bound : Nat)
    (name : String) : Composed (Parser.identTail s e bound name) := by
  refine .inRule _ (.bind .lookahead fun token => ?_)
  split
  · exact call _ he
  · exact assignment hs he bound name
  · exact .unhandled token

/-- By induction on the levels of nesting, which serve both for what is assigned and for the
statements inside. -/
theorem statement : ∀ bound, Composed (Parser.statement bound)
  | 0 => .outOfBound
  | bound + 1 => by
    refine .inRule _ (.bind .lookahead fun token => ?_)
    split
    · exact .bind (name _ (by decide)) fun _ =>
        identTail (statement bound) (expression bound) bound _
    · exact ifStmt (statement bound) (expression bound)
    · exact returnStmt (expression bound)
    · exact .unhandled token

theorem parameter : Composed Parser.parameter :=
  .inRule _ (.bind (name _ (by decide)) fun _ => .bind (name _ (by decide)) fun _ => .pure _)

theorem functionDecl (bound : Nat) : Composed (Parser.functionDecl bound) :=
  .inRule _ (.bind (eat _) fun _ => .bind (name _ (by decide)) fun _ =>
    .bind (.eatBefore _ _ (by decide)) fun _ =>
    .bind (many _ parameter) fun _ => .bind (.eatBefore _ _ (by decide)) fun _ =>
      .bind (block (statement bound)) fun _ => .pure _)

theorem program (bound : Nat) : Composed (Parser.program bound) :=
  .inRule _ (.bind (many _ (functionDecl bound)) fun _ => .pure _)

end

/-! ## 4. Every composed parser leaves a trail -/

end Composed

/-- Every answer of the parser leaves a trail. -/
def Trails {α : Type} (p : Parser α) : Prop :=
  ∀ stack c r, p.run stack c = .ok r → Trail c r.events r.cursor

theorem trails_pure {α : Type} (a : α) : Trails (pure a : Parser α) := by
  intro stack c r h
  cases h
  exact .nil c

/-- Looking leaves no event, and the cursor stays. -/
theorem trails_lookahead : Trails lookahead := by
  intro stack c r h
  obtain ⟨t, rest, rfl, rfl⟩ := run_lookahead_cases h
  exact .nil _

/-- The trail of a sequence is that of its parts, and ends with the first part if that failed. -/
theorem Trails.bind {α β : Type} {p : Parser α} {f : α → Parser β} (hp : Trails p)
    (hf : ∀ a, Trails (f a)) : Trails (p >>= f) := by
  intro stack c r h
  rcases run_bind_cases h with ⟨e, es, c', hr, rfl⟩ | ⟨a, es, c', after, hr, ha, rfl⟩
  · exact hp _ _ _ hr
  · exact (hp _ _ _ hr).append (hf a _ _ _ ha)

theorem Trails.repeatWhile {α : Type} {item : Parser α} (test : Kind → Bool)
    (h : Trails item) : ∀ n, Trails (repeatWhile test item n)
  | 0 => fun _ _ _ hr => by cases hr
  | n + 1 => by
    refine trails_lookahead.bind fun t => ?_
    split
    · exact h.bind fun a => (Trails.repeatWhile test h n).bind fun as => trails_pure _
    · exact trails_pure _

/-- **Whatever is composed leaves a trail.** -/
theorem Composed.trails {α : Type} {p : Parser α} (hp : Composed p) : Trails p := by
  induction hp with
  | pure a => exact trails_pure a
  | bind _ _ ihp ihf => exact ihp.bind ihf
  | outOfBound => intro stack c r h; cases h
  | lookahead => exact trails_lookahead
  | advance =>
    intro stack c r h
    obtain ⟨t, rest, rfl, rfl⟩ := run_advance_cases h
    exact .consume (.nil _)
  | eatBefore expected follow => intro stack c r h; exact (run_eatBefore_cases h).trail
  | unhandled found =>
    intro stack c r h
    cases h
    exact .nil c
  | inRule rule _ ih =>
    intro stack c r h
    obtain ⟨t, rest, body, rfl, hb, rfl⟩ := run_inRule_cases h
    exact .enter _ _ (ih _ _ _ hb)
  | many test _ ih =>
    intro stack c r h
    rw [run_many] at h
    exact ih.repeatWhile test _ _ _ _ h

/-- **Every run leaves a trail.** -/
theorem Composed.trail {α : Type} {p : Parser α} (hp : Composed p) {stack : List Rule}
    {c : Cursor} {r : Reply α} (h : p.run stack c = .ok r) : Trail c r.events r.cursor :=
  hp.trails _ _ _ h

end Parser
end FrontEnd
