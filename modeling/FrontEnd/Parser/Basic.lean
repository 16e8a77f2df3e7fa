/-
# Parsers

A parser reads tokens at a cursor and never goes back.  It looks at the token that is next, and at
the one after it only to tell whether an expected token is missing or another stands in for it
(`eat_before`).  It knows which rules are open.  Its reply holds the outcome, what happened, in
order, and the cursor that it left.

A parser is a piece of syntax: `Parser` has a constructor for each thing that the methods of
`SyntacticParser` do (`peek`, `peek_nth`, `advance`, `mismatch`, `unhandled` and `rule`), and no
other.  `Parser.run` lists what happens in a run, for whoever wants to look
at it afterwards, and `Parser.watch` (in `Parser.Watch`) tells it while it happens, to a tracer
and to a log.  Both are runs of the same rules.

Two things can go wrong beside a syntax error, and a parser that meets one of them breaks
down and gives no reply: it reads a token where none is left, or a bound on nesting or
repetition is used up.  `Parser.Bounds` shows that the parse of a stream does neither.

The end of the text can be consumed any number of times: the cursor stays on it.
-/
import FrontEnd.Parser.Event
import FrontEnd.TokenStream

namespace FrontEnd

/-- A place in a token stream (`index`): the tokens that are left, the lookahead first. -/
abbrev Cursor := List Token

namespace Cursor

/-- The token after the lookahead; the last token has itself after it (`peek_nth` at 1). -/
def next? : Cursor → Option Token
  | [] => none
  | [token] => some token
  | _ :: token :: _ => some token

/-- The cursor after the lookahead (`advance`).  It does not leave the end of the text. -/
def advance : Cursor → Cursor
  | [] => []
  | token :: rest => if token.kind = .eof then token :: rest else rest

end Cursor

/-- What a parser answers. -/
structure Reply (α : Type) where
  outcome : Except SyntaxError α
  events : List Event
  cursor : Cursor

/-- Why a parser gives no answer. -/
inductive Breakdown where
  /-- A token was read after the last one. -/
  | outOfTokens
  /-- Something was nested deeper or repeated more often than the bound says. -/
  | outOfBound
  deriving DecidableEq, Repr

/-- A parser, put together from what the methods of `SyntacticParser` do. -/
inductive Parser : Type → Type 1 where
  /-- Answers without reading. -/
  | protected pure {α : Type} (a : α) : Parser α
  /-- Goes on with `f` where `p` stopped, unless `p` failed. -/
  | protected bind {α β : Type} (p : Parser α) (f : α → Parser β) : Parser β
  /-- Breaks down: a bound is used up. -/
  | outOfBound {α : Type} : Parser α
  /-- The number of tokens that are left. -/
  | remaining : Parser Nat
  /-- The current token, which stays where it is (`peek`). -/
  | lookahead : Parser Token
  /-- The token after the lookahead (`peek_nth`). -/
  | second : Parser Token
  /-- Consumes the lookahead (`advance`). -/
  | advance : Parser Token
  /-- Records that `found` is not of the expected kind (`mismatch`). -/
  | mismatch (expected : Kind) (found : Token) : Parser Unit
  /-- Stops the parse: the innermost rule accepts nothing that starts with `found`
  (`unhandled`). -/
  | unhandled {α : Type} (found : Token) : Parser α
  /-- Runs a parser with one more open rule (`rule`). -/
  | inRule {α : Type} (rule : Rule) (p : Parser α) : Parser α

/-- The error at `found`, of the innermost of the open rules. -/
def SyntaxError.unhandled (stack : List Rule) (found : Token) : SyntaxError :=
  ⟨stack.head?.getD .program, found, found.span, stack.reverse⟩

namespace Parser

instance : Monad Parser where
  pure := Parser.pure
  bind := Parser.bind

/-- Runs a parser with the given open rules, the innermost first, at a cursor, and lists what
happens. -/
def run : {α : Type} → Parser α → List Rule → Cursor → Except Breakdown (Reply α)
  | _, .pure a, _, c => .ok ⟨.ok a, [], c⟩
  | _, .bind p f, stack, c =>
    match p.run stack c with
    | .error b => .error b
    | .ok ⟨.error e, events, c'⟩ => .ok ⟨.error e, events, c'⟩
    | .ok ⟨.ok a, events, c'⟩ =>
      match (f a).run stack c' with
      | .error b => .error b
      | .ok after => .ok ⟨after.outcome, events ++ after.events, after.cursor⟩
  | _, .outOfBound, _, _ => .error .outOfBound
  | _, .remaining, _, c => .ok ⟨.ok c.length, [], c⟩
  | _, .lookahead, _, c =>
    match c with
    | [] => .error .outOfTokens
    | token :: _ => .ok ⟨.ok token, [], c⟩
  | _, .second, _, c =>
    match c.next? with
    | none => .error .outOfTokens
    | some token => .ok ⟨.ok token, [], c⟩
  | _, .advance, _, c =>
    match c with
    | [] => .error .outOfTokens
    | token :: _ => .ok ⟨.ok token, [.consume token], c.advance⟩
  | _, .mismatch expected found, stack, c =>
    .ok ⟨.ok (), [.mismatch expected found stack.reverse], c⟩
  | _, .unhandled found, stack, c => .ok ⟨.error (.unhandled stack found), [], c⟩
  | _, .inRule rule p, stack, c =>
    match c with
    | [] => .error .outOfTokens
    | token :: _ =>
      match p.run (rule :: stack) c with
      | .error b => .error b
      | .ok reply =>
        .ok { reply with events := .enter rule (stack.length + 1) token :: reply.events }

/-- Takes a token of the expected kind (`eat_before`).  Where there is another, the mismatch is
recorded and the parse goes on in one of two ways.  If the token there may follow the expected
one, and the token after it may not, the expected token is missing: nothing is consumed.
Otherwise the token there stands in for the expected one and is consumed. -/
def eatBefore (expected : Kind) (follow : List Kind) : Parser Token := do
  let token ← lookahead
  if token.kind = expected then advance
  else
    mismatch expected token
    if token.kind ∈ follow ∧ (← second).kind ∉ follow then return token
    else advance

/-- Takes a token of the expected kind, or any other token in its stead (`eat`). -/
def eat (expected : Kind) : Parser Token := eatBefore expected []

/-- Repeats a parser as long as the kind of the lookahead passes the test.  The test may be
made `bound` times. -/
def repeatWhile {α : Type} (test : Kind → Bool) (item : Parser α) : Nat → Parser (List α)
  | 0 => outOfBound
  | bound + 1 => do
    if test (← lookahead).kind then
      let a ← item
      let as ← repeatWhile test item bound
      return a :: as
    else return []

/-- Repeats a parser as long as the kind of the lookahead passes the test: the `while` loops of
the rules.  The test may be made once for every token that is left. -/
def many {α : Type} (test : Kind → Bool) (item : Parser α) : Parser (List α) := do
  repeatWhile test item (← remaining)

/-! ## What each parser answers -/

section
variable {α β : Type} {stack : List Rule} {c : Cursor}

@[simp] theorem run_pure (a : α) : (pure a : Parser α).run stack c = .ok ⟨.ok a, [], c⟩ := rfl

@[simp] theorem run_outOfBound : (outOfBound : Parser α).run stack c = .error .outOfBound := rfl

@[simp] theorem run_lookahead_cons (t : Token) :
    lookahead.run stack (t :: c) = .ok ⟨.ok t, [], t :: c⟩ := rfl

theorem run_second {t : Token} (h : c.next? = some t) :
    second.run stack c = .ok ⟨.ok t, [], c⟩ := by
  rw [run, h]

@[simp] theorem run_advance_cons (t : Token) :
    advance.run stack (t :: c) = .ok ⟨.ok t, [.consume t], Cursor.advance (t :: c)⟩ := rfl

@[simp] theorem run_mismatch (expected : Kind) (found : Token) :
    (mismatch expected found).run stack c =
      .ok ⟨.ok (), [.mismatch expected found stack.reverse], c⟩ := rfl

@[simp] theorem run_unhandled (t : Token) :
    (unhandled t : Parser α).run stack c =
      .ok ⟨.error ⟨stack.head?.getD .program, t, t.span, stack.reverse⟩, [], c⟩ := rfl

/-- What a sequence answers. -/
theorem run_bind (p : Parser α) (f : α → Parser β) : (p >>= f).run stack c =
    match p.run stack c with
    | .error b => .error b
    | .ok ⟨.error e, events, c'⟩ => .ok ⟨.error e, events, c'⟩
    | .ok ⟨.ok a, events, c'⟩ =>
      match (f a).run stack c' with
      | .error b => .error b
      | .ok after => .ok ⟨after.outcome, events ++ after.events, after.cursor⟩ := by
  show (Parser.bind p f).run stack c = _
  rw [run]

theorem run_many (test : Kind → Bool) (item : Parser α) :
    (many test item).run stack c = (repeatWhile test item c.length).run stack c := by
  have hremaining : remaining.run stack c = .ok ⟨.ok c.length, [], c⟩ := rfl
  simp only [many, run_bind, hremaining]
  cases (repeatWhile test item c.length).run stack c <;> rfl

theorem advance_eq_self {t : Token} (h : t.kind = .eof) : Cursor.advance (t :: c) = t :: c := by
  simp [Cursor.advance, h]

theorem advance_eq_rest {t : Token} (h : t.kind ≠ .eof) : Cursor.advance (t :: c) = c := by
  simp [Cursor.advance, h]

theorem run_of_many {test : Kind → Bool} {item : Parser α} {r : Reply (List α)}
    (h : (many test item).run stack c = .ok r) :
    (repeatWhile test item c.length).run stack c = .ok r :=
  (run_many test item).symm.trans h

/-- After a success the events of both parts are put together. -/
theorem run_bind_of_ok {p : Parser α} {f : α → Parser β} {a : α} {events : List Event}
    {c' : Cursor} {after : Reply β} (hp : p.run stack c = .ok ⟨.ok a, events, c'⟩)
    (hf : (f a).run stack c' = .ok after) :
    (p >>= f).run stack c = .ok ⟨after.outcome, events ++ after.events, after.cursor⟩ := by
  simp only [run_bind, hp, hf]

/-- After a failure nothing is done. -/
theorem run_bind_of_error {p : Parser α} {f : α → Parser β} {e : SyntaxError}
    {events : List Event} {c' : Cursor} (hp : p.run stack c = .ok ⟨.error e, events, c'⟩) :
    (p >>= f).run stack c = .ok ⟨.error e, events, c'⟩ := by
  simp only [run_bind, hp]

/-- All that a sequence can do: its first part fails, or both parts are run. -/
theorem run_bind_cases {p : Parser α} {f : α → Parser β} {r : Reply β}
    (h : (p >>= f).run stack c = .ok r) :
    (∃ e events c', p.run stack c = .ok ⟨.error e, events, c'⟩ ∧ r = ⟨.error e, events, c'⟩) ∨
    ∃ a events c' after, p.run stack c = .ok ⟨.ok a, events, c'⟩ ∧
      (f a).run stack c' = .ok after ∧
      r = ⟨after.outcome, events ++ after.events, after.cursor⟩ := by
  rw [run_bind] at h
  split at h
  · simp at h
  · rename_i e events c' hp
    exact .inl ⟨e, events, c', hp, (Except.ok.inj h).symm⟩
  · rename_i a events c' hp
    split at h
    · simp at h
    · rename_i after hf
      exact .inr ⟨a, events, c', after, hp, hf, (Except.ok.inj h).symm⟩

/-- A sequence succeeds only if both parts do. -/
theorem run_bind_success {p : Parser α} {f : α → Parser β} {b : β} {es : List Event}
    {c' : Cursor} (h : (p >>= f).run stack c = .ok ⟨.ok b, es, c'⟩) :
    ∃ a es₁ c₁ es₂, p.run stack c = .ok ⟨.ok a, es₁, c₁⟩ ∧
      (f a).run stack c₁ = .ok ⟨.ok b, es₂, c'⟩ ∧ es = es₁ ++ es₂ := by
  rcases run_bind_cases h with ⟨e, es₁, c₁, -, hr⟩ | ⟨a, es₁, c₁, ⟨o, es₂, c₂⟩, hp, hf, hr⟩
  · cases hr
  · cases hr
    exact ⟨a, es₁, c₁, es₂, hp, hf, rfl⟩

theorem run_lookahead_cases {r : Reply Token} (h : lookahead.run stack c = .ok r) :
    ∃ t rest, c = t :: rest ∧ r = ⟨.ok t, [], t :: rest⟩ := by
  cases c with
  | nil => cases h
  | cons t rest => exact ⟨t, rest, rfl, (Except.ok.inj h).symm⟩

theorem run_advance_cases {r : Reply Token} (h : advance.run stack c = .ok r) :
    ∃ t rest, c = t :: rest ∧ r = ⟨.ok t, [.consume t], Cursor.advance (t :: rest)⟩ := by
  cases c with
  | nil => cases h
  | cons t rest => exact ⟨t, rest, rfl, (Except.ok.inj h).symm⟩

/-- All that a rule can do: it is entered with a lookahead, and then its body is run. -/
theorem run_inRule_cases {rule : Rule} {p : Parser α} {r : Reply α}
    (h : (inRule rule p).run stack c = .ok r) :
    ∃ t rest body, c = t :: rest ∧ p.run (rule :: stack) (t :: rest) = .ok body ∧
      r = ⟨body.outcome, .enter rule (stack.length + 1) t :: body.events, body.cursor⟩ := by
  cases c with
  | nil => cases h
  | cons t rest =>
    simp only [run] at h
    split at h
    · simp at h
    · rename_i body hp
      exact ⟨t, rest, body, rfl, hp, (Except.ok.inj h).symm⟩

/-- A rule with a lookahead answers what its body answers. -/
theorem run_inRule_of_ok {rule : Rule} {p : Parser α} {t : Token} {body : Reply α}
    (h : p.run (rule :: stack) (t :: c) = .ok body) :
    (inRule rule p).run stack (t :: c) =
      .ok { body with events := .enter rule (stack.length + 1) t :: body.events } := by
  simp only [run, h]

/-- All that a loop can do when it succeeds: it stops at a lookahead that fails the test, or
makes a round and goes on. -/
theorem run_repeatWhile_cases {test : Kind → Bool} {item : Parser α} {n : Nat} {as : List α}
    {es : List Event} {c' : Cursor}
    (h : (repeatWhile test item n).run stack c = .ok ⟨.ok as, es, c'⟩) :
    ∃ t rest, c = t :: rest ∧
      ((test t.kind = false ∧ as = [] ∧ es = [] ∧ c' = c) ∨
        (test t.kind = true ∧ ∃ m a as' es₁ c₁ es₂, n = m + 1 ∧ as = a :: as' ∧ es = es₁ ++ es₂ ∧
          item.run stack c = .ok ⟨.ok a, es₁, c₁⟩ ∧
          (repeatWhile test item m).run stack c₁ = .ok ⟨.ok as', es₂, c'⟩)) := by
  cases n with
  | zero => cases h
  | succ m =>
    obtain ⟨t, es₁, c₁, es₂, h₁, h₂, rfl⟩ := run_bind_success h
    obtain ⟨u, rest, rfl, h₁⟩ := run_lookahead_cases h₁
    cases h₁
    refine ⟨t, rest, rfl, ?_⟩
    split at h₂
    · rename_i ht
      obtain ⟨a, es₁, c₁, es₂, ha, hrest, rfl⟩ := run_bind_success h₂
      obtain ⟨as', es₃, c₂, es₄, has, hp, rfl⟩ := run_bind_success hrest
      cases hp
      exact .inr ⟨ht, m, a, as', es₁, c₁, es₃, rfl, rfl, by simp, ha, has⟩
    · rename_i ht
      cases h₂
      exact .inl ⟨by simpa using ht, rfl, rfl, rfl⟩

/-- All that a round of a loop can do: the item fails, or it is the first one of those that
the loop answers. -/
theorem run_repeatWhile_round {item : Parser α} {test : Kind → Bool} {t : Token} {n : Nat}
    {r : Reply (List α)} (ht : test t.kind = true)
    (h : (repeatWhile test item n).run stack (t :: c) = .ok r) :
    (∃ e es c', item.run stack (t :: c) = .ok ⟨.error e, es, c'⟩ ∧ r = ⟨.error e, es, c'⟩) ∨
    ∃ m a es c' s, item.run stack (t :: c) = .ok ⟨.ok a, es, c'⟩ ∧
      (repeatWhile test item m).run stack c' = .ok s ∧
      r = ⟨s.outcome.map (a :: ·), es ++ s.events, s.cursor⟩ := by
  cases n with
  | zero => cases h
  | succ m =>
    rcases run_bind_cases h with ⟨e, es, c', h₁, -⟩ | ⟨u, es, c', after, h₁, h₂, rfl⟩
    · cases h₁
    · cases h₁
      rw [ht, if_pos rfl] at h₂
      rcases run_bind_cases h₂ with ⟨e, es, c', h₃, rfl⟩ | ⟨a, es, c', rest, h₃, h₄, rfl⟩
      · exact .inl ⟨e, es, c', h₃, rfl⟩
      · rcases run_bind_cases h₄ with ⟨e, es', c'', h₅, rfl⟩ | ⟨as, es', c'', last, h₅, h₆, rfl⟩
        · exact .inr ⟨m, a, es, c', _, h₃, h₅, rfl⟩
        · cases h₆
          exact .inr ⟨m, a, es, c', _, h₃, h₅, by simp [Except.map]⟩

/-- A token was taken where `expected` was required.  It was the expected one, or stood in
for it, or was left in place because the expected one is missing. -/
inductive Eaten (expected : Kind) (follow : List Kind) (stack : List Rule) :
    Cursor → Reply Token → Prop
  | found {t : Token} {rest : List Token} : t.kind = expected →
      Eaten expected follow stack (t :: rest)
        ⟨.ok t, [.consume t], Cursor.advance (t :: rest)⟩
  | standIn {t : Token} {rest : List Token} : t.kind ≠ expected →
      (t.kind ∈ follow → ∃ u ∈ Cursor.next? (t :: rest), u.kind ∈ follow) →
      Eaten expected follow stack (t :: rest)
        ⟨.ok t, [.mismatch expected t stack.reverse, .consume t], Cursor.advance (t :: rest)⟩
  | missing {t : Token} {rest : List Token} : t.kind ≠ expected → t.kind ∈ follow →
      (∀ u ∈ Cursor.next? (t :: rest), u.kind ∉ follow) →
      Eaten expected follow stack (t :: rest)
        ⟨.ok t, [.mismatch expected t stack.reverse], t :: rest⟩

theorem exists_next (t : Token) (rest : List Token) : ∃ u, Cursor.next? (t :: rest) = some u := by
  cases rest with
  | nil => exact ⟨t, rfl⟩
  | cons u _ => exact ⟨u, rfl⟩

/-- What `eatBefore` answers at the lookahead `t`, with `u` after it. -/
theorem run_eatBefore_cons {expected : Kind} {follow : List Kind} {t u : Token}
    {rest : List Token} (hu : Cursor.next? (t :: rest) = some u) :
    (eatBefore expected follow).run stack (t :: rest) =
      if t.kind = expected then
        .ok ⟨.ok t, [.consume t], Cursor.advance (t :: rest)⟩
      else if t.kind ∈ follow ∧ u.kind ∉ follow then
        .ok ⟨.ok t, [.mismatch expected t stack.reverse], t :: rest⟩
      else
        .ok ⟨.ok t, [.mismatch expected t stack.reverse, .consume t],
          Cursor.advance (t :: rest)⟩ := by
  have hsecond : second.run stack (t :: rest) = .ok ⟨.ok u, [], t :: rest⟩ := run_second hu
  rw [eatBefore, run_bind, run_lookahead_cons]
  by_cases hk : t.kind = expected
  · simp [hk]
  · by_cases hm : t.kind ∈ follow ∧ u.kind ∉ follow <;>
      simp [hk, hm, run_bind, run_mismatch, hsecond]

/-- Where there is a token, `eatBefore` answers, and in one of the three ways. -/
theorem exists_eaten (expected : Kind) (follow : List Kind) (stack : List Rule) (t : Token)
    (rest : List Token) :
    ∃ r, (eatBefore expected follow).run stack (t :: rest) = .ok r ∧
      Eaten expected follow stack (t :: rest) r := by
  obtain ⟨u, hu⟩ := exists_next t rest
  rw [run_eatBefore_cons hu]
  split
  · exact ⟨_, rfl, .found ‹_›⟩
  · rename_i hk
    split
    · rename_i hm
      refine ⟨_, rfl, .missing hk hm.1 fun v hv => ?_⟩
      rw [hu] at hv
      exact Option.some.inj hv ▸ hm.2
    · rename_i hm
      exact ⟨_, rfl, .standIn hk fun hf => ⟨u, hu, by simpa [hf] using hm⟩⟩

/-- All that `eatBefore` can do. -/
theorem run_eatBefore_cases {expected : Kind} {follow : List Kind} {r : Reply Token}
    (h : (eatBefore expected follow).run stack c = .ok r) : Eaten expected follow stack c r := by
  cases c with
  | nil => cases h
  | cons t rest =>
    obtain ⟨r', hr', he⟩ := exists_eaten expected follow stack t rest
    rw [hr'] at h
    cases h
    exact he

end

end Parser
end FrontEnd
