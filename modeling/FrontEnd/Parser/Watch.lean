/-
# Watching a parse

A parser that is watched holds what `SyntacticParser` holds: the tokens that are left, the
diagnostics of the stream, and the state of whoever watches.  All three go from one part of a
rule to the next, and each part changes them when it does something, so that an observer has
been told at any time of what happened so far and of nothing else.

The state is given to every part, and that no part looks at it has to be shown.  It goes by
induction over parsers, with one case for each of the things that a parser can do:

* `Parser.watch_eq`: a watched run answers what an unwatched one does, leaves the diagnostics of
  its events in the log of the stream, and has told of its events in their order;
* `TokenStream.watched_eq`, `TokenStream.parseWith_eq`: so does the parse of a stream.
-/
import FrontEnd.Parser.Run
import FrontEnd.Parser.Tracer

namespace FrontEnd

/-- What a parser holds while it runs. -/
structure Session (σ : Type) where
  cursor : Cursor
  /-- The diagnostics of the stream. -/
  diagnostics : List Diagnostic
  /-- What the observer has come to. -/
  state : σ

namespace Parser

variable {σ : Type}

/-- Runs a parser with the given open rules, the innermost first, and tells an observer what
happens when it happens. -/
def watch (o : Observer σ) : {α : Type} → Parser α → List Rule → Session σ →
    Except Breakdown (Except SyntaxError α × Session σ)
  | _, .pure a, _, s => .ok (.ok a, s)
  | _, .bind p f, stack, s =>
    match p.watch o stack s with
    | .error b => .error b
    | .ok (.error e, s') => .ok (.error e, s')
    | .ok (.ok a, s') => (f a).watch o stack s'
  | _, .outOfBound, _, _ => .error .outOfBound
  | _, .remaining, _, s => .ok (.ok s.cursor.length, s)
  | _, .lookahead, _, s =>
    match s.cursor with
    | [] => .error .outOfTokens
    | token :: _ => .ok (.ok token, s)
  | _, .second, _, s =>
    match s.cursor.next? with
    | none => .error .outOfTokens
    | some token => .ok (.ok token, s)
  | _, .advance, _, s =>
    match s.cursor with
    | [] => .error .outOfTokens
    | token :: _ =>
      .ok (.ok token, { s with cursor := s.cursor.advance, state := o.consume token s.state })
  | _, .mismatch expected found, stack, s =>
    let d := Diagnostic.ofMismatch expected found stack.reverse
    .ok (.ok (), { s with diagnostics := s.diagnostics ++ [d], state := o.recorded d s.state })
  | _, .unhandled found, stack, s =>
    let e := SyntaxError.unhandled stack found
    .ok (.error e, { s with state := o.aborting e s.state })
  | _, .inRule rule p, stack, s =>
    match s.cursor with
    | [] => .error .outOfTokens
    | token :: _ =>
      p.watch o (rule :: stack) { s with state := o.enter rule (stack.length + 1) token s.state }

end Parser

/-! ## 1. Watched and unwatched runs -/

namespace Session

variable {σ α β : Type} (o : Observer σ) (s : Session σ)

/-- What is held after a run that answers this. -/
def after (r : Reply α) : Session σ :=
  ⟨r.cursor, s.diagnostics ++ recorded r.events, o.told s.state r⟩

theorem after_nil (a : α) : s.after o ⟨.ok a, [], s.cursor⟩ = s := by
  rw [after, recorded_nil, List.append_nil]
  rfl

/-- After two parts the events of both have been told, those of the first part first. -/
theorem after_append (a : α) (es : List Event) (c : Cursor) (r : Reply β) :
    (s.after o ⟨.ok a, es, c⟩).after o r = s.after o ⟨r.outcome, es ++ r.events, r.cursor⟩ := by
  have hwatch : o.watch (o.watch s.state es) r.events = o.watch s.state (es ++ r.events) :=
    (o.watch_append s.state es r.events).symm
  have htold : o.told (o.watch s.state es) r =
      o.told s.state ⟨r.outcome, es ++ r.events, r.cursor⟩ := by
    unfold Observer.told
    rw [hwatch]
  show Session.mk r.cursor ((s.diagnostics ++ recorded es) ++ recorded r.events)
    (o.told (o.watch s.state es) r) = _
  rw [htold, List.append_assoc, ← recorded_append]
  rfl

end Session

/-- **A watched run answers what the run does**, and the observer has been told of its events, in
their order. -/
theorem Parser.watch_eq {σ : Type} (o : Observer σ) {α : Type} (p : Parser α) :
    ∀ (stack : List Rule) (s : Session σ), p.watch o stack s =
      (p.run stack s.cursor).map fun r => (r.outcome, s.after o r) := by
  induction p with
  | pure a =>
    intro stack s
    simp only [watch, run, Except.map, s.after_nil o a]
  | bind p f ihp ihf =>
    intro stack s
    rw [watch, ihp, run]
    -- three ways to go on: the first part breaks down, fails, or hands its answer to the second
    rcases p.run stack s.cursor with b | ⟨e | a, es, c⟩
    · rfl
    · rfl
    · simp only [Except.map, ihf]
      show ((f a).run stack c).map _ = _
      cases (f a).run stack c with
      | error b => rfl
      | ok r => simp only [Except.map, s.after_append o a es c r]
  | outOfBound =>
    intro stack s
    rfl
  | remaining =>
    intro stack s
    simp only [watch, run, Except.map, s.after_nil o s.cursor.length]
  | lookahead =>
    rintro stack ⟨c, ds, state⟩
    cases c with
    | nil => rfl
    | cons t rest =>
      have hkept := Session.after_nil o ⟨t :: rest, ds, state⟩ t
      exact congrArg (fun s' => Except.ok (Except.ok t, s')) hkept.symm
  | second =>
    intro stack s
    rw [watch, run]
    cases s.cursor.next? with
    | none => rfl
    | some t => simp only [Except.map, s.after_nil o t]
  | advance =>
    intro stack s
    rw [watch]
    cases hc : s.cursor with
    | nil => rfl
    | cons t rest =>
      simp only [run_advance_cons, Except.map, Session.after, recorded_consume_cons, recorded_nil,
        List.append_nil]
      rfl
  | mismatch expected found =>
    intro stack s
    rfl
  | unhandled found =>
    intro stack s
    simp only [watch, run, Except.map, Session.after, recorded_nil, List.append_nil]
    rfl
  | inRule rule p ih =>
    intro stack s
    rw [watch]
    cases hc : s.cursor with
    | nil => rfl
    | cons t rest =>
      simp only [ih, run]
      -- the rule is told before its body runs, and is its first event
      cases p.run (rule :: stack) (t :: rest) <;> rfl

/-! ## 2. Parses of a stream -/

namespace TokenStream

variable {σ : Type} (s : TokenStream)

theorem exists_watch (o : Observer σ) (state : σ) :
    ∃ answer, (Parser.program s.tokens.length).watch o [] ⟨s.tokens, s.diagnostics, state⟩ =
      .ok answer := by
  refine ⟨(s.run.outcome, Session.after o ⟨s.tokens, s.diagnostics, state⟩ s.run), ?_⟩
  rw [Parser.watch_eq]
  show ((Parser.program s.tokens.length).run [] s.tokens).map _ = _
  rw [s.program_run]
  rfl

/-- Parses a stream from its first token on while an observer watches from a state on. -/
def watched (o : Observer σ) (state : σ) : (Except SyntaxError Program × TokenStream) × σ :=
  match h : (Parser.program s.tokens.length).watch o [] ⟨s.tokens, s.diagnostics, state⟩ with
  | .ok (outcome, session) =>
    ((outcome, { s with diagnostics := session.diagnostics }), session.state)
  | .error b => absurd (s.exists_watch o state) (by simp [h])

/-- **A watched parse is the parse**, and the observer has been told of it. -/
theorem watched_eq (o : Observer σ) (state : σ) :
    s.watched o state = (s.parse, o.told state s.run) := by
  have hwatch := Parser.watch_eq o (Parser.program s.tokens.length) []
    ⟨s.tokens, s.diagnostics, state⟩
  rw [s.program_run] at hwatch
  unfold watched
  split
  · rename_i outcome session h
    cases h.symm.trans hwatch
    rfl
  · rename_i b h
    cases h.symm.trans hwatch

/-- Parses a stream while a tracer watches from a state on (`parse_with_tracer`). -/
def parseWith (tracer : Tracer σ) (state : σ) :
    (Except SyntaxError Program × TokenStream) × σ :=
  s.watched tracer.alone state

/-- **A tracer changes nothing**, and is told of the events of the parse. -/
theorem parseWith_eq (tracer : Tracer σ) (state : σ) :
    s.parseWith tracer state = (s.parse, tracer.watch state s.run.events) := by
  rw [parseWith, watched_eq, Observer.told_alone]

end TokenStream
end FrontEnd
