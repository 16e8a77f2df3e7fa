/-
# Parses share a log and only add to it

A stream has one log.  The lexer leaves its faults in it, every parse of the stream records its
mismatches in it, and whoever holds the stream can push more.  The rules of a parse do not have a
log each: they hand the one log on, and each mismatch goes to its end when it is met, whatever
rule it is met in and however the parse ends.

`Threads` says so rule by rule, with the log as a further thing that every rule is given and
leaves.  It would allow a rule to look at the log or to take something out of it; that the rules
of the grammar do neither is what has to be shown.  It goes by induction over a run in one
direction, and in the other over how a parser is put together.

* `Threads.sound`: a run that threads a log is a run of the parser, with what it recorded added;
* `Composed.threads`: every run of a parser of the grammar threads every log;
* `parses_only_append`: so any number of parses, with anything pushed between them, have one
  outcome, and each adds the same diagnostics.
-/
import FrontEnd.Parser.Run

namespace FrontEnd
namespace Parser

/-! ## 1. Threading a log -/

/-- `Threads p stack c log outcome c' log'`: from the cursor `c` and with the log `log`, the parser
goes to the cursor `c'` and leaves the log `log'`. -/
inductive Threads : {α : Type} → Parser α → List Rule → Cursor → List Diagnostic →
    Except SyntaxError α → Cursor → List Diagnostic → Prop
  | pure {α : Type} {stack : List Rule} {c : Cursor} {log : List Diagnostic} (a : α) :
      Threads (pure a : Parser α) stack c log (.ok a) c log
  | bind {α β : Type} {p : Parser α} {f : α → Parser β} {stack : List Rule} {c c' c'' : Cursor}
      {log log' log'' : List Diagnostic} {a : α} {outcome : Except SyntaxError β} :
      Threads p stack c log (.ok a) c' log' → Threads (f a) stack c' log' outcome c'' log'' →
      Threads (p >>= f) stack c log outcome c'' log''
  | bindError {α β : Type} {p : Parser α} {f : α → Parser β} {stack : List Rule} {c c' : Cursor}
      {log log' : List Diagnostic} {e : SyntaxError} :
      Threads p stack c log (.error e) c' log' → Threads (p >>= f) stack c log (.error e) c' log'
  | lookahead {stack : List Rule} {rest : Cursor} {log : List Diagnostic} (t : Token) :
      Threads lookahead stack (t :: rest) log (.ok t) (t :: rest) log
  | second {stack : List Rule} {c : Cursor} {log : List Diagnostic} {t : Token} :
      c.next? = some t → Threads second stack c log (.ok t) c log
  | advance {stack : List Rule} {rest : Cursor} {log : List Diagnostic} (t : Token) :
      Threads advance stack (t :: rest) log (.ok t) (Cursor.advance (t :: rest)) log
  | mismatch {stack : List Rule} {c : Cursor} {log : List Diagnostic} (expected : Kind)
      (found : Token) :
      Threads (mismatch expected found) stack c log (.ok ()) c
        (log ++ [⟨.mismatch expected found, some found.span,
          .ofStack (stack.reverse.map Rule.name)⟩])
  | unhandled {α : Type} {stack : List Rule} {c : Cursor} {log : List Diagnostic} (found : Token) :
      Threads (unhandled found : Parser α) stack c log
        (.error ⟨stack.head?.getD .program, found, found.span, stack.reverse⟩) c log
  | inRule {α : Type} {p : Parser α} {stack : List Rule} {t : Token} {rest c' : Cursor}
      {log log' : List Diagnostic} {outcome : Except SyntaxError α} (rule : Rule) :
      Threads p (rule :: stack) (t :: rest) log outcome c' log' →
      Threads (inRule rule p) stack (t :: rest) log outcome c' log'
  | many {α : Type} {item : Parser α} {test : Kind → Bool} {stack : List Rule} {c c' : Cursor}
      {log log' : List Diagnostic} {outcome : Except SyntaxError (List α)} :
      Threads (repeatWhile test item c.length) stack c log outcome c' log' →
      Threads (many test item) stack c log outcome c' log'

section
variable {α : Type} {stack : List Rule} {c c' : Cursor} {log log' : List Diagnostic}

/-- **A run that threads a log is a run of the parser**, and the log that it leaves is the one it
was given with what the run recorded after it. -/
theorem Threads.sound {p : Parser α} {outcome : Except SyntaxError α}
    (h : Threads p stack c log outcome c' log') :
    ∃ es, p.run stack c = .ok ⟨outcome, es, c'⟩ ∧ log' = log ++ recorded es := by
  induction h with
  | pure a => exact ⟨[], rfl, (List.append_nil _).symm⟩
  | bind _ _ ihp ihf =>
    obtain ⟨es, hp, rfl⟩ := ihp
    obtain ⟨es', hf, rfl⟩ := ihf
    refine ⟨es ++ es', run_bind_of_ok hp hf, ?_⟩
    rw [recorded_append, List.append_assoc]
  | bindError _ ih =>
    obtain ⟨es, hp, rfl⟩ := ih
    exact ⟨es, run_bind_of_error hp, rfl⟩
  | lookahead t => exact ⟨[], rfl, (List.append_nil _).symm⟩
  | second hnext => exact ⟨[], run_second hnext, (List.append_nil _).symm⟩
  | advance t => exact ⟨[.consume t], rfl, (List.append_nil _).symm⟩
  | mismatch expected found => exact ⟨[.mismatch expected found _], rfl, rfl⟩
  | unhandled found => exact ⟨[], rfl, (List.append_nil _).symm⟩
  | inRule rule _ ih =>
    obtain ⟨es, hp, rfl⟩ := ih
    exact ⟨_, run_inRule_of_ok hp, rfl⟩
  | many _ ih =>
    obtain ⟨es, hloop, hlog⟩ := ih
    exact ⟨es, (run_many _ _).trans hloop, hlog⟩

/-- A token that is not the expected one goes to the end of the log before it is known whether it
is consumed. -/
theorem threads_eatBefore {expected : Kind} {follow : List Kind} {r : Reply Token}
    (h : (eatBefore expected follow).run stack c = .ok r) (log : List Diagnostic) :
    Threads (eatBefore expected follow) stack c log r.outcome r.cursor
      (log ++ recorded r.events) := by
  -- one case for each way to take a token: with a mismatch the log has one diagnostic more
  cases c with
  | nil => cases h
  | cons t rest =>
    obtain ⟨u, hu⟩ := exists_next t rest
    rw [run_eatBefore_cons hu] at h
    refine .bind (.lookahead t) ?_
    split at h
    · rename_i hk
      cases h
      rw [if_pos hk, recorded_consume_cons, recorded_nil, List.append_nil]
      exact .advance t
    · rename_i hk
      rw [if_neg hk]
      refine .bind (.mismatch expected t) (.bind (.second hu) ?_)
      split at h
      · rename_i hm
        cases h
        rw [if_pos hm]
        exact .pure t
      · rename_i hm
        cases h
        rw [if_neg hm]
        exact .advance t

/-- Every run of the parser threads every log. -/
def ThreadsAll (p : Parser α) : Prop :=
  ∀ stack c r, p.run stack c = .ok r → ∀ log,
    Threads p stack c log r.outcome r.cursor (log ++ recorded r.events)

theorem threadsAll_pure (a : α) : ThreadsAll (pure a : Parser α) := by
  intro stack c r h log
  cases h
  rw [recorded_nil, List.append_nil]
  exact .pure a

theorem threadsAll_lookahead : ThreadsAll lookahead := by
  intro stack c r h log
  obtain ⟨t, rest, rfl, rfl⟩ := run_lookahead_cases h
  rw [recorded_nil, List.append_nil]
  exact .lookahead t

/-- The second part of a sequence is given the log that the first one left. -/
theorem ThreadsAll.bind {β : Type} {p : Parser α} {f : α → Parser β} (hp : ThreadsAll p)
    (hf : ∀ a, ThreadsAll (f a)) : ThreadsAll (p >>= f) := by
  intro stack c r h log
  rcases run_bind_cases h with ⟨e, es, c', hr, rfl⟩ | ⟨a, es, c', after, hr, ha, rfl⟩
  · exact .bindError (hp _ _ _ hr log)
  · have hafter := hf a _ _ _ ha (log ++ recorded es)
    rw [List.append_assoc, ← recorded_append] at hafter
    exact .bind (hp _ _ _ hr log) hafter

theorem ThreadsAll.repeatWhile {item : Parser α} (test : Kind → Bool) (h : ThreadsAll item) :
    ∀ n, ThreadsAll (repeatWhile test item n)
  | 0 => fun _ _ _ hr => by cases hr
  | n + 1 => by
    refine threadsAll_lookahead.bind fun t => ?_
    split
    · exact h.bind fun a => (ThreadsAll.repeatWhile test h n).bind fun as => threadsAll_pure _
    · exact threadsAll_pure _

/-- **Every run of a parser of the grammar threads every log.** -/
theorem Composed.threads {p : Parser α} (hp : Composed p) : ThreadsAll p := by
  -- one case for each part that rules are put together from
  induction hp with
  | pure a => exact threadsAll_pure a
  | bind _ _ ihp ihf => exact ihp.bind ihf
  | outOfBound => intro stack c r h; cases h
  | lookahead => exact threadsAll_lookahead
  | advance =>
    intro stack c r h log
    obtain ⟨t, rest, rfl, rfl⟩ := run_advance_cases h
    rw [recorded_consume_cons, recorded_nil, List.append_nil]
    exact .advance t
  | eatBefore expected follow => intro stack c r h log; exact threads_eatBefore h log
  | unhandled found =>
    intro stack c r h log
    cases h
    rw [recorded_nil, List.append_nil]
    exact .unhandled found
  | inRule rule _ ih =>
    intro stack c r h log
    obtain ⟨t, rest, body, rfl, hb, rfl⟩ := run_inRule_cases h
    exact .inRule rule (ih _ _ _ hb log)
  | many test _ ih =>
    intro stack c r h log
    exact .many (ih.repeatWhile test _ _ _ _ (run_of_many h) log)

end
end Parser

/-! ## 2. Parses of one stream -/

/-- What parsing tokens gives: the outcome and the diagnostics, in the order in which they are
recorded.  Nothing but the tokens is given. -/
def parseTokens (tokens : List Token) (h : EndsWithEof tokens) :
    Except SyntaxError Program × List Diagnostic :=
  let reply := (TokenStream.mk "" tokens .empty [] h).run
  (reply.outcome, reply.diagnostics)

/-- What is done with a stream: it is parsed, or a diagnostic is pushed. -/
inductive Task where
  | parse
  | push (d : Diagnostic)

namespace Task

def isParse : Task → Bool
  | parse => true
  | push _ => false

/-- What a task adds to the log, if a parse adds `parsed`. -/
def adds (parsed : List Diagnostic) : Task → List Diagnostic
  | parse => parsed
  | push d => [d]

end Task

namespace TokenStream

theorem run_eq_parseTokens (s : TokenStream) :
    (s.run.outcome, s.run.diagnostics) = parseTokens s.tokens s.endsWithEof := by
  have h : s.run = (TokenStream.mk "" s.tokens .empty [] s.endsWithEof).run := run_congr rfl
  rw [h]
  rfl

/-- The outcomes of the parses among the tasks, and the stream after all of them. -/
def perform (s : TokenStream) : List Task → List (Except SyntaxError Program) × TokenStream
  | [] => ([], s)
  | .parse :: tasks =>
    let (outcome, after) := s.parse
    let (outcomes, last) := after.perform tasks
    (outcome :: outcomes, last)
  | .push d :: tasks => (s.push d).perform tasks

/-- One parse adds what parsing the tokens records, and has its outcome. -/
theorem parse_eq (s : TokenStream) :
    s.parse = ((parseTokens s.tokens s.endsWithEof).1,
      s.append (parseTokens s.tokens s.endsWithEof).2) := by
  rw [← s.run_eq_parseTokens]
  rfl

/-- **Tasks only add to the log**, each what it would add to any other log. -/
theorem perform_eq (tasks : List Task) : ∀ s : TokenStream,
    s.perform tasks =
      (List.replicate (tasks.countP Task.isParse) (parseTokens s.tokens s.endsWithEof).1,
        s.append (tasks.flatMap (Task.adds (parseTokens s.tokens s.endsWithEof).2))) := by
  induction tasks with
  | nil =>
    intro s
    simp [perform, append]
  | cons task tasks ih =>
    intro s
    cases task with
    | parse =>
      have hrest := ih (s.append (parseTokens s.tokens s.endsWithEof).2)
      simp only [perform, parse_eq, hrest, List.countP_cons, List.flatMap_cons]
      simp [append, Task.isParse, Task.adds, List.replicate_succ]
    | push d =>
      have hrest := ih (s.push d)
      simp only [perform, hrest, List.countP_cons, List.flatMap_cons]
      simp [append, push, Task.isParse, Task.adds]

/-- A parse threads the log of its stream, or any other, in one way only. -/
theorem threads_program_iff (s : TokenStream) (log log' : List Diagnostic)
    (outcome : Except SyntaxError Program) :
    (∃ c, Parser.Threads (Parser.program s.tokens.length) [] s.tokens log outcome c log') ↔
      outcome = (parseTokens s.tokens s.endsWithEof).1 ∧
        log' = log ++ (parseTokens s.tokens s.endsWithEof).2 := by
  rw [← s.run_eq_parseTokens]
  constructor
  · rintro ⟨c, h⟩
    obtain ⟨es, hrun, rfl⟩ := h.sound
    rw [s.program_run] at hrun
    rw [Except.ok.inj hrun]
    exact ⟨rfl, rfl⟩
  · rintro ⟨rfl, rfl⟩
    exact ⟨_, (Parser.Composed.program _).threads _ _ _ s.program_run log⟩

end TokenStream

/-- **Parses share a log and only add to it.**  Whatever is in the log of a stream, and however
parses and pushes follow on each other, the path, the tokens and the lines of the stream stay, and
the log is what it was with more after it: a pushed diagnostic for a push, and for each parse the
same diagnostics, which the tokens alone decide.  All parses have the same outcome, be it a tree
or the error that stopped them.  A log that is handed from rule to rule throughout the parse ends
so whatever it held at the start, and in no other way. -/
theorem parses_only_append (s : TokenStream) (tasks : List Task) :
    let outcome := (parseTokens s.tokens s.endsWithEof).1
    let parsed := (parseTokens s.tokens s.endsWithEof).2
    let after := (s.perform tasks).2
    (after.path = s.path ∧ after.tokens = s.tokens ∧ after.lines = s.lines) ∧
    after.diagnostics = s.diagnostics ++ tasks.flatMap (Task.adds parsed) ∧
    (s.perform tasks).1 = List.replicate (tasks.countP Task.isParse) outcome ∧
    ∀ (log log' : List Diagnostic) (o : Except SyntaxError Program),
      (∃ c, Parser.Threads (Parser.program s.tokens.length) [] s.tokens log o c log') ↔
        o = outcome ∧ log' = log ++ parsed := by
  intro outcome parsed after
  have h : s.perform tasks = _ := TokenStream.perform_eq tasks s
  refine ⟨?_, ?_, ?_, ?_⟩
  · show (s.perform tasks).2.path = _ ∧ (s.perform tasks).2.tokens = _ ∧
      (s.perform tasks).2.lines = _
    rw [h]
    exact ⟨rfl, rfl, rfl⟩
  · show (s.perform tasks).2.diagnostics = _
    rw [h]
    rfl
  · rw [h]
  · intro log log' o
    exact s.threads_program_iff log log' o

end FrontEnd
