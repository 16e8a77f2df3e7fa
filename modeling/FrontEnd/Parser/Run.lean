/-
# Parsing a stream

The tokens of a stream end with the end of the text, so their parse answers.
-/
import FrontEnd.Parser.Bounds

namespace FrontEnd

/-- The diagnostics that a parse records, in order. -/
def Reply.diagnostics {α : Type} (r : Reply α) : List Diagnostic := recorded r.events

namespace TokenStream

theorem hasEof (s : TokenStream) : Parser.HasEof s.tokens := by
  obtain ⟨t, ht, hk⟩ := s.endsWithEof
  exact ⟨t, List.mem_of_getLast? ht, hk⟩

/-- The parse of a stream answers: no bound is used up and no token read after the last. -/
theorem exists_run (s : TokenStream) :
    ∃ r, (Parser.program s.tokens.length).run [] s.tokens = .ok r :=
  Parser.answers_program s.tokens.length [] s.tokens (Nat.le_refl _) s.hasEof s.hasEof.startsWith

/-- The parse of a stream from its first token on. -/
def run (s : TokenStream) : Reply Program :=
  match h : (Parser.program s.tokens.length).run [] s.tokens with
  | .ok r => r
  | .error b => absurd s.exists_run (by simp [h])

theorem program_run (s : TokenStream) :
    (Parser.program s.tokens.length).run [] s.tokens = .ok s.run := by
  unfold run
  split
  · assumption
  · rename_i b h
    exact absurd s.exists_run (by simp [h])

/-- A parse that ends with a tree is a success of the parser of programs. -/
theorem program_run_of_tree {s : TokenStream} {p : Program} (h : s.run.outcome = .ok p) :
    (Parser.program s.tokens.length).run [] s.tokens = .ok ⟨.ok p, s.run.events, s.run.cursor⟩ := by
  rw [s.program_run, ← h]

/-- A parse depends on the tokens only. -/
theorem run_congr {s s' : TokenStream} (h : s.tokens = s'.tokens) : s.run = s'.run := by
  have hs := s.program_run
  rw [h, s'.program_run] at hs
  exact (Except.ok.inj hs).symm

/-- Parses a stream (`parse`).  The stream that is left has the diagnostics of the parse after
those that it had. -/
def parse (s : TokenStream) : Except SyntaxError Program × TokenStream :=
  let reply := s.run
  (reply.outcome, s.append reply.diagnostics)

end TokenStream
end FrontEnd
