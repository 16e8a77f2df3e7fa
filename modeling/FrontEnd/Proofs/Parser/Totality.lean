/-
# The parse of a stream is total

Every token stream is parsed: the run ends with a tree or a syntax error, whatever the
tokens are and wherever the end of the text stands among them.  `Parser.Bounds` has the
reason.  Here it is said for streams, with the place of the parser in the stream:

* `position_le_firstEof`: the parser never gets past the first end of the text;
* `run_total`: the parse answers, and at every moment of it the lookahead is the token at
  the parser's position.
-/
import FrontEnd.Parser.Run

namespace FrontEnd

/-- The index of the lookahead after the events: how many tokens were passed. -/
def position (events : List Event) : Nat := (passed events).length

/-- The index of the first end of the text. -/
def firstEof (tokens : List Token) : Nat := tokens.findIdx fun t => t.kind == .eof

theorem firstEof_lt {c : Cursor} (h : Parser.HasEof c) : firstEof c < c.length := by
  obtain ⟨t, ht, hk⟩ := h
  exact List.findIdx_lt_length_of_exists ⟨t, ht, by simp [hk]⟩

theorem firstEof_append {ts c : List Token} (h : ∀ t ∈ ts, t.kind ≠ .eof) :
    firstEof (ts ++ c) = ts.length + firstEof c := by
  induction ts with
  | nil => simp [firstEof]
  | cons t ts ih =>
    have ht : (t.kind == Kind.eof) = false := by simpa using h t (by simp)
    have := ih fun u hu => h u (by simp [hu])
    simp only [firstEof, List.cons_append, List.findIdx_cons, ht, cond_false,
      List.length_cons] at this ⊢
    omega

theorem Trail.position_le_firstEof {c c' : Cursor} {es : List Event} (h : Trail c es c') :
    position es ≤ firstEof c := by
  rw [h.eq_append, firstEof_append fun t => kind_ne_eof_of_mem_passed]
  exact Nat.le_add_right _ _

theorem TokenStream.trail_run (s : TokenStream) : Trail s.tokens s.run.events s.run.cursor :=
  (Parser.Composed.program _).trail s.program_run

/-- **The parser is total and its lookahead is always there.**  With as many levels of
nesting as there are tokens, or more, the parse answers with a tree or a syntax error: it
ends, and it never reads a token where none is, as either would be a breakdown.  At every
moment, after the events `before`, the event that follows is about the token at the
parser's position; the position never goes back and never gets past the first end of the
text, which is a token of the stream. -/
theorem run_total (s : TokenStream) :
    (∀ bound, s.tokens.length ≤ bound → (Parser.program bound).run [] s.tokens = .ok s.run) ∧
    firstEof s.tokens < s.tokens.length ∧
    (∀ before e after, s.run.events = before ++ e :: after →
      s.tokens[position before]? = some e.token ∧
      position before ≤ position (before ++ [e]) ∧
      position (before ++ [e]) ≤ firstEof s.tokens) ∧
    position s.run.events ≤ firstEof s.tokens ∧
    s.run.cursor = s.tokens.drop (position s.run.events) := by
  have ht := s.trail_run
  refine ⟨fun bound hb => ?_, firstEof_lt s.hasEof, fun before e after he => ?_,
    ht.position_le_firstEof, ?_⟩
  · exact Parser.program_refines hb _ _ _ s.program_run
  · rw [he] at ht
    refine ⟨ht.getElem?_token, ?_, ?_⟩
    · simp [position]
    · rw [List.append_cons] at ht
      obtain ⟨c, h₁, -⟩ := ht.of_append
      exact h₁.position_le_firstEof
  · rw [position, ht.eq_append, List.drop_left]

end FrontEnd
