/-
# Lines are lexed on their own

Two texts joined by a line feed are lexed as each of them is alone.  Nothing that is open at
the end of a line reaches over it: a word, a number or a symbol ends there as it does at the
end of a text, and so does a literal that is not closed.  Blanks go on, but they give
nothing.  Only a comment that is not closed takes all that follows, and where the first text
ends inside one the statement fails.

* `marked_line`: the tokens and faults of the joined text are those of both;
* `lex_joined`: so are its tokens, its diagnostics and its lines.
-/
import FrontEnd.Proofs.Lexer.Positions

namespace FrontEnd

/-! ## 1. Moving -/

/-- The span, `n` bytes later. -/
def Span.shift (n : Nat) (s : Span) : Span := ⟨s.offset + n, s.length⟩

def Token.shift (n : Nat) (t : Token) : Token := { t with span := t.span.shift n }

def Problem.shift (n : Nat) : Problem → Problem
  | lexical fault => .lexical fault
  | mismatch expected found => .mismatch expected (found.shift n)

def Diagnostic.shift (n : Nat) (d : Diagnostic) : Diagnostic :=
  { d with problem := d.problem.shift n, span := d.span.map (Span.shift n) }

/-- Where segments start moves all of them. -/
theorem placed_shift (n offset : Nat) (segs : List Segment) :
    placed (offset + n) segs = (placed offset segs).map fun p => (p.1 + n, p.2) := by
  induction segs generalizing offset with
  | nil => rfl
  | cons s rest ih =>
    rw [placed, Nat.add_right_comm, ih]
    rfl

/-- A text that stands further on has its marks further on. -/
theorem marked_shift (n : Nat) (chars : List Char) :
    marked n chars = (marked 0 chars).map fun p => (p.1 + n, p.2) := by
  have h := placed_shift n 0 (segments chars)
  rw [Nat.zero_add] at h
  rw [marked, h, List.filter_map]
  rfl

theorem token?_shift (s : Segment) (offset n : Nat) :
    s.token? (offset + n) = (s.token? offset).map (Token.shift n) := by
  unfold Segment.token?
  split <;> rfl

theorem diagnostic?_shift (s : Segment) (offset n : Nat) :
    s.diagnostic? (offset + n) = (s.diagnostic? offset).map (Diagnostic.shift n) := by
  unfold Segment.diagnostic?
  split <;> rfl

theorem tokens_shift (n : Nat) (ps : List (Nat × Segment)) :
    (ps.map fun p => (p.1 + n, p.2)).filterMap placedToken? =
      (ps.filterMap placedToken?).map (Token.shift n) := by
  rw [List.filterMap_map, List.map_filterMap]
  exact congrArg (List.filterMap · ps) (funext fun p => token?_shift p.2 p.1 n)

theorem diagnostics_shift (n : Nat) (ps : List (Nat × Segment)) :
    (ps.map fun p => (p.1 + n, p.2)).filterMap placedDiagnostic? =
      (ps.filterMap placedDiagnostic?).map (Diagnostic.shift n) := by
  rw [List.filterMap_map, List.map_filterMap]
  exact congrArg (List.filterMap · ps) (funext fun p => diagnostic?_shift p.2 p.1 n)

theorem lineStarts_shift (n offset : Nat) (chars : List Char) :
    lineStarts (offset + n) chars = (lineStarts offset chars).map (· + n) := by
  induction chars generalizing offset with
  | nil => rfl
  | cons c chars ih =>
    simp only [lineStarts_cons, Nat.add_right_comm offset n, ih]
    split <;> rfl

/-! ## 2. A line feed between texts -/

/-- **A line feed parts a text.**  Before it the segments are those of the first text, if no
comment of it goes on, and after it those of the second. -/
theorem marked_line {chars : List Char} (after : List Char) :
    (∀ s ∈ segments chars, s.content ≠ .layout .openComment) → ∀ offset,
      marked offset (chars ++ '\n' :: after) =
        marked offset chars ++ marked (offset + Text.byteLength chars + 1) after := by
  induction chars using segment_induction with
  | nil =>
    intro _ offset
    have hblank : ∀ c ∈ ['\n'], Layout.isBlank c = true := List.all_eq_true.mp rfl
    rw [marked_nil]
    exact marked_blanks hblank offset after
  | cons s rest hs ih =>
    intro hclosed offset
    rw [segments_append hs] at hclosed
    have ih := ih (fun t ht => hclosed t (List.mem_cons_of_mem s ht))
      (offset + Text.byteLength s.chars)
    have hs' (hb : s.isBlanks = false) : s.Stands (rest ++ '\n' :: after) := by
      cases rest with
      | nil => exact hs.before_newline hb (hclosed s (by simp)) after
      | cons c rest => exact hs.of_head rfl
    rw [List.append_assoc, marked_append hs hs', marked_segment hs, ih, List.append_assoc,
      Text.byteLength_append, Nat.add_assoc offset]

/-- **Lines are lexed on their own.**  The first text is one that no open comment ends.  A text
that joins both by a line feed has the tokens, the diagnostics and the lines of the first and
then those of the second, moved: no error reaches from one line to another. -/
theorem lex_joined (path : String) {a : String} (b : String)
    (h : ∀ s ∈ segments a.toList, s.content ≠ .layout .openComment) :
    (∃ tokens, (lex path a).tokens = tokens ++ [.eof a.utf8ByteSize] ∧
      (lex path (a ++ "\n" ++ b)).tokens =
        tokens ++ (lex path b).tokens.map (Token.shift (a.utf8ByteSize + 1))) ∧
    (lex path (a ++ "\n" ++ b)).diagnostics = (lex path a).diagnostics ++
      (lex path b).diagnostics.map (Diagnostic.shift (a.utf8ByteSize + 1)) ∧
    (lex path (a ++ "\n" ++ b)).lines.starts = (lex path a).lines.starts ++
      (a.utf8ByteSize + 1) ::
        (lex path b).lines.starts.tail.map (· + (a.utf8ByteSize + 1)) := by
  have htext : (a ++ "\n" ++ b).toList = a.toList ++ '\n' :: b.toList := by simp
  -- the marks of the joined text are those of both parts, and all the rest is read off them
  have hmarked : marked 0 (a ++ "\n" ++ b).toList = marked 0 a.toList ++
      (marked 0 b.toList).map fun p => (p.1 + (a.utf8ByteSize + 1), p.2) := by
    rw [htext, marked_line _ h, ← marked_shift, Nat.zero_add, Text.byteLength_toList]
  have hend : Token.eof (a ++ "\n" ++ b).utf8ByteSize =
      (Token.eof b.utf8ByteSize).shift (a.utf8ByteSize + 1) := by
    have hsize : ("\n" : String).utf8ByteSize = 1 := by decide
    simp [Token.eof, Token.shift, Span.shift, hsize]
    omega
  refine ⟨⟨(marked 0 a.toList).filterMap placedToken?, lex_tokens_marked path a, ?_⟩, ?_, ?_⟩
  · rw [lex_tokens_marked, hmarked, List.filterMap_append, tokens_shift, hend, lex_tokens_marked,
      List.map_append, List.append_assoc, List.map_singleton]
  · rw [lex_diagnostics_marked, hmarked, List.filterMap_append, diagnostics_shift,
      ← lex_diagnostics_marked path, ← lex_diagnostics_marked path]
  · have hstart : 0 + Text.byteLength a.toList + ('\n').utf8Size = 0 + (a.utf8ByteSize + 1) := by
      rw [Text.byteLength_toList, show ('\n').utf8Size = 1 from rfl, Nat.add_assoc]
    rw [starts_lex, starts_lex, starts_lex, htext, lineStarts_append]
    simp only [lineStarts_cons, if_true, List.tail_cons, List.cons_append]
    rw [hstart, lineStarts_shift, Nat.zero_add]

/-- A literal that is not closed and ends in a backslash does not reach over the line feed. -/
theorem lex_joined_backslash :
    (∀ s ∈ segments "x \"y\\".toList, s.content ≠ .layout .openComment) ∧
    (lex "" ("x \"y\\" ++ "\n" ++ "z")).tokens =
      [⟨.identifier, "x", ⟨0, 1⟩⟩, ⟨.identifier, "z", ⟨6, 1⟩⟩, .eof 7] ∧
    (lex "" ("x \"y\\" ++ "\n" ++ "z")).diagnostics =
      [.ofFault (.unterminated .string) ⟨2, 3⟩] ∧
    (lex "" ("x \"y\\" ++ "\n" ++ "z")).lines.starts = [0, 6] := by
  have ha : segments "x \"y\\".toList = firstSegments 5 "x \"y\\".toList :=
    segments_eq_firstSegments (by decide)
  have hb : segments "z".toList = firstSegments 1 "z".toList :=
    segments_eq_firstSegments (by decide)
  have hclosed : ∀ s ∈ segments "x \"y\\".toList, s.content ≠ .layout .openComment := by
    rw [ha]
    decide
  obtain ⟨⟨tokens, hfirst, hall⟩, hdiagnostics, hstarts⟩ := lex_joined "" "z" hclosed
  refine ⟨hclosed, ?_, ?_, ?_⟩
  · rw [lex_tokens, ha] at hfirst
    obtain rfl := List.append_cancel_right hfirst
    rw [hall, lex_tokens, hb]
    decide
  · rw [hdiagnostics, lex_diagnostics, lex_diagnostics, ha, hb]
    decide
  · rw [hstarts, starts_lex, starts_lex]
    decide

end FrontEnd
