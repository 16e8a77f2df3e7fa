/-
# Where segments stand

Lexing goes over the segments of a text one by one and adds up their lengths.  Here that is
said at once: `placed` gives each segment its offset, and the tokens and diagnostics of a
text are those of its placed segments.

* `lex_tokens`, `lex_diagnostics`: what lexing a text yields;
* `mem_placed`: a placed segment stands where its offset says.
-/
import FrontEnd.Lexer

namespace FrontEnd

/-- Segments with their offsets; the first stands at `offset`. -/
def placed (offset : Nat) : List Segment → List (Nat × Segment)
  | [] => []
  | s :: rest => (offset, s) :: placed (offset + Text.byteLength s.chars) rest

/-- The token of a placed segment. -/
def placedToken? (p : Nat × Segment) : Option Token := p.2.token? p.1

/-- The diagnostic of a placed segment. -/
def placedDiagnostic? (p : Nat × Segment) : Option Diagnostic := p.2.diagnostic? p.1

/-- A diagnostic is about the whole of its segment. -/
theorem span_of_placedDiagnostic? {p : Nat × Segment} {d : Diagnostic}
    (h : placedDiagnostic? p = some d) : d.span = some ⟨p.1, Text.byteLength p.2.chars⟩ := by
  unfold placedDiagnostic? Segment.diagnostic? at h
  split at h <;> cases h
  rfl

/-- Segments are placed one after the other. -/
theorem placed_append (offset : Nat) : ∀ ss ss' : List Segment,
    placed offset (ss ++ ss') =
      placed offset ss ++ placed (offset + Text.byteLength (ss.flatMap (·.chars))) ss'
  | [], _ => by simp [placed]
  | s :: ss, ss' => by
    rw [List.cons_append, placed, placed_append, placed, List.flatMap_cons,
      Text.byteLength_append, Nat.add_assoc, List.cons_append]

/-! ## 1. What lexing yields -/

namespace Lexer

/-- **The tokens that are drained are those of the segments**, and then the end of the text, which
is where the last segment ends. -/
theorem drain_fst : ∀ (segs : List Segment) (l : Lexer),
    (l.drain segs).1 = (placed l.offset segs).filterMap placedToken?
      ++ [.eof (l.offset + Text.byteLength (segs.flatMap (·.chars)))]
  | [], l => rfl
  | s :: rest, l => by
    have ih := drain_fst rest ((l.pass s rest).handOut (s.token? l.offset))
    simp only [drain, placed, List.filterMap_cons, List.flatMap_cons, Text.byteLength_append]
    rw [ih]
    cases ht : s.token? l.offset <;> simp [placedToken?, ht, handOut, pass, Nat.add_assoc]

/-- The diagnostics of the segments are added to those that were there. -/
theorem drain_diagnostics : ∀ (segs : List Segment) (l : Lexer),
    (l.drain segs).2.diagnostics =
      l.diagnostics ++ (placed l.offset segs).filterMap placedDiagnostic?
  | [], l => by simp [drain, handOut, placed]
  | s :: rest, l => by
    have ih := drain_diagnostics rest ((l.pass s rest).handOut (s.token? l.offset))
    simp only [drain, placed, List.filterMap_cons]
    rw [ih]
    cases hd : s.diagnostic? l.offset <;> simp [placedDiagnostic?, hd, handOut, pass]

theorem drain_path : ∀ (segs : List Segment) (l : Lexer), (l.drain segs).2.path = l.path
  | [], _ => rfl
  | s :: rest, l => drain_path rest ((l.pass s rest).handOut (s.token? l.offset))

end Lexer

/-- **The tokens of a text are those of its segments, and the end of the text.** -/
theorem lex_tokens (path source : String) :
    (lex path source).tokens =
      (placed 0 (segments source.toList)).filterMap placedToken? ++ [.eof source.utf8ByteSize] := by
  have h := Lexer.drain_fst (segments source.toList) (Lexer.start path source)
  simp only [flatMap_segments, Text.byteLength_toList, Lexer.start, Lexer.withOptions,
    Nat.zero_add] at h
  have hend : EndsWithEof
      ((placed 0 (segments source.toList)).filterMap placedToken? ++ [.eof source.utf8ByteSize]) :=
    ⟨.eof source.utf8ByteSize, by simp, rfl⟩
  rw [← terminate_eq_self hend, ← h]
  rfl

theorem lex_diagnostics (path source : String) :
    (lex path source).diagnostics =
      (placed 0 (segments source.toList)).filterMap placedDiagnostic? :=
  Lexer.drain_diagnostics (segments source.toList) (Lexer.start path source)

/-- The path is kept as it is. -/
theorem lex_path (path source : String) : (lex path source).path = path :=
  Lexer.drain_path (segments source.toList) (Lexer.start path source)

/-! ## 2. Where a segment stands -/

/-- **A placed segment stands where its offset says**, and what follows it are the segments
after it. -/
theorem mem_placed {offset : Nat} {p : Nat × Segment} : ∀ {segs : List Segment},
    p ∈ placed offset segs → ∃ before after, segs = before ++ p.2 :: after ∧
      p.1 = offset + Text.byteLength (before.flatMap (·.chars))
  | [], h => by cases h
  | s :: rest, h => by
    rcases List.mem_cons.mp h with rfl | h
    · exact ⟨[], rest, rfl, rfl⟩
    · obtain ⟨before, after, rfl, ho⟩ := mem_placed h
      exact ⟨s :: before, after, rfl, by rw [ho]; simp [Nat.add_assoc]⟩

theorem mem_segments_of_mem_placed {offset : Nat} {segs : List Segment} {p : Nat × Segment}
    (h : p ∈ placed offset segs) : p.2 ∈ segs := by
  obtain ⟨before, after, rfl, -⟩ := mem_placed h
  simp

/-! ## 3. What a segment is -/

/-- All that the first segment of a text can be. -/
theorem Segment.first?_cases {chars rest : List Char} {s : Segment}
    (h : first? chars = some (s, rest)) :
    (∃ l piece, Layout.read? chars = some (l, piece, rest) ∧ s = ⟨.layout l, piece⟩) ∨
    (∃ l, Layout.read? chars = none ∧ Lexeme.read? chars = some l ∧
      s = ⟨.lexeme l.kind, l.chars⟩ ∧ rest = l.rest) ∨
    ∃ c tail, chars = c :: tail ∧ Layout.read? chars = none ∧ Lexeme.read? chars = none ∧
      (s, rest) = ofFault c tail := by
  cases chars with
  | nil => cases h
  | cons c tail =>
    simp only [first?] at h
    split at h
    · rename_i l piece after hl
      cases h
      exact .inl ⟨l, piece, hl, rfl⟩
    · rename_i hl
      split at h
      · rename_i l hr
        cases h
        exact .inr (.inl ⟨l, hl, hr, rfl, rfl⟩)
      · rename_i hr
        exact .inr (.inr ⟨c, tail, rfl, hl, hr, (Option.some.inj h).symm⟩)

/-- Each segment was the first of what was left. -/
theorem exists_first_of_mem_segments {chars : List Char} {s : Segment}
    (hs : s ∈ segments chars) : ∃ left rest, Segment.first? left = some (s, rest) := by
  fun_induction segments chars with
  | case1 => cases hs
  | case2 chars t rest h _ ih =>
    rcases List.mem_cons.mp hs with rfl | hs
    · exact ⟨chars, rest, h⟩
    · exact ih hs

end FrontEnd
