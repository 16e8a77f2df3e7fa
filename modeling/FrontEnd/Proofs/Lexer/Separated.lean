/-
# Lexing undoes writing tokens out

Tokens can be written one after the other with a separator after each: a blank, and then any
layout that is closed.  Lexing such a text gives these tokens back, at the bytes where they
were written, and reports nothing.

A separator is needed because lexemes grow: two names make one, a slash before a star opens a
comment, a point goes with the digits before it.  A blank is read together with none of them
(`Lexeme.apart_cons`), so one blank is enough, whatever stands on its two sides.  The layout
after it may look like anything: a comment can hold quotes, slashes and stars.

* `Writing`: a token to be written, and the layout that follows it;
* `marked_separated`: the segments of the text that are no layout are the lexemes;
* `lex_separated`: so the tokens of the text are those that were written.
-/
import FrontEnd.Proofs.Lexer.Spaced

namespace FrontEnd

/-! ## 1. Writings -/

/-- Layout that starts with a blank and is closed. -/
def Layout.Separator (layout : List Char) : Prop :=
  ∃ c rest, layout = c :: rest ∧ isBlank c = true ∧ Closed rest

/-- A separator is closed layout, because a blank before it leaves it so. -/
theorem Layout.Separator.closed {layout : List Char} (h : Separator layout) : Closed layout := by
  obtain ⟨c, rest, rfl, hc, hrest⟩ := h
  exact .blank hc hrest

/-- It keeps apart what stands before it. -/
theorem Layout.Separator.apart {layout : List Char} (h : Separator layout) (after : List Char) :
    Lexeme.Apart (layout ++ after) := by
  obtain ⟨c, rest, rfl, hc, -⟩ := h
  exact fun d hd => by simpa using Option.some.inj hd ▸ hc

/-- A token to be written, by its kind and its text, and the layout that follows it. -/
structure Writing where
  kind : Kind
  text : String
  layout : List Char

namespace Writing

/-- How the token is written: a literal in its quotes, any other token as its text. -/
def lexeme (w : Writing) : List Char := Lexeme.written w.kind w.text.toList

/-- The lexeme and the layout that follows it. -/
def chars (w : Writing) : List Char := w.lexeme ++ w.layout

/-- The lexeme is in the language of its kind. -/
def Spelled (w : Writing) : Prop := Lexeme.Spelling w.kind w.lexeme

instance (w : Writing) : Decidable w.Spelled :=
  inferInstanceAs (Decidable (Lexeme.Spelling w.kind w.lexeme))

/-- The token, where its lexeme starts at `offset`. -/
def token (w : Writing) (offset : Nat) : Token :=
  ⟨w.kind, w.text, ⟨offset, Text.byteLength w.lexeme⟩⟩

/-- The tokens of writings that are put one after the other, the first at `offset`. -/
def tokens (offset : Nat) : List Writing → List Token
  | [] => []
  | w :: ws => w.token offset :: tokens (offset + Text.byteLength w.chars) ws

/-- Every lexeme is in the language of its kind, and a separator follows it; none need follow
the last one. -/
inductive Separated : List Writing → Prop
  | nil : Separated []
  | last {w : Writing} : w.Spelled → w.layout = [] → Separated [w]
  | cons {w : Writing} {ws : List Writing} : w.Spelled → Layout.Separator w.layout →
      Separated ws → Separated (w :: ws)

/-! ## 2. The lexemes of the text -/

/-- The lexeme as a segment. -/
def segment (w : Writing) : Segment := ⟨.lexeme w.kind, w.lexeme⟩

/-- The segment is lexed to the token that was written. -/
theorem token?_segment (w : Writing) (offset : Nat) :
    w.segment.token? offset = some (w.token offset) := by
  simp [segment, Segment.token?, lexeme, Lexeme.text_written, token]

/-- The lexemes with their offsets. -/
def marks (offset : Nat) : List Writing → List (Nat × Segment)
  | [] => []
  | w :: ws => (offset, w.segment) :: marks (offset + Text.byteLength w.chars) ws

/-- The lexemes that were marked are the tokens that were written. -/
theorem filterMap_token_marks (offset : Nat) (ws : List Writing) :
    (marks offset ws).filterMap placedToken? = tokens offset ws := by
  induction ws generalizing offset with
  | nil => rfl
  | cons w ws ih => simp [marks, placedToken?, token?_segment, tokens, ih]

/-- None of them is a fault. -/
theorem filterMap_diagnostic_marks (offset : Nat) (ws : List Writing) :
    (marks offset ws).filterMap placedDiagnostic? = [] := by
  induction ws generalizing offset with
  | nil => rfl
  | cons w ws ih =>
    rw [marks, List.filterMap_cons]
    exact ih _

/-- **All lexemes.**  What is no layout in the text is what was written. -/
theorem marked_separated {ws : List Writing} (h : Separated ws) :
    ∀ offset, marked offset (ws.flatMap chars) = marks offset ws := by
  induction h with
  | nil => exact fun _ => marked_nil _
  | @last w hw hl =>
    intro offset
    have hnone : Lexeme.Apart [] := by simp [Lexeme.Apart]
    have hlast := marked_lexeme hw hnone offset
    simpa [chars, hl, marks, segment] using hlast
  | @cons w ws hw hl _ ih =>
    intro offset
    rw [List.flatMap_cons, chars, List.append_assoc, marked_lexeme hw (hl.apart _),
      marked_closed hl.closed, ih, marks, chars, Text.byteLength_append, Nat.add_assoc, segment]

/-! ## 3. Lexing -/

theorem map_kind_text_tokens (offset : Nat) (ws : List Writing) :
    (tokens offset ws).map (fun t => (t.kind, t.text)) = ws.map fun w => (w.kind, w.text) := by
  induction ws generalizing offset with
  | nil => rfl
  | cons w ws ih => simp [tokens, token, ih]

end Writing

/-- **Lexing undoes writing tokens out.**  The tokens may be any, as long as each is written
in the language of its kind; any separators may follow them.  They come back with their kinds,
their texts and the bytes where they were written, then the end of the text, and nothing is
reported.  So kinds and texts do not depend on the separators at all: layout and comments
never change the sequence of tokens. -/
theorem lex_separated (path : String) {ws : List Writing} {source : String}
    (h : Writing.Separated ws) (hsource : source.toList = ws.flatMap Writing.chars) :
    (lex path source).tokens = Writing.tokens 0 ws ++ [.eof source.utf8ByteSize] ∧
      (lex path source).diagnostics = [] ∧
      (lex path source).tokens.map (fun t => (t.kind, t.text)) =
        ws.map (fun w => (w.kind, w.text)) ++ [(.eof, "")] := by
  have hmarked : marked 0 source.toList = Writing.marks 0 ws := by
    rw [hsource, Writing.marked_separated h]
  have htokens : (lex path source).tokens =
      Writing.tokens 0 ws ++ [.eof source.utf8ByteSize] := by
    rw [lex_tokens_marked, hmarked, Writing.filterMap_token_marks]
  refine ⟨htokens, ?_, ?_⟩
  · rw [lex_diagnostics_marked, hmarked, Writing.filterMap_diagnostic_marks]
  · rw [htokens, List.map_append, Writing.map_kind_text_tokens]
    rfl

/-- A slash before a comment that holds one, a number before a point that belongs to a
comment, and a literal with a quote in it. -/
theorem lex_separated_slash :
    let ws : List Writing := [⟨.integerLiteral, "1", [' ', '/', '/', '.', '\n']⟩,
      ⟨.divide, "/", ['\t', '/', '*', '/', '"', '*', '*', '/', '\r']⟩,
      ⟨.stringLiteral, "a\\\"b", [' ']⟩, ⟨.floatLiteral, "2.", []⟩]
    let source := "1 //.\n/\t/*/\"**/\r\"a\\\"b\" 2."
    Writing.Separated ws ∧ source.toList = ws.flatMap Writing.chars ∧
      (lex "" source).tokens = [⟨.integerLiteral, "1", ⟨0, 1⟩⟩, ⟨.divide, "/", ⟨6, 1⟩⟩,
        ⟨.stringLiteral, "a\\\"b", ⟨16, 6⟩⟩, ⟨.floatLiteral, "2.", ⟨23, 2⟩⟩, .eof 25] ∧
      (lex "" source).diagnostics = [] := by
  intro ws source
  have hline : Layout.Closed (['/', '/'] ++ (['.'] ++ '\n' :: [])) := .lineComment (by decide) .nil
  have hcomment : Layout.Closed ('/' :: '*' :: (['/', '"', '*'] ++ '*' :: '/' :: ['\r'])) :=
    .comment (by unfold Layout.NoClose; decide) (.blank rfl .nil)
  have hseparated : Writing.Separated ws :=
    .cons (by decide) ⟨_, _, rfl, rfl, hline⟩ <| .cons (by decide) ⟨_, _, rfl, rfl, hcomment⟩ <|
      .cons (by decide) ⟨_, _, rfl, rfl, .nil⟩ <| .last (by decide) rfl
  have hsource : source.toList = ws.flatMap Writing.chars := by decide
  obtain ⟨htokens, hnone, -⟩ := lex_separated "" hseparated hsource
  exact ⟨hseparated, hsource, htokens.trans (by decide), hnone⟩

end FrontEnd
