/-
# Lexemes with layout between them

A text can be written by putting lexemes one after the other, with layout before, between
and after them.  If each lexeme is followed by a blank or by the end, the segments of the
text are these lexemes and pieces of layout, and there is no fault.

* `Closed`: layout that a lexeme can follow;
* `marked_closed`, `marked_lexeme`: layout has no mark, and a lexeme has one;
* `Spaced`: a text written so.

How layout falls into pieces does not matter and is not always how it was put together: a
line feed that ends a comment joins the blanks after it.  So nothing is said of its segments.
-/
import FrontEnd.Proofs.Lexer.Boundaries

namespace FrontEnd

/-! ## 1. Layout -/

/-- Blanks, closed comments and comments up to a line feed, in any mix. -/
inductive Layout.Closed : List Char → Prop
  | nil : Closed []
  | blank {c : Char} {text : List Char} : isBlank c = true → Closed text → Closed (c :: text)
  | comment {body text : List Char} : NoClose body → Closed text →
      Closed ('/' :: '*' :: (body ++ '*' :: '/' :: text))
  | lineComment {body text : List Char} : '\n' ∉ body → Closed text →
      Closed ('/' :: '/' :: (body ++ '\n' :: text))

/-- Blanks are closed layout. -/
theorem Layout.closed_blanks {run : List Char} (h : ∀ c ∈ run, isBlank c = true) :
    Closed run := by
  induction run with
  | nil => exact .nil
  | cons c run ih => exact .blank (h c (by simp)) (ih fun d hd => h d (by simp [hd]))

/-- **A blank has no mark, whatever follows.**  It may be read together with blanks after it, or
alone: either way nothing is marked. -/
theorem marked_blank {c : Char} (hc : Layout.isBlank c = true) (offset : Nat) (after : List Char) :
    marked offset (c :: after) = marked (offset + c.utf8Size) after := by
  have hrun : ∀ d ∈ [c], Layout.isBlank d = true := by simpa using hc
  simpa using marked_blanks hrun offset after

/-- **Layout has no token and no fault**, whatever follows it. -/
theorem marked_closed {layout : List Char} (h : Layout.Closed layout) (after : List Char) :
    ∀ offset, marked offset (layout ++ after) = marked (offset + Text.byteLength layout) after := by
  induction h with
  | nil => exact fun _ => rfl
  | blank hc _ ih =>
    intro offset
    rw [List.cons_append, marked_blank hc, ih, Text.byteLength_cons, Nat.add_assoc]
  | @comment body text hb _ ih =>
    intro offset
    have hstands : Segment.Stands ⟨.layout .comment, '/' :: '*' :: body ++ ['*', '/']⟩
        (text ++ after) := .layout (.comment hb)
    have htext : '/' :: '*' :: (body ++ '*' :: '/' :: text) ++ after =
        ('/' :: '*' :: body ++ ['*', '/']) ++ (text ++ after) := by simp
    rw [htext, marked_segment hstands, ih]
    simp [Segment.mark, Segment.isLayout, Nat.add_assoc]
  | @lineComment body text hb _ ih =>
    intro offset
    have hend : ∀ c ∈ ('\n' :: (text ++ after)).head?, c = '\n' := by simp
    have hpiece := marked_segment (.layout (.lineComment hb hend)) offset
    have htext : '/' :: '/' :: (body ++ '\n' :: text) ++ after =
        ('/' :: '/' :: body) ++ '\n' :: (text ++ after) := by simp
    rw [htext, hpiece, marked_blank rfl, ih]
    simp [Segment.mark, Segment.isLayout, Nat.add_assoc]

/-- **A lexeme is one segment** where no part of it follows. -/
theorem marked_lexeme {k : Kind} {lexeme after : List Char} (hk : Lexeme.Spelling k lexeme)
    (ha : Lexeme.Apart after) (offset : Nat) :
    marked offset (lexeme ++ after) =
      (offset, ⟨.lexeme k, lexeme⟩) :: marked (offset + Text.byteLength lexeme) after :=
  marked_segment (.lexeme hk (ha.ends k)) offset

/-! ## 2. Texts -/

/-- The text is the lexemes in order, with layout before, between and after them.  A blank or
nothing follows each. -/
inductive Spaced : List (List Char) → List Char → Prop
  | nil {layout : List Char} : Layout.Closed layout → Spaced [] layout
  | cons {layout lexeme text : List Char} {lexemes : List (List Char)} : Layout.Closed layout →
      Lexeme.Apart text → Spaced lexemes text → Spaced (lexeme :: lexemes) (layout ++ lexeme ++ text)

/-- Closed layout goes on with closed layout. -/
theorem Layout.Closed.append {left right : List Char} (hl : Closed left) (hr : Closed right) :
    Closed (left ++ right) := by
  induction hl with
  | nil => exact hr
  | blank hc _ ih => exact .blank hc ih
  | @comment body text hb _ ih =>
    simp only [List.cons_append, List.append_assoc]
    exact .comment hb ih
  | @lineComment body text hb _ ih =>
    simp only [List.cons_append, List.append_assoc]
    exact .lineComment hb ih

theorem Spaced.prepend {layout text : List Char} {lexemes : List (List Char)}
    (hl : Layout.Closed layout) (h : Spaced lexemes text) : Spaced lexemes (layout ++ text) := by
  cases h with
  | nil ht => exact .nil (hl.append ht)
  | cons ht ha hrest =>
    rw [← List.append_assoc, ← List.append_assoc]
    exact .cons (hl.append ht) ha hrest

/-- Lexemes that are each followed by a separator, which starts with a blank. -/
theorem spaced_flatMap : ∀ {pieces : List (List Char × List Char)},
    (∀ q ∈ pieces, Layout.Closed q.2 ∧ q.2 ≠ [] ∧ Lexeme.Apart q.2) →
    Spaced (pieces.map Prod.fst) (pieces.flatMap fun q => q.1 ++ q.2)
  | [], _ => .nil .nil
  | (lexeme, separator) :: pieces, h => by
    obtain ⟨hl, hn, ha⟩ := h (lexeme, separator) (by simp)
    have ih := spaced_flatMap fun q hq => h q (List.mem_cons_of_mem _ hq)
    rw [List.flatMap_cons, List.append_assoc]
    refine @Spaced.cons [] lexeme _ _ .nil ?_ (ih.prepend hl)
    obtain ⟨c, rest, rfl⟩ := List.exists_cons_of_ne_nil hn
    exact fun d hd => ha d hd

end FrontEnd
