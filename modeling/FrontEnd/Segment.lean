/-
# Segments

A text falls into segments: pieces of layout (`parse_insignificant`), lexemes (`parse_token`), and
faults where neither can be read (`recover`).  `segments` cuts a text into them.  Layout is tried
first: a slash alone is an operator, but two begin a comment.

* `flatMap_segments`: the segments, joined, are the text;
* `ne_nil_of_mem_segments`: no segment is empty.

So every character of a text lies in exactly one segment.  `firstSegments` is for evaluating the
segments of a given text.
-/
import FrontEnd.Layout
import FrontEnd.Lexeme

namespace FrontEnd

/-- Why no lexeme can be read (`LexingError`). -/
inductive Fault where
  | invalidChar (c : Char)
  | unterminated (quote : Quote)
  deriving DecidableEq, Repr

/-- What a segment is. -/
inductive Segment.Content where
  | layout (layout : Layout)
  | lexeme (kind : Kind)
  | fault (fault : Fault)
  deriving DecidableEq, Repr

structure Segment where
  content : Segment.Content
  chars : List Char
  deriving DecidableEq, Repr

namespace Segment

/-- The fault of a text that starts neither with layout nor with a lexeme (`recover`): a literal
that is not closed takes the rest of its line, any other character stands alone. -/
def ofFault (c : Char) (rest : List Char) : Segment × List Char :=
  match Quote.ofMark? c with
  | some quote =>
    (⟨.fault (.unterminated quote), c :: rest.takeWhile (· != '\n')⟩,
      rest.dropWhile (· != '\n'))
  | none => (⟨.fault (.invalidChar c), [c]⟩, rest)

/-- The first segment of a text, and what follows it: one round of the loop in `next_token`. -/
def first? (chars : List Char) : Option (Segment × List Char) :=
  match chars with
  | [] => none
  | c :: rest =>
    match Layout.read? chars with
    | some (layout, piece, after) => some (⟨.layout layout, piece⟩, after)
    | none =>
      match Lexeme.read? chars with
      | some l => some (⟨.lexeme l.kind, l.chars⟩, l.rest)
      | none => some (ofFault c rest)

theorem ofFault_eq_append (c : Char) (rest : List Char) :
    c :: rest = (ofFault c rest).1.chars ++ (ofFault c rest).2 ∧
      (ofFault c rest).1.chars ≠ [] := by
  unfold ofFault
  split <;> simp

/-- The first segment and what follows it make up the text, and the segment is not empty. -/
theorem first?_eq_append {chars rest : List Char} {s : Segment}
    (h : first? chars = some (s, rest)) : chars = s.chars ++ rest ∧ s.chars ≠ [] := by
  cases chars with
  | nil => simp [first?] at h
  | cons c tail =>
    simp only [first?] at h
    split at h
    · rename_i hl
      cases h
      exact Layout.read?_eq_append hl
    · split at h
      · rename_i hl
        cases h
        exact Lexeme.read?_eq_append hl
      · have := ofFault_eq_append c tail
        simp_all

theorem length_lt_of_first? {chars rest : List Char} {s : Segment}
    (h : first? chars = some (s, rest)) : rest.length < chars.length := by
  obtain ⟨he, hn⟩ := first?_eq_append h
  rw [he, List.length_append]
  have := List.length_pos_iff.mpr hn
  omega

end Segment

/-- The segments of a text, in order. -/
def segments (chars : List Char) : List Segment :=
  match h : Segment.first? chars with
  | none => []
  | some (s, rest) =>
    have := Segment.length_lt_of_first? h
    s :: segments rest
termination_by chars.length

@[simp] theorem segments_nil : segments [] = [] := by
  unfold segments
  simp [Segment.first?]

/-- One segment after the other. -/
theorem segments_eq_cons {chars rest : List Char} {s : Segment}
    (h : Segment.first? chars = some (s, rest)) : segments chars = s :: segments rest := by
  rw [segments]
  split
  · simp_all
  · simp_all

/-- A text that is not empty has a first segment. -/
theorem Segment.first?_isSome {chars : List Char} (h : chars ≠ []) :
    (Segment.first? chars).isSome := by
  cases chars with
  | nil => exact absurd rfl h
  | cons c rest =>
    simp only [Segment.first?]
    split
    · rfl
    · split <;> rfl

/-- The first `n` segments of a text.  The recursion is on `n`, so that the segments of a given
text can be evaluated. -/
def firstSegments : Nat → List Char → List Segment
  | 0, _ => []
  | n + 1, chars =>
    match Segment.first? chars with
    | none => []
    | some (s, rest) => s :: firstSegments n rest

/-- A text has no more segments than characters. -/
theorem segments_eq_firstSegments {n : Nat} {chars : List Char} (h : chars.length ≤ n) :
    segments chars = firstSegments n chars := by
  induction n generalizing chars with
  | zero => rw [List.length_eq_zero_iff.mp (Nat.le_zero.mp h), segments_nil, firstSegments]
  | succ n ih =>
    rw [firstSegments]
    cases chars with
    | nil => rw [segments_nil, Segment.first?]
    | cons c tail =>
      have hsome := Segment.first?_isSome (List.cons_ne_nil c tail)
      obtain ⟨⟨s, rest⟩, hfirst⟩ := Option.isSome_iff_exists.mp hsome
      have hshorter := Segment.length_lt_of_first? hfirst
      rw [segments_eq_cons hfirst, hfirst, ih (by omega)]

/-- The segments of a text, joined, are the text: nothing is lost and nothing taken twice. -/
theorem flatMap_segments (chars : List Char) : (segments chars).flatMap (·.chars) = chars := by
  fun_induction segments chars with
  | case1 chars h =>
    cases chars with
    | nil => rfl
    | cons c rest =>
      have := Segment.first?_isSome (List.cons_ne_nil c rest)
      simp [h] at this
  | case2 chars s rest h _ ih =>
    rw [List.flatMap_cons, ih]
    exact (Segment.first?_eq_append h).1.symm

/-- No segment is empty. -/
theorem ne_nil_of_mem_segments {chars : List Char} {s : Segment} (hs : s ∈ segments chars) :
    s.chars ≠ [] := by
  fun_induction segments chars with
  | case1 => simp at hs
  | case2 chars t rest h _ ih =>
    rcases List.mem_cons.mp hs with rfl | hs
    · exact (Segment.first?_eq_append h).2
    · exact ih hs

end FrontEnd
