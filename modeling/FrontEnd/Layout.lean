/-
# Layout

Layout is what may stand between lexemes without a meaning: runs of blanks and comments.
`Layout.read?` takes one piece of it (`parse_insignificant` takes as many as there are):

* a run of spaces, tabs, carriage returns and line feeds;
* a comment from `/*` to the first `*/`, or to the end of the text if none follows;
* a comment from `//` up to the end of its line.
-/

namespace FrontEnd

/-- The kinds of layout. -/
inductive Layout where
  | blanks
  | comment
  /-- A comment that is not closed and runs to the end of the text. -/
  | openComment
  | lineComment
  deriving DecidableEq, Repr

namespace Layout

def isBlank (c : Char) : Bool := c == ' ' || c == '\t' || c == '\r' || c == '\n'

/-- Splits the text after the first `*/`, if there is one. -/
def splitAfterClose? : List Char → Option (List Char × List Char)
  | [] => none
  | [_] => none
  | c :: d :: rest =>
    if c = '*' ∧ d = '/' then some (['*', '/'], rest)
    else (splitAfterClose? (d :: rest)).map fun (inside, after) => (c :: inside, after)

/-- The piece of layout that the text starts with, its characters and what follows. -/
def read? (chars : List Char) : Option (Layout × List Char × List Char) :=
  match chars with
  | '/' :: '*' :: rest =>
    match splitAfterClose? rest with
    | some (inside, after) => some (.comment, '/' :: '*' :: inside, after)
    | none => some (.openComment, chars, [])
  | '/' :: '/' :: rest =>
    some (.lineComment, '/' :: '/' :: rest.takeWhile (· != '\n'), rest.dropWhile (· != '\n'))
  | c :: _ =>
    if isBlank c then some (.blanks, chars.takeWhile isBlank, chars.dropWhile isBlank) else none
  | [] => none

theorem splitAfterClose?_eq_append {chars inside after : List Char}
    (h : splitAfterClose? chars = some (inside, after)) : chars = inside ++ after := by
  fun_induction splitAfterClose? chars generalizing inside after with
  | case1 => simp at h
  | case2 => simp at h
  | case3 _ _ _ hc =>
    cases h
    simp [hc.1, hc.2]
  | case4 _ _ _ _ ih =>
    obtain ⟨⟨i, a⟩, hi, he⟩ := Option.map_eq_some_iff.mp h
    cases he
    simp [ih hi]

/-- A piece of layout and what follows it make up the text, and the piece is not empty. -/
theorem read?_eq_append {chars piece rest : List Char} {l : Layout}
    (h : read? chars = some (l, piece, rest)) : chars = piece ++ rest ∧ piece ≠ [] := by
  unfold read? at h
  split at h
  · split at h <;> cases h
    · rename_i hs
      simp [splitAfterClose?_eq_append hs]
    · simp
  · cases h
    simp
  · rename_i c tail _ _
    split at h
    · rename_i hc
      cases h
      simp [hc]
    · simp at h
  · simp at h

end Layout
end FrontEnd
