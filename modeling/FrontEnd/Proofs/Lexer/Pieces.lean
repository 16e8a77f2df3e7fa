/-
# What layout is made of

`Layout.read?` takes pieces off a text.  Here is what a piece is, without reading: a run of
blanks that no blank follows, a comment up to the first `*/`, one that no `*/` closes and
that ends the text, and a comment up to the end of its line.  `Layouts` is a sequence of
such pieces.

* `piece_of_read?`: what is taken is a piece;
* `read?_of_piece`: and every piece is taken whole.
-/
import FrontEnd.Segment
import Mathlib.Data.List.TakeWhile

namespace FrontEnd

/-! ## 1. Runs -/

section
variable {α : Type} {p : α → Bool} {run after : List α}

theorem takeWhile_run (hr : ∀ c ∈ run, p c = true) (ha : ∀ c ∈ after.head?, p c = false) :
    (run ++ after).takeWhile p = run := by
  rw [List.takeWhile_append_of_pos hr]
  cases after with
  | nil => simp
  | cons c _ => simp [ha c rfl]

theorem dropWhile_run (hr : ∀ c ∈ run, p c = true) (ha : ∀ c ∈ after.head?, p c = false) :
    (run ++ after).dropWhile p = after := by
  rw [List.dropWhile_append_of_pos hr]
  cases after with
  | nil => rfl
  | cons c _ => simp [ha c rfl]

theorem head?_dropWhile {chars : List α} {c : α} (h : c ∈ (chars.dropWhile p).head?) :
    p c = false := by
  have := List.head?_dropWhile_not p chars
  rw [Option.mem_def.mp h] at this
  simpa using this

end

section
variable {line after : List Char}

theorem takeWhile_line (hl : '\n' ∉ line) (ha : ∀ c ∈ after.head?, c = '\n') :
    (line ++ after).takeWhile (· != '\n') = line :=
  takeWhile_run (fun c hc => by simpa using fun he : c = '\n' => hl (he ▸ hc)) (by simpa using ha)

theorem dropWhile_line (hl : '\n' ∉ line) (ha : ∀ c ∈ after.head?, c = '\n') :
    (line ++ after).dropWhile (· != '\n') = after :=
  dropWhile_run (fun c hc => by simpa using fun he : c = '\n' => hl (he ▸ hc)) (by simpa using ha)

/-- A text is the rest of its line and what follows, which starts with a line feed. -/
theorem line_spec (chars : List Char) : '\n' ∉ chars.takeWhile (· != '\n') ∧
    ∀ c ∈ (chars.dropWhile (· != '\n')).head?, c = '\n' :=
  ⟨fun hm => by simpa using List.mem_takeWhile_imp hm, fun c hc => by simpa using head?_dropWhile hc⟩

end

/-! ## 2. Pieces of layout -/

namespace Layout

/-- No `*/` in the text. -/
def NoClose (body : List Char) : Prop := ¬ ['*', '/'] <:+: body

/-- `piece` is one piece of layout, and `after` is the text that follows it. -/
inductive Piece : Layout → List Char → List Char → Prop
  | blanks {run after : List Char} : run ≠ [] → (∀ c ∈ run, isBlank c = true) →
      (∀ c ∈ after.head?, isBlank c = false) → Piece .blanks run after
  | comment {body after : List Char} : NoClose body →
      Piece .comment ('/' :: '*' :: body ++ ['*', '/']) after
  | openComment {body : List Char} : NoClose body → Piece .openComment ('/' :: '*' :: body) []
  | lineComment {body after : List Char} : '\n' ∉ body → (∀ c ∈ after.head?, c = '\n') →
      Piece .lineComment ('/' :: '/' :: body) after

theorem noClose_nil : NoClose [] := by simp [NoClose]

/-- A body is not closed by a character in front unless this makes a star and a slash. -/
theorem noClose_cons {c : Char} {body : List Char} (h : NoClose body)
    (hc : ¬ (c = '*' ∧ body.head? = some '/')) : NoClose (c :: body) := by
  rintro hi
  rcases List.infix_cons_iff.mp hi with hp | hi
  · obtain ⟨rest, hr⟩ := hp
    cases hr
    exact hc ⟨rfl, rfl⟩
  · exact h hi

/-- The text is split after its first `*/`. -/
theorem splitAfterClose?_eq_some {chars inside after : List Char}
    (h : splitAfterClose? chars = some (inside, after)) :
    ∃ body, inside = body ++ ['*', '/'] ∧ NoClose body := by
  fun_induction splitAfterClose? chars generalizing inside after with
  | case1 => cases h
  | case2 => cases h
  | case3 =>
    cases h
    exact ⟨[], rfl, noClose_nil⟩
  | case4 c d rest hc ih =>
    obtain ⟨⟨i, a⟩, hi, he⟩ := Option.map_eq_some_iff.mp h
    cases he
    obtain ⟨body, rfl, hb⟩ := ih hi
    refine ⟨c :: body, rfl, noClose_cons hb ?_⟩
    rintro ⟨rfl, hd⟩
    have hrest := splitAfterClose?_eq_append hi
    cases body with
    | nil => cases hd
    | cons e body =>
      cases hd
      cases hrest
      exact hc ⟨rfl, rfl⟩

/-- Without a closing mark the comment goes on to the end. -/
theorem splitAfterClose?_eq_none {chars : List Char} (h : splitAfterClose? chars = none) :
    NoClose chars := by
  fun_induction splitAfterClose? chars with
  | case1 => exact noClose_nil
  | case2 c => exact noClose_cons noClose_nil (by simp)
  | case3 => cases h
  | case4 c d rest hc ih =>
    refine noClose_cons (ih (Option.map_eq_none_iff.mp h)) ?_
    rintro ⟨rfl, hd⟩
    cases hd
    exact hc ⟨rfl, rfl⟩

/-- The first closing mark is taken. -/
theorem splitAfterClose?_append : ∀ (body after : List Char), NoClose body →
    splitAfterClose? (body ++ '*' :: '/' :: after) = some (body ++ ['*', '/'], after)
  | [], after, _ => by simp [splitAfterClose?]
  | [c], after, h => by
    have := splitAfterClose?_append [] after noClose_nil
    simp_all [splitAfterClose?]
  | c :: d :: body, after, h => by
    have hc : ¬ (c = '*' ∧ d = '/') := by
      rintro ⟨rfl, rfl⟩
      exact h ⟨[], body, rfl⟩
    have ih := splitAfterClose?_append (d :: body) after
      fun hi => h (hi.trans (List.suffix_cons c _).isInfix)
    rw [List.cons_append, List.cons_append, splitAfterClose?, if_neg hc, ← List.cons_append, ih]
    rfl

/-- A text without `*/` is not split. -/
theorem splitAfterClose?_of_noClose {chars : List Char} (h : NoClose chars) :
    splitAfterClose? chars = none := by
  cases hs : splitAfterClose? chars with
  | none => rfl
  | some p =>
    obtain ⟨body, hb, -⟩ := splitAfterClose?_eq_some hs
    have hchars := splitAfterClose?_eq_append hs
    rw [hb, List.append_assoc] at hchars
    exact absurd ⟨body, p.2, by rw [hchars, List.append_assoc]⟩ h

/-- **What is taken is a piece.** -/
theorem piece_of_read? {chars piece after : List Char} {l : Layout}
    (h : read? chars = some (l, piece, after)) : Piece l piece after := by
  unfold read? at h
  split at h
  · rename_i rest
    split at h
    · rename_i inside after' hs
      cases h
      obtain ⟨body, rfl, hb⟩ := splitAfterClose?_eq_some hs
      exact .comment hb
    · rename_i hs
      cases h
      exact .openComment (splitAfterClose?_eq_none hs)
  · rename_i rest
    cases h
    exact .lineComment (line_spec rest).1 (line_spec rest).2
  · rename_i c tail _ _
    split at h
    · rename_i hc
      cases h
      exact .blanks (by simp [hc]) (fun d hd => List.mem_takeWhile_imp hd)
        fun d hd => head?_dropWhile hd
    · cases h
  · cases h

/-- Layout starts with a blank or a slash. -/
theorem read?_eq_none {c : Char} (hb : isBlank c = false) (hs : c ≠ '/') (tail : List Char) :
    read? (c :: tail) = none := by
  simp [read?, hb, hs]

/-- A run of blanks is taken whole. -/
theorem read?_blanks {run after : List Char} (hn : run ≠ []) (hr : ∀ c ∈ run, isBlank c = true)
    (ha : ∀ c ∈ after.head?, isBlank c = false) :
    read? (run ++ after) = some (.blanks, run, after) := by
  obtain ⟨c, tail, rfl⟩ := List.exists_cons_of_ne_nil hn
  have hc : isBlank c = true := hr c (by simp)
  have htake := takeWhile_run hr ha
  have hdrop := dropWhile_run hr ha
  rw [List.cons_append] at htake hdrop ⊢
  generalize tail ++ after = following at htake hdrop ⊢
  unfold read?
  split
  · rename_i h; cases h; exact absurd hc (by decide)
  · rename_i h; cases h; exact absurd hc (by decide)
  · rename_i h
    cases h
    rw [if_pos hc, htake, hdrop]
  · rename_i h; cases h

/-- Where no layout is taken, the text starts with no blank. -/
theorem isBlank_of_read?_eq_none {c : Char} {tail : List Char} (h : read? (c :: tail) = none) :
    isBlank c = false := by
  refine Bool.eq_false_iff.mpr fun hc => ?_
  have hrun : read? ((c :: tail).takeWhile isBlank ++ (c :: tail).dropWhile isBlank) =
      some (.blanks, (c :: tail).takeWhile isBlank, (c :: tail).dropWhile isBlank) :=
    read?_blanks (by simp [hc]) (fun _ => List.mem_takeWhile_imp) fun _ => head?_dropWhile
  rw [List.takeWhile_append_dropWhile, h] at hrun
  cases hrun

/-- Where no layout is taken, a slash does not open a comment. -/
theorem not_comment_of_read?_eq_none {c : Char} {rest : List Char}
    (h : read? ('/' :: c :: rest) = none) : c ≠ '/' ∧ c ≠ '*' := by
  refine ⟨?_, ?_⟩ <;> rintro rfl <;> simp only [read?] at h
  · cases h
  · split at h <;> cases h

/-- **Every piece is taken whole.** -/
theorem read?_of_piece {l : Layout} {piece after : List Char} (h : Piece l piece after) :
    read? (piece ++ after) = some (l, piece, after) := by
  cases h with
  | blanks hn hr ha => exact read?_blanks hn hr ha
  | @comment body _ hb =>
    have hsplit := splitAfterClose?_append body after hb
    simp [read?, hsplit]
  | openComment hb => simp [read?, splitAfterClose?_of_noClose hb]
  | lineComment hb ha => simp [read?, takeWhile_line hb ha, dropWhile_line hb ha]

end Layout

/-! ## 3. Sequences of pieces -/

/-- The text is a sequence of pieces of layout, and `after` follows it. -/
inductive Layouts : List Char → List Char → Prop
  | nil (after : List Char) : Layouts [] after
  | cons {l : Layout} {piece rest after : List Char} :
      Layout.Piece l piece (rest ++ after) → Layouts rest after → Layouts (piece ++ rest) after

/-- One more piece at the end. -/
theorem Layouts.snoc {l : Layout} {text piece after : List Char}
    (h : Layouts text (piece ++ after)) (hp : Layout.Piece l piece after) :
    Layouts (text ++ piece) after := by
  generalize hx : piece ++ after = following at h
  induction h with
  | nil =>
    rw [List.nil_append, ← List.append_nil piece]
    exact .cons hp (.nil after)
  | cons hp' _ ih =>
    subst hx
    rw [List.append_assoc]
    exact .cons (by rwa [List.append_assoc]) (ih rfl)

end FrontEnd
