/-
# Lines of a text

A line ends at a line feed, and a carriage return just before that line feed belongs to the
ending.  Every other carriage return is part of its line.  A text that ends in a line feed
has no further line after it.
-/

namespace FrontEnd.Text

/-- The lines of the characters, without their endings. -/
def splitLines : List Char → List (List Char)
  | [] => []
  | c :: rest =>
    if c = '\n' then [] :: splitLines rest
    else if c = '\r' ∧ rest.head? = some '\n' then splitLines rest
    else match splitLines rest with
      | [] => [[c]]
      | line :: others => (c :: line) :: others

/-- The lines of the text, without their endings. -/
def lines (text : String) : List String := (splitLines text.toList).map String.ofList

/-- No line holds a line feed. -/
theorem not_mem_of_mem_splitLines {chars line : List Char} (h : line ∈ splitLines chars) :
    '\n' ∉ line := by
  induction chars generalizing line with
  | nil => simp [splitLines] at h
  | cons c rest ih =>
    rw [splitLines] at h
    split at h
    · rcases List.mem_cons.mp h with rfl | h
      · simp
      · exact ih h
    · rename_i hc
      split at h
      · exact ih h
      · split at h
        · simp at h
          subst h
          simp [Ne.symm hc]
        · rename_i first others he
          rcases List.mem_cons.mp h with rfl | h
          · simp only [List.mem_cons, not_or]
            exact ⟨Ne.symm hc, ih (by simp [he])⟩
          · exact ih (by simp [he, h])

theorem splitLines_ne_nil {chars : List Char} (h : chars ≠ []) : splitLines chars ≠ [] := by
  induction chars with
  | nil => exact absurd rfl h
  | cons c rest ih =>
    rw [splitLines]
    split
    · exact List.cons_ne_nil _ _
    · split
      · rename_i hr
        obtain ⟨tail, rfl⟩ := List.head?_eq_some_iff.mp hr.2
        exact ih (List.cons_ne_nil _ _)
      · split <;> exact List.cons_ne_nil _ _

/-- Lines end at a line feed, whatever follows it. -/
theorem splitLines_append (before after : List Char) :
    splitLines (before ++ '\n' :: after) = splitLines (before ++ ['\n']) ++ splitLines after := by
  induction before with
  | nil => rfl
  | cons c before ih =>
    have hhead : (before ++ '\n' :: after).head? = (before ++ ['\n']).head? := by
      cases before <;> rfl
    have hne : splitLines (before ++ ['\n']) ≠ [] := splitLines_ne_nil (by simp)
    obtain ⟨line, others, hlines⟩ := List.exists_cons_of_ne_nil hne
    simp only [List.cons_append, splitLines, ih, hhead, hlines]
    split
    · rfl
    · split <;> rfl

/-- Characters without a line feed are one line. -/
theorem splitLines_of_not_mem {line : List Char} (h : '\n' ∉ line) (hne : line ≠ []) :
    splitLines line = [line] := by
  induction line with
  | nil => exact absurd rfl hne
  | cons c rest ih =>
    simp only [List.mem_cons, not_or] at h
    have hhead : rest.head? ≠ some '\n' := fun hr => h.2 (List.mem_of_mem_head? hr)
    rw [splitLines, if_neg (Ne.symm h.1), if_neg fun hc => hhead hc.2]
    cases rest with
    | nil => rfl
    | cons d rest => rw [ih h.2 (List.cons_ne_nil d rest)]

/-- So they are with a line feed after them, but for a carriage return at their end. -/
theorem splitLines_line {line : List Char} (h : '\n' ∉ line) :
    ∃ kept, splitLines (line ++ ['\n']) = [kept] ∧ (line = kept ∨ line = kept ++ ['\r']) := by
  induction line with
  | nil => exact ⟨[], rfl, .inl rfl⟩
  | cons c rest ih =>
    simp only [List.mem_cons, not_or] at h
    obtain ⟨kept, hsplit, hkept⟩ := ih h.2
    rw [List.cons_append, splitLines, if_neg (Ne.symm h.1), hsplit]
    by_cases hr : c = '\r' ∧ (rest ++ ['\n']).head? = some '\n'
    · obtain ⟨rfl, hhead⟩ := hr
      obtain rfl : rest = [] := by
        cases rest with
        | nil => rfl
        | cons d rest =>
          cases hhead
          exact absurd List.mem_cons_self h.2
      cases hsplit
      exact ⟨[], if_pos ⟨rfl, rfl⟩, .inr rfl⟩
    · refine ⟨c :: kept, if_neg hr, hkept.imp ?_ ?_⟩
      · rintro rfl
        rfl
      · rintro rfl
        rfl

/-- A line feed at the end of a text adds an empty line, or ends the last line and may take a
carriage return from it. -/
theorem prefix_of_mem_splitLines {chars line : List Char}
    (h : line ∈ splitLines (chars ++ ['\n'])) :
    line = [] ∨ ∃ whole ∈ splitLines chars, line <+: whole := by
  -- the last line of the text, and what is before it
  have hlast : ∀ {last : List Char}, '\n' ∉ last → line ∈ splitLines (last ++ ['\n']) →
      line = [] ∨ ∃ whole ∈ splitLines last, line <+: whole := by
    intro last hlast hline
    by_cases hne : last = []
    · subst hne
      exact .inl (List.mem_singleton.mp hline)
    · obtain ⟨kept, hsplit, hkept⟩ := splitLines_line hlast
      rw [hsplit] at hline
      obtain rfl := List.mem_singleton.mp hline
      refine .inr ⟨last, by simp [splitLines_of_not_mem hlast hne], ?_⟩
      rcases hkept with rfl | rfl
      · exact List.prefix_rfl
      · exact List.prefix_append _ _
  by_cases hn : '\n' ∈ chars
  · obtain ⟨last, before, hrev, hnone⟩ := List.eq_append_cons_of_mem (List.mem_reverse.mpr hn)
    obtain rfl : chars = before.reverse ++ '\n' :: last.reverse := by
      simpa using congrArg List.reverse hrev
    rw [List.append_assoc, List.cons_append, splitLines_append] at h
    rw [splitLines_append]
    rcases List.mem_append.mp h with h | h
    · exact .inr ⟨line, List.mem_append_left _ h, List.prefix_rfl⟩
    · refine (hlast (by simpa using hnone) h).imp id ?_
      rintro ⟨whole, hwhole, hprefix⟩
      exact ⟨whole, List.mem_append_right _ hwhole, hprefix⟩
  · exact hlast hn h

end FrontEnd.Text
