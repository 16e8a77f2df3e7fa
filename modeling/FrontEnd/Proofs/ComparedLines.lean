/-
# What a test compares

A source expects lines of output in its own lines, behind a marker, and an output is compared with
them line by line.  Whether a test says anything depends on what these lines are: a blank dropped
on one side only, a carriage return that stays on one side, or an empty last line would make a
right output fail or a wrong one pass.

Here the lines of a text are described without splitting it.  Lines end at a line feed, alone or
after a carriage return, and any other carriage return belongs to its line.  Blanks at the end of
a line do not count, on either side.  Of a line of the source the marker and at most one space go
as well.

* `Text.Lined`, `Text.Trimmed`: what the lines of a text are, and what is left of one;
* `Asks`: what a line of the source asks for;
* `trimmedLines_iff`, `askedLines_iff`: these are the lines that are compared;
* `clean_of_mem_ofSource`: what no expected line can hold.
-/
import FrontEnd.Expectation
import Mathlib.Data.List.Forall2
import Mathlib.Data.List.TakeWhile

namespace FrontEnd

/-! ## 1. Lines and what is left of them -/

namespace Text

/-- The text consists of the lines.  Each has an ending, which is a line feed or a carriage return
and a line feed, but the last may have none if it is not empty. -/
inductive Lined : List Char → List (List Char) → Prop
  | nil : Lined [] []
  | last {line : List Char} : '\n' ∉ line → line ≠ [] → Lined line [line]
  | lineFeed {line rest : List Char} {lines : List (List Char)} : '\n' ∉ line →
      line.getLast? ≠ some '\r' → Lined rest lines → Lined (line ++ '\n' :: rest) (line :: lines)
  | carriageReturn {line rest : List Char} {lines : List (List Char)} : '\n' ∉ line →
      Lined rest lines → Lined (line ++ '\r' :: '\n' :: rest) (line :: lines)

/-- Only the empty text has no lines. -/
theorem Lined.eq_nil {chars : List Char} (h : Lined chars []) : chars = [] := by
  cases h
  rfl

/-- A character that ends no line belongs to the first one. -/
theorem Lined.cons {c : Char} {chars line : List Char} {lines : List (List Char)}
    (h : Lined chars (line :: lines)) (hc : c ≠ '\n')
    (hr : ¬ (c = '\r' ∧ chars.head? = some '\n')) :
    Lined (c :: chars) ((c :: line) :: lines) := by
  have hmem {line : List Char} (h : '\n' ∉ line) : '\n' ∉ c :: line := by
    simp [h, Ne.symm hc]
  cases h with
  | last hline _ => exact .last (hmem hline) (List.cons_ne_nil _ _)
  | @lineFeed line _ _ hline hlast hrest =>
    refine @Lined.lineFeed (c :: line) _ _ (hmem hline) ?_ hrest
    cases line with
    | nil => simpa using hr
    | cons d line => simpa using hlast
  | @carriageReturn line _ _ hline hrest =>
    exact @Lined.carriageReturn (c :: line) _ _ (hmem hline) hrest

/-- A carriage return before a line feed belongs to the ending. -/
theorem Lined.carriageReturn_cons {chars : List Char} {lines : List (List Char)}
    (h : Lined ('\n' :: chars) lines) : Lined ('\r' :: '\n' :: chars) lines := by
  -- the induction principle wants a variable; the text still begins with the line feed
  generalize htext : '\n' :: chars = text at h
  cases h with
  | nil => cases htext
  | last hline _ =>
    subst htext
    exact absurd List.mem_cons_self hline
  | @lineFeed line rest lines hline _ hrest =>
    cases line with
    | nil =>
      cases htext
      exact @Lined.carriageReturn [] _ _ hline hrest
    | cons d line =>
      cases htext
      exact absurd List.mem_cons_self hline
  | @carriageReturn line rest lines hline hrest =>
    cases line with
    | nil => cases htext
    | cons d line =>
      cases htext
      exact absurd List.mem_cons_self hline

theorem lined_splitLines (chars : List Char) : Lined chars (splitLines chars) := by
  fun_induction splitLines chars with
  | case1 => exact .nil
  | case2 rest ih => exact @Lined.lineFeed [] _ _ (by simp) (by simp) ih
  | case3 c rest hc hr ih =>
    -- the carriage return goes with the line feed behind it
    obtain ⟨rfl, hhead⟩ := hr
    obtain ⟨tail, rfl⟩ := List.head?_eq_some_iff.mp hhead
    exact ih.carriageReturn_cons
  | case4 c rest hc hr hnone ih =>
    rw [hnone] at ih
    rw [ih.eq_nil]
    exact .last (by simpa using Ne.symm hc) (List.cons_ne_nil _ _)
  | case5 c rest hc hr line others hlines ih =>
    rw [hlines] at ih
    exact ih.cons hc hr

theorem splitLines_cons {c : Char} {chars line : List Char} {lines : List (List Char)}
    (h : splitLines chars = line :: lines) (hc : c ≠ '\n')
    (hr : ¬ (c = '\r' ∧ chars.head? = some '\n')) :
    splitLines (c :: chars) = (c :: line) :: lines := by
  rw [splitLines, if_neg hc, if_neg hr, h]

/-- Characters without a line feed go before an ending, if the two do not meet in a carriage return
and a line feed. -/
theorem splitLines_append_of_not_mem {line ending : List Char} {lines : List (List Char)}
    (h : '\n' ∉ line) (hending : splitLines ending = [] :: lines)
    (hmeet : line.getLast? = some '\r' → ending.head? ≠ some '\n') :
    splitLines (line ++ ending) = line :: lines := by
  induction line with
  | nil => exact hending
  | cons c line ih =>
    simp only [List.mem_cons, not_or] at h
    have hrest : splitLines (line ++ ending) = line :: lines :=
      ih h.2 fun hlast => hmeet (by rw [List.getLast?_cons, hlast, Option.getD_some])
    refine splitLines_cons hrest (Ne.symm h.1) ?_
    rintro ⟨rfl, hhead⟩
    cases line with
    | nil => exact hmeet rfl hhead
    | cons d line =>
      cases hhead
      exact h.2 List.mem_cons_self

/-- **The lines of a text are those that it is split into**, and no others. -/
theorem lined_iff {chars : List Char} {lines : List (List Char)} :
    Lined chars lines ↔ lines = splitLines chars := by
  constructor
  · intro h
    induction h with
    | nil => rfl
    | last hline hne => rw [splitLines_of_not_mem hline hne]
    | lineFeed hline hlast _ ih =>
      rw [splitLines_append_of_not_mem hline rfl fun hr => absurd hr hlast, ih]
    | carriageReturn hline _ ih =>
      rw [splitLines_append_of_not_mem hline rfl fun _ => by simp, ih]
  · rintro rfl
    exact lined_splitLines chars

/-- What is left of a line without the blanks at its end. -/
structure Trimmed (line kept : List Char) : Prop where
  split : ∃ blanks, line = kept ++ blanks ∧ ∀ c ∈ blanks, isBlank c = true
  ends : ∀ c, kept.getLast? = some c → isBlank c = false

theorem trimmed_dropBlanksAtEnd (line : List Char) : Trimmed line (dropBlanksAtEnd line) := by
  refine ⟨⟨(line.reverse.takeWhile isBlank).reverse, ?_, fun c hc => ?_⟩, fun c hc => ?_⟩
  · rw [dropBlanksAtEnd, ← List.reverse_append, List.takeWhile_append_dropWhile,
      List.reverse_reverse]
  · exact List.mem_takeWhile_imp (List.mem_reverse.mp hc)
  · rw [dropBlanksAtEnd, List.getLast?_reverse] at hc
    have hhead := List.head?_dropWhile_not isBlank line.reverse
    rw [hc] at hhead
    simpa using hhead

/-- Blanks behind a line that does not end in one are all dropped. -/
theorem Trimmed.eq_dropBlanksAtEnd {line kept : List Char} (h : Trimmed line kept) :
    kept = dropBlanksAtEnd line := by
  obtain ⟨blanks, rfl, hblanks⟩ := h.split
  have hkept : kept.reverse.dropWhile isBlank = kept.reverse := by
    cases hrev : kept.reverse with
    | nil => rfl
    | cons c others =>
      have hlast : kept.getLast? = some c := by rw [← List.head?_reverse, hrev, List.head?_cons]
      exact List.dropWhile_cons_of_neg (by simp [h.ends c hlast])
  rw [dropBlanksAtEnd, List.reverse_append, List.dropWhile_append_of_pos (by simpa using hblanks),
    hkept, List.reverse_reverse]

theorem forall₂_trimmed_iff {lines kept : List (List Char)} :
    List.Forall₂ Trimmed lines kept ↔ kept = lines.map dropBlanksAtEnd := by
  constructor
  · intro h
    induction h with
    | nil => rfl
    | cons hline _ ih => rw [List.map_cons, ← ih, hline.eq_dropBlanksAtEnd]
  · rintro rfl
    exact List.forall₂_map_right_iff.mpr
      (List.forall₂_same.mpr fun line _ => trimmed_dropBlanksAtEnd line)

theorem map_toList_eq_iff {strings : List String} {texts : List (List Char)} :
    strings.map String.toList = texts ↔ strings = texts.map String.ofList := by
  constructor
  · rintro rfl
    simp
  · rintro rfl
    simp

/-- The lines of a text without the blanks at their ends. -/
def TrimmedLines (text : String) (kept : List String) : Prop :=
  ∃ lines, Lined text.toList lines ∧ List.Forall₂ Trimmed lines (kept.map String.toList)

end Text

namespace Expectations

open Text (Lined Trimmed TrimmedLines)

/-- **An output is compared by its lines without the blanks at their ends.** -/
theorem trimmedLines_iff {output : String} {kept : List String} :
    TrimmedLines output kept ↔ kept = actualLines output := by
  have hactual : actualLines output =
      ((Text.splitLines output.toList).map Text.dropBlanksAtEnd).map String.ofList := by
    simp [actualLines, Text.lines, Text.trimEnd]
  rw [hactual, ← Text.map_toList_eq_iff, ← Text.forall₂_trimmed_iff]
  constructor
  · rintro ⟨lines, hlines, hkept⟩
    rwa [← Text.lined_iff.mp hlines]
  · intro hkept
    exact ⟨_, Text.lined_splitLines _, hkept⟩

/-! ## 2. Expected lines -/

/-- A line of source asks for a line of output, which is what follows the marker and at most one
space, without the blanks at its end. -/
inductive Asks : List Char → List Char → Prop
  | spaced {text kept : List Char} : Trimmed text kept → Asks ('/' :: '/' :: ' ' :: text) kept
  | unspaced {text kept : List Char} : text.head? ≠ some ' ' → Trimmed text kept →
      Asks ('/' :: '/' :: text) kept

/-- What is asked for is left of a part of the line. -/
theorem Asks.exists_suffix {line kept : List Char} (h : Asks line kept) :
    ∃ text, text <:+ line ∧ Trimmed text kept := by
  cases h with
  | @spaced text _ htrimmed => exact ⟨text, ⟨['/', '/', ' '], rfl⟩, htrimmed⟩
  | @unspaced text _ _ htrimmed => exact ⟨text, ⟨['/', '/'], rfl⟩, htrimmed⟩

theorem ofLine?_eq_some_iff {line kept : List Char} : ofLine? line = some kept ↔ Asks line kept := by
  constructor
  · intro h
    unfold ofLine? at h
    split at h
    · rename_i rest
      cases h
      exact .spaced (Text.trimmed_dropBlanksAtEnd rest)
    · rename_i rest hspace
      cases h
      refine .unspaced (fun hhead => ?_) (Text.trimmed_dropBlanksAtEnd rest)
      obtain ⟨text, rfl⟩ := List.head?_eq_some_iff.mp hhead
      exact hspace text rfl
    · cases h
  · rintro (htrimmed | ⟨hspace, htrimmed⟩)
    · rw [ofLine?, htrimmed.eq_dropBlanksAtEnd]
    · rw [ofLine?, htrimmed.eq_dropBlanksAtEnd]
      rintro text rfl
      exact hspace rfl

/-- The lines that start with the marker are those that ask for something. -/
theorem isPrefixOf_eq_isSome (line : List Char) :
    ['/', '/'].isPrefixOf line = (ofLine? line).isSome := by
  unfold ofLine?
  split
  · rfl
  · rfl
  · rename_i hmarker
    refine Bool.eq_false_iff.mpr fun hprefix => ?_
    obtain ⟨text, rfl⟩ := List.isPrefixOf_iff_prefix.mp hprefix
    exact hmarker text rfl

theorem forall₂_asks_iff {lines kept : List (List Char)} :
    List.Forall₂ Asks (lines.filter fun line => ['/', '/'].isPrefixOf line) kept ↔
      kept = lines.filterMap ofLine? := by
  induction lines generalizing kept with
  | nil => simp
  | cons line lines ih =>
    have hmarked := isPrefixOf_eq_isSome line
    cases h : ofLine? line with
    | none =>
      rw [h, Option.isSome_none] at hmarked
      rw [List.filter_cons_of_neg (by simp [hmarked]), List.filterMap_cons_none h, ih]
    | some asked =>
      rw [h, Option.isSome_some] at hmarked
      rw [List.filter_cons_of_pos hmarked, List.filterMap_cons_some h, List.forall₂_cons_left_iff]
      constructor
      · rintro ⟨first, others, hasks, hothers, rfl⟩
        rw [ofLine?_eq_some_iff.mpr hasks] at h
        rw [Option.some.inj h, ih.mp hothers]
      · rintro rfl
        exact ⟨asked, _, ofLine?_eq_some_iff.mp h, ih.mpr rfl, rfl⟩

/-- The lines of output that the lines of a source with the marker ask for, in their order. -/
def AskedLines (source : String) (kept : List String) : Prop :=
  ∃ lines, Lined source.toList lines ∧
    List.Forall₂ Asks (lines.filter fun line => ['/', '/'].isPrefixOf line)
      (kept.map String.toList)

/-- **A source expects the lines that its own lines ask for.** -/
theorem askedLines_iff {source : String} {kept : List String} :
    AskedLines source kept ↔ kept = (ofSource source).lines := by
  rw [ofSource, ← Text.map_toList_eq_iff, ← forall₂_asks_iff]
  constructor
  · rintro ⟨lines, hlines, hkept⟩
    rwa [← Text.lined_iff.mp hlines]
  · intro hkept
    exact ⟨_, Text.lined_splitLines _, hkept⟩

/-- **No expected line holds a line feed or ends in a blank.** -/
theorem clean_of_mem_ofSource {source line : String} (h : line ∈ (ofSource source).lines) :
    '\n' ∉ line.toList ∧ ∀ c, line.toList.getLast? = some c → Text.isBlank c = false := by
  obtain ⟨kept, hkept, rfl⟩ := List.mem_map.mp h
  obtain ⟨whole, hwhole, hasked⟩ := List.mem_filterMap.mp hkept
  obtain ⟨text, hsuffix, htrimmed⟩ := (ofLine?_eq_some_iff.mp hasked).exists_suffix
  obtain ⟨blanks, rfl, -⟩ := htrimmed.split
  rw [String.toList_ofList]
  refine ⟨fun hmem => ?_, htrimmed.ends⟩
  exact Text.not_mem_of_mem_splitLines hwhole (hsuffix.subset (List.mem_append_left _ hmem))

end Expectations

end FrontEnd
