/-
# Reported positions are the true ones

The lexer notes where lines start while it passes over segments, piece by piece, and a
position is looked up in what it noted.  Nothing is counted again.  Here the text is counted:
the lines up to an offset, and the bytes since the last line feed before it.

* `Text.lineCol`: the line and column that counting gives;
* `Tracks`: the table of a lexing under way is that of the text passed over;
* `lineAt_byteLength`, `lineCol_byteLength`: looking up an offset in the table of a text gives what counting does;
* `lex_positions`: so it is for every token and diagnostic, of the lexer and of any parse.
-/
import FrontEnd.Proofs.Lexer.Boundaries
import FrontEnd.Proofs.Lexer.Partition
import FrontEnd.Proofs.Parser.Totality
import Mathlib.Data.List.Induction

namespace FrontEnd

/-! ## 1. Counting -/

namespace Text

/-- What follows the last line feed. -/
def lastLine (chars : List Char) : List Char := (chars.reverse.takeWhile (· != '\n')).reverse

/-- The line and column, in bytes, after the characters; both count from 1. -/
def lineCol (before : List Char) : Nat × Nat :=
  (1 + before.count '\n', 1 + byteLength (lastLine before))

@[simp] theorem lastLine_newline (chars : List Char) : lastLine (chars ++ ['\n']) = [] := by
  simp [lastLine]

/-- A character that is no line feed goes on with the last line. -/
theorem lastLine_snoc {c : Char} (hc : c ≠ '\n') (chars : List Char) :
    lastLine (chars ++ [c]) = lastLine chars ++ [c] := by
  simp [lastLine, hc]

end Text

/-! ## 2. Line starts -/

@[simp] theorem lineStarts_nil (offset : Nat) : lineStarts offset [] = [] := rfl

theorem lineStarts_cons (offset : Nat) (c : Char) (rest : List Char) :
    lineStarts offset (c :: rest) =
      if c = '\n' then (offset + c.utf8Size) :: lineStarts (offset + c.utf8Size) rest
      else lineStarts (offset + c.utf8Size) rest :=
  rfl

/-- The line starts of a text are those of its parts, the second from where it begins. -/
theorem lineStarts_append (offset : Nat) (left right : List Char) :
    lineStarts offset (left ++ right) =
      lineStarts offset left ++ lineStarts (offset + Text.byteLength left) right := by
  induction left generalizing offset with
  | nil => rfl
  | cons c left ih =>
    simp only [List.cons_append, lineStarts_cons, ih, Text.byteLength_cons, Nat.add_assoc]
    split <;> simp

/-- A line starts just after each line feed, and nowhere else. -/
theorem mem_lineStarts {offset start : Nat} {chars : List Char} :
    start ∈ lineStarts offset chars ↔ ∃ before after, chars = before ++ '\n' :: after ∧
      start = offset + Text.byteLength before + 1 := by
  constructor
  · intro h
    induction chars generalizing offset with
    | nil => cases h
    | cons c chars ih =>
      have later (h : start ∈ lineStarts (offset + c.utf8Size) chars) :
          ∃ before after, c :: chars = before ++ '\n' :: after ∧
            start = offset + Text.byteLength before + 1 := by
        obtain ⟨before, after, rfl, rfl⟩ := ih h
        exact ⟨c :: before, after, rfl, by simp [Nat.add_assoc]⟩
      simp only [lineStarts_cons] at h
      split at h
      · rename_i hc
        rcases List.mem_cons.mp h with rfl | h
        · exact ⟨[], chars, by rw [hc, List.nil_append], by rw [hc]; rfl⟩
        · exact later h
      · exact later h
  · rintro ⟨before, after, rfl, rfl⟩
    rw [lineStarts_append]
    exact List.mem_append_right _ List.mem_cons_self

/-- A line starts behind its line feed, so never where the characters begin. -/
theorem bounds_of_mem_lineStarts {offset start : Nat} {chars : List Char}
    (h : start ∈ lineStarts offset chars) :
    offset < start ∧ start ≤ offset + Text.byteLength chars := by
  obtain ⟨before, after, rfl, rfl⟩ := mem_lineStarts.mp h
  have hsize : ('\n').utf8Size = 1 := rfl
  simp only [Text.byteLength_append, Text.byteLength_cons]
  omega

theorem lineStarts_eq_nil {chars : List Char} (h : '\n' ∉ chars) (offset : Nat) :
    lineStarts offset chars = [] := by
  refine List.eq_nil_iff_forall_not_mem.mpr fun start hs => ?_
  obtain ⟨before, after, rfl, -⟩ := mem_lineStarts.mp hs
  exact h (by simp)

/-- Line starts increase. -/
theorem pairwise_lineStarts (offset : Nat) (chars : List Char) :
    (lineStarts offset chars).Pairwise (· < ·) := by
  induction chars generalizing offset with
  | nil => exact .nil
  | cons c chars ih =>
    simp only [lineStarts_cons]
    split
    · exact List.pairwise_cons.mpr ⟨fun _ h => (bounds_of_mem_lineStarts h).1, ih _⟩
    · exact ih _

/-- There is one for each line feed. -/
theorem length_lineStarts (offset : Nat) (chars : List Char) :
    (lineStarts offset chars).length = chars.count '\n' := by
  induction chars generalizing offset with
  | nil => rfl
  | cons c chars ih =>
    simp only [lineStarts_cons]
    split
    · rename_i hc
      simp [hc, ih]
    · rename_i hc
      simp [hc, ih]

/-- The last line runs from the last start to the end. -/
theorem getLast?_lineStarts (chars : List Char) :
    (lineStarts 0 chars).getLast?.getD 0 + Text.byteLength (Text.lastLine chars) =
      Text.byteLength chars := by
  induction chars using List.reverseRecOn with
  | nil => rfl
  | append_singleton chars c ih =>
    rw [lineStarts_append]
    by_cases hc : c = '\n'
    · subst hc
      simp [lineStarts_cons]
    · rw [Text.lastLine_snoc hc]
      simp [lineStarts_cons, hc, ← ih, Nat.add_assoc]

/-! ## 3. Line tables -/

namespace LineTable

/-- Starts that increase are all accepted. -/
theorem foldlM_push? {t : LineTable} {offsets : List Nat}
    (h : (t.lastStart :: offsets).Pairwise (· < ·)) :
    offsets.foldlM push? t = some ⟨offsets.reverse ++ t.later⟩ := by
  induction offsets generalizing t with
  | nil => rfl
  | cons o offsets ih =>
    obtain ⟨hlast, hrest⟩ := List.pairwise_cons.mp h
    have hpush : t.push? o = some ⟨o :: t.later⟩ := if_pos (hlast o (by simp))
    rw [List.foldlM_cons, hpush]
    simpa using ih (t := ⟨o :: t.later⟩) hrest

/-- Pushing starts that are all accepted pushes them all. -/
theorem pushAll_of_foldlM {t t' : LineTable} {offsets : List Nat}
    (h : offsets.foldlM push? t = some t') : t.pushAll offsets = t' := by
  induction offsets generalizing t with
  | nil => exact Option.some.inj h
  | cons o offsets ih =>
    rw [List.foldlM_cons] at h
    obtain ⟨u, hu, h⟩ := Option.bind_eq_some_iff.mp h
    rw [pushAll, List.foldl_cons, push, hu]
    exact ih h

/-- An offset is looked up among the starts that are not after it. -/
theorem lineAt_of_append {t : LineTable} {offset : Nat} {later earlier : List Nat}
    (h : t.later = later ++ earlier) (hl : ∀ start ∈ later, offset < start)
    (he : ∀ start ∈ earlier.head?, start ≤ offset) :
    t.lineAt offset = (1 + earlier.length, earlier.head?.getD 0) := by
  have hdrop : (later ++ earlier).dropWhile (fun start => decide (offset < start)) = earlier :=
    dropWhile_run (by simpa using hl) (by simpa using he)
  rw [lineAt, h, hdrop]
  cases earlier with
  | nil => rfl
  | cons start earlier => simp; omega

end LineTable

/-! ## 4. The table of a text -/

/-- The lexing has passed over the text. -/
structure Lexer.Tracks (l : Lexer) (before : List Char) : Prop where
  offset : l.offset = Text.byteLength before
  lines : l.lines.later = (lineStarts 0 before).reverse

namespace Lexer

/-- Every line start that is noted while the segments are passed over is accepted. -/
def Accepted (l : Lexer) : List Segment → Prop
  | [] => True
  | s :: rest => (lineStarts l.offset s.chars).foldlM LineTable.push? l.lines =
      some (l.pass s rest).lines ∧ (l.pass s rest).Accepted rest

theorem tracks_start (path source : String) : (start path source).Tracks [] := ⟨rfl, rfl⟩

/-- **A step.**  What a segment notes comes after what was noted before. -/
theorem Tracks.pass {l : Lexer} {before : List Char} (h : l.Tracks before) (s : Segment)
    (rest : List Segment) : (l.pass s rest).Tracks (before ++ s.chars) ∧
      (lineStarts l.offset s.chars).foldlM LineTable.push? l.lines =
        some (l.pass s rest).lines := by
  have hlast : l.lines.lastStart ≤ l.offset := by
    rw [LineTable.lastStart, h.lines, List.head?_reverse, h.offset, ← getLast?_lineStarts before]
    exact Nat.le_add_right _ _
  have hincrease : (l.lines.lastStart :: lineStarts l.offset s.chars).Pairwise (· < ·) :=
    List.pairwise_cons.mpr ⟨fun o ho => by
      have := (bounds_of_mem_lineStarts ho).1
      omega, pairwise_lineStarts _ _⟩
  have hpush := LineTable.foldlM_push? hincrease
  have hlines : (l.pass s rest).lines = ⟨(lineStarts l.offset s.chars).reverse ++ l.lines.later⟩ :=
    LineTable.pushAll_of_foldlM hpush
  refine ⟨⟨?_, ?_⟩, by rw [hpush, hlines]⟩
  · simp [Lexer.pass, h.offset]
  · rw [hlines, h.lines, lineStarts_append, h.offset, List.reverse_append, Nat.zero_add]

/-- Handing out a token moves nothing. -/
theorem Tracks.handOut {l : Lexer} {before : List Char} (h : l.Tracks before)
    (t : Option Token) : (l.handOut t).Tracks before := ⟨h.offset, h.lines⟩

/-- **A run.**  Every line start is accepted. -/
theorem Tracks.accepted : ∀ {segs : List Segment} {l : Lexer} {before : List Char},
    l.Tracks before → l.Accepted segs
  | [], _, _, _ => trivial
  | s :: rest, _, _, h => ⟨(h.pass s rest).2, (h.pass s rest).1.accepted⟩

/-- **A run.**  At its end the table is that of the whole text. -/
theorem Tracks.drain : ∀ {segs : List Segment} {l : Lexer} {before : List Char},
    l.Tracks before → (l.drain segs).2.Tracks (before ++ segs.flatMap (·.chars))
  | [], _, _, h => by
    rw [List.flatMap_nil, List.append_nil]
    exact ⟨h.offset, h.lines⟩
  | s :: rest, l, before, h => by
    have hdrain : (((l.pass s rest).handOut (s.token? l.offset)).drain rest).2.Tracks _ :=
      ((h.pass s rest).1.handOut (s.token? l.offset)).drain
    rwa [List.append_assoc, ← List.flatMap_cons] at hdrain

end Lexer

/-- **The lines of a text start at its beginning and after each line feed.** -/
theorem lex_lines (path source : String) :
    (lex path source).lines = ⟨(lineStarts 0 source.toList).reverse⟩ := by
  have h : ((Lexer.start path source).drain (segments source.toList)).2.Tracks _ :=
    (Lexer.tracks_start path source).drain
  have hlines := h.lines
  rw [List.nil_append, flatMap_segments] at hlines
  exact congrArg LineTable.mk hlines

/-- The lines of a stream are those of the text. -/
theorem starts_lex (path source : String) :
    (lex path source).lines.starts = 0 :: lineStarts 0 source.toList := by
  rw [lex_lines, LineTable.starts, List.reverse_reverse]

/-- The line on which an offset lies is counted through the text before it, and starts where the
last line before it does. -/
theorem lineAt_byteLength {path source : String} {before after : List Char}
    (h : source.toList = before ++ after) :
    (lex path source).lines.lineAt (Text.byteLength before) =
      (1 + before.count '\n', Text.byteLength before - Text.byteLength (Text.lastLine before)) := by
  have hlater : (lex path source).lines.later =
      (lineStarts (Text.byteLength before) after).reverse ++ (lineStarts 0 before).reverse := by
    rw [lex_lines, h, lineStarts_append, Nat.zero_add, List.reverse_append]
  have hlast := getLast?_lineStarts before
  rw [LineTable.lineAt_of_append hlater ?_ ?_, List.length_reverse, length_lineStarts,
    List.head?_reverse]
  · congr 1
    omega
  · intro start hs
    exact (bounds_of_mem_lineStarts (List.mem_reverse.mp hs)).1
  · intro start hs
    have hmem : start ∈ lineStarts 0 before := List.mem_reverse.mp (List.mem_of_mem_head? hs)
    simpa using (bounds_of_mem_lineStarts hmem).2

/-- **Looking up an offset in the table of a text gives what counting does**, if the column is a
number of the machine, and nothing if it is not. -/
theorem lineCol_byteLength {path source : String} {before after : List Char}
    (h : source.toList = before ++ after) {position : Nat × Nat} :
    (lex path source).lines.lineCol (Text.byteLength before) = .ok position ↔
      Text.byteLength (Text.lastLine before) < Machine.greatest ∧
        position = Text.lineCol before := by
  have hlast := getLast?_lineStarts before
  have hcolumn : Text.byteLength before -
      (Text.byteLength before - Text.byteLength (Text.lastLine before)) =
        Text.byteLength (Text.lastLine before) := by omega
  rw [LineTable.lineCol_eq_ok_iff, lineAt_byteLength h, hcolumn, Text.lineCol, Nat.add_comm 1
    (Text.byteLength _)]

/-! ## 5. Spans -/

/-- The span is a part of the text, on one line of it. -/
def Text.OnLine (text : List Char) (span : Span) : Prop :=
  ∃ piece after, Holds text span piece after ∧ '\n' ∉ piece

/-- The position that the stream gives for the start of the span is that of the text, and it does
give one if the text is shorter than the greatest number of the machine. -/
def TokenStream.Locates (s : TokenStream) (text : List Char) (span : Span) : Prop :=
  ∃ before after, text = before ++ after ∧ Text.byteLength before = span.offset ∧
    (∀ position, s.lineCol span = .ok position → position = Text.lineCol before) ∧
    (Text.byteLength text < Machine.greatest → s.lineCol span = .ok (Text.lineCol before))

/-- A position is looked up in the lines, and in nothing else of the stream. -/
theorem TokenStream.Locates.of_lines {s s' : TokenStream} {text : List Char} {span : Span}
    (h : s.Locates text span) (hs : s'.lines = s.lines) : s'.Locates text span := by
  obtain ⟨before, after, ht, ho, hl⟩ := h
  have hsame : s'.lineCol span = s.lineCol span := by
    rw [TokenStream.lineCol, hs, TokenStream.lineCol]
  exact ⟨before, after, ht, ho, hsame ▸ hl⟩

/-- **What stands on one line has the position that counting gives.** -/
theorem Text.OnLine.locates (path : String) {source : String} {span : Span}
    (h : OnLine source.toList span) : (lex path source).Locates source.toList span := by
  obtain ⟨piece, after, ⟨before, ht, ho, -⟩, -⟩ := h
  rw [List.append_assoc] at ht
  have hlookup {position : Nat × Nat} : (lex path source).lineCol span = .ok position ↔ _ :=
    ho ▸ lineCol_byteLength ht
  refine ⟨before, piece ++ after, ht, ho, fun position hp => (hlookup.mp hp).2,
    fun hshort => hlookup.mpr ⟨?_, rfl⟩⟩
  have hlast := getLast?_lineStarts before
  rw [ht, Text.byteLength_append] at hshort
  omega

/-- A token or a fault is on one line. -/
theorem onLine_of_mem_marked {chars : List Char} {p : Nat × Segment} (h : p ∈ marked 0 chars) :
    Text.OnLine chars ⟨p.1, Text.byteLength p.2.chars⟩ := by
  obtain ⟨hp, hl⟩ := List.mem_filter.mp h
  obtain ⟨after, hh⟩ := holds_of_mem_placed hp
  obtain ⟨left, rest, hf⟩ := exists_first_of_mem_segments (mem_segments_of_mem_placed hp)
  exact ⟨p.2.chars, after, hh, (Segment.stands_of_first? hf).not_mem_newline (by simpa using hl)⟩

/-- Every token stands on one line, the end of the text included. -/
theorem onLine_token {path source : String} {t : Token} (h : t ∈ (lex path source).tokens) :
    Text.OnLine source.toList t.span := by
  rw [lex_tokens_marked] at h
  rcases List.mem_append.mp h with h | h
  · obtain ⟨p, hp, ht⟩ := List.mem_filterMap.mp h
    have hs := mem_segments_of_mem_placed (List.mem_of_mem_filter hp)
    rw [(written_of_token? hs ht).1]
    exact onLine_of_mem_marked hp
  · cases List.mem_singleton.mp h
    exact ⟨[], [], ⟨source.toList, by simp, Text.byteLength_toList source, rfl⟩, by simp⟩

/-- Every fault stands on one line, since a literal that is not closed ends with it. -/
theorem onLine_diagnostic {path source : String} {d : Diagnostic}
    (h : d ∈ (lex path source).diagnostics) :
    ∃ span, d.span = some span ∧ Text.OnLine source.toList span := by
  rw [lex_diagnostics_marked] at h
  obtain ⟨p, hp, hd⟩ := List.mem_filterMap.mp h
  exact ⟨_, span_of_placedDiagnostic? hd, onLine_of_mem_marked hp⟩

/-! ## 6. Parses -/

namespace TokenStream

/-- The stream after a number of parses. -/
def parsed (s : TokenStream) : Nat → TokenStream
  | 0 => s
  | n + 1 => (s.parsed n).parse.2

/-- A parse complains of tokens of the stream. -/
theorem exists_found {s : TokenStream} {d : Diagnostic} (h : d ∈ s.run.diagnostics) :
    ∃ t ∈ s.tokens, d.span = some t.span := by
  obtain ⟨e, he, hd⟩ := List.mem_filterMap.mp h
  obtain ⟨es, es', hes⟩ := List.append_of_mem he
  have ht := (hes ▸ s.trail_run).getElem?_token
  refine ⟨e.token, List.mem_of_getElem? ht, ?_⟩
  cases e <;> cases hd
  rfl

/-- Parses leave the tokens and the lines, and add diagnostics about tokens. -/
theorem parsed_spec (s : TokenStream) : ∀ n, (s.parsed n).tokens = s.tokens ∧
    (s.parsed n).lines = s.lines ∧ ∀ d ∈ (s.parsed n).diagnostics,
      d ∈ s.diagnostics ∨ ∃ t ∈ s.tokens, d.span = some t.span
  | 0 => ⟨rfl, rfl, fun _ => .inl⟩
  | n + 1 => by
    obtain ⟨ht, hl, hd⟩ := parsed_spec s n
    refine ⟨ht, hl, fun d h => ?_⟩
    rcases List.mem_append.mp h with h | h
    · exact hd d h
    · exact .inr (ht ▸ exists_found h)

end TokenStream

/-- **Reported positions are the true ones.**  The line table is that of the text, and every
line start was accepted when it was noted; every token and every fault is on one line; and
the position given for a token or a diagnostic, of the lexer or of any later parse, is what
counting through the text before it gives. -/
theorem lex_positions (path source : String) :
    ((lex path source).lines.starts.Pairwise (· < ·) ∧
      (∀ start, start ∈ (lex path source).lines.starts ↔ start = 0 ∨ ∃ before after,
        source.toList = before ++ '\n' :: after ∧ start = Text.byteLength before + 1) ∧
      (Lexer.start path source).Accepted (segments source.toList)) ∧
    ((∀ t ∈ (lex path source).tokens, Text.OnLine source.toList t.span) ∧
      ∀ d ∈ (lex path source).diagnostics, ∃ span, d.span = some span ∧
        Text.OnLine source.toList span) ∧
    ∀ n, (∀ t ∈ ((lex path source).parsed n).tokens,
        ((lex path source).parsed n).Locates source.toList t.span) ∧
      ∀ d ∈ ((lex path source).parsed n).diagnostics, ∃ span, d.span = some span ∧
        ((lex path source).parsed n).Locates source.toList span := by
  refine ⟨⟨?_, fun start => ?_, (Lexer.tracks_start path source).accepted⟩,
    ⟨fun t => onLine_token, fun d => onLine_diagnostic⟩, fun n => ?_⟩
  · rw [starts_lex]
    exact List.pairwise_cons.mpr
      ⟨fun start h => (bounds_of_mem_lineStarts h).1, pairwise_lineStarts 0 _⟩
  · simp only [starts_lex, List.mem_cons, mem_lineStarts, Nat.zero_add]
  · obtain ⟨htokens, hlines, hdiagnostics⟩ := (lex path source).parsed_spec n
    have locates {span : Span} (h : Text.OnLine source.toList span) :
        ((lex path source).parsed n).Locates source.toList span := (h.locates path).of_lines hlines
    refine ⟨fun t ht => locates (onLine_token (htokens ▸ ht)), fun d hd => ?_⟩
    rcases hdiagnostics d hd with hd | ⟨t, ht, hd⟩
    · obtain ⟨span, hspan, hline⟩ := onLine_diagnostic hd
      exact ⟨span, hspan, locates hline⟩
    · exact ⟨t.span, hd, locates (onLine_token ht)⟩

end FrontEnd
