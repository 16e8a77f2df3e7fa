/-
# Faults are blanks

The lexer recovers from a fault by skipping it.  That is as if there had been spaces: the
text in which a space stands for every byte of a fault is lexed to the same tokens at the
same offsets and to the same lines, and nothing is reported.

A fault ends the segment before it, and the space that stands there instead does so too, as
no segment but blanks goes on over a space.  After the fault everything is as it was.

* `quiet`: the text with spaces for its faults;
* `marked_quiet`: its tokens and faults are the tokens of the text;
* `lex_blanked`: so the lexer's answer is the same, for the bytes that its spans cover.
-/
import FrontEnd.Proofs.Lexer.Positions

namespace FrontEnd

/-! ## 1. Bytes -/

namespace Span

/-- The byte at the index is in the span. -/
def Covers (s : Span) (i : Nat) : Prop := s.offset ≤ i ∧ i < s.stop

instance (s : Span) (i : Nat) : Decidable (s.Covers i) := inferInstanceAs (Decidable (_ ∧ _))

end Span

namespace Text

/-- The bytes, the first at `offset`, with a space for every one that a span covers. -/
def blankFrom (offset : Nat) (spans : List Span) (bytes : List UInt8) : List UInt8 :=
  bytes.mapIdx fun i b => if ∃ s ∈ spans, s.Covers (offset + i) then 0x20 else b

/-- The bytes with a space for every one that a span covers. -/
def blank (spans : List Span) (bytes : ByteArray) : ByteArray :=
  (blankFrom 0 spans bytes.data.toList).toByteArray

/-- The bytes of the characters. -/
def bytes (chars : List Char) : List UInt8 := chars.flatMap String.utf8EncodeChar

@[simp] theorem bytes_append (left right : List Char) :
    bytes (left ++ right) = bytes left ++ bytes right := by
  simp [bytes]

@[simp] theorem length_bytes (chars : List Char) : (bytes chars).length = byteLength chars := by
  induction chars with
  | nil => rfl
  | cons c chars ih =>
    have hcons : bytes (c :: chars) = String.utf8EncodeChar c ++ bytes chars := rfl
    rw [hcons, List.length_append, ih, String.length_utf8EncodeChar, byteLength_cons]

@[simp] theorem bytes_spaces (n : Nat) :
    bytes (List.replicate n ' ') = List.replicate n 0x20 := by
  induction n with
  | zero => rfl
  | succ n ih =>
    have hspace : String.utf8EncodeChar ' ' = [0x20] := by decide
    rw [List.replicate_succ, List.replicate_succ, ← ih, bytes, List.flatMap_cons, hspace]
    rfl

@[simp] theorem byteLength_spaces (n : Nat) : byteLength (List.replicate n ' ') = n := by
  rw [← length_bytes, bytes_spaces, List.length_replicate]

/-- The bytes of a text are those of its characters. -/
theorem toUTF8_ofList (chars : List Char) :
    (String.ofList chars).toUTF8 = (bytes chars).toByteArray := by
  rw [String.toUTF8_eq_toByteArray, String.toByteArray_ofList]
  rfl

theorem data_toUTF8 (text : String) : text.toUTF8.data.toList = bytes text.toList := by
  have h := toUTF8_ofList text.toList
  rw [String.ofList_toList] at h
  rw [h, List.toList_data_toByteArray]

/-- The bytes of a text are well formed, and are that text. -/
theorem ofBytes?_toUTF8 (text : String) : ofBytes? text.toUTF8 = some text := by
  rw [ofBytes?, String.fromUTF8?, String.toUTF8_eq_toByteArray, dif_pos text.isValidUTF8]
  rfl

section
variable {offset : Nat} {spans spans' : List Span} {bs : List UInt8}

/-- Spans that cover the same bytes blank the same bytes. -/
theorem blankFrom_congr (h : ∀ i < bs.length, (∃ s ∈ spans, s.Covers (offset + i)) ↔
    ∃ s ∈ spans', s.Covers (offset + i)) :
    blankFrom offset spans bs = blankFrom offset spans' bs := by
  refine List.ext_getElem (by simp [blankFrom]) fun i hi _ => ?_
  have hi : i < bs.length := by simpa [blankFrom] using hi
  simp [blankFrom, h i hi]

/-- All bytes are covered. -/
theorem blankFrom_all (h : ∀ i < bs.length, ∃ s ∈ spans, s.Covers (offset + i)) :
    blankFrom offset spans bs = List.replicate bs.length 0x20 := by
  refine List.ext_getElem (by simp [blankFrom]) fun i hi _ => ?_
  have hi : i < bs.length := by simpa [blankFrom] using hi
  simp [blankFrom, h i hi]

/-- No byte is covered. -/
@[simp] theorem blankFrom_nil : blankFrom offset [] bs = bs :=
  List.ext_getElem (by simp [blankFrom]) fun i _ _ => by simp [blankFrom]

end

/-- Bytes are blanked in two parts, the second from where it begins. -/
theorem blankFrom_append (offset : Nat) (spans : List Span) (left right : List UInt8) :
    blankFrom offset spans (left ++ right) =
      blankFrom offset spans left ++ blankFrom (offset + left.length) spans right := by
  simp only [blankFrom, List.mapIdx_append, Nat.add_assoc, Nat.add_comm left.length]

end Text

/-! ## 2. Quiet texts -/

namespace Segment

/-- Is a fault. -/
def isFault (s : Segment) : Bool :=
  match s.content with
  | .fault _ => true
  | _ => false

theorem isLayout_of_isFault {s : Segment} (h : s.isFault = true) : s.isLayout = false := by
  unfold isFault at h
  unfold isLayout
  split at h <;> simp_all

/-- The segment, or as many spaces as it has bytes if it is a fault. -/
def quieted (s : Segment) : List Char :=
  if s.isFault then List.replicate (Text.byteLength s.chars) ' ' else s.chars

/-- Every fault is as long as the spaces that stand for it. -/
@[simp] theorem byteLength_quieted (s : Segment) :
    Text.byteLength s.quieted = Text.byteLength s.chars := by
  unfold quieted
  split <;> simp

end Segment

/-- The text with spaces for its faults. -/
def quiet (chars : List Char) : List Char := (segments chars).flatMap Segment.quieted

/-- A text is quieted segment by segment. -/
theorem quiet_append {s : Segment} {after : List Char} (h : s.Stands after) :
    quiet (s.chars ++ after) = s.quieted ++ quiet after := by
  rw [quiet, segments_append h, List.flatMap_cons]
  rfl

/-- A quiet text starts as the text does, or with a space where it starts with a fault. -/
theorem head?_quiet (c : Char) (rest : List Char) :
    (quiet (c :: rest)).head? = some c ∨ c ≠ '\n' ∧ (quiet (c :: rest)).head? = some ' ' := by
  obtain ⟨⟨s, after⟩, hfirst⟩ := Option.isSome_iff_exists.mp
    (Segment.first?_isSome (List.cons_ne_nil c rest))
  obtain ⟨hchars, hs⟩ := Segment.first?_iff.mp hfirst
  obtain ⟨d, tail, hd⟩ := List.exists_cons_of_ne_nil (Segment.first?_eq_append hfirst).2
  obtain ⟨rfl, rfl⟩ : c = d ∧ rest = tail ++ after := by simpa [hd] using hchars
  rw [hchars, quiet_append hs, Segment.quieted]
  split
  · rename_i hf
    have hc := hs.not_mem_newline (Segment.isLayout_of_isFault hf)
    refine .inr ⟨?_, ?_⟩
    · rintro rfl
      exact hc (by simp [hd])
    · have hpos := Text.byteLength_pos (Segment.first?_eq_append hfirst).2
      simp [List.head?_replicate, Nat.ne_of_gt hpos]
  · rw [hd]
    exact .inl rfl

/-- What ends before the rest of a text ends before the quiet rest, but for blanks. -/
theorem stands_quiet {s : Segment} {after : List Char} (h : s.Stands after)
    (hb : s.isBlanks = false) : s.Stands (quiet after) := by
  cases after with
  | nil => simpa [quiet] using h
  | cons c rest =>
    rcases head?_quiet c rest with he | ⟨hc, he⟩
    · exact h.of_head he
    · obtain ⟨more, hm⟩ := List.head?_eq_some_iff.mp he
      rw [hm]
      exact h.before_space hc hb more

/-- **The tokens and faults of a quiet text are the tokens of the text.** -/
theorem marked_quiet (chars : List Char) : ∀ offset,
    marked offset (quiet chars) = (marked offset chars).filter fun p => !p.2.isFault := by
  induction chars using segment_induction with
  | nil => intro offset; simp [quiet]
  | cons s rest hs ih =>
    intro offset
    have ih := ih (offset + Text.byteLength s.chars)
    rw [quiet_append hs, marked_segment hs, List.filter_append, ← ih]
    cases hf : s.isFault with
    | true =>
      have hspaces : ∀ c ∈ s.quieted, Layout.isBlank c = true := by
        simp [Segment.quieted, hf, Layout.isBlank]
      rw [marked_blanks hspaces, Segment.byteLength_quieted]
      simp [Segment.mark, Segment.isLayout_of_isFault hf, hf]
    | false =>
      rw [Segment.quieted, if_neg (by simp [hf]), marked_append hs (stands_quiet hs)]
      cases hl : s.isLayout <;> simp [Segment.mark, hl, hf]

/-- Faults have no line feeds, and neither have spaces. -/
theorem lineStarts_quiet (chars : List Char) : ∀ offset,
    lineStarts offset (quiet chars) = lineStarts offset chars := by
  induction chars using segment_induction with
  | nil => intro offset; simp [quiet]
  | cons s rest hs ih =>
    intro offset
    have hsegment : lineStarts offset s.quieted = lineStarts offset s.chars := by
      unfold Segment.quieted
      split
      · rename_i hf
        rw [lineStarts_eq_nil (hs.not_mem_newline (Segment.isLayout_of_isFault hf)),
          lineStarts_eq_nil (by simp)]
      · rfl
    rw [quiet_append hs, lineStarts_append, lineStarts_append, Segment.byteLength_quieted, ih,
      hsegment]

/-! ## 3. The spans of faults -/

/-- The spans of the faults of a text that starts at `offset`. -/
def faultSpans (offset : Nat) (chars : List Char) : List Span :=
  ((marked offset chars).filterMap placedDiagnostic?).filterMap Diagnostic.span

/-- The first of them is that of the first segment, if it is a fault. -/
theorem exists_mem_faultSpans {s : Segment} {after : List Char} {offset : Nat} {P : Span → Prop}
    (h : s.Stands after) : (∃ span ∈ faultSpans offset (s.chars ++ after), P span) ↔
      s.isFault = true ∧ P ⟨offset, Text.byteLength s.chars⟩ ∨
        ∃ span ∈ faultSpans (offset + Text.byteLength s.chars) after, P span := by
  have hspans : faultSpans offset (s.chars ++ after) =
      (if s.isFault then [⟨offset, Text.byteLength s.chars⟩] else []) ++
        faultSpans (offset + Text.byteLength s.chars) after := by
    rw [faultSpans, marked_segment h]
    obtain ⟨content, chars⟩ := s
    cases content <;> rfl
  rw [hspans]
  cases s.isFault <;> simp

/-- They start at or after the offset. -/
theorem offset_le_of_mem_faultSpans {offset : Nat} {chars : List Char} {span : Span}
    (h : span ∈ faultSpans offset chars) : offset ≤ span.offset := by
  obtain ⟨d, hd, hspan⟩ := List.mem_filterMap.mp h
  obtain ⟨p, hp, hd⟩ := List.mem_filterMap.mp hd
  obtain ⟨before, after, -, ho⟩ := mem_placed (List.mem_of_mem_filter hp)
  rw [span_of_placedDiagnostic? hd] at hspan
  cases hspan
  exact ho ▸ Nat.le_add_right _ _

/-- The bytes of a segment are covered if it is a fault, by its own span, and else not. -/
theorem blankFrom_segment {s : Segment} {rest : List Char} (hs : s.Stands rest) (offset : Nat) :
    Text.blankFrom offset (faultSpans offset (s.chars ++ rest)) (Text.bytes s.chars) =
      Text.bytes s.quieted := by
  cases hf : s.isFault with
  | true =>
    rw [Segment.quieted, if_pos hf, Text.bytes_spaces, ← Text.length_bytes]
    refine Text.blankFrom_all fun i hi => (exists_mem_faultSpans hs).mpr (.inl ⟨hf, ?_⟩)
    rw [Text.length_bytes] at hi
    exact ⟨Nat.le_add_right _ _, Nat.add_lt_add_left hi _⟩
  | false =>
    rw [Segment.quieted, if_neg (by simp [hf])]
    refine (Text.blankFrom_congr fun i hi => ?_).trans Text.blankFrom_nil
    rw [Text.length_bytes] at hi
    rw [exists_mem_faultSpans hs]
    constructor
    · rintro (⟨hf', -⟩ | ⟨span, hspan, hle, -⟩)
      · exact absurd hf' (by simp [hf])
      · have := offset_le_of_mem_faultSpans hspan
        omega
    · rintro ⟨span, ⟨⟩, -⟩

/-- The span of a fault ends before what follows it. -/
theorem blankFrom_rest {s : Segment} {rest : List Char} (hs : s.Stands rest) (offset : Nat)
    (bs : List UInt8) :
    Text.blankFrom (offset + Text.byteLength s.chars) (faultSpans offset (s.chars ++ rest)) bs =
      Text.blankFrom (offset + Text.byteLength s.chars)
        (faultSpans (offset + Text.byteLength s.chars) rest) bs := by
  refine Text.blankFrom_congr fun i _ => ?_
  rw [exists_mem_faultSpans hs]
  refine or_iff_right fun hself => ?_
  have hlt := hself.2.2
  simp only [Span.stop] at hlt
  omega

/-- **A quiet text is the text with a space for every byte of a fault.** -/
theorem bytes_quiet (chars : List Char) : ∀ offset,
    Text.bytes (quiet chars) = Text.blankFrom offset (faultSpans offset chars) (Text.bytes chars) := by
  induction chars using segment_induction with
  | nil => intro offset; simp [quiet, faultSpans]
  | cons s rest hs ih =>
    intro offset
    rw [quiet_append hs, Text.bytes_append, Text.bytes_append, Text.blankFrom_append,
      Text.length_bytes, blankFrom_segment hs, blankFrom_rest hs,
      ih (offset + Text.byteLength s.chars)]

/-- So nothing moves. -/
theorem byteLength_quiet (chars : List Char) :
    Text.byteLength (quiet chars) = Text.byteLength chars := by
  rw [← Text.length_bytes, bytes_quiet chars 0, Text.blankFrom, List.length_mapIdx,
    Text.length_bytes]

/-! ## 4. Lexing a quiet text -/

/-- The tokens are those of the text, at the same offsets. -/
theorem tokens_quiet (path source : String) :
    (lex path (String.ofList (quiet source.toList))).tokens = (lex path source).tokens := by
  have hsize : (String.ofList (quiet source.toList)).utf8ByteSize = source.utf8ByteSize := by
    rw [← Text.byteLength_toList, String.toList_ofList, byteLength_quiet, Text.byteLength_toList]
  rw [lex_tokens_marked, lex_tokens_marked, String.toList_ofList, marked_quiet, hsize,
    filterMap_filter_of_none]
  rintro ⟨offset, content, chars⟩ h
  cases content <;> first | rfl | cases h

/-- Nothing is reported, as the marked segments are no faults. -/
theorem diagnostics_quiet (path source : String) :
    (lex path (String.ofList (quiet source.toList))).diagnostics = [] := by
  rw [lex_diagnostics_marked, String.toList_ofList, marked_quiet]
  refine List.filterMap_eq_nil_iff.mpr ?_
  rintro ⟨offset, content, chars⟩ h
  have hfault := (List.mem_filter.mp h).2
  cases content <;> first | rfl | cases hfault

/-- **Recovery from a fault is as if there had been spaces.**  The bytes of a source, with a
space for each that the span of a diagnostic covers, are those of a text.  It is lexed to the
same tokens, the end of the text with them, and to the same lines, and nothing is reported. -/
theorem lex_blanked (path source : String) :
    ∃ blanked, Text.ofBytes? (Text.blank ((lex path source).diagnostics.filterMap Diagnostic.span)
        source.toUTF8) = some blanked ∧
      (lex path blanked).tokens = (lex path source).tokens ∧
      (lex path blanked).lines = (lex path source).lines ∧
      (lex path blanked).diagnostics = [] := by
  refine ⟨String.ofList (quiet source.toList), ?_, tokens_quiet path source, ?_,
    diagnostics_quiet path source⟩
  · have hspans : (lex path source).diagnostics.filterMap Diagnostic.span =
        faultSpans 0 source.toList := by rw [lex_diagnostics_marked, faultSpans]
    rw [hspans, Text.blank, Text.data_toUTF8, ← bytes_quiet, ← Text.toUTF8_ofList,
      Text.ofBytes?_toUTF8]
  · rw [lex_lines, lex_lines, String.toList_ofList, lineStarts_quiet]

end FrontEnd
