/-
# Tokens, faults and layout partition a text

Every byte of a text belongs to exactly one token, to exactly one fault that the lexer
reported, or to the layout between them.

* `IsPartition`: what that means for a text and a token stream;
* `lex_isPartition`: it holds of every text and the stream it is lexed to.

Both come from the segments of the text.  Where segments are tokens or faults their spans
are the marks of the text; sorting the spans of tokens and diagnostics gives the marks
(`spans_lex`), and the segments between two marks are pieces of layout (`gaps_marks`).
-/
import FrontEnd.Proofs.Lexer.Placement
import FrontEnd.Proofs.Lexer.Spelling
import Mathlib.Data.List.Nodup

namespace FrontEnd

/-- `piece` is what the text has in the span, and `after` is what follows it.  Such a span
starts and ends between characters. -/
def Text.Holds (text : List Char) (span : Span) (piece after : List Char) : Prop :=
  ∃ before, text = before ++ piece ++ after ∧
    byteLength before = span.offset ∧ byteLength piece = span.length

/-- The spans of the tokens and of the diagnostics, by offset. -/
def TokenStream.spans (s : TokenStream) : List Span :=
  (s.tokens.map Token.span ++ s.diagnostics.filterMap Diagnostic.span).mergeSort
    fun a b => a.offset ≤ b.offset

/-- The stretches before and between spans, the first from `start` on. -/
def gaps (start : Nat) : List Span → List Span
  | [] => []
  | s :: rest => ⟨start, s.offset - start⟩ :: gaps s.stop rest

/-- The tokens and diagnostics of the stream partition the text, together with layout. -/
structure IsPartition (text : List Char) (s : TokenStream) : Prop where
  /-- One token is the end of the text: the last, at the length of the text.  The others are
  not empty. -/
  eof : ∃ tokens, s.tokens = tokens ++ [.eof (Text.byteLength text)] ∧
    ∀ t ∈ tokens, t.kind ≠ .eof ∧ 0 < t.span.length
  /-- A token is written in its span. -/
  token : ∀ t ∈ s.tokens, ∃ after, Text.Holds text t.span t.written after
  /-- A diagnostic is about a part of the text, which is not empty. -/
  diagnostic : ∀ d ∈ s.diagnostics, ∃ span piece after, d.span = some span ∧ 0 < span.length ∧
    Text.Holds text span piece after
  /-- No two spans share a byte or start together. -/
  ordered : s.spans.Pairwise fun a b => a.stop ≤ b.offset ∧ a.offset < b.offset
  /-- Between two spans that follow each other there is only layout.  It is closed unless
  nothing follows. -/
  layout : ∀ gap ∈ gaps 0 s.spans, ∃ piece after, Text.Holds text gap piece after ∧
    Layouts piece after

/-! ## 1. The marks of a text -/

/-- The span of a placed segment that is a token or a fault. -/
def mark? (p : Nat × Segment) : Option Span :=
  match p.2.content with
  | .layout _ => none
  | _ => some ⟨p.1, Text.byteLength p.2.chars⟩

/-- The spans of the tokens and faults among segments. -/
def marks (offset : Nat) (segs : List Segment) : List Span :=
  (placed offset segs).filterMap mark?

/-- Where segments end that start at `offset`. -/
def endOf (offset : Nat) (segs : List Segment) : Nat :=
  offset + Text.byteLength (segs.flatMap (·.chars))

theorem endOf_cons (offset : Nat) (s : Segment) (rest : List Segment) :
    endOf offset (s :: rest) = endOf (offset + Text.byteLength s.chars) rest := by
  simp [endOf, Nat.add_assoc]

/-- Layout has no mark. -/
theorem marks_layout {offset : Nat} {s : Segment} {l : Layout} (h : s.content = .layout l)
    (rest : List Segment) :
    marks offset (s :: rest) = marks (offset + Text.byteLength s.chars) rest := by
  simp [marks, placed, mark?, h]

/-- Every other segment has one, where it stands. -/
theorem marks_mark {offset : Nat} {s : Segment} (h : ∀ l, s.content ≠ .layout l)
    (rest : List Segment) :
    marks offset (s :: rest) = ⟨offset, Text.byteLength s.chars⟩
      :: marks (offset + Text.byteLength s.chars) rest := by
  rw [marks, placed, List.filterMap_cons]
  cases hc : s.content with
  | layout l => exact absurd hc (h l)
  | lexeme => simp [mark?, hc, marks]
  | fault => simp [mark?, hc, marks]

/-- Every mark comes from a token or from a diagnostic. -/
theorem marks_perm (ps : List (Nat × Segment)) :
    ((ps.filterMap placedToken?).map Token.span ++
      (ps.filterMap placedDiagnostic?).filterMap Diagnostic.span).Perm (ps.filterMap mark?) := by
  induction ps with
  | nil => exact .nil
  | cons p ps ih =>
    obtain ⟨offset, content, chars⟩ := p
    cases content with
    | layout => exact ih
    | lexeme => exact ih.cons _
    | fault => exact List.perm_middle.trans (ih.cons _)

/-- Marks lie between the offset of the first segment and the end of the last. -/
theorem mark_bounds : ∀ {segs : List Segment} {offset : Nat} {m : Span},
    m ∈ marks offset segs → offset ≤ m.offset ∧ m.stop ≤ endOf offset segs
  | [], _, _, h => by cases h
  | s :: rest, offset, m, h => by
    rw [endOf_cons]
    have later (hm : m ∈ marks (offset + Text.byteLength s.chars) rest) :
        offset ≤ m.offset ∧ m.stop ≤ endOf (offset + Text.byteLength s.chars) rest := by
      obtain ⟨h₁, h₂⟩ := mark_bounds hm
      exact ⟨by omega, h₂⟩
    cases hc : s.content with
    | layout l => exact later (marks_layout hc rest ▸ h)
    | _ =>
      rw [marks_mark (by simp [hc])] at h
      rcases List.mem_cons.mp h with rfl | h
      · exact ⟨Nat.le_refl _, by simp [Span.stop, endOf]⟩
      · exact later h

/-- The order of spans that do not overlap. -/
def Before (a b : Span) : Prop := a.stop ≤ b.offset ∧ a.offset < b.offset

/-- **Marks do not overlap and come one after the other**, the empty one at the end of the text
last. -/
theorem marks_pairwise : ∀ {segs : List Segment} (offset : Nat), (∀ s ∈ segs, s.chars ≠ []) →
    (marks offset segs ++ [(⟨endOf offset segs, 0⟩ : Span)]).Pairwise Before
  | [], _, _ => by simp [marks, placed]
  | s :: rest, offset, h => by
    have ih := marks_pairwise (offset + Text.byteLength s.chars)
      fun t ht => h t (List.mem_cons_of_mem s ht)
    rw [endOf_cons]
    cases hc : s.content with
    | layout l => rwa [marks_layout hc]
    | _ =>
      rw [marks_mark (by simp [hc]), List.cons_append, List.pairwise_cons]
      refine ⟨fun m hm => ?_, ih⟩
      have hpos := Text.byteLength_pos (h s (by simp))
      have hle : offset + Text.byteLength s.chars ≤ m.offset := by
        rcases List.mem_append.mp hm with hm | hm
        · exact (mark_bounds hm).1
        · simp only [List.mem_singleton] at hm
          simp [hm, endOf]
      exact ⟨hle, by show offset < m.offset; omega⟩

/-- Sorting by offset gives the only order in which spans do not overlap. -/
theorem mergeSort_eq_of_perm {spans sorted : List Span} (h : spans.Perm sorted)
    (hs : sorted.Pairwise Before) : spans.mergeSort (fun a b => a.offset ≤ b.offset) = sorted := by
  have hnodup : (sorted.map Span.offset).Nodup :=
    List.pairwise_map.mpr (hs.imp fun hab => Nat.ne_of_lt hab.2)
  have htrans : ∀ a b c : Span, decide (a.offset ≤ b.offset) = true →
      decide (b.offset ≤ c.offset) = true → decide (a.offset ≤ c.offset) = true := by
    intro a b c
    simp only [decide_eq_true_eq]
    exact Nat.le_trans
  have htotal : ∀ a b : Span, (decide (a.offset ≤ b.offset) || decide (b.offset ≤ a.offset)) = true := by
    intro a b
    simpa using Nat.le_total a.offset b.offset
  have hsort := List.pairwise_mergeSort htrans htotal spans
  simp only [decide_eq_true_eq] at hsort
  refine List.Perm.eq_of_pairwise ?_ hsort (hs.imp fun hab => Nat.le_of_lt hab.2)
    ((List.mergeSort_perm _ _).trans h)
  intro a b ha hb hab hba
  have hmem : a ∈ sorted := h.mem_iff.mp (List.mem_mergeSort.mp ha)
  exact List.inj_on_of_nodup_map hnodup hmem hb (Nat.le_antisymm hab hba)

/-- The segments of a text end where it does. -/
theorem endOf_segments (source : String) :
    endOf 0 (segments source.toList) = source.utf8ByteSize := by
  rw [endOf, flatMap_segments, Text.byteLength_toList, Nat.zero_add]

/-- **Sorted by offset, the spans of tokens and diagnostics are the marks of the text.** -/
theorem spans_lex (path source : String) :
    (lex path source).spans =
      marks 0 (segments source.toList) ++ [⟨endOf 0 (segments source.toList), 0⟩] := by
  refine mergeSort_eq_of_perm ?_ (marks_pairwise 0 fun s => ne_nil_of_mem_segments)
  have hp := marks_perm (placed 0 (segments source.toList))
  rw [lex_tokens, lex_diagnostics, endOf_segments, List.map_append, List.append_assoc]
  refine (List.Perm.append_left _ List.perm_append_comm).trans ?_
  rw [← List.append_assoc]
  exact hp.append_right _

/-- Tokens are marked. -/
theorem sublist_marks (ps : List (Nat × Segment)) :
    ((ps.filterMap placedToken?).map Token.span).Sublist (ps.filterMap mark?) := by
  induction ps with
  | nil => exact .slnil
  | cons p ps ih =>
    obtain ⟨offset, content, chars⟩ := p
    cases content with
    | layout => exact ih
    | lexeme => exact ih.cons_cons _
    | fault => exact ih.cons _

/-- The tokens of a text stand in it one after the other. -/
theorem pairwise_tokens_lex (path source : String) :
    (lex path source).tokens.Pairwise fun t u => Before t.span u.span := by
  have hs : (marks 0 (segments source.toList) ++
      [(⟨endOf 0 (segments source.toList), 0⟩ : Span)]).Pairwise Before :=
    marks_pairwise 0 fun s => ne_nil_of_mem_segments
  rw [endOf_segments] at hs
  rw [lex_tokens]
  refine List.pairwise_map.mp (hs.sublist ?_)
  rw [List.map_append]
  exact (sublist_marks _).append (List.Sublist.refl _)

/-! ## 2. The stretches between marks -/

/-- Between marks, and after the last, the segments are pieces of layout.  `pending` is the
layout since the last mark, which ended at `start`. -/
theorem gaps_marks {text : List Char} : ∀ (chars before pending : List Char) {start offset : Nat},
    text = before ++ pending ++ chars → Text.byteLength before = start →
    offset = start + Text.byteLength pending → Layouts pending chars →
    ∀ gap ∈ gaps start (marks offset (segments chars) ++ [⟨endOf offset (segments chars), 0⟩]),
      ∃ piece after, Text.Holds text gap piece after ∧ Layouts piece after := by
  intro chars
  fun_induction segments chars with
  | case1 chars hnone =>
    intro before pending start offset ht hs ho hl gap hg
    simp only [marks, placed, List.filterMap_nil, List.nil_append, gaps, List.mem_singleton] at hg
    refine ⟨pending, chars, ⟨before, ht, ?_, ?_⟩, hl⟩
    · rw [hg, hs]
    · simp [hg, endOf, ho]
  | case2 chars s rest h _ ih =>
    intro before pending start offset ht hs ho hl gap hg
    have hchars := (Segment.first?_eq_append h).1
    rw [endOf_cons] at hg
    rcases Segment.first?_cases h with ⟨l, piece, hr, rfl⟩ | hmark
    · -- layout joins what is pending
      rw [marks_layout rfl] at hg
      refine ih before (pending ++ piece) ?_ hs ?_ ?_ gap hg
      · rw [ht, hchars]
        simp
      · rw [ho, Text.byteLength_append, Nat.add_assoc]
      · exact .snoc (hchars ▸ hl) (Layout.piece_of_read? hr)
    · -- a mark ends what is pending
      have hm : ∀ l, s.content ≠ .layout l := by
        intro l
        rcases hmark with ⟨l, -, -, rfl, -⟩ | ⟨c, tail, -, -, -, hf⟩
        · simp
        · unfold Segment.ofFault at hf
          split at hf <;> cases hf <;> simp
      rw [marks_mark hm, List.cons_append, gaps] at hg
      rcases List.mem_cons.mp hg with rfl | hg
      · exact ⟨pending, chars, ⟨before, ht, hs, by simp [ho]⟩, hl⟩
      · refine ih (before ++ pending ++ s.chars) [] ?_ ?_ ?_ (.nil _) gap hg
        · rw [ht, hchars]
          simp
        · simp [Span.stop, ho, hs, Nat.add_assoc]
        · simp [Span.stop]

/-! ## 3. Tokens and diagnostics in the text -/

/-- A placed segment is what the text holds at its place. -/
theorem holds_of_mem_placed {chars : List Char} {p : Nat × Segment}
    (h : p ∈ placed 0 (segments chars)) :
    ∃ after, Text.Holds chars ⟨p.1, Text.byteLength p.2.chars⟩ p.2.chars after := by
  obtain ⟨before, after, hs, ho⟩ := mem_placed h
  refine ⟨after.flatMap (·.chars), before.flatMap (·.chars), ?_, ?_, rfl⟩
  · rw [← flatMap_segments chars, hs]
    simp
  · rw [ho, Nat.zero_add]

/-- The token of a segment is written in it. -/
theorem written_of_token? {chars : List Char} {s : Segment} {offset : Nat} {t : Token}
    (hs : s ∈ segments chars) (ht : s.token? offset = some t) :
    t.span = ⟨offset, Text.byteLength s.chars⟩ ∧ t.written = s.chars ∧ t.kind ≠ .eof := by
  obtain ⟨left, rest, hf⟩ := exists_first_of_mem_segments hs
  rcases Segment.first?_cases hf with ⟨l, piece, -, rfl⟩ | ⟨l, -, hr, rfl, -⟩ | ⟨c, tail, -, -, -, hr⟩
  · cases ht
  · cases ht
    obtain ⟨hw, hk⟩ := (Lexeme.spelling_of_read? hr).written_text []
    refine ⟨rfl, ?_, hk⟩
    rw [Token.written, String.toList_ofList]
    exact hw
  · unfold Segment.ofFault at hr
    split at hr <;> cases hr <;> cases ht

/-- **Tokens, faults and layout partition every text.**  Lexing loses no byte and covers none
twice: whatever the text, the tokens and the faults found stand in it where their spans say,
one after the other, and between them is only layout. -/
theorem lex_isPartition (path source : String) : IsPartition source.toList (lex path source) := by
  constructor
  · -- the end of the text is the last token, and the others are segments
    refine ⟨_, by rw [lex_tokens, Text.byteLength_toList], fun t ht => ?_⟩
    obtain ⟨p, hp, ht⟩ := List.mem_filterMap.mp ht
    have hs := mem_segments_of_mem_placed hp
    obtain ⟨hspan, -, hk⟩ := written_of_token? hs ht
    refine ⟨hk, ?_⟩
    rw [hspan]
    exact Text.byteLength_pos (ne_nil_of_mem_segments hs)
  · intro t ht
    rw [lex_tokens] at ht
    rcases List.mem_append.mp ht with ht | ht
    · obtain ⟨p, hp, ht⟩ := List.mem_filterMap.mp ht
      obtain ⟨hspan, hw, -⟩ := written_of_token? (mem_segments_of_mem_placed hp) ht
      rw [hspan, hw]
      exact holds_of_mem_placed hp
    · -- the end of the text holds nothing
      cases List.mem_singleton.mp ht
      refine ⟨[], source.toList, ?_, Text.byteLength_toList source, rfl⟩
      simp [Token.written, Token.eof, Lexeme.written]
  · intro d hd
    rw [lex_diagnostics] at hd
    obtain ⟨p, hp, hd⟩ := List.mem_filterMap.mp hd
    obtain ⟨after, hh⟩ := holds_of_mem_placed hp
    refine ⟨⟨p.1, Text.byteLength p.2.chars⟩, p.2.chars, after, ?_,
      Text.byteLength_pos (ne_nil_of_mem_segments (mem_segments_of_mem_placed hp)), hh⟩
    unfold placedDiagnostic? Segment.diagnostic? at hd
    split at hd <;> cases hd
    rfl
  · rw [spans_lex]
    exact marks_pairwise 0 fun s => ne_nil_of_mem_segments
  · rw [spans_lex]
    exact gaps_marks source.toList [] [] rfl rfl rfl (.nil _)

end FrontEnd
