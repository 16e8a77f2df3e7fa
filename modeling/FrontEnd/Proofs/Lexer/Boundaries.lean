/-
# Where a segment ends

Segments are read one after the other, each as far as it goes.  How far that is depends on
the segment and on the one character that follows it, on nothing else: a word goes on over
letters, a slash becomes a comment before another slash, a literal that is not closed stops
at the end of its line.

* `Stands`: a segment ends where the rest of the text follows it;
* `first?_iff`: the first segment of a text is the one that stands at its start;
* `Stands.of_head`, `Stands.before_newline`, `Stands.before_space`: how the rest may change;
* `marked`: the tokens and faults of a text, with their offsets.
-/
import FrontEnd.Proofs.Lexer.Placement
import FrontEnd.Proofs.Lexer.Spelling

namespace FrontEnd

namespace Lexeme

/-! ## 1. How lexemes start -/

/-- No part of a word begins layout. -/
theorem isBlank_of_isWordPart {c : Char} (h : isWordPart c = true) :
    Layout.isBlank c = false ∧ c ≠ '/' := by
  refine ⟨Bool.eq_false_iff.mpr fun hb => ?_, fun hc => ?_⟩
  · exact Bool.eq_false_iff.mp ((apart_cons hb []).ends .identifier c rfl) h
  · subst hc
    exact absurd h (by decide)

theorem isWordPart_of_isDigit {c : Char} (h : c.isDigit = true) : isWordPart c = true := by
  simp [isWordPart, Char.isAlphanum, h]

/-- A lexeme starts with no layout, but for the slash that divides. -/
theorem Spelling.head {k : Kind} {chars : List Char} (h : Spelling k chars) :
    chars = ['/'] ∨ ∃ c tail, chars = c :: tail ∧ Layout.isBlank c = false ∧ c ≠ '/' := by
  have digits {digits : List Char} (hn : digits ≠ []) (hd : ∀ d ∈ digits, d.isDigit = true) :
      ∃ c tail, digits = c :: tail ∧ Layout.isBlank c = false ∧ c ≠ '/' := by
    obtain ⟨c, tail, rfl⟩ := List.exists_cons_of_ne_nil hn
    exact ⟨c, tail, rfl, isBlank_of_isWordPart (isWordPart_of_isDigit (hd c (by simp)))⟩
  cases h with
  | symbol hk =>
    cases k <;> cases hk <;> first
      | exact .inl rfl
      | exact .inr ⟨_, _, rfl, by decide, by decide⟩
  | @identifier c word hc =>
    exact .inr ⟨c, word, rfl, isBlank_of_isWordPart (isWordPart_of_isWordStart hc)⟩
  | integer hn hd => exact .inr (digits hn hd)
  | float hn hd =>
    obtain ⟨c, tail, rfl, hc⟩ := digits hn hd
    exact .inr ⟨c, _, rfl, hc⟩
  | @quoted q text =>
    refine .inr ⟨q.mark, text ++ [q.mark], rfl, ?_⟩
    cases q <;> decide

/-- **Where a lexeme stands no layout does.**  The one that could be taken for it is a slash, and it
does not end before what makes it a comment. -/
theorem Spelling.layout_none {k : Kind} {chars after : List Char} (h : Spelling k chars)
    (ha : Ends k after) : Layout.read? (chars ++ after) = none := by
  rcases h.head with rfl | ⟨c, tail, rfl, hb, hs⟩
  · obtain rfl : .divide = k := congrArg Lexeme.kind (Option.some.inj (spelling_iff.mp h))
    cases after with
    | nil => rfl
    | cons c rest =>
      have hc : c ≠ '/' ∧ c ≠ '*' := by simpa [continues] using ha c rfl
      simp [Layout.read?, Layout.isBlank, hc]
  · exact Layout.read?_eq_none hb hs _

/-- A literal stays on its line. -/
theorem Quoted.not_mem_newline {mark : Char} {text : List Char} (h : Quoted mark text) :
    '\n' ∉ text := by
  induction h with
  | nil => simp
  | plain _ hn _ _ ih => simp [hn.symm, ih]
  | escape hn _ ih => simp [hn.symm, ih]

/-- A lexeme stays on its line. -/
theorem Spelling.not_mem_newline {k : Kind} {chars : List Char} (h : Spelling k chars) :
    '\n' ∉ chars := by
  have digits {digits : List Char} (hd : ∀ d ∈ digits, d.isDigit = true) : '\n' ∉ digits :=
    fun hm => absurd (hd _ hm) (by decide)
  cases h with
  | symbol hk => cases k <;> cases hk <;> decide
  | @identifier c word hc hw =>
    rw [List.mem_cons, not_or]
    refine ⟨?_, fun hm => absurd (hw _ hm) (by decide)⟩
    rintro rfl
    exact absurd hc (by decide)
  | integer _ hd => exact digits hd
  | float _ hd hf => simp [digits hd, digits hf]
  | @quoted q text ht =>
    have hq : '\n' ≠ q.mark := by cases q <;> decide
    simp [hq, ht.not_mem_newline]

/-! ## 2. How lexemes end -/

/-- As much of a word was taken as there is. -/
theorem ends_of_readWord? {chars : List Char} {l : Lexeme} (h : readWord? chars = some l) :
    Ends l.kind l.rest := by
  unfold readWord? at h
  split at h
  · cases h
  · split at h <;> cases h
    intro c hc
    have hpart : isWordPart c = false := head?_dropWhile hc
    simp only [wordKind]
    split_ifs <;> exact hpart

/-- After a number there is neither a digit nor a first point. -/
theorem ends_of_readNumber? {chars : List Char} {l : Lexeme} (h : readNumber? chars = some l) :
    Ends l.kind l.rest := by
  simp only [readNumber?] at h
  split at h
  · cases h
  · split at h <;> cases h
    · exact fun c hc => head?_dropWhile hc
    · rename_i hpoint
      intro c hc
      have hdigit : c.isDigit = false := head?_dropWhile hc
      have hne : c ≠ '.' := by
        rintro rfl
        obtain ⟨tail, ht⟩ := List.head?_eq_some_iff.mp hc
        exact hpoint tail ht
      simp [continues, hdigit, hne]

/-- A closing mark ends a literal, whatever follows. -/
theorem ends_of_readQuoted? {chars : List Char} {l : Lexeme} (h : readQuoted? chars = some l) :
    Ends l.kind l.rest := by
  unfold readQuoted? at h
  split at h
  · cases h
  · split at h
    · rename_i q _
      obtain ⟨p, -, rfl⟩ := Option.map_eq_some_iff.mp h
      cases q <;> exact fun _ _ => rfl
    · cases h

/-- A symbol is the longest that there is, and a slash is one where no comment starts. -/
theorem ends_of_readSymbol? {chars : List Char} {l : Lexeme} (h : readSymbol? chars = some l)
    (hl : Layout.read? chars = none) : Ends l.kind l.rest := by
  unfold readSymbol? at h
  split at h <;> cases h <;> first
    | exact fun _ _ => rfl
    | intro c hc
      obtain ⟨tail, rfl⟩ := List.head?_eq_some_iff.mp hc
      first
        | have hopen := Layout.not_comment_of_read?_eq_none hl
          simp [continues, hopen]
        | have hlong : c ≠ '=' := by
            rintro rfl
            simp_all
          simp [continues, hlong]

/-- So it is for every lexeme.  That no layout is there is needed for the slash. -/
theorem ends_of_read? {chars : List Char} {l : Lexeme} (h : read? chars = some l)
    (hl : Layout.read? chars = none) : Ends l.kind l.rest := by
  simp only [read?, Option.orElse_eq_orElse, Option.orElse_eq_or, Option.or_eq_some_iff] at h
  rcases h with h | ⟨-, h | ⟨-, h | ⟨-, h⟩⟩⟩
  · exact ends_of_readWord? h
  · exact ends_of_readNumber? h
  · exact ends_of_readQuoted? h
  · exact ends_of_readSymbol? h hl

/-! ## 3. What is no lexeme -/

/-- No mark in the text closes a literal that is open before it. -/
def Unclosed (mark : Char) (text : List Char) : Prop :=
  ∀ body rest, Quoted mark body → text ≠ body ++ mark :: rest

/-- **A literal is not closed** exactly if no spelling of one begins there.  The cases are those of
the recursion, where a backslash takes two characters. -/
theorem readQuotedBody?_eq_none_iff {mark : Char} (hm : mark ≠ '\\') {text : List Char} :
    readQuotedBody? mark text = none ↔ Unclosed mark text := by
  constructor
  · rintro h body rest hb rfl
    rw [readQuotedBody?_quoted hm hb] at h
    cases h
  · intro h
    cases hr : readQuotedBody? mark text with
    | none => rfl
    | some p =>
      obtain ⟨body, hp, hb⟩ := quoted_of_readQuotedBody? hr
      have htext := readQuotedBody?_eq_append hr
      rw [hp, List.append_assoc] at htext
      exact absurd htext (h body p.2 hb)

/-- Only the rest of the line can close a literal. -/
theorem unclosed_append {mark : Char} (hm : mark ≠ '\n') {text after : List Char}
    (ha : ∀ c ∈ after.head?, c = '\n') : Unclosed mark (text ++ after) ↔ Unclosed mark text := by
  constructor
  · rintro h body rest hb rfl
    exact h body (rest ++ after) hb (by simp)
  · intro h body rest hb he
    rw [List.append_cons] at he
    rcases List.append_eq_append_iff.mp he with ⟨mid, hbody, hafter⟩ | ⟨mid, htext, -⟩
    · have hline : '\n' ∉ body ++ [mark] := by simp [hb.not_mem_newline, hm.symm]
      cases mid with
      | nil => exact h body [] hb (by simpa using hbody.symm)
      | cons c mid =>
        obtain rfl : c = '\n' := ha c (by simp [hafter])
        exact hline (by simp [hbody])
    · exact h body mid hb (by simpa using htext)

/-- The characters that are or start a symbol alone. -/
def symbols : List Char :=
  ['(', ')', '{', '}', ',', '=', '!', '<', '>', '+', '-', '*', '/', '%']

theorem readSymbol?_ne_none {c : Char} (hc : c ∈ symbols) (rest : List Char) :
    readSymbol? (c :: rest) ≠ none := by
  intro h
  simp only [symbols, List.mem_cons, List.not_mem_nil, or_false] at hc
  rcases hc with rfl | rfl | rfl | rfl | rfl | rfl | rfl | rfl | rfl | rfl | rfl | rfl | rfl | rfl
  all_goals first
    | cases h
    | -- the symbol can be the start of a longer one
      cases rest with
      | nil => cases h
      | cons d tail =>
        by_cases hd : d = '='
        · subst hd
          cases h
        · simp [readSymbol?, hd] at h

/-- Two characters are symbols only where they are doubled. -/
theorem readSymbol?_eq_none_iff {c : Char} {rest : List Char} :
    readSymbol? (c :: rest) = none ↔
      c ∉ symbols ∧ (c = '&' ∨ c = '|' → rest.head? ≠ some c) := by
  constructor
  · intro h
    refine ⟨fun hc => readSymbol?_ne_none hc rest h, ?_⟩
    rintro (rfl | rfl) hd <;>
    · obtain ⟨tail, rfl⟩ := List.head?_eq_some_iff.mp hd
      cases h
  · rintro ⟨hc, hd⟩
    unfold readSymbol?
    split <;> first
      | rfl
      | rename_i he
        cases he
        first
          | exact absurd (by decide) hc
          | exact absurd rfl (hd (by decide))

theorem isDigit_of_readNumber?_eq_none {c : Char} {tail : List Char}
    (h : readNumber? (c :: tail) = none) : c.isDigit = false := by
  refine Bool.eq_false_iff.mpr fun hc => ?_
  simp only [readNumber?, List.takeWhile_cons, hc, if_true] at h
  split at h
  · simp_all
  · split at h <;> cases h

/-- No lexeme can be read if none of the four readers reads one. -/
theorem read?_eq_none_iff {chars : List Char} : read? chars = none ↔
    readWord? chars = none ∧ readNumber? chars = none ∧ readQuoted? chars = none ∧
      readSymbol? chars = none := by
  simp [read?]

/-- A mark starts no lexeme if nothing closes the literal. -/
theorem read?_mark_iff {q : Quote} {text : List Char} :
    read? (q.mark :: text) = none ↔ Unclosed q.mark text := by
  have hmark : Quote.ofMark? q.mark = some q := Quote.ofMark?_eq_some_iff.mpr rfl
  have hword : readWord? (q.mark :: text) = none := readWord?_eq_none (by cases q <;> decide) _
  have hnumber : readNumber? (q.mark :: text) = none :=
    readNumber?_eq_none (by cases q <;> decide) _
  have hsymbol : readSymbol? (q.mark :: text) = none := by cases q <;> rfl
  rw [read?_eq_none_iff, ← readQuotedBody?_eq_none_iff (by cases q <;> decide)]
  simp [hword, hnumber, hsymbol, readQuoted?, hmark]

/-- No segment starts with the character, but for a fault.  An ampersand or a bar alone is
one, too. -/
def Invalid (c : Char) : Prop :=
  Layout.isBlank c = false ∧ isWordStart c = false ∧ c.isDigit = false ∧
    Quote.ofMark? c = none ∧ c ∉ symbols

/-- Any other character starts no lexeme if it is invalid. -/
theorem read?_invalid_iff {c : Char} {rest : List Char} (hm : Quote.ofMark? c = none)
    (hb : Layout.isBlank c = false) :
    read? (c :: rest) = none ↔ Invalid c ∧ (c = '&' ∨ c = '|' → rest.head? ≠ some c) := by
  have hword : readWord? (c :: rest) = none ↔ isWordStart c = false := by simp [readWord?]
  have hnumber : readNumber? (c :: rest) = none ↔ c.isDigit = false :=
    ⟨isDigit_of_readNumber?_eq_none, fun hc => readNumber?_eq_none hc rest⟩
  have hquoted : readQuoted? (c :: rest) = none := by simp [readQuoted?, hm]
  rw [read?_eq_none_iff, hword, hnumber, readSymbol?_eq_none_iff]
  simp [Invalid, hb, hm, hquoted, and_assoc]

end Lexeme

/-! ## 4. Segments -/

namespace Segment

/-- The segment ends where `after` follows it. -/
inductive Stands : Segment → List Char → Prop
  | layout {l : Layout} {piece after : List Char} : Layout.Piece l piece after →
      Stands ⟨.layout l, piece⟩ after
  | lexeme {k : Kind} {chars after : List Char} : Lexeme.Spelling k chars → Lexeme.Ends k after →
      Stands ⟨.lexeme k, chars⟩ after
  | unterminated {q : Quote} {text after : List Char} : Lexeme.Unclosed q.mark text →
      '\n' ∉ text → (∀ c ∈ after.head?, c = '\n') →
      Stands ⟨.fault (.unterminated q), q.mark :: text⟩ after
  | invalidChar {c : Char} {after : List Char} : Lexeme.Invalid c →
      (c = '&' ∨ c = '|' → after.head? ≠ some c) → Stands ⟨.fault (.invalidChar c), [c]⟩ after

/-- Layout is tried first. -/
theorem first?_layout {chars piece after : List Char} {l : Layout}
    (h : Layout.read? chars = some (l, piece, after)) :
    first? chars = some (⟨.layout l, piece⟩, after) := by
  cases chars with
  | nil => cases h
  | cons c tail => simp only [first?, h]

/-- Then lexemes are tried. -/
theorem first?_lexeme {chars : List Char} {l : Lexeme} (hl : Layout.read? chars = none)
    (h : Lexeme.read? chars = some l) : first? chars = some (⟨.lexeme l.kind, l.chars⟩, l.rest) := by
  cases chars with
  | nil => cases h
  | cons c tail => simp only [first?, hl, h]

/-- Where neither is there is a fault. -/
theorem first?_fault {c : Char} {tail : List Char} (hl : Layout.read? (c :: tail) = none)
    (h : Lexeme.read? (c :: tail) = none) : first? (c :: tail) = some (ofFault c tail) := by
  simp only [first?, hl, h]

/-- **A segment that stands at the start of a text is its first.** -/
theorem Stands.first? {s : Segment} {after : List Char} (h : s.Stands after) :
    Segment.first? (s.chars ++ after) = some (s, after) := by
  cases h with
  | layout hp => exact first?_layout (Layout.read?_of_piece hp)
  | lexeme hk ha => exact first?_lexeme (hk.layout_none ha) (Lexeme.read?_append hk ha)
  | @unterminated q text after hu hn ha =>
    have hread : Lexeme.read? (q.mark :: (text ++ after)) = none :=
      Lexeme.read?_mark_iff.mpr ((Lexeme.unclosed_append (by cases q <;> decide) ha).mpr hu)
    rw [List.cons_append, first?_fault (by cases q <;> rfl) hread]
    simp only [ofFault, Quote.ofMark?_eq_some_iff.mpr rfl, takeWhile_line hn ha,
      dropWhile_line hn ha]
  | @invalidChar c after hc hd =>
    have ⟨hb, _, _, hm, hs⟩ := hc
    have hslash : c ≠ '/' := by
      rintro rfl
      exact hs (by decide)
    have hread : Lexeme.read? (c :: after) = none := (Lexeme.read?_invalid_iff hm hb).mpr ⟨hc, hd⟩
    rw [List.singleton_append, first?_fault (Layout.read?_eq_none hb hslash _) hread]
    simp only [ofFault, hm]

/-- What is read first stands where it was read. -/
theorem stands_of_first? {chars after : List Char} {s : Segment}
    (h : Segment.first? chars = some (s, after)) : s.Stands after := by
  rcases first?_cases h with ⟨l, piece, hr, rfl⟩ | ⟨l, hl, hr, rfl, rfl⟩ | ⟨c, tail, rfl, hl, hr, hf⟩
  · exact .layout (Layout.piece_of_read? hr)
  · exact .lexeme (Lexeme.spelling_of_read? hr) (Lexeme.ends_of_read? hr hl)
  · cases hm : Quote.ofMark? c with
    | some q =>
      obtain rfl := Quote.ofMark?_eq_some_iff.mp hm
      simp only [ofFault, hm] at hf
      cases hf
      obtain ⟨hline, hend⟩ := line_spec tail
      refine .unterminated ?_ hline hend
      rw [← Lexeme.unclosed_append (by cases q <;> decide) hend, List.takeWhile_append_dropWhile]
      exact Lexeme.read?_mark_iff.mp hr
    | none =>
      simp only [ofFault, hm] at hf
      cases hf
      obtain ⟨hc, hd⟩ := (Lexeme.read?_invalid_iff hm (Layout.isBlank_of_read?_eq_none hl)).mp hr
      exact .invalidChar hc hd

/-- **The first segment of a text is the one that stands at its start.** -/
theorem first?_iff {chars after : List Char} {s : Segment} :
    Segment.first? chars = some (s, after) ↔ chars = s.chars ++ after ∧ s.Stands after := by
  constructor
  · exact fun h => ⟨(first?_eq_append h).1, stands_of_first? h⟩
  · rintro ⟨rfl, h⟩
    exact h.first?

/-- Is layout. -/
def isLayout (s : Segment) : Bool :=
  match s.content with
  | .layout _ => true
  | _ => false

/-- Is a run of blanks. -/
def isBlanks (s : Segment) : Bool := s.content == .layout .blanks

theorem isLayout_of_isBlanks {s : Segment} (h : s.isBlanks = true) : s.isLayout = true := by
  simp [isLayout, beq_iff_eq.mp h]

/-- Blanks are blank. -/
theorem Stands.isBlank {s : Segment} {after : List Char} (h : s.Stands after)
    (hb : s.isBlanks = true) : ∀ c ∈ s.chars, Layout.isBlank c = true := by
  cases h with
  | layout hp =>
    cases hp with
    | blanks _ hr => exact hr
    | comment | openComment | lineComment => cases hb
  | lexeme | unterminated | invalidChar => cases hb

/-- Only the next character decides where a segment ends. -/
theorem Stands.of_head {s : Segment} {after after' : List Char} (h : s.Stands after)
    (he : after'.head? = after.head?) : s.Stands after' := by
  cases h with
  | layout hp =>
    refine .layout ?_
    cases hp with
    | blanks hn hr ha => exact .blanks hn hr (he ▸ ha)
    | comment hb => exact .comment hb
    | openComment hb =>
      obtain rfl := List.head?_eq_none_iff.mp he
      exact .openComment hb
    | lineComment hb ha => exact .lineComment hb (he ▸ ha)
  | lexeme hk ha => exact .lexeme hk fun c hc => ha c (he ▸ hc)
  | unterminated hu hn ha => exact .unterminated hu hn (he ▸ ha)
  | invalidChar hc hd => exact .invalidChar hc (he ▸ hd)

/-- A line feed ends every segment but blanks, which take it in, and a comment that goes on. -/
theorem Stands.before_newline {s : Segment} {after : List Char} (h : s.Stands after)
    (hb : s.isBlanks = false) (ho : s.content ≠ .layout .openComment) (rest : List Char) :
    s.Stands ('\n' :: rest) := by
  cases h with
  | layout hp =>
    refine .layout ?_
    cases hp with
    | blanks => cases hb
    | comment hn => exact .comment hn
    | openComment => exact absurd rfl ho
    | lineComment hn => exact .lineComment hn (by simp)
  | lexeme hk => exact .lexeme hk ((Lexeme.apart_cons rfl rest).ends _)
  | unterminated hu hn => exact .unterminated hu hn (by simp)
  | invalidChar hc =>
    refine .invalidChar hc ?_
    rintro (rfl | rfl) <;> simp

/-- A space ends what another character of the line ended, but for blanks. -/
theorem Stands.before_space {s : Segment} {c : Char} {after : List Char} (h : s.Stands (c :: after))
    (hc : c ≠ '\n') (hb : s.isBlanks = false) (rest : List Char) : s.Stands (' ' :: rest) := by
  cases h with
  | layout hp =>
    refine .layout ?_
    cases hp with
    | blanks => cases hb
    | comment hn => exact .comment hn
    | lineComment _ ha => exact absurd (ha c rfl) hc
  | lexeme hk => exact .lexeme hk ((Lexeme.apart_cons rfl rest).ends _)
  | unterminated _ _ ha => exact absurd (ha c rfl) hc
  | invalidChar hi =>
    refine .invalidChar hi ?_
    rintro (rfl | rfl) <;> simp

/-- **A token or a fault stays on its line.** -/
theorem Stands.not_mem_newline {s : Segment} {after : List Char} (h : s.Stands after)
    (hl : s.isLayout = false) : '\n' ∉ s.chars := by
  cases h with
  | layout => cases hl
  | lexeme hk => exact hk.not_mem_newline
  | @unterminated q _ _ _ hn =>
    have hq : '\n' ≠ q.mark := by cases q <;> decide
    simp [hq, hn]
  | @invalidChar c _ hc =>
    rw [List.mem_singleton]
    rintro rfl
    exact absurd hc.1 (by decide)

end Segment

/-! ## 5. Texts -/

/-- A segment that stands at the start of a text is its first one. -/
theorem segments_append {s : Segment} {after : List Char} (h : s.Stands after) :
    segments (s.chars ++ after) = s :: segments after :=
  segments_eq_cons h.first?

/-- **Induction on a text.**  A text is empty, or a segment that stands before the rest. -/
@[elab_as_elim]
theorem segment_induction {motive : List Char → Prop} (chars : List Char) (nil : motive [])
    (cons : ∀ (s : Segment) (rest : List Char), s.Stands rest → motive rest →
      motive (s.chars ++ rest)) : motive chars := by
  fun_induction segments chars with
  | case1 chars hnone =>
    by_cases hc : chars = []
    · exact hc ▸ nil
    · have := Segment.first?_isSome hc
      rw [hnone] at this
      cases this
  | case2 chars s rest hfirst _ ih =>
    obtain ⟨rfl, hs⟩ := Segment.first?_iff.mp hfirst
    exact cons s rest hs ih

/-- The tokens and faults of a text that starts at `offset`. -/
def marked (offset : Nat) (chars : List Char) : List (Nat × Segment) :=
  (placed offset (segments chars)).filter fun p => !p.2.isLayout

/-- The segment at `offset`, unless it is layout. -/
def Segment.mark (s : Segment) (offset : Nat) : List (Nat × Segment) :=
  if s.isLayout then [] else [(offset, s)]

@[simp] theorem marked_nil (offset : Nat) : marked offset [] = [] := by simp [marked, placed]

/-- What is marked of a text is marked of its segments, one after the other. -/
theorem marked_segment {s : Segment} {after : List Char} (h : s.Stands after) (offset : Nat) :
    marked offset (s.chars ++ after) =
      s.mark offset ++ marked (offset + Text.byteLength s.chars) after := by
  cases hl : s.isLayout <;> simp [marked, Segment.mark, segments_append h, placed, hl]

/-- Blanks have no token and no fault, whatever follows them. -/
theorem marked_blanks {run : List Char} (hr : ∀ c ∈ run, Layout.isBlank c = true) (offset : Nat)
    (after : List Char) :
    marked offset (run ++ after) = marked (offset + Text.byteLength run) after := by
  -- the segment is longer if blanks follow
  have whole {run after : List Char} (hr : ∀ c ∈ run, Layout.isBlank c = true)
      (ha : ∀ c ∈ after.head?, Layout.isBlank c = false) (offset : Nat) :
      marked offset (run ++ after) = marked (offset + Text.byteLength run) after := by
    cases run with
    | nil => rfl
    | cons c run => exact marked_segment (.layout (.blanks (List.cons_ne_nil c run) hr ha)) offset
  have hmore : ∀ c ∈ after.takeWhile Layout.isBlank, Layout.isBlank c = true :=
    fun _ => List.mem_takeWhile_imp
  have hend : ∀ c ∈ (after.dropWhile Layout.isBlank).head?, Layout.isBlank c = false :=
    fun _ => head?_dropWhile
  have hboth : ∀ c ∈ run ++ after.takeWhile Layout.isBlank, Layout.isBlank c = true :=
    fun c hc => (List.mem_append.mp hc).elim (hr c) (hmore c)
  rw [← List.takeWhile_append_dropWhile (p := Layout.isBlank) (l := after), ← List.append_assoc,
    whole hboth hend, whole hmore hend, Text.byteLength_append, Nat.add_assoc]

/-- **What follows a segment may change** as long as the segment ends before it.  Blanks need
not end there. -/
theorem marked_append {s : Segment} {after after' : List Char} (h : s.Stands after)
    (h' : s.isBlanks = false → s.Stands after') (offset : Nat) :
    marked offset (s.chars ++ after') =
      s.mark offset ++ marked (offset + Text.byteLength s.chars) after' := by
  cases hb : s.isBlanks with
  | true =>
    rw [marked_blanks (h.isBlank hb), Segment.mark, if_pos (Segment.isLayout_of_isBlanks hb),
      List.nil_append]
  | false => exact marked_segment (h' hb) offset

/-- What gives nothing may be left out. -/
theorem filterMap_filter_of_none {α β : Type} {p : α → Bool} {f : α → Option β}
    (h : ∀ a, p a = false → f a = none) (as : List α) :
    (as.filter p).filterMap f = as.filterMap f := by
  rw [List.filterMap_filter]
  congr
  funext a
  cases hp : p a with
  | true => simp
  | false => simp [h a hp]

/-- Only marks have tokens. -/
theorem filterMap_token_marked (offset : Nat) (chars : List Char) :
    (marked offset chars).filterMap placedToken? =
      (placed offset (segments chars)).filterMap placedToken? := by
  rw [marked, filterMap_filter_of_none]
  rintro ⟨offset, content, chars⟩ h
  cases content <;> first | rfl | cases h

/-- Only marks have faults. -/
theorem filterMap_diagnostic_marked (offset : Nat) (chars : List Char) :
    (marked offset chars).filterMap placedDiagnostic? =
      (placed offset (segments chars)).filterMap placedDiagnostic? := by
  rw [marked, filterMap_filter_of_none]
  rintro ⟨offset, content, chars⟩ h
  cases content <;> first | rfl | cases h

/-- The tokens of a text, but for its end, are read off the marked segments. -/
theorem lex_tokens_marked (path source : String) :
    (lex path source).tokens =
      (marked 0 source.toList).filterMap placedToken? ++ [.eof source.utf8ByteSize] := by
  rw [lex_tokens, filterMap_token_marked]

/-- So are its diagnostics. -/
theorem lex_diagnostics_marked (path source : String) :
    (lex path source).diagnostics = (marked 0 source.toList).filterMap placedDiagnostic? := by
  rw [lex_diagnostics, filterMap_diagnostic_marked]

end FrontEnd
