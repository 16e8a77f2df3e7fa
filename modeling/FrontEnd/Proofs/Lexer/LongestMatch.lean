/-
# The longest lexeme is read

A lexeme is read by trying one family after the other, and the first that can read one decides.
Nothing in this asks for the longest lexeme of the text, and lexemes do start alike: a keyword
can be the start of a name, digits the start of a float, one symbol the start of another.

That the longest is read all the same has a reason in each family.  Words and digits are taken
as far as they go; a point is looked for before a number is answered; longer symbols are tried
first; and a literal has only one mark that can close it, the first that is not protected.
Between families there is no choice, since no two of them start with the same character.

* `Longest`: a lexeme, and that the text starts with no longer one;
* `readsFrom_of_spelling`: a text that starts with a lexeme is read at least that far;
* `read?_eq_some_iff`: what is read is the longest lexeme, and the longest lexeme is read;
* `Segment.FaultAt`, `Segment.exists_fault`, `Lexer.pass_fault`: what is recorded where there is
  none.
-/
import FrontEnd.Proofs.Lexer.Positions

namespace FrontEnd

namespace Lexeme

/-! ## 1. A lexeme at the start of a text -/

/-- The text starts with the lexeme, and with no longer one of any kind. -/
structure Longest (chars : List Char) (l : Lexeme) : Prop where
  starts : chars = l.chars ++ l.rest
  spelled : Spelling l.kind l.chars
  longest : ∀ k word rest, chars = word ++ rest → Spelling k word → word.length ≤ l.chars.length

/-- A lexeme of at least `n` characters is read at the start of the text. -/
def ReadsFrom (n : Nat) (chars : List Char) : Prop :=
  ∃ l, read? chars = some l ∧ n ≤ l.chars.length

/-- Every start of a word is a word, so at least so much is read. -/
theorem readsFrom_word {c : Char} {word : List Char} (hc : isWordStart c = true)
    (hw : ∀ d ∈ word, isWordPart d = true) (rest : List Char) :
    ReadsFrom (c :: word).length (c :: word ++ rest) := by
  have htake : (c :: word ++ rest).takeWhile isWordPart =
      c :: word ++ rest.takeWhile isWordPart :=
    List.takeWhile_append_of_pos (by simpa [isWordPart_of_isWordStart hc] using hw)
  rw [List.cons_append] at htake ⊢
  refine ⟨_, by simp only [read?, readWord?, hc, if_true, htake]; rfl, ?_⟩
  simp

theorem readsFrom_number {chars : List Char} {l : Lexeme} {n : Nat}
    (h : readNumber? chars = some l) (hn : n ≤ l.chars.length) : ReadsFrom n chars :=
  ⟨l, read?_of_readNumber? h, hn⟩

/-- Digits are read to their end, and more where a point follows. -/
theorem readsFrom_integer {digits : List Char} (hn : digits ≠ [])
    (hd : ∀ d ∈ digits, d.isDigit = true) (rest : List Char) :
    ReadsFrom digits.length (digits ++ rest) := by
  have htake : (digits ++ rest).takeWhile Char.isDigit = digits ++ rest.takeWhile Char.isDigit :=
    List.takeWhile_append_of_pos hd
  have hne : digits ++ rest.takeWhile Char.isDigit ≠ [] := by simp [hn]
  cases hr : readNumber? (digits ++ rest) with
  | none =>
    simp only [readNumber?, htake, if_neg hne] at hr
    split at hr <;> cases hr
  | some l =>
    refine readsFrom_number hr ?_
    simp only [readNumber?, htake, if_neg hne] at hr
    split at hr <;> cases hr <;> simp

/-- The digits before a point end there, and those after it are read to their end. -/
theorem readsFrom_float {whole fraction : List Char} (hn : whole ≠ [])
    (hd : ∀ d ∈ whole, d.isDigit = true) (hf : ∀ d ∈ fraction, d.isDigit = true)
    (rest : List Char) :
    ReadsFrom (whole ++ '.' :: fraction).length (whole ++ '.' :: fraction ++ rest) := by
  have hpoint : ∀ d ∈ ('.' :: (fraction ++ rest)).head?, d.isDigit = false := by simp
  have htake : (fraction ++ rest).takeWhile Char.isDigit =
      fraction ++ rest.takeWhile Char.isDigit := List.takeWhile_append_of_pos hf
  rw [List.append_assoc, List.cons_append]
  refine readsFrom_number (l := ⟨.floatLiteral, whole ++ '.' :: (fraction ++ rest).takeWhile
    Char.isDigit, (fraction ++ rest).dropWhile Char.isDigit⟩) ?_ ?_
  · simp only [readNumber?, takeWhile_run hd hpoint, dropWhile_run hd hpoint, if_neg hn]
  · simp [htake]

theorem readsFrom_single {c : Char} (hc : c ∈ symbols) (rest : List Char) :
    ReadsFrom 1 (c :: rest) := by
  cases hr : read? (c :: rest) with
  | none => exact absurd (read?_eq_none_iff.mp hr).2.2.2 (readSymbol?_ne_none hc rest)
  | some l => exact ⟨l, hr, List.length_pos_iff.mpr (read?_eq_append hr).2⟩

/-- A spelled symbol is read, or a longer one. -/
theorem readsFrom_symbol {k : Kind} {word : List Char} (hk : k.symbol? = some word)
    (rest : List Char) : ReadsFrom word.length (word ++ rest) := by
  have whole (ha : Ends k rest) : ReadsFrom word.length (word ++ rest) :=
    ⟨_, read?_symbol hk ha, Nat.le_refl _⟩
  -- most symbols end anywhere; a keyword may go on as a word, and the others are short
  cases k <;> first
    | exact whole fun _ _ => rfl
    | cases hk <;> first
      | exact readsFrom_word rfl (List.all_eq_true.mp rfl) rest
      | exact readsFrom_single (by decide) rest

/-- **A text that starts with a lexeme is read at least to the end of it.** -/
theorem readsFrom_of_spelling {k : Kind} {word : List Char} (h : Spelling k word)
    (rest : List Char) : ReadsFrom word.length (word ++ rest) := by
  cases h with
  | symbol hk => exact readsFrom_symbol hk rest
  | identifier hc hw => exact readsFrom_word hc hw rest
  | integer hn hd => exact readsFrom_integer hn hd rest
  | float hn hd hf => exact readsFrom_float hn hd hf rest
  | quoted hq => exact ⟨_, read?_quoted hq rest, Nat.le_refl _⟩

/-! ## 2. The longest lexeme -/

/-- **What is read is the longest that is spelled.** -/
theorem longest_of_read? {chars : List Char} {l : Lexeme} (h : read? chars = some l) :
    Longest chars l := by
  refine ⟨(read?_eq_append h).1, spelling_of_read? h, ?_⟩
  rintro k word rest rfl hword
  obtain ⟨l', hl', hle⟩ := readsFrom_of_spelling hword rest
  rw [h] at hl'
  cases hl'
  exact hle

/-- Of two longest lexemes each is no longer than the other. -/
theorem Longest.unique {chars : List Char} {l l' : Lexeme} (h : Longest chars l)
    (h' : Longest chars l') : l = l' := by
  obtain ⟨k, word, rest⟩ := l
  obtain ⟨k', word', rest'⟩ := l'
  have hstarts : word ++ rest = word' ++ rest' := h.starts.symm.trans h'.starts
  have hlength : word.length = word'.length :=
    Nat.le_antisymm (h'.longest k word rest h.starts h.spelled)
      (h.longest k' word' rest' h'.starts h'.spelled)
  obtain ⟨rfl, rfl⟩ := List.append_inj hstarts hlength
  have hkind := (spelling_iff.mp h.spelled).symm.trans (spelling_iff.mp h'.spelled)
  cases hkind
  rfl

/-- There is only one longest prefix, so that it is the one that is read. -/
theorem read?_eq_some_iff {chars : List Char} {l : Lexeme} :
    read? chars = some l ↔ Longest chars l := by
  refine ⟨longest_of_read?, fun h => ?_⟩
  obtain ⟨l', hl', -⟩ := readsFrom_of_spelling h.spelled l.rest
  rw [← h.starts] at hl'
  rw [hl', h.unique (longest_of_read? hl')]

theorem exists_read?_iff {chars : List Char} :
    (∃ l, read? chars = some l) ↔ ∃ k word, word <+: chars ∧ Spelling k word := by
  constructor
  · rintro ⟨l, hl⟩
    exact ⟨l.kind, l.chars, ⟨l.rest, (read?_eq_append hl).1.symm⟩, spelling_of_read? hl⟩
  · rintro ⟨k, word, ⟨rest, rfl⟩, hword⟩
    obtain ⟨l, hl, -⟩ := readsFrom_of_spelling hword rest
    exact ⟨l, hl⟩

/-- A lexeme is a keyword if it is one of the four words, and no other is. -/
theorem Spelling.isKeyword_iff {k : Kind} {chars : List Char} (h : Spelling k chars) :
    k.isKeyword = true ↔ chars ∈ keywords := by
  have number {c : Char} (hc : c.isDigit = true) (word : List Char) : c :: word ∉ keywords := by
    simp only [keywords, List.mem_cons, List.not_mem_nil, List.cons.injEq, or_false]
    rintro (⟨rfl, -⟩ | ⟨rfl, -⟩ | ⟨rfl, -⟩ | ⟨rfl, -⟩) <;> exact absurd hc (by decide)
  cases h with
  | symbol hk => cases k <;> cases hk <;> decide
  | identifier _ _ hword => simpa [Kind.isKeyword] using hword
  | integer hn hd =>
    obtain ⟨c, tail, rfl⟩ := List.exists_cons_of_ne_nil hn
    simpa [Kind.isKeyword] using number (hd c (by simp)) tail
  | @float whole fraction hn hd =>
    obtain ⟨c, tail, rfl⟩ := List.exists_cons_of_ne_nil hn
    simpa [Kind.isKeyword] using number (hd c (by simp)) (tail ++ '.' :: fraction)
  | @quoted q => cases q <;> simp [Kind.isKeyword, Quote.kind, Quote.mark, keywords]

end Lexeme

/-! ## 3. Where there is none -/

/-- The fault of a text, the characters that it is about, and what follows them.  An open
literal is given up with its line; any other character is passed over alone. -/
inductive Segment.FaultAt : List Char → Fault → List Char → List Char → Prop
  | unterminated {q : Quote} {line after : List Char} : '\n' ∉ line →
      (∀ c ∈ after.head?, c = '\n') →
      FaultAt (q.mark :: line ++ after) (.unterminated q) (q.mark :: line) after
  | invalidChar {c : Char} {after : List Char} : (∀ q : Quote, c ≠ q.mark) →
      FaultAt (c :: after) (.invalidChar c) [c] after

/-- Every character begins a fault of one of the two kinds. -/
theorem Segment.faultAt_ofFault (c : Char) (rest : List Char) :
    ∃ fault piece after, FaultAt (c :: rest) fault piece after ∧
      ofFault c rest = (⟨.fault fault, piece⟩, after) := by
  cases hm : Quote.ofMark? c with
  | some q =>
    obtain rfl := Quote.ofMark?_eq_some_iff.mp hm
    obtain ⟨hline, hend⟩ := line_spec rest
    have hfault := FaultAt.unterminated (q := q) hline hend
    rw [List.cons_append, List.takeWhile_append_dropWhile] at hfault
    exact ⟨_, _, _, hfault, by simp only [ofFault, hm]⟩
  | none =>
    have hother : ∀ q : Quote, c ≠ q.mark := fun q hq => by
      rw [Quote.ofMark?_eq_some_iff.mpr hq] at hm
      cases hm
    exact ⟨_, _, _, .invalidChar hother, by simp only [ofFault, hm]⟩

/-- A fault never takes a line feed. -/
theorem Segment.FaultAt.not_mem_newline {chars piece after : List Char} {fault : Fault}
    (h : FaultAt chars fault piece after) (hb : ∀ c ∈ chars.head?, Layout.isBlank c = false) :
    '\n' ∉ piece := by
  cases h with
  | @unterminated q _ _ hline =>
    have hq : '\n' ≠ q.mark := by cases q <;> decide
    simp [hq, hline]
  | @invalidChar c =>
    rw [List.mem_singleton]
    rintro rfl
    exact absurd (hb _ rfl) (by decide)

/-- A lexing under way records a fault over the piece that comes next and goes on after it. -/
def Lexer.recover (l : Lexer) (fault : Fault) (piece after : List Char) : Lexer :=
  { l with
    pending := segments after
    offset := l.offset + Text.byteLength piece
    diagnostics := l.diagnostics ++ [.ofFault fault ⟨l.offset, Text.byteLength piece⟩]
    log := l.log ++ [.fault fault l.offset] }

/-- A text that starts neither with a lexeme nor with a blank starts with no comment either, as
a slash is a lexeme. -/
theorem Lexeme.layout_none_of_read? {c : Char} {rest : List Char} (h : read? (c :: rest) = none)
    (hb : Layout.isBlank c = false) : Layout.read? (c :: rest) = none := by
  refine Layout.read?_eq_none hb ?_ rest
  rintro rfl
  exact readSymbol?_ne_none (by decide) rest (read?_eq_none_iff.mp h).2.2.2

/-- **Where no lexeme can be read the first segment is a fault**, and no line starts in it. -/
theorem Segment.exists_fault {c : Char} {rest : List Char} (h : Lexeme.read? (c :: rest) = none)
    (hb : Layout.isBlank c = false) :
    ∃ fault piece after, FaultAt (c :: rest) fault piece after ∧
      segments (c :: rest) = ⟨.fault fault, piece⟩ :: segments after ∧ '\n' ∉ piece := by
  obtain ⟨fault, piece, after, hfault, hof⟩ := Segment.faultAt_ofFault c rest
  have hfirst := Segment.first?_fault (Lexeme.layout_none_of_read? h hb) h
  rw [hof] at hfirst
  exact ⟨fault, piece, after, hfault, segments_eq_cons hfirst,
    hfault.not_mem_newline (by simpa using hb)⟩

/-- Passing over a fault records it, and moves on without a new line. -/
theorem Lexer.pass_fault (l : Lexer) {fault : Fault} {piece : List Char} (h : '\n' ∉ piece)
    (after : List Char) :
    l.pass ⟨.fault fault, piece⟩ (segments after) = l.recover fault piece after := by
  simp only [pass, lineStarts_eq_nil h]
  rfl

/-- **The longest lexeme is read.**  A lexeme is read at the start of a text exactly if the text
starts with one of any kind; it is the longest of those and has its kind, which is that of a
keyword exactly if the whole lexeme is one of the four words.  Where none is read, and the text
is not at its end and starts with no blank, the text is cut after a fault: a literal that is not
closed, with the rest of its line, if the first character is a quote, and otherwise an invalid
character alone.  Passing over the fault records it with its span, starts no line and gives no
token, so the next token is sought after it. -/
theorem longest_match (chars : List Char) :
    ((∃ l, Lexeme.read? chars = some l) ↔ ∃ k word, word <+: chars ∧ Lexeme.Spelling k word) ∧
    (∀ l, Lexeme.read? chars = some l ↔ Lexeme.Longest chars l) ∧
    (∀ l, Lexeme.Longest chars l → (l.kind.isKeyword = true ↔ l.chars ∈ Lexeme.keywords)) ∧
    ∀ c rest, chars = c :: rest → Lexeme.read? chars = none → Layout.isBlank c = false →
      ∀ l : Lexer, ∃ fault piece after, Segment.FaultAt chars fault piece after ∧
        segments chars = ⟨.fault fault, piece⟩ :: segments after ∧
        (l.pass ⟨.fault fault, piece⟩ (segments after)).diagnostics =
          l.diagnostics ++ [.ofFault fault ⟨l.offset, Text.byteLength piece⟩] ∧
        (l.pass ⟨.fault fault, piece⟩ (segments after)).offset =
          l.offset + Text.byteLength piece ∧
        (l.pass ⟨.fault fault, piece⟩ (segments after)).lines = l.lines ∧
        l.seek (segments chars) = (l.recover fault piece after).seek (segments after) := by
  refine ⟨Lexeme.exists_read?_iff, fun _ => Lexeme.read?_eq_some_iff, fun l h => ?_, ?_⟩
  · exact h.spelled.isKeyword_iff
  · rintro c rest rfl hnone hb l
    obtain ⟨fault, piece, after, hfault, hcut, hline⟩ := Segment.exists_fault hnone hb
    have hpass : l.pass ⟨.fault fault, piece⟩ (segments after) = l.recover fault piece after :=
      l.pass_fault hline after
    refine ⟨fault, piece, after, hfault, hcut, ?_⟩
    rw [hpass, hcut]
    refine ⟨rfl, rfl, rfl, ?_⟩
    rw [← hpass]
    rfl

/-- A literal whose last mark is protected is given up, and lexing goes on after it. -/
theorem longest_match_protected :
    let chars : List Char := ['"', 'a', '\\', '"', '\n', 'b']
    Lexeme.read? chars = none ∧ Layout.isBlank '"' = false ∧
      ∃ fault piece after, Segment.FaultAt chars fault piece after ∧
        (Lexer.start "" "").seek (segments chars) =
          ((Lexer.start "" "").recover fault piece after).seek (segments after) := by
  intro chars
  have hnone : Lexeme.read? chars = none := by decide
  have hb : Layout.isBlank '"' = false := by decide
  obtain ⟨fault, piece, after, hfault, -, -, -, -, hseek⟩ :=
    (longest_match chars).2.2.2 _ _ rfl hnone hb (Lexer.start "" "")
  exact ⟨hnone, hb, fault, piece, after, hfault, hseek⟩

end FrontEnd
