/-
# The language of each kind

What the tokens of a kind can look like, as a set of texts: keywords, brackets and operators
have one spelling each, a name is a word that is no keyword, and literals are digits with or
without a point or stand in quotes.

* `Spelling`: the texts of each kind;
* `Ends`: the character that follows is not read together with a lexeme of the kind;
* `read?_append`: a lexeme that is spelled so is read whole where it ends so;
* `spelling_iff`: what is read is spelled so, and nothing else;
* `written_text`: a token is written as it was spelled.
-/
import FrontEnd.Proofs.Lexer.Pieces
import FrontEnd.Token

namespace FrontEnd

/-- The one spelling of a kind, if it has only one. -/
def Kind.symbol? : Kind → Option (List Char)
  | .keywordFunc => some ['f', 'u', 'n', 'c']
  | .keywordIf => some ['i', 'f']
  | .keywordElse => some ['e', 'l', 's', 'e']
  | .keywordReturn => some ['r', 'e', 't', 'u', 'r', 'n']
  | .openParenthesis => some ['(']
  | .closeParenthesis => some [')']
  | .openScope => some ['{']
  | .closeScope => some ['}']
  | .comma => some [',']
  | .assignment => some ['=']
  | .not => some ['!']
  | k => (Operator.ofKind? k).map fun o => o.symbol.toList

namespace Lexeme

/-! ## 1. Spellings -/

/-- What may stand between two marks: a backslash protects the character after it, and a
literal stays on its line. -/
inductive Quoted (mark : Char) : List Char → Prop
  | nil : Quoted mark []
  | plain {c : Char} {text : List Char} : c ≠ mark → c ≠ '\n' → c ≠ '\\' → Quoted mark text →
      Quoted mark (c :: text)
  | escape {c : Char} {text : List Char} : c ≠ '\n' → Quoted mark text →
      Quoted mark ('\\' :: c :: text)

/-- The rest of a literal ends at the first mark that is not protected. -/
theorem quoted_of_readQuotedBody? {mark : Char} {chars body after : List Char}
    (h : readQuotedBody? mark chars = some (body, after)) :
    ∃ text, body = text ++ [mark] ∧ Quoted mark text := by
  fun_induction readQuotedBody? mark chars generalizing body after with
  | case1 => cases h
  | case2 =>
    cases h
    exact ⟨[], rfl, .nil⟩
  | case3 => cases h
  | case4 =>
    cases h
    exact ⟨[], rfl, .nil⟩
  | case5 => cases h
  | case6 => cases h
  | case7 d rest hd _ _ ih =>
    obtain ⟨⟨b, a⟩, hb, he⟩ := Option.map_eq_some_iff.mp h
    cases he
    obtain ⟨text, rfl, ht⟩ := ih hb
    exact ⟨'\\' :: d :: text, rfl, .escape hd ht⟩
  | case8 c d rest hm hn hs ih =>
    obtain ⟨⟨b, a⟩, hb, he⟩ := Option.map_eq_some_iff.mp h
    cases he
    obtain ⟨text, rfl, ht⟩ := ih hb
    exact ⟨c :: text, rfl, .plain hm hn hs ht⟩

/-- The body of a literal is read up to the first mark that no backslash protects. -/
theorem readQuotedBody?_quoted {mark : Char} (hs : mark ≠ '\\') {text : List Char}
    (h : Quoted mark text) (after : List Char) :
    readQuotedBody? mark (text ++ mark :: after) = some (text ++ [mark], after) := by
  induction h with
  | nil => cases after <;> simp [readQuotedBody?]
  | @plain c text hm hn hs _ ih =>
    cases text with
    | nil => simp_all [readQuotedBody?]
    | cons d text => simp_all [readQuotedBody?]
  | escape hd _ ih => simp_all [readQuotedBody?, hs.symm]

/-- The words that are no names. -/
def keywords : List (List Char) :=
  [['f', 'u', 'n', 'c'], ['i', 'f'], ['e', 'l', 's', 'e'], ['r', 'e', 't', 'u', 'r', 'n']]

/-- The characters spell a lexeme of the kind. -/
inductive Spelling : Kind → List Char → Prop
  | symbol {k : Kind} {chars : List Char} : k.symbol? = some chars → Spelling k chars
  | identifier {c : Char} {word : List Char} : isWordStart c = true →
      (∀ d ∈ word, isWordPart d = true) → c :: word ∉ keywords → Spelling .identifier (c :: word)
  | integer {digits : List Char} : digits ≠ [] → (∀ d ∈ digits, d.isDigit = true) →
      Spelling .integerLiteral digits
  | float {whole fraction : List Char} : whole ≠ [] → (∀ d ∈ whole, d.isDigit = true) →
      (∀ d ∈ fraction, d.isDigit = true) → Spelling .floatLiteral (whole ++ '.' :: fraction)
  | quoted {q : Quote} {text : List Char} : Quoted q.mark text →
      Spelling q.kind (q.mark :: text ++ [q.mark])

/-- How a token of this kind and text is written. -/
def written (kind : Kind) (text : List Char) : List Char :=
  match kind with
  | .stringLiteral => '"' :: text ++ ['"']
  | .charLiteral => '\'' :: text ++ ['\'']
  | _ => text

/-- Writing a token puts on the quotes that its text has lost. -/
theorem text_written (kind : Kind) (text rest : List Char) :
    Lexeme.text ⟨kind, written kind text, rest⟩ = text := by
  unfold Lexeme.text written
  split <;> simp_all

/-- A lexeme is how its token is written, and it is not the end of the text. -/
theorem Spelling.written_text {k : Kind} {chars : List Char} (h : Spelling k chars)
    (rest : List Char) : written k (Lexeme.text ⟨k, chars, rest⟩) = chars ∧ k ≠ .eof := by
  cases h with
  | symbol hk => cases k <;> cases hk <;> exact ⟨rfl, by decide⟩
  | identifier | integer | float => exact ⟨rfl, by decide⟩
  | @quoted q => cases q <;> simp [Lexeme.text, written, Quote.kind, Quote.mark]

/-! ## 2. What is spelled is read -/

/-- The character is read together with a lexeme of the kind that it follows.  After a slash
it makes a comment of it. -/
def continues : Kind → Char → Bool
  | .keywordFunc, c | .keywordIf, c | .keywordElse, c | .keywordReturn, c | .identifier, c =>
    isWordPart c
  | .integerLiteral, c => c.isDigit || c == '.'
  | .floatLiteral, c => c.isDigit
  | .assignment, c | .not, c | .lessThan, c | .greaterThan, c => c == '='
  | .divide, c => c == '/' || c == '*'
  | _, _ => false

/-- A lexeme of the kind ends where this follows. -/
def Ends (k : Kind) (after : List Char) : Prop := ∀ c ∈ after.head?, continues k c = false

theorem ends_nil (k : Kind) : Ends k [] := by simp [Ends]

/-- Nothing follows, or a blank. -/
def Apart (after : List Char) : Prop := ∀ c ∈ after.head?, Layout.isBlank c = true

/-- Before a blank every lexeme is apart from what follows. -/
theorem apart_cons {c : Char} (h : Layout.isBlank c = true) (rest : List Char) :
    Apart (c :: rest) := by
  simpa [Apart] using h

/-- There are four blanks, and the end of the text. -/
theorem apart_cases {after : List Char} (h : Apart after) :
    after = [] ∨ ∃ rest, after = ' ' :: rest ∨ after = '\t' :: rest ∨ after = '\r' :: rest ∨
      after = '\n' :: rest := by
  cases after with
  | nil => exact .inl rfl
  | cons c rest =>
    have hc := h c rfl
    simp only [Layout.isBlank, Bool.or_eq_true, beq_iff_eq] at hc
    rcases hc with ((rfl | rfl) | rfl) | rfl <;> simp

/-- A blank ends every lexeme. -/
theorem Apart.ends {after : List Char} (h : Apart after) (k : Kind) : Ends k after := by
  rcases apart_cases h with rfl | ⟨rest, rfl | rfl | rfl | rfl⟩
  · exact ends_nil k
  all_goals
    intro c hc
    cases hc
    cases k <;> decide

theorem isWordStart_of_isDigit {c : Char} (h : c.isDigit = true) : isWordStart c = false := by
  have hdigit : c.toNat ≤ 57 := (Char.isDigit_iff_toNat.mp h).2
  refine Bool.eq_false_iff.mpr fun hstart => ?_
  simp only [isWordStart, Bool.or_eq_true, beq_iff_eq] at hstart
  rcases hstart with halpha | rfl
  · rcases Bool.or_eq_true_iff.mp (show (c.isUpper || c.isLower) = true from halpha) with hu | hl
    · have hc : 65 ≤ c.toNat := UInt32.le_iff_toNat_le.mp (of_decide_eq_true hu).1
      omega
    · have hge := (Bool.and_eq_true_iff.mp hl).1
      have hc : 97 ≤ c.toNat := UInt32.le_iff_toNat_le.mp (of_decide_eq_true hge)
      omega
  · exact absurd h (by decide)

theorem wordKind_of_notMem {word : List Char} (h : word ∉ keywords) :
    wordKind word = .identifier := by
  simp only [keywords, List.mem_cons, List.not_mem_nil, or_false, not_or] at h
  simp [wordKind, h]

/-- A word begins with a letter or an underscore. -/
theorem readWord?_eq_none {c : Char} (h : isWordStart c = false) (tail : List Char) :
    readWord? (c :: tail) = none := by
  simp [readWord?, h]

/-- A number begins with a digit. -/
theorem readNumber?_eq_none {c : Char} (h : c.isDigit = false) (tail : List Char) :
    readNumber? (c :: tail) = none := by
  simp [readNumber?, h]

/-- A symbol is read whole, as long as it is not the start of a longer one. -/
theorem readSymbol?_append {k : Kind} {chars after : List Char} (hk : k.symbol? = some chars)
    (hw : k.isKeyword = false) (ha : Ends k after) :
    readSymbol? (chars ++ after) = some ⟨k, chars, after⟩ := by
  -- what follows matters only to a symbol that a second character makes longer
  cases after with
  | nil => cases k <;> cases hk <;> first | rfl | cases hw
  | cons c rest =>
    have hc : continues k c = false := ha c rfl
    cases k with
    | assignment =>
      have hne : c ≠ '=' := by simpa [continues] using hc
      cases hk
      simp [readSymbol?, hne]
    | not =>
      have hne : c ≠ '=' := by simpa [continues] using hc
      cases hk
      simp [readSymbol?, hne]
    | lessThan =>
      have hne : c ≠ '=' := by simpa [continues] using hc
      cases hk
      show readSymbol? ('<' :: c :: rest) = some ⟨.lessThan, ['<'], c :: rest⟩
      simp [readSymbol?, hne]
    | greaterThan =>
      have hne : c ≠ '=' := by simpa [continues] using hc
      cases hk
      show readSymbol? ('>' :: c :: rest) = some ⟨.greaterThan, ['>'], c :: rest⟩
      simp [readSymbol?, hne]
    | _ => cases hk <;> first | rfl | cases hw

/-- No word, number or quoted literal starts as a symbol does. -/
theorem read?_of_readSymbol? {k : Kind} {chars after : List Char} (hk : k.symbol? = some chars)
    (hw : k.isKeyword = false) (h : readSymbol? (chars ++ after) = some ⟨k, chars, after⟩) :
    read? (chars ++ after) = some ⟨k, chars, after⟩ := by
  have hword : readWord? (chars ++ after) = none := by
    cases k <;> cases hk <;> first | rfl | cases hw
  have hnumber : readNumber? (chars ++ after) = none := by cases k <;> cases hk <;> rfl
  have hquoted : readQuoted? (chars ++ after) = none := by cases k <;> cases hk <;> rfl
  rw [read?, hword, hnumber, hquoted, h]
  rfl

/-- A whole word is read, whatever its kind. -/
theorem read?_word {c : Char} {word after : List Char} (hc : isWordStart c = true)
    (hw : ∀ d ∈ word, isWordPart d = true) (ha : ∀ d ∈ after.head?, isWordPart d = false) :
    read? (c :: word ++ after) = some ⟨wordKind (c :: word), c :: word, after⟩ := by
  have hall : ∀ d ∈ c :: word, isWordPart d = true := by
    simpa [isWordPart_of_isWordStart hc] using hw
  have htake := takeWhile_run hall ha
  have hdrop := dropWhile_run hall ha
  rw [List.cons_append] at htake hdrop ⊢
  simp [read?, readWord?, hc, htake, hdrop]

/-- A word that is a keyword, a mark or an operator is read whole where it ends. -/
theorem read?_symbol {k : Kind} {chars after : List Char} (hk : k.symbol? = some chars)
    (ha : Ends k after) : read? (chars ++ after) = some ⟨k, chars, after⟩ := by
  cases hw : k.isKeyword with
  | false => exact read?_of_readSymbol? hk hw (readSymbol?_append hk hw ha)
  | true =>
    cases k <;> cases hw <;> cases hk <;> exact read?_word rfl (List.all_eq_true.mp rfl) ha

/-- A word that is no keyword is a name. -/
theorem read?_identifier {c : Char} {word after : List Char} (hc : isWordStart c = true)
    (hw : ∀ d ∈ word, isWordPart d = true) (hk : c :: word ∉ keywords)
    (ha : Ends .identifier after) :
    read? (c :: word ++ after) = some ⟨.identifier, c :: word, after⟩ := by
  rw [read?_word hc hw ha, wordKind_of_notMem hk]

/-- No word starts with a digit. -/
theorem read?_of_readNumber? {chars : List Char} {l : Lexeme} (h : readNumber? chars = some l) :
    read? chars = some l := by
  cases chars with
  | nil => simp [readNumber?] at h
  | cons c tail =>
    have hc : c.isDigit = true := by
      by_contra hc
      rw [readNumber?_eq_none (by simpa using hc)] at h
      cases h
    rw [read?, readWord?_eq_none (isWordStart_of_isDigit hc), h]
    rfl

/-- Digits are an integer where neither a digit nor a point follows. -/
theorem read?_integer {digits after : List Char} (hn : digits ≠ [])
    (hd : ∀ d ∈ digits, d.isDigit = true) (ha : Ends .integerLiteral after) :
    read? (digits ++ after) = some ⟨.integerLiteral, digits, after⟩ := by
  refine read?_of_readNumber? ?_
  have hhead : ∀ d ∈ after.head?, d.isDigit = false ∧ d ≠ '.' := by
    simpa [Ends, continues] using ha
  have hafter : ∀ d ∈ after.head?, d.isDigit = false := fun d hd => (hhead d hd).1
  simp only [readNumber?]
  rw [takeWhile_run hd hafter, dropWhile_run hd hafter, if_neg hn]
  split
  · exact absurd rfl (hhead '.' rfl).2
  · rfl

/-- Digits and a point are a float, with the digits behind it. -/
theorem read?_float {whole fraction after : List Char} (hn : whole ≠ [])
    (hd : ∀ d ∈ whole, d.isDigit = true) (hf : ∀ d ∈ fraction, d.isDigit = true)
    (hafter : Ends .floatLiteral after) :
    read? (whole ++ '.' :: fraction ++ after) =
      some ⟨.floatLiteral, whole ++ '.' :: fraction, after⟩ := by
  refine read?_of_readNumber? ?_
  have hpoint : ∀ d ∈ ('.' :: (fraction ++ after)).head?, d.isDigit = false := by simp
  rw [List.append_assoc, List.cons_append]
  simp only [readNumber?]
  rw [takeWhile_run hd hpoint, dropWhile_run hd hpoint, if_neg hn]
  simp only [takeWhile_run hf hafter, dropWhile_run hf hafter]

/-- What stands between two marks is a literal. -/
theorem read?_quoted {q : Quote} {text : List Char} (h : Quoted q.mark text) (after : List Char) :
    read? (q.mark :: text ++ [q.mark] ++ after) =
      some ⟨q.kind, q.mark :: text ++ [q.mark], after⟩ := by
  have hbody := readQuotedBody?_quoted (by cases q <;> decide) h after
  rw [List.append_assoc, List.cons_append]
  rw [read?, readWord?_eq_none (by cases q <;> decide),
    readNumber?_eq_none (by cases q <;> decide)]
  simp [readQuoted?, Quote.ofMark?_eq_some_iff.mpr rfl, hbody]

/-- **What is spelled is read whole** where it ends. -/
theorem read?_append {k : Kind} {chars after : List Char} (h : Spelling k chars)
    (ha : Ends k after) : read? (chars ++ after) = some ⟨k, chars, after⟩ := by
  cases h with
  | symbol hk => exact read?_symbol hk ha
  | identifier hc hw hk => exact read?_identifier hc hw hk ha
  | integer hn hd => exact read?_integer hn hd ha
  | float hn hd hf => exact read?_float hn hd hf ha
  | quoted hq => exact read?_quoted hq after

/-! ## 3. What is read is spelled -/

/-- What was read as a word is spelled like a keyword or a name. -/
theorem spelling_of_readWord? {chars : List Char} {l : Lexeme} (h : readWord? chars = some l) :
    Spelling l.kind l.chars := by
  unfold readWord? at h
  split at h
  · cases h
  · rename_i c tail
    split at h
    · rename_i hc
      cases h
      have hp := isWordPart_of_isWordStart hc
      have hall : ∀ d ∈ tail.takeWhile isWordPart, isWordPart d = true :=
        fun d hd => List.mem_takeWhile_imp hd
      simp only [List.takeWhile_cons, hp, if_true]
      generalize tail.takeWhile isWordPart = word at hall
      by_cases hk : c :: word ∈ keywords
      · simp only [keywords, List.mem_cons, List.not_mem_nil, or_false] at hk
        rcases hk with hk | hk | hk | hk <;> rw [hk] <;> exact .symbol rfl
      · rw [wordKind_of_notMem hk]
        exact .identifier hc hall hk
    · cases h

/-- What was read as a number is spelled like one. -/
theorem spelling_of_readNumber? {chars : List Char} {l : Lexeme} (h : readNumber? chars = some l) :
    Spelling l.kind l.chars := by
  simp only [readNumber?] at h
  have hd : ∀ d ∈ chars.takeWhile Char.isDigit, d.isDigit = true :=
    fun d hd => List.mem_takeWhile_imp hd
  split at h
  · cases h
  · rename_i hn
    split at h <;> cases h
    · exact .float hn hd fun d hd => List.mem_takeWhile_imp hd
    · exact .integer hn hd

/-- What was read between marks is spelled like a literal. -/
theorem spelling_of_readQuoted? {chars : List Char} {l : Lexeme} (h : readQuoted? chars = some l) :
    Spelling l.kind l.chars := by
  unfold readQuoted? at h
  split at h
  · cases h
  · split at h
    · rename_i q hq
      obtain ⟨⟨body, after⟩, hb, he⟩ := Option.map_eq_some_iff.mp h
      cases he
      obtain ⟨text, rfl, ht⟩ := quoted_of_readQuotedBody? hb
      rw [Quote.ofMark?_eq_some_iff] at hq
      subst hq
      exact .quoted ht
    · cases h

/-- Marks and operators have one spelling each. -/
theorem spelling_of_readSymbol? {chars : List Char} {l : Lexeme} (h : readSymbol? chars = some l) :
    Spelling l.kind l.chars := by
  unfold readSymbol? at h
  split at h <;> cases h <;> exact .symbol rfl

/-- **What is read is spelled as its kind.** -/
theorem spelling_of_read? {chars : List Char} {l : Lexeme} (h : read? chars = some l) :
    Spelling l.kind l.chars := by
  simp only [read?, Option.orElse_eq_orElse, Option.orElse_eq_or, Option.or_eq_some_iff] at h
  rcases h with h | ⟨-, h | ⟨-, h | ⟨-, h⟩⟩⟩
  · exact spelling_of_readWord? h
  · exact spelling_of_readNumber? h
  · exact spelling_of_readQuoted? h
  · exact spelling_of_readSymbol? h

/-- **The spellings of a kind are the texts that are read whole as one lexeme of it.** -/
theorem spelling_iff {k : Kind} {chars : List Char} :
    Spelling k chars ↔ read? chars = some ⟨k, chars, []⟩ := by
  constructor
  · intro h
    simpa using read?_append h (ends_nil k)
  · exact spelling_of_read?

instance (k : Kind) (chars : List Char) : Decidable (Spelling k chars) :=
  decidable_of_iff _ spelling_iff.symm

end Lexeme

/-- How a token is written: as its text, with the quotes of a literal. -/
def Token.written (t : Token) : List Char := Lexeme.written t.kind t.text.toList

end FrontEnd
