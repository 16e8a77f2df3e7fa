/-
# Lexemes

A lexeme is the written form of one token.  `Lexeme.read?` takes the lexeme that a text
starts with (`parse_token`):

* a word is a letter or underscore and then letters, digits and underscores; four words are
  keywords;
* a number is digits, and a point with or without further digits makes it a float;
* a quoted literal stays on its line, and a backslash in it protects any character but a
  line feed;
* of two symbols the longer is taken.

Letters and digits are those of ASCII.  `read?_eq_append` says that nothing is lost and
`chars_ne_nil` that a lexeme takes something.
-/
import FrontEnd.Token.Kind

namespace FrontEnd

/-- A lexeme at the start of a text, and what follows it. -/
structure Lexeme where
  kind : Kind
  chars : List Char
  rest : List Char
  deriving DecidableEq, Repr

namespace Lexeme

/-! ## Words -/

def isWordStart (c : Char) : Bool := c.isAlpha || c == '_'

def isWordPart (c : Char) : Bool := c.isAlphanum || c == '_'

/-- The kind of a whole word (`parse_keyword`). -/
def wordKind (word : List Char) : Kind :=
  if word = ['f', 'u', 'n', 'c'] then .keywordFunc
  else if word = ['i', 'f'] then .keywordIf
  else if word = ['e', 'l', 's', 'e'] then .keywordElse
  else if word = ['r', 'e', 't', 'u', 'r', 'n'] then .keywordReturn
  else .identifier

/-- A word, of which as much is taken as there is (`parse_word`). -/
def readWord? (chars : List Char) : Option Lexeme :=
  match chars with
  | [] => none
  | c :: _ =>
    if isWordStart c then
      let word := chars.takeWhile isWordPart
      some ⟨wordKind word, word, chars.dropWhile isWordPart⟩
    else none

/-! ## Numbers -/

/-- A number (`parse_literal`).  A point makes it a float, with or without digits behind it. -/
def readNumber? (chars : List Char) : Option Lexeme :=
  let whole := chars.takeWhile Char.isDigit
  if whole = [] then none
  else match chars.dropWhile Char.isDigit with
    | '.' :: rest =>
      some ⟨.floatLiteral, whole ++ '.' :: rest.takeWhile Char.isDigit,
        rest.dropWhile Char.isDigit⟩
    | rest => some ⟨.integerLiteral, whole, rest⟩

/-! ## Quoted literals -/

/-- The rest of a quoted literal after its first mark: the characters up to and with the
closing mark, and what follows. -/
def readQuotedBody? (mark : Char) : List Char → Option (List Char × List Char)
  | [] => none
  | [c] => if c = mark then some ([c], []) else none
  | c :: d :: rest =>
    if c = mark then some ([c], d :: rest)
    else if c = '\n' then none
    else if c = '\\' then
      if d = '\n' then none
      else (readQuotedBody? mark rest).map fun (body, after) => (c :: d :: body, after)
    else (readQuotedBody? mark (d :: rest)).map fun (body, after) => (c :: body, after)

/-- A quoted literal (`parse_quoted`). -/
def readQuoted? : List Char → Option Lexeme
  | [] => none
  | c :: rest =>
    match Quote.ofMark? c with
    | some quote =>
      (readQuotedBody? c rest).map fun (body, after) => ⟨quote.kind, c :: body, after⟩
    | none => none

/-! ## Symbols -/

/-- A mark or an operator (`parse_punctuation` and `parse_operator`). -/
def readSymbol? : List Char → Option Lexeme
  | '=' :: '=' :: rest => some ⟨.equal, ['=', '='], rest⟩
  | '!' :: '=' :: rest => some ⟨.notEqual, ['!', '='], rest⟩
  | '<' :: '=' :: rest => some ⟨.lessThanOrEqual, ['<', '='], rest⟩
  | '>' :: '=' :: rest => some ⟨.greaterThanOrEqual, ['>', '='], rest⟩
  | '&' :: '&' :: rest => some ⟨.and, ['&', '&'], rest⟩
  | '|' :: '|' :: rest => some ⟨.or, ['|', '|'], rest⟩
  | '(' :: rest => some ⟨.openParenthesis, ['('], rest⟩
  | ')' :: rest => some ⟨.closeParenthesis, [')'], rest⟩
  | '{' :: rest => some ⟨.openScope, ['{'], rest⟩
  | '}' :: rest => some ⟨.closeScope, ['}'], rest⟩
  | ',' :: rest => some ⟨.comma, [','], rest⟩
  | '=' :: rest => some ⟨.assignment, ['='], rest⟩
  | '!' :: rest => some ⟨.not, ['!'], rest⟩
  | '<' :: rest => some ⟨.lessThan, ['<'], rest⟩
  | '>' :: rest => some ⟨.greaterThan, ['>'], rest⟩
  | '+' :: rest => some ⟨.add, ['+'], rest⟩
  | '-' :: rest => some ⟨.subtract, ['-'], rest⟩
  | '*' :: rest => some ⟨.multiply, ['*'], rest⟩
  | '/' :: rest => some ⟨.divide, ['/'], rest⟩
  | '%' :: rest => some ⟨.modulo, ['%'], rest⟩
  | _ => none

/-! ## One lexeme -/

/-- The lexeme that the text starts with, if it starts with one.  No two of the four
families have a first character in common, so their order does not matter. -/
def read? (chars : List Char) : Option Lexeme :=
  readWord? chars <|> readNumber? chars <|> readQuoted? chars <|> readSymbol? chars

/-- The text of the token that a lexeme writes: quotes are taken off. -/
def text (l : Lexeme) : List Char :=
  match l.kind with
  | .stringLiteral | .charLiteral => (l.chars.drop 1).dropLast
  | _ => l.chars

/-! ## Nothing is lost -/

theorem isWordPart_of_isWordStart {c : Char} (h : isWordStart c = true) : isWordPart c = true := by
  simp only [isWordStart, isWordPart, Char.isAlphanum, Bool.or_eq_true] at h ⊢
  exact h.imp_left Or.inl

theorem readWord?_eq_append {chars : List Char} {l : Lexeme} (h : readWord? chars = some l) :
    chars = l.chars ++ l.rest ∧ l.chars ≠ [] := by
  cases chars with
  | nil => simp [readWord?] at h
  | cons c rest =>
    simp only [readWord?] at h
    split at h
    · rename_i hc
      cases h
      simp [isWordPart_of_isWordStart hc]
    · simp at h

theorem readNumber?_eq_append {chars : List Char} {l : Lexeme} (h : readNumber? chars = some l) :
    chars = l.chars ++ l.rest ∧ l.chars ≠ [] := by
  have key := List.takeWhile_append_dropWhile (p := Char.isDigit) (l := chars)
  simp only [readNumber?] at h
  split at h
  · simp at h
  · rename_i hw
    split at h <;> cases h
    · rename_i rest hr
      rw [hr] at key
      simp [List.append_assoc, List.takeWhile_append_dropWhile, key]
    · simp [key, hw]

theorem readQuotedBody?_eq_append {mark : Char} {chars body after : List Char}
    (h : readQuotedBody? mark chars = some (body, after)) : chars = body ++ after := by
  fun_induction readQuotedBody? mark chars generalizing body after with
  | case1 => simp at h
  | case2 => simp_all
  | case3 => simp_all
  | case4 =>
    cases h
    simp
  | case5 => simp at h
  | case6 => simp at h
  | case7 _ _ _ _ _ ih =>
    obtain ⟨⟨b, a⟩, hb, he⟩ := Option.map_eq_some_iff.mp h
    cases he
    simp [ih hb]
  | case8 _ _ _ _ _ _ ih =>
    obtain ⟨⟨b, a⟩, hb, he⟩ := Option.map_eq_some_iff.mp h
    cases he
    simp [ih hb]

theorem readQuoted?_eq_append {chars : List Char} {l : Lexeme} (h : readQuoted? chars = some l) :
    chars = l.chars ++ l.rest ∧ l.chars ≠ [] := by
  cases chars with
  | nil => simp [readQuoted?] at h
  | cons c rest =>
    simp only [readQuoted?] at h
    split at h
    · obtain ⟨⟨b, a⟩, hb, he⟩ := Option.map_eq_some_iff.mp h
      cases he
      simp [readQuotedBody?_eq_append hb]
    · simp at h

theorem readSymbol?_eq_append {chars : List Char} {l : Lexeme} (h : readSymbol? chars = some l) :
    chars = l.chars ++ l.rest ∧ l.chars ≠ [] := by
  unfold readSymbol? at h
  split at h <;> cases h <;> simp

/-- A lexeme and what follows it make up the text, and a lexeme is not empty. -/
theorem read?_eq_append {chars : List Char} {l : Lexeme} (h : read? chars = some l) :
    chars = l.chars ++ l.rest ∧ l.chars ≠ [] := by
  simp only [read?, Option.orElse_eq_orElse, Option.orElse_eq_or, Option.or_eq_some_iff] at h
  rcases h with h | ⟨_, h | ⟨_, h | ⟨_, h⟩⟩⟩
  · exact readWord?_eq_append h
  · exact readNumber?_eq_append h
  · exact readQuoted?_eq_append h
  · exact readSymbol?_eq_append h

end Lexeme
end FrontEnd
