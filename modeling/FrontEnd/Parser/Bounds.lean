/-
# The bounds are enough

The parsers of the grammar take a bound on how deep things nest, and a loop makes its test
once for every token that is left.  Neither bound is ever used up, and no token is read
after the last one:

* a success of what a loop repeats consumes a token (`Takes`), so there are fewer rounds
  than tokens;
* every level of nesting has consumed a token that is not the end of the text, so with as
  many levels as tokens left a rule answers (`Answers`);
* more levels change nothing (`Refines`).

The rules are taken in the order of the grammar.  Where a rule may leave a token in place,
the token that its caller consumed before is the one that counts.
-/
import FrontEnd.Parser.Trail

namespace FrontEnd
namespace Parser

section
variable {α β : Type} {stack : List Rule} {c : Cursor} {start : Kind → Prop}

/-- The lookahead is of a kind that passes. -/
def StartsWith (start : Kind → Prop) (c : Cursor) : Prop := ∃ t ∈ c.head?, start t.kind

/-- A text that ends: some token is its end. -/
def HasEof (c : Cursor) : Prop := ∃ t ∈ c, t.kind = .eof

/-! ## 1. Parsers that take a token -/

/-- From a lookahead that passes, a success consumes a token. -/
def Takes (start : Kind → Prop) (p : Parser α) : Prop :=
  ∀ stack c r a, StartsWith start c → p.run stack c = .ok r → r.outcome = .ok a →
    r.cursor.length < c.length

theorem Takes.mono {start' : Kind → Prop} {p : Parser α} (h : Takes start p)
    (hs : ∀ k, start' k → start k) : Takes start' p := by
  rintro stack c r a ⟨t, ht, hk⟩
  exact h stack c r a ⟨t, ht, hs _ hk⟩

/-- The end of the text is the one token that is not taken. -/
theorem takes_advance : Takes (· ≠ .eof) advance := by
  rintro stack c r a ⟨t, ht, hk⟩ h -
  obtain ⟨u, rest, rfl, rfl⟩ := run_advance_cases h
  cases ht
  simp [advance_eq_rest hk]

/-- The expected token is taken.  It is not left in place, as it is not missing. -/
theorem takes_eatBefore {expected : Kind} (follow : List Kind) (h : expected ≠ .eof) :
    Takes (· = expected) (eatBefore expected follow) := by
  rintro stack c r a ⟨t, ht, hk⟩ hr -
  cases run_eatBefore_cases hr with
  | found hu => simp [advance_eq_rest (hu ▸ h)]
  | standIn hu => cases ht; exact absurd hk hu
  | missing hu => cases ht; exact absurd hk hu

theorem takes_eat (expected : Kind) : Takes (· ≠ .eof) (eat expected) := by
  rintro stack c r a ⟨t, ht, hk⟩ hr -
  cases run_eatBefore_cases hr with
  | found => cases ht; simp [advance_eq_rest hk]
  | standIn => cases ht; simp [advance_eq_rest hk]
  | missing _ hf => cases hf

/-- What follows a parser that takes a token gives none back. -/
theorem Takes.bind {p : Parser α} {f : α → Parser β} (hp : Takes start p)
    (hf : ∀ a, Composed (f a)) : Takes start (p >>= f) := by
  intro stack c r b hc h hb
  rcases run_bind_cases h with ⟨e, es, c', -, rfl⟩ | ⟨a, es, c', after, hr, ha, rfl⟩
  · cases hb
  · have h₁ := hp stack c _ a hc hr rfl
    have h₂ := ((hf a).trail ha).length_le
    exact Nat.lt_of_le_of_lt h₂ h₁

/-- After a look at the next token its kind is known. -/
theorem takes_lookahead_bind {f : Token → Parser β}
    (hf : ∀ t, start t.kind → Takes (· = t.kind) (f t)) : Takes start (lookahead >>= f) := by
  rintro stack c r b ⟨t, ht, hk⟩ h hb
  rcases run_bind_cases h with ⟨e, es, c', hr, rfl⟩ | ⟨a, es, c', after, hr, ha, rfl⟩
  · cases hb
  · obtain ⟨u, rest, rfl, hu⟩ := run_lookahead_cases hr
    cases hu
    cases ht
    exact hf t hk stack _ after b ⟨t, rfl, rfl⟩ ha hb

theorem Takes.inRule {p : Parser α} (rule : Rule) (h : Takes start p) :
    Takes start (inRule rule p) := by
  intro stack c r a hc hr ha
  obtain ⟨t, rest, body, rfl, hb, rfl⟩ := run_inRule_cases hr
  exact h _ _ body a hc hb ha

theorem takes_unhandled (t : Token) : Takes start (unhandled t : Parser α) := by
  intro stack c r a _ hr ha
  cases hr
  cases ha

theorem takes_unary {e : Parser Node} (he : Composed e) : Takes (· ≠ .eof) (unary e) := by
  refine (takes_advance.bind fun token => ?_).inRule _
  split
  · exact .bind .lookahead fun _ => .ite (.call _ he) (.pure _)
  all_goals exact .pure _

theorem takes_expression : ∀ bound, Takes (· ≠ .eof) (expression bound)
  | 0 => by intro stack c r a _ hr; cases hr
  | bound + 1 => by
    refine ((takes_unary (.expression bound)).bind fun left => ?_).inRule _
    refine .bind .lookahead fun token => ?_
    split
    · exact .bind .advance fun _ => .bind (.unary (.expression bound)) fun _ => .pure _
    · exact .pure _

/-- A statement takes a token whatever it starts with, since where it can start with nothing it
fails. -/
theorem takes_statement : ∀ bound, Takes start (statement bound)
  | 0 => by intro stack c r a _ hr; cases hr
  | bound + 1 => by
    have hs := Composed.statement bound
    have he := Composed.expression bound
    refine (takes_lookahead_bind fun t _ => ?_).inRule _
    split
    · rename_i hk
      rw [hk]
      exact ((takes_eatBefore [] (by decide)).bind fun _ => .pure _).bind fun _ =>
        .identTail hs he bound _
    · rename_i hk
      rw [hk]
      exact ((takes_eatBefore [] (by decide)).bind fun _ => .bind he fun _ =>
        .bind (.block hs) fun _ => .bind .lookahead fun _ =>
          .ite (.bind (.eat _) fun _ => .bind (.block hs) fun _ => .pure _) (.pure _)).inRule _
    · rename_i hk
      rw [hk]
      exact ((takes_eatBefore [] (by decide)).bind fun _ => .bind he fun _ => .pure _).inRule _
    · exact takes_unhandled t

theorem takes_parameter : Takes (· = .identifier) parameter :=
  (((takes_eatBefore _ (by decide)).bind fun _ => .pure _).bind fun _ =>
    .bind (.name _ (by decide)) fun _ => .pure _).inRule _

theorem takes_functionDecl (bound : Nat) : Takes (· = .keywordFunc) (functionDecl bound) :=
  ((takes_eatBefore [] (by decide)).bind fun _ => .bind (.name _ (by decide)) fun _ =>
    .bind (.eatBefore _ _ (by decide)) fun _ => .bind (.many _ .parameter) fun _ =>
      .bind (.eatBefore _ _ (by decide)) fun _ => .bind (.block (.statement bound)) fun _ =>
        .pure _).inRule _

/-! ## 2. Parsers that answer -/

/-- From every text that ends, has at most `n` tokens and starts with a lookahead that
passes, the parser answers. -/
def Answers (start : Kind → Prop) (n : Nat) (p : Parser α) : Prop :=
  ∀ stack c, c.length ≤ n → HasEof c → StartsWith start c → ∃ r, p.run stack c = .ok r

/-- Every kind passes. -/
def anyKind (_ : Kind) : Prop := True

theorem HasEof.startsWith (h : HasEof c) : StartsWith anyKind c := by
  obtain ⟨t, ht, -⟩ := h
  cases c with
  | nil => cases ht
  | cons u rest => exact ⟨u, rfl, trivial⟩

theorem Answers.mono {start' : Kind → Prop} {n m : Nat} {p : Parser α} (h : Answers start n p)
    (hm : m ≤ n) (hs : ∀ k, start' k → start k) : Answers start' m p := by
  rintro stack c hc he ⟨t, ht, hk⟩
  exact h stack c (Nat.le_trans hc hm) he ⟨t, ht, hs _ hk⟩

/-- A text that ends has a token, so of no tokens nothing is asked. -/
theorem answers_zero (p : Parser α) : Answers start 0 p := by
  rintro stack c hn ⟨t, hm, -⟩ -
  exact absurd (List.length_pos_of_mem hm) (by omega)

theorem answers_pure (n : Nat) (a : α) : Answers start n (pure a) :=
  fun _ _ _ _ _ => ⟨_, rfl⟩

theorem answers_unhandled (n : Nat) (t : Token) : Answers start n (unhandled t : Parser α) :=
  fun _ _ _ _ _ => ⟨_, rfl⟩

theorem answers_advance (n : Nat) : Answers start n advance := by
  rintro stack (_ | ⟨t, rest⟩) - - ⟨u, hu, -⟩
  · cases hu
  · exact ⟨_, rfl⟩

/-- Of the two tokens that are looked at, the second is there too: the end of the text has itself
after it. -/
theorem answers_eatBefore (n : Nat) (expected : Kind) (follow : List Kind) :
    Answers start n (eatBefore expected follow) := by
  rintro stack (_ | ⟨t, rest⟩) - - ⟨u, hu, -⟩
  · cases hu
  · obtain ⟨r, hr, -⟩ := exists_eaten expected follow stack t rest
    exact ⟨r, hr⟩

/-- No more tokens are left after the first part than before it, so that the bound is enough for
both. -/
theorem Answers.bind {n : Nat} {p : Parser α} {f : α → Parser β} (hp : Answers start n p)
    (hc : Composed p) (hf : ∀ a, Answers anyKind n (f a)) : Answers start n (p >>= f) := by
  intro stack c hn he hs
  -- if the first part fails then that is the answer
  obtain ⟨⟨e | a, es, c'⟩, hr⟩ := hp stack c hn he hs
  · exact ⟨_, run_bind_of_error hr⟩
  · have ht := hc.trail hr
    have he' : HasEof c' := ht.exists_eof he
    obtain ⟨after, ha⟩ := hf a stack c' (Nat.le_trans ht.length_le hn) he' he'.startsWith
    exact ⟨_, run_bind_of_ok hr ha⟩

/-- After a token was taken, one token fewer is left. -/
theorem Answers.take_bind {n : Nat} {p : Parser α} {f : α → Parser β}
    (hp : Answers start (n + 1) p) (hc : Composed p) (ht : Takes start p)
    (hf : ∀ a, Answers anyKind n (f a)) : Answers start (n + 1) (p >>= f) := by
  intro stack c hn he hs
  obtain ⟨⟨e | a, es, c'⟩, hr⟩ := hp stack c hn he hs
  · exact ⟨_, run_bind_of_error hr⟩
  · -- the first part has taken a token, so a bound that is smaller by one is enough
    have hlt := ht stack c _ a hs hr rfl
    have he' : HasEof c' := (hc.trail hr).exists_eof he
    obtain ⟨after, ha⟩ :=
      hf a stack c' (Nat.le_of_lt_succ (Nat.lt_of_lt_of_le hlt hn)) he' he'.startsWith
    exact ⟨_, run_bind_of_ok hr ha⟩

/-- The lookahead is there, as the end of the text is. -/
theorem answers_lookahead_bind {n : Nat} {f : Token → Parser β}
    (hf : ∀ t, start t.kind → Answers (· = t.kind) n (f t)) :
    Answers start n (lookahead >>= f) := by
  rintro stack (_ | ⟨t, rest⟩) hn he ⟨u, hu, hk⟩
  · cases hu
  · cases hu
    obtain ⟨after, ha⟩ := hf t hk stack (t :: rest) hn he ⟨t, rfl, rfl⟩
    exact ⟨_, run_bind_of_ok (run_lookahead_cons t) ha⟩

theorem Answers.inRule {n : Nat} {p : Parser α} (rule : Rule) (h : Answers start n p) :
    Answers start n (inRule rule p) := by
  rintro stack (_ | ⟨t, rest⟩) hn he hs
  · obtain ⟨u, hu, -⟩ := hs
    cases hu
  · obtain ⟨body, hb⟩ := h (rule :: stack) (t :: rest) hn he hs
    exact ⟨_, run_inRule_of_ok hb⟩

/-- **A loop makes no more rounds than tokens are left**, because every round takes one.  The
induction is on the bound: the tokens that are left after a round are fewer. -/
theorem answers_repeatWhile {n : Nat} {item : Parser α} {test : Kind → Bool}
    (hc : Composed item) (ht : Takes (fun k => test k = true) item)
    (h : Answers (fun k => test k = true) n item) :
    ∀ bound ≤ n, Answers anyKind bound (repeatWhile test item bound)
  | 0, _ => answers_zero _
  | bound + 1, hb => by
    refine answers_lookahead_bind fun t _ => ?_
    split
    · rename_i hk
      -- the round takes a token, and the rounds that follow have one fewer to read
      refine ((h.mono hb ?_).take_bind hc (ht.mono ?_) fun a =>
        (answers_repeatWhile hc ht h bound (by omega)).bind (.repeatWhile test hc bound)
          fun as => answers_pure bound _)
      all_goals rintro k rfl; exact hk
    · exact answers_pure _ _

/-- A loop answers if what it repeats answers and takes a token. -/
theorem answers_many {n : Nat} {item : Parser α} {test : Kind → Bool} (hc : Composed item)
    (ht : Takes (fun k => test k = true) item) (h : Answers (fun k => test k = true) n item) :
    Answers anyKind n (many test item) := by
  intro stack c hn he hs
  rw [run_many]
  exact answers_repeatWhile hc ht h c.length hn stack c (Nat.le_refl _) he hs

/-! ## 3. The rules answer -/

variable {n : Nat} {s e : Parser Node}

theorem answers_eat (n : Nat) (expected : Kind) : Answers start n (eat expected) :=
  answers_eatBefore n expected []

theorem answers_name (n : Nat) (follow : List Kind) (h : Inner follow) :
    Answers start n (name follow) :=
  (answers_eatBefore n _ _).bind (.eatBefore _ _ h) fun _ => answers_pure n _

/-- Arguments are nested one level deeper, which the opening parenthesis pays for. -/
theorem answers_call (callee : String) (hc : Composed e) (ht : Takes (· ≠ .eof) e)
    (he : Answers anyKind n e) : Answers anyKind n (call e callee) := by
  have arguments : Answers anyKind n (many (fun k => k != .closeParenthesis && k != .eof) e) :=
    answers_many hc (ht.mono fun k hk => by simp_all) (he.mono (Nat.le_refl n) fun _ _ => trivial)
  exact ((answers_eat n _).bind (.eat _) fun _ => arguments.bind (.many _ hc) fun _ =>
    (answers_eat n _).bind (.eat _) fun _ => answers_pure n _).inRule _

/-- An operand needs what its arguments need once its name is taken.  The end of the text is
not taken, but nothing is read after it. -/
theorem answers_unary (hc : Composed e) (ht : Takes (· ≠ .eof) e) (he : Answers anyKind n e) :
    Answers anyKind (n + 1) (unary e) := by
  refine Answers.inRule _ ?_
  rintro stack (_ | ⟨t, rest⟩) hn hf hs
  · obtain ⟨u, hu, -⟩ := hs
    cases hu
  · -- at the end of the text nothing is taken, but then nothing is nested either
    by_cases hk : t.kind = .eof
    · exact ⟨_, run_bind_of_ok (run_advance_cons t) (by simp only [hk]; rfl)⟩
    · refine (answers_advance (n + 1)).take_bind .advance takes_advance (fun token => ?_)
        stack (t :: rest) hn hf ⟨t, rfl, hk⟩
      split
      · refine answers_lookahead_bind fun next _ => ?_
        split
        · exact (answers_call _ hc ht he).mono (Nat.le_refl n) fun _ _ => trivial
        · exact answers_pure n _
      all_goals exact answers_pure n _

/-- **A bound on nesting is enough** if it is not less than the number of tokens. -/
theorem answers_expression : ∀ bound, Answers anyKind bound (expression bound)
  | 0 => answers_zero _
  | bound + 1 => by
    have hc := Composed.expression bound
    have operand : Answers anyKind (bound + 1) (unary (expression bound)) :=
      answers_unary hc (takes_expression bound) (answers_expression bound)
    refine (operand.bind (.unary hc) fun left => answers_lookahead_bind fun t _ => ?_).inRule _
    split
    · exact (answers_advance _).bind .advance fun _ => operand.bind (.unary hc) fun _ =>
        answers_pure _ _
    · exact answers_pure _ _

/-- A block nests its statements. -/
theorem answers_block (hc : Composed s) (ht : Takes anyKind s) (hs : Answers anyKind n s) :
    Answers anyKind n (block s) := by
  have statements : Answers anyKind n (many (fun k => k != .closeScope) s) :=
    answers_many hc (ht.mono fun _ _ => trivial) (hs.mono (Nat.le_refl n) fun _ _ => trivial)
  exact ((answers_eatBefore n _ _).bind (.eatBefore _ _ (by decide)) fun _ =>
    statements.bind (.many _ hc) fun _ => (answers_eat n _).bind (.eat _) fun _ =>
      answers_pure n _).inRule _

/-- From a token that is not the end of the text, `eat` leaves one token fewer. -/
theorem answers_eat_bind {expected : Kind} {f : Token → Parser β}
    (hf : ∀ t, Answers anyKind n (f t)) : Answers (· ≠ .eof) (n + 1) (eat expected >>= f) :=
  (answers_eat (n + 1) expected).take_bind (.eat _) (takes_eat expected) hf

theorem answers_ifStmt (hc : Composed s) (hce : Composed e) (ht : Takes anyKind s)
    (hs : Answers anyKind n s) (he : Answers anyKind n e) :
    Answers (· ≠ .eof) (n + 1) (ifStmt s e) := by
  have branch := answers_block hc ht hs
  refine (answers_eat_bind fun _ => he.bind hce fun _ => branch.bind (.block hc) fun _ =>
    answers_lookahead_bind fun t _ => ?_).inRule _
  split
  · exact (answers_eat n _).bind (.eat _) fun _ =>
      (branch.mono (Nat.le_refl n) fun _ _ => trivial).bind (.block hc) fun _ => answers_pure n _
  · exact answers_pure n _

theorem answers_returnStmt (hce : Composed e) (he : Answers anyKind n e) :
    Answers (· ≠ .eof) (n + 1) (returnStmt e) :=
  (answers_eat_bind fun _ => he.bind hce fun _ => answers_pure n _).inRule _

/-- Each name that is assigned again has taken its equals sign. -/
theorem answers_assignment (hc : Composed s) (hce : Composed e) (hs : Answers anyKind n s)
    (he : Answers anyKind n e) :
    ∀ bound target, bound ≤ n → Answers (· ≠ .eof) bound (assignment s e bound target)
  | 0, _, _ => answers_zero _
  | bound + 1, target, hb => by
    have hbound : bound ≤ n := by omega
    refine (answers_eat_bind fun _ => answers_lookahead_bind fun start _ => ?_).inRule _
    split
    · exact (hs.mono hbound fun _ _ => trivial).bind hc fun _ => answers_pure _ _
    · refine (he.mono hbound fun _ _ => trivial).bind hce fun value =>
        answers_lookahead_bind fun next _ => ?_
      split
      · -- the equals sign of the next name is there to be taken
        rename_i hk
        refine ((answers_assignment hc hce hs he bound _ hbound).mono (Nat.le_refl _) ?_).bind
          (.assignment hc hce bound _) fun _ => answers_pure _ _
        rintro k rfl
        simp [hk]
      · exact answers_pure _ _

/-- The name before was taken by the caller, and counts for the level of nesting here. -/
theorem answers_identTail (hc : Composed s) (hce : Composed e) (ht : Takes (· ≠ .eof) e)
    (hs : Answers anyKind n s) (he : Answers anyKind n e) (name : String) :
    Answers anyKind n (identTail s e n name) := by
  refine (answers_lookahead_bind fun t _ => ?_).inRule _
  -- a call, an assignment, or an error, which is an answer too
  split
  · exact (answers_call name hce ht he).mono (Nat.le_refl n) fun _ _ => trivial
  · rename_i hk
    refine (answers_assignment hc hce hs he n name (Nat.le_refl n)).mono (Nat.le_refl n) ?_
    rintro k rfl
    simp [hk]
  · exact answers_unhandled n t

/-- Of its three forms each takes a token before it nests. -/
theorem answers_statement : ∀ bound, Answers anyKind bound (statement bound)
  | 0 => answers_zero _
  | bound + 1 => by
    have hc := Composed.statement bound
    have hce := Composed.expression bound
    have hs := answers_statement bound
    have he := answers_expression bound
    refine (answers_lookahead_bind fun t _ => ?_).inRule _
    split
    · rename_i hk
      rw [hk]
      exact (answers_name _ _ (by decide)).take_bind (.name _ (by decide))
        ((takes_eatBefore [] (by decide)).bind fun _ => .pure _)
        fun _ => answers_identTail hc hce (takes_expression bound) hs he _
    · rename_i hk
      refine (answers_ifStmt hc hce (takes_statement bound) hs he).mono (Nat.le_refl _) ?_
      rintro k rfl
      simp [hk]
    · rename_i hk
      refine (answers_returnStmt hce he).mono (Nat.le_refl _) ?_
      rintro k rfl
      simp [hk]
    · exact answers_unhandled _ t

theorem answers_parameter (n : Nat) : Answers start n parameter :=
  ((answers_name n _ (by decide)).bind (.name _ (by decide)) fun _ =>
    (answers_name n _ (by decide)).bind (.name _ (by decide)) fun _ => answers_pure n _).inRule _

/-- The body is a level deeper than the keyword. -/
theorem answers_functionDecl (bound : Nat) : Answers start bound (functionDecl bound) := by
  have body := answers_block (.statement bound) (takes_statement bound) (answers_statement bound)
  have parameters : Answers anyKind bound (many (· == .identifier) parameter) :=
    answers_many .parameter (takes_parameter.mono fun k hk => by simp_all) (answers_parameter bound)
  exact ((answers_eat bound _).bind (.eat _) fun _ =>
    (answers_name bound _ (by decide)).bind (.name _ (by decide)) fun _ =>
    (answers_eatBefore bound _ _).bind (.eatBefore _ _ (by decide)) fun _ =>
      parameters.bind (.many _ .parameter) fun _ =>
        (answers_eatBefore bound _ _).bind (.eatBefore _ _ (by decide)) fun _ =>
          body.bind (.block (.statement bound)) fun _ => answers_pure bound _).inRule _

/-- **With as many levels as tokens, the parse of a text that ends answers.** -/
theorem answers_program (bound : Nat) : Answers anyKind bound (program bound) := by
  have functions : Answers anyKind bound (many (· == .keywordFunc) (functionDecl bound)) :=
    answers_many (.functionDecl bound) ((takes_functionDecl bound).mono fun k hk => by simp_all)
      (answers_functionDecl bound)
  exact (functions.bind (.many _ (.functionDecl bound)) fun _ => answers_pure bound _).inRule _

/-! ## 4. More levels change nothing -/

/-- Where the first parser answers, the second gives the same answer. -/
def Refines (p q : Parser α) : Prop :=
  ∀ stack c r, p.run stack c = .ok r → q.run stack c = .ok r

theorem Refines.refl (p : Parser α) : Refines p p := fun _ _ _ h => h

theorem Refines.trans {p q q' : Parser α} (h : Refines p q) (h' : Refines q q') :
    Refines p q' :=
  fun stack c r hr => h' stack c r (h stack c r hr)

theorem outOfBound_refines (p : Parser α) : Refines outOfBound p := by
  intro stack c r h
  cases h

/-- Sequences are refined part by part. -/
theorem Refines.bind {p q : Parser α} {f g : α → Parser β} (hp : Refines p q)
    (hf : ∀ a, Refines (f a) (g a)) : Refines (p >>= f) (q >>= g) := by
  intro stack c r h
  rcases run_bind_cases h with ⟨e, es, c', hr, rfl⟩ | ⟨a, es, c', after, hr, ha, rfl⟩
  · exact run_bind_of_error (hp _ _ _ hr)
  · exact run_bind_of_ok (hp _ _ _ hr) (hf a _ _ _ ha)

/-- The first parts of two sequences are the same. -/
theorem Refines.after (p : Parser α) {f g : α → Parser β} (hf : ∀ a, Refines (f a) (g a)) :
    Refines (p >>= f) (p >>= g) :=
  (Refines.refl p).bind hf

/-- The last parts of two sequences are the same. -/
theorem Refines.before {p q : Parser α} (h : Refines p q) (f : α → Parser β) :
    Refines (p >>= f) (q >>= f) :=
  h.bind fun a => .refl (f a)

theorem Refines.ite {P : Prop} [Decidable P] {p q p' q' : Parser α} (h : Refines p p')
    (h' : Refines q q') : Refines (if P then p else q) (if P then p' else q') := by
  split
  · exact h
  · exact h'

theorem Refines.inRule {p q : Parser α} (rule : Rule) (h : Refines p q) :
    Refines (inRule rule p) (inRule rule q) := by
  intro stack c r hr
  obtain ⟨t, rest, body, rfl, hb, rfl⟩ := run_inRule_cases hr
  exact run_inRule_of_ok (h _ _ _ hb)

theorem Refines.repeatWhile {p q : Parser α} (test : Kind → Bool) (h : Refines p q) :
    ∀ n, Refines (repeatWhile test p n) (repeatWhile test q n)
  | 0 => .refl _
  | n + 1 => .after _ fun _ =>
    .ite (h.bind fun _ => (Refines.repeatWhile test h n).before _) (.refl _)

/-- The rounds of a loop are bounded by the tokens, which both loops have before them alike. -/
theorem Refines.many {p q : Parser α} (test : Kind → Bool) (h : Refines p q) :
    Refines (many test p) (many test q) :=
  .after _ fun bound => h.repeatWhile test bound

variable {s' e' : Parser Node}

theorem Refines.call (callee : String) (h : Refines e e') :
    Refines (call e callee) (call e' callee) :=
  .inRule _ (.after _ fun _ => (h.many _).before _)

theorem Refines.unary (h : Refines e e') : Refines (unary e) (unary e') := by
  refine .inRule _ (.after _ fun token => ?_)
  split
  · exact .after _ fun _ => .ite (h.call _) (.refl _)
  all_goals exact .refl _

/-- One level more changes nothing, by induction on the levels. -/
theorem expression_refines_succ : ∀ bound, Refines (expression bound) (expression (bound + 1))
  | 0 => outOfBound_refines _
  | bound + 1 => by
    have operand := (expression_refines_succ bound).unary
    refine .inRule _ (operand.bind fun left => .after _ fun token => ?_)
    split
    · exact .after _ fun _ => operand.before _
    · exact .refl _

theorem Refines.block (h : Refines s s') : Refines (block s) (block s') :=
  .inRule _ (.after _ fun _ => (h.many _).before _)

theorem Refines.ifStmt (hs : Refines s s') (he : Refines e e') :
    Refines (ifStmt s e) (ifStmt s' e') :=
  .inRule _ (.after _ fun _ => he.bind fun _ => hs.block.bind fun _ => .after _ fun _ =>
    .ite (.after _ fun _ => hs.block.before _) (.refl _))

theorem Refines.returnStmt (he : Refines e e') : Refines (returnStmt e) (returnStmt e') :=
  .inRule _ (.after _ fun _ => he.before _)

/-- Here two bounds grow, that of the names that are assigned and those of what is nested. -/
theorem Refines.assignment (hs : Refines s s') (he : Refines e e') :
    ∀ bound target, Refines (assignment s e bound target) (assignment s' e' (bound + 1) target)
  | 0, _ => outOfBound_refines _
  | bound + 1, target => by
    refine .inRule _ (.after _ fun _ => .after _ fun start => .ite (hs.before _)
      (he.bind fun value => .after _ fun next => ?_))
    split
    · exact (Refines.assignment hs he bound _).before _
    · exact .refl _

theorem Refines.identTail (hs : Refines s s') (he : Refines e e') (bound : Nat)
    (name : String) : Refines (identTail s e bound name) (identTail s' e' (bound + 1) name) := by
  refine .inRule _ (.after _ fun token => ?_)
  split
  · exact he.call name
  · exact .assignment hs he bound name
  · exact .refl _

/-- One level more changes nothing for statements either. -/
theorem statement_refines_succ : ∀ bound, Refines (statement bound) (statement (bound + 1))
  | 0 => outOfBound_refines _
  | bound + 1 => by
    have hs := statement_refines_succ bound
    have he := expression_refines_succ bound
    refine .inRule _ (.after _ fun token => ?_)
    split
    · exact .after _ fun _ => .identTail hs he bound _
    · exact .ifStmt hs he
    · exact .returnStmt he
    · exact .refl _

theorem functionDecl_refines_succ (bound : Nat) :
    Refines (functionDecl bound) (functionDecl (bound + 1)) :=
  .inRule _ (.after _ fun _ => .after _ fun _ => .after _ fun _ => .after _ fun _ =>
    .after _ fun _ => (statement_refines_succ bound).block.before _)

theorem program_refines_succ (bound : Nat) : Refines (program bound) (program (bound + 1)) :=
  .inRule _ (((functionDecl_refines_succ bound).many _).before _)

/-- **More levels change nothing.** -/
theorem program_refines {bound bound' : Nat} (h : bound ≤ bound') :
    Refines (program bound) (program bound') := by
  induction h with
  | refl => exact .refl _
  | step _ ih => exact ih.trans (program_refines_succ _)

end

end Parser
end FrontEnd
