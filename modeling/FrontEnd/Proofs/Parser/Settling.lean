/-
# Tokens that are left in place

A token that is found where another was expected is either consumed at once, in place of
the other, or left for the rule that comes next.  Nothing in the basic parsers says that
this rule takes it.  It does, and this is a fact about the grammar: each set of kinds that
may follow a missing token holds only kinds that the next rule starts with.

* `Settles`: events in which a token that was found in the place of another is the next
  token consumed, with no mismatch between;
* `Prompt`: a parser whose events are of this kind, given which token may be due when it
  starts; it says which may be due when it succeeds, and none is when it fails;
* `TokenStream.settles_run`: so in the parse of a stream every such token is consumed;
* `TokenStream.found_of_error`: a parse that fails stops at the token that it complains of.
-/
import FrontEnd.Parser.Run

namespace FrontEnd

/-! ## 1. Events that settle -/

/-- Before the events a token may be due, and after them another.  A token is due from the
moment when it is found in the place of another until it is consumed; meanwhile no mismatch
is recorded.  The end of the text is never due. -/
inductive Settles : Option Token → List Event → Option Token → Prop
  | nil (due : Option Token) : Settles due [] due
  | enter {due due' : Option Token} {es : List Event} (rule : Rule) (depth : Nat) (t : Token) :
      Settles due es due' → Settles due (.enter rule depth t :: es) due'
  | consume {due due' : Option Token} {es : List Event} {t : Token} :
      (∀ u ∈ due, u = t) → Settles none es due' → Settles due (.consume t :: es) due'
  | mismatch {due' : Option Token} {es : List Event} (expected : Kind) (t : Token)
      (stack : List Rule) : Settles (if t.kind = .eof then none else some t) es due' →
      Settles none (.mismatch expected t stack :: es) due'

namespace Settles

variable {due mid due' : Option Token} {es es' : List Event}

/-- What one part leaves due is due when the next one starts. -/
theorem append (h : Settles due es mid) (h' : Settles mid es' due') :
    Settles due (es ++ es') due' := by
  induction h with
  | nil => exact h'
  | enter rule depth t _ ih => exact .enter rule depth t (ih h')
  | consume ht _ ih => exact .consume ht (ih h')
  | mismatch expected t stack _ ih => exact .mismatch expected t stack (ih h')

/-- Events that settle can be cut anywhere. -/
theorem of_append : ∀ {es : List Event} {due : Option Token}, Settles due (es ++ es') due' →
    ∃ mid, Settles due es mid ∧ Settles mid es' due'
  | [], due, h => ⟨due, .nil due, h⟩
  | _ :: _, _, .enter rule depth t h => by
    obtain ⟨mid, h₁, h₂⟩ := of_append h
    exact ⟨mid, .enter rule depth t h₁, h₂⟩
  | _ :: _, _, .consume ht h => by
    obtain ⟨mid, h₁, h₂⟩ := of_append h
    exact ⟨mid, .consume ht h₁, h₂⟩
  | _ :: _, _, .mismatch expected t stack h => by
    obtain ⟨mid, h₁, h₂⟩ := of_append h
    exact ⟨mid, .mismatch expected t stack h₁, h₂⟩

/-- A token that is due is consumed next: until then rules are entered and nothing else
happens. -/
theorem next_consume {t : Token} : ∀ {es : List Event}, Settles (some t) es none →
    ∃ entered rest, es = entered ++ .consume t :: rest ∧
      ∀ e ∈ entered, ∃ rule depth lookahead, e = .enter rule depth lookahead
  | _ :: _, .enter rule depth u h => by
    obtain ⟨entered, rest, rfl, he⟩ := next_consume h
    refine ⟨.enter rule depth u :: entered, rest, rfl, ?_⟩
    rintro e (_ | ⟨_, hm⟩)
    · exact ⟨rule, depth, u, rfl⟩
    · exact he e hm
  | .consume u :: es, .consume ht _ => by
    rw [ht t rfl]
    exact ⟨[], es, rfl, by simp⟩

end Settles

namespace Parser

section
variable {α β : Type}

/-! ## 2. The judgement -/

/-- A condition on the token that is due, if one is, and on the lookahead. -/
abbrev Standing := Option Token → Option Token → Prop

/-- Only the lookahead may be due, and only if its kind is one of these. -/
def dueOf (kinds : List Kind) : Standing := fun due next => ∀ u ∈ due, next = some u ∧ u.kind ∈ kinds

/-- More kinds may be due.  Only the kind of the next token counts, since it is the one that is due.
-/
theorem dueOf.mono {ks ks' : List Kind} {due next : Option Token} (h : dueOf ks due next)
    (hk : ∀ t ∈ next, t.kind ∈ ks → t.kind ∈ ks') : dueOf ks' due next := by
  intro u hu
  obtain ⟨hn, hm⟩ := h u hu
  exact ⟨hn, hk u hn hm⟩

/-- **A token of another kind is not due.**  So wherever the next token is of none of the kinds,
everything before has been settled. -/
theorem dueOf.eq_none {ks : List Kind} {due : Option Token} {t : Token}
    (h : dueOf ks due (some t)) (hk : t.kind ∉ ks) : due = none := by
  refine Option.eq_none_iff_forall_ne_some.mpr fun u hu => hk ?_
  obtain ⟨hn, hm⟩ := h u hu
  cases hn
  exact hm

/-- Of the kinds that may be due, only that of the lookahead matters. -/
theorem dueOf.at {ks : List Kind} {due next : Option Token} {t : Token} (h : dueOf ks due next)
    (hn : next = some t) : dueOf [t.kind] due next :=
  h.mono fun u hu _ => by
    rw [hn] at hu
    cases hu
    exact List.mem_singleton_self _

/-- Nothing being due is always allowed. -/
theorem dueOf_none (ks : List Kind) (next : Option Token) : dueOf ks none next := by
  simp [dueOf]

/-- From where `pre` holds the events of the parser settle.  After a success `post` holds.
After a failure nothing is due, and the lookahead is the token that the error is about. -/
structure Prompt (pre : Standing) (p : Parser α) (post : Standing) : Prop where
  success : ∀ {stack c a es c' due}, pre due c.head? → p.run stack c = .ok ⟨.ok a, es, c'⟩ →
    ∃ due', Settles due es due' ∧ post due' c'.head?
  failure : ∀ {stack c e es c' due}, pre due c.head? → p.run stack c = .ok ⟨.error e, es, c'⟩ →
    Settles due es none ∧ c'.head? = some e.found

variable {pre pre' mid post post' : Standing}

/-- Less may be due before, and more may be said to be due after. -/
theorem Prompt.mono {p : Parser α} (h : Prompt pre p post)
    (hpre : ∀ due next, pre' due next → pre due next)
    (hpost : ∀ due next, post due next → post' due next) : Prompt pre' p post' := by
  refine ⟨fun hc hr => ?_, fun hc hr => h.failure (hpre _ _ hc) hr⟩
  obtain ⟨due', hs, hp⟩ := h.success (hpre _ _ hc) hr
  exact ⟨due', hs, hpost _ _ hp⟩

theorem Prompt.weaken {p : Parser α} (h : Prompt pre p post)
    (hpre : ∀ due next, pre' due next → pre due next) : Prompt pre' p post :=
  h.mono hpre fun _ _ => id

/-- Where something may be due, nothing need be. -/
theorem Prompt.ofDue {p : Parser α} {ks : List Kind} (h : Prompt (dueOf ks) p post) :
    Prompt (dueOf []) p post :=
  h.weaken fun _ _ hd => hd.mono fun _ _ hm => absurd hm List.not_mem_nil

theorem prompt_pure {a : α} (h : ∀ due next, pre due next → post due next) :
    Prompt pre (pure a) post := by
  constructor
  · intro stack c b es c' due hc hr
    cases hr
    exact ⟨due, .nil due, h _ _ hc⟩
  · intro stack c e es c' due _ hr
    cases hr

/-- A parser that gives no answer leaves nothing undone. -/
theorem prompt_outOfBound : Prompt pre (outOfBound : Parser α) post := by
  constructor
  · intro stack c a es c' due _ hr
    cases hr
  · intro stack c e es c' due _ hr
    cases hr

/-- **What the first part leaves due the second must take.**  If the first fails then nothing is
due, and the second does not run. -/
theorem Prompt.bind {p : Parser β} {f : β → Parser α} (hp : Prompt pre p mid)
    (hf : ∀ b, Prompt mid (f b) post) : Prompt pre (p >>= f) post := by
  constructor
  · intro stack c a es c' due hc hr
    obtain ⟨b, es₁, c₁, es₂, h₁, h₂, rfl⟩ := run_bind_success hr
    obtain ⟨due₁, hs₁, hc₁⟩ := hp.success hc h₁
    obtain ⟨due₂, hs₂, hc₂⟩ := (hf b).success hc₁ h₂
    exact ⟨due₂, hs₁.append hs₂, hc₂⟩
  · intro stack c e es c' due hc hr
    rcases run_bind_cases hr with ⟨e', es', c₁, h₁, he⟩ | ⟨b, es₁, c₁, ⟨o, es₂, c₂⟩, h₁, h₂, he⟩
    · cases he
      exact hp.failure hc h₁
    · cases he
      obtain ⟨due₁, hs₁, hc₁⟩ := hp.success hc h₁
      obtain ⟨hs₂, hfound⟩ := (hf b).failure hc₁ h₂
      exact ⟨hs₁.append hs₂, hfound⟩

/-- What follows the look at a token knows which token it is. -/
theorem prompt_lookahead_bind {f : Token → Parser α}
    (hf : ∀ t, Prompt (fun due next => pre due next ∧ next = some t) (f t) post) :
    Prompt pre (lookahead >>= f) post := by
  constructor
  · intro stack c a es c' due hc hr
    obtain ⟨t, es₁, c₁, es₂, h₁, h₂, rfl⟩ := run_bind_success hr
    obtain ⟨u, rest, rfl, h₁⟩ := run_lookahead_cases h₁
    cases h₁
    exact (hf t).success ⟨hc, rfl⟩ h₂
  · intro stack c e es c' due hc hr
    rcases run_bind_cases hr with ⟨e', es', c₁, h₁, he⟩ | ⟨t, es₁, c₁, ⟨o, es₂, c₂⟩, h₁, h₂, he⟩
    · obtain ⟨_, _, _, h₁⟩ := run_lookahead_cases h₁
      cases h₁
    · cases he
      obtain ⟨u, rest, rfl, h₁⟩ := run_lookahead_cases h₁
      cases h₁
      exact (hf t).failure ⟨hc, rfl⟩ h₂

/-- A rule gives up on its lookahead, and only while nothing is due. -/
theorem prompt_unhandled {t : Token}
    (h : ∀ due next, pre due next → due = none ∧ next = some t) :
    Prompt pre (unhandled t : Parser α) post := by
  constructor
  · intro stack c a es c' due _ hr
    cases hr
  · intro stack c e es c' due hc hr
    obtain ⟨rfl, hn⟩ := h _ _ hc
    cases hr
    exact ⟨.nil none, hn⟩

/-- Whatever is due is consumed next, for it is the next token. -/
theorem prompt_advance (ks : List Kind) : Prompt (dueOf ks) advance (dueOf []) := by
  constructor
  · intro stack c a es c' due hc hr
    obtain ⟨t, rest, rfl, hr⟩ := run_advance_cases hr
    cases hr
    exact ⟨none, .consume (fun u hu => (Option.some.inj (hc u hu).1).symm) (.nil none),
      dueOf_none _ _⟩
  · intro stack c e es c' due _ hr
    obtain ⟨t, rest, rfl, hr⟩ := run_advance_cases hr
    cases hr

/-- A token that is due is of the expected kind, so it is taken.  Another one may be due
after it, but only of a kind that may follow. -/
theorem prompt_eatBefore (expected : Kind) (follow : List Kind) :
    Prompt (dueOf [expected]) (eatBefore expected follow) (dueOf follow) := by
  constructor
  · intro stack c a es c' due hc hr
    -- a due token is the next one; where it is not the expected one nothing is due
    cases run_eatBefore_cases hr with
    | found ht =>
      exact ⟨none, .consume (fun u hu => (Option.some.inj (hc u hu).1).symm) (.nil none),
        dueOf_none _ _⟩
    | @standIn t rest ht =>
      obtain rfl : due = none := hc.eq_none (by simpa using ht)
      refine ⟨none, .mismatch _ _ _ (.consume (fun u hu => ?_) (.nil none)), dueOf_none _ _⟩
      split at hu
      · cases hu
      · exact (Option.some.inj hu).symm
    | @missing t rest ht hf =>
      obtain rfl : due = none := hc.eq_none (by simpa using ht)
      refine ⟨_, .mismatch _ _ _ (.nil _), fun u hu => ?_⟩
      split at hu
      · cases hu
      · cases hu
        exact ⟨rfl, hf⟩
  · intro stack c e es c' due _ hr
    cases run_eatBefore_cases hr

/-- A due token is only accepted if it is the expected one, since any other would be recorded while
it is due. -/
theorem prompt_eat (expected : Kind) : Prompt (dueOf [expected]) (eat expected) (dueOf []) :=
  prompt_eatBefore expected []

/-- What may follow the name may be left in its place. -/
theorem prompt_name (follow : List Kind) :
    Prompt (dueOf [.identifier]) (name follow) (dueOf follow) :=
  (prompt_eatBefore .identifier follow).bind fun _ => prompt_pure fun _ _ => id

/-- Entering a rule consumes nothing. -/
theorem Prompt.inRule {p : Parser α} (rule : Rule) (h : Prompt pre p post) :
    Prompt pre (inRule rule p) post := by
  constructor
  · intro stack c a es c' due hc hr
    obtain ⟨t, rest, ⟨o, es, c'⟩, rfl, hb, hr⟩ := run_inRule_cases hr
    cases hr
    obtain ⟨due', hs, hp⟩ := h.success hc hb
    exact ⟨due', .enter _ _ _ hs, hp⟩
  · intro stack c e es c' due hc hr
    obtain ⟨t, rest, ⟨o, es, c'⟩, rfl, hb, hr⟩ := run_inRule_cases hr
    cases hr
    obtain ⟨hs, hfound⟩ := h.failure hc hb
    exact ⟨.enter _ _ _ hs, hfound⟩

/-- **A loop settles what is due.**  Of the kinds that may be due some begin a round, which takes
the token, and the others end the loop and stay due. -/
theorem prompt_repeatWhile {item : Parser α} {test : Kind → Bool} {ks start stop : List Kind}
    (h : Prompt (dueOf start) item (dueOf ks)) (hstart : ∀ k ∈ ks, test k = true → k ∈ start)
    (hstop : ∀ k ∈ ks, test k = false → k ∈ stop) :
    ∀ n, Prompt (dueOf ks) (repeatWhile test item n) (dueOf stop)
  | 0 => prompt_outOfBound
  | n + 1 => by
    refine prompt_lookahead_bind fun t => ?_
    split
    · rename_i ht
      refine (h.weaken ?_).bind fun a =>
        (prompt_repeatWhile h hstart hstop n).bind fun as => prompt_pure fun _ _ => id
      rintro due next ⟨hd, rfl⟩
      refine hd.mono fun u hu hm => hstart _ hm ?_
      rwa [← Option.some.inj hu]
    · rename_i ht
      refine prompt_pure ?_
      rintro due next ⟨hd, rfl⟩
      refine hd.mono fun u hu hm => hstop _ hm ?_
      rw [← Option.some.inj hu]
      simpa using ht

/-- In a loop, what an item starts with and what ends the loop may be due. -/
theorem prompt_many {item : Parser α} {test : Kind → Bool} {ks : List Kind}
    (start stop : List Kind) (h : Prompt (dueOf start) item (dueOf ks))
    (hstart : ∀ k ∈ ks, test k = true → k ∈ start)
    (hstop : ∀ k ∈ ks, test k = false → k ∈ stop) :
    Prompt (dueOf ks) (many test item) (dueOf stop) :=
  ⟨fun hc hr => (prompt_repeatWhile h hstart hstop _).success hc (run_of_many hr),
    fun hc hr => (prompt_repeatWhile h hstart hstop _).failure hc (run_of_many hr)⟩

end

/-! ## 3. The rules

A rule that may find a token due starts with tokens of its kind: a block with an opening
brace, a statement with a name, `if` or `return`.  After a rule nothing is due, but for the
end of a parameter list after a parameter. -/

section
variable {s e : Parser Node}

/-- Nothing is left in place in a call, as its parentheses are expected with no other token that may
follow. -/
theorem prompt_call (callee : String) (he : Prompt (dueOf []) e (dueOf [])) :
    Prompt (dueOf []) (call e callee) (dueOf []) :=
  ((prompt_eat _).ofDue.bind fun _ => (prompt_many [] [] he (by decide) (by decide)).bind fun _ =>
    (prompt_eat _).ofDue.bind fun _ => prompt_pure fun _ _ => id).inRule _

theorem prompt_unary (he : Prompt (dueOf []) e (dueOf [])) :
    Prompt (dueOf []) (unary e) (dueOf []) := by
  refine ((prompt_advance []).bind fun token => ?_).inRule _
  split
  · refine prompt_lookahead_bind fun t => ?_
    split
    · exact (prompt_call _ he).weaken fun _ _ h => h.1
    · exact prompt_pure fun _ _ h => h.1
  all_goals exact prompt_pure fun _ _ => id

theorem prompt_expression : ∀ bound, Prompt (dueOf []) (expression bound) (dueOf [])
  | 0 => prompt_outOfBound
  | bound + 1 => by
    have operand := prompt_unary (prompt_expression bound)
    refine (operand.bind fun left => prompt_lookahead_bind fun t => ?_).inRule _
    split
    · exact ((prompt_advance []).weaken fun _ _ h => h.1).bind fun _ =>
        operand.bind fun right => prompt_pure fun _ _ => id
    · exact prompt_pure fun _ _ h => h.1

/-- The kinds that statements start with. -/
def statementKinds : List Kind := [.identifier, .keywordIf, .keywordReturn]

/-- Of a block a token can be left after the opening brace only, where a statement or the closing
brace takes it. -/
theorem prompt_block (hs : Prompt (dueOf statementKinds) s (dueOf [])) :
    Prompt (dueOf [.openScope]) (block s) (dueOf []) := by
  have hs' : Prompt (dueOf statementKinds) s (dueOf afterOpenScope) :=
    hs.mono (fun _ _ => id) fun _ _ h => h.mono (by simp)
  have statements : Prompt (dueOf afterOpenScope) (many (fun k => k != .closeScope) s)
      (dueOf [.closeScope]) := prompt_many statementKinds _ hs' (by decide) (by decide)
  exact ((prompt_eatBefore _ _).bind fun _ => statements.bind fun _ =>
    (prompt_eat _).bind fun _ => prompt_pure fun _ _ => id).inRule _

theorem prompt_ifStmt (hs : Prompt (dueOf statementKinds) s (dueOf []))
    (he : Prompt (dueOf []) e (dueOf [])) :
    Prompt (dueOf [.keywordIf]) (ifStmt s e) (dueOf []) := by
  have branch : Prompt (dueOf []) (block s) (dueOf []) := (prompt_block hs).ofDue
  refine ((prompt_eat _).bind fun _ => he.bind fun _ => branch.bind fun _ =>
    prompt_lookahead_bind fun t => ?_).inRule _
  split
  · exact ((prompt_eat _).ofDue.weaken fun _ _ h => h.1).bind fun _ => branch.bind fun _ =>
      prompt_pure fun _ _ => id
  · exact prompt_pure fun _ _ h => h.1

theorem prompt_returnStmt (he : Prompt (dueOf []) e (dueOf [])) :
    Prompt (dueOf [.keywordReturn]) (returnStmt e) (dueOf []) :=
  ((prompt_eat _).bind fun _ => he.bind fun _ => prompt_pure fun _ _ => id).inRule _

theorem prompt_assignment (hs : Prompt (dueOf statementKinds) s (dueOf []))
    (he : Prompt (dueOf []) e (dueOf [])) :
    ∀ bound target, Prompt (dueOf []) (assignment s e bound target) (dueOf [])
  | 0, _ => prompt_outOfBound
  | bound + 1, target => by
    refine ((prompt_eat _).ofDue.bind fun _ => prompt_lookahead_bind fun start => ?_).inRule _
    split
    · exact (hs.ofDue.weaken fun _ _ h => h.1).bind fun _ => prompt_pure fun _ _ => id
    · refine (he.weaken fun _ _ h => h.1).bind fun value => prompt_lookahead_bind fun next => ?_
      split
      · exact ((prompt_assignment hs he bound _).weaken fun _ _ h => h.1).bind fun _ =>
          prompt_pure fun _ _ => id
      · exact prompt_pure fun _ _ h => h.1

/-- Nothing is due behind a name, since nothing is left in its place in a statement. -/
theorem prompt_identTail (hs : Prompt (dueOf statementKinds) s (dueOf []))
    (he : Prompt (dueOf []) e (dueOf [])) (bound : Nat) (name : String) :
    Prompt (dueOf []) (identTail s e bound name) (dueOf []) := by
  refine (prompt_lookahead_bind fun t => ?_).inRule _
  split
  · exact (prompt_call name he).weaken fun _ _ h => h.1
  · exact (prompt_assignment hs he bound name).weaken fun _ _ h => h.1
  · refine prompt_unhandled fun due next h => ⟨?_, h.2⟩
    obtain ⟨hd, rfl⟩ := h
    exact hd.eq_none (by simp)

/-- A statement takes a token that is due after a brace, for it begins with one of the kinds that
may follow one. -/
theorem prompt_statement : ∀ bound, Prompt (dueOf statementKinds) (statement bound) (dueOf [])
  | 0 => prompt_outOfBound
  | bound + 1 => by
    have hs := prompt_statement bound
    have he := prompt_expression bound
    refine (prompt_lookahead_bind fun t => ?_).inRule _
    split
    · rename_i hk
      refine ((prompt_name []).weaken fun due next h => ?_).bind fun name =>
        prompt_identTail hs he bound name
      exact hk ▸ h.1.at h.2
    · rename_i hk
      exact (prompt_ifStmt hs he).weaken fun due next h => hk ▸ h.1.at h.2
    · rename_i hk
      exact (prompt_returnStmt he).weaken fun due next h => hk ▸ h.1.at h.2
    · refine prompt_unhandled fun due next h => ⟨?_, h.2⟩
      obtain ⟨hd, rfl⟩ := h
      exact hd.eq_none (by simp_all [statementKinds])

end

/-- The name of a parameter may be missing before the end of the list, which is then due. -/
theorem prompt_parameter : Prompt (dueOf [.identifier]) parameter (dueOf afterParameter) :=
  ((prompt_name [.identifier]).bind fun _ => (prompt_name _).bind fun _ =>
    prompt_pure fun _ _ => id).inRule _

/-- A token is left after the name, after the parenthesis and after the list.  Each time the next
part of the rule takes what may be due. -/
theorem prompt_functionDecl (bound : Nat) :
    Prompt (dueOf [.keywordFunc]) (functionDecl bound) (dueOf []) :=
  ((prompt_eat _).bind fun _ => (prompt_name afterName).ofDue.bind fun _ =>
    (prompt_eatBefore _ _).bind fun _ =>
      (prompt_many [.identifier] [.closeParenthesis] prompt_parameter (by decide)
        (by decide)).bind fun _ =>
        (prompt_eatBefore _ _).bind fun _ =>
          (prompt_block (prompt_statement bound)).bind fun _ => prompt_pure fun _ _ => id).inRule _

/-- **In the parse of a program nothing stays due.** -/
theorem prompt_program (bound : Nat) : Prompt (dueOf []) (program bound) (dueOf []) :=
  ((prompt_many [] [] (prompt_functionDecl bound).ofDue (by decide) (by decide)).bind fun _ =>
    prompt_pure fun _ _ => id).inRule _

end Parser

/-! ## 4. Streams -/

/-- **A token that is found in the place of another is the next token consumed**, and until
then no other mismatch is recorded, whether the parse ends with a tree or not. -/
theorem TokenStream.settles_run (s : TokenStream) : Settles none s.run.events none := by
  have hr := s.program_run
  have hp := Parser.prompt_program s.tokens.length
  generalize s.run = r at hr ⊢
  obtain ⟨e | p, es, c'⟩ := r
  · exact (hp.failure (Parser.dueOf_none [] _) hr).1
  · obtain ⟨due, hs, hd⟩ := hp.success (Parser.dueOf_none [] _) hr
    cases due with
    | none => exact hs
    | some u => simpa using (hd u rfl).2

/-- A parse that fails stops at the token that it complains of. -/
theorem TokenStream.found_of_error {s : TokenStream} {e : SyntaxError}
    (h : s.run.outcome = .error e) : s.run.cursor.head? = some e.found := by
  have hr := s.program_run
  generalize s.run = r at h hr ⊢
  obtain ⟨o, es, c'⟩ := r
  cases h
  exact ((Parser.prompt_program _).failure (Parser.dueOf_none [] _) hr).2

end FrontEnd
