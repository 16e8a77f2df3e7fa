/-
# One wrong token that ends or prolongs a parameter list

A wrong token in the head of a function is one mismatch in most places.  In two it is not, because
the loop over the parameters looks at the next token alone: it goes on at a name and ends at
anything else.

* In the place of the type of a parameter, a token that is no name ends the list.  The type is never
  asked for: what is left of the list is taken for the body, and there the name of the parameter
  starts no statement.  So there is no tree.
* In the place of the parenthesis after the list, a name prolongs it.  The brace that comes next is
  taken for the name of one more parameter, and where the list ends, in the body, the parenthesis is
  missed or another name.  So there are two mismatches at least.

How such a parse goes on is of no interest; the first mismatches are enough, and the error that ends
it, if one does.

* `Troubled`: what a parser does at least;
* `troubled_typeName`, `troubled_closeList`: functions with such a token;
* `Reaches`: the functions before are read as they were;
* `run_spoiltList`: the parse of a stream with such a function.
-/
import FrontEnd.Proofs.Parser.Damage

namespace FrontEnd

/-- The token `x` at index `i` of the function `f` ends the list of its parameters early or
prolongs it. -/
inductive Function.SpoilsList (f : Function) (x : Token) : Nat → Prop
  | typeName {ps qs : List Parameter} {q : Parameter} : f.parameters = ps ++ q :: qs →
      x.kind ≠ .identifier → x.kind ≠ .eof → SpoilsList f x (3 + 2 * ps.length)
  | closeList : x.kind = .identifier → SpoilsList f x (3 + 2 * f.parameters.length)

namespace Parser

/-! ## 1. Trouble -/

section
variable {α β : Type} {stack : List Rule} {c c' d : Cursor} {faults faults' : List (Kind × Token)}
  {e? : Option SyntaxError}

/-- The answer at the cursor `c`, if there is one, comes after these mismatches and maybe others,
and if an error is given, then it is that error. -/
def Troubled (p : Parser α) (stack : List Rule) (c : Cursor) (faults : List (Kind × Token))
    (e? : Option SyntaxError) : Prop :=
  ∀ r, p.run stack c = .ok r → faults <+: mismatches r.events ∧ ∀ e ∈ e?, r.outcome = .error e

/-- What comes later mends nothing. -/
theorem Troubled.bind {p : Parser β} (h : Troubled p stack c faults e?) (f : β → Parser α) :
    Troubled (p >>= f) stack c faults e? := by
  intro r hr
  rcases run_bind_cases hr with ⟨e, es, c', h₁, rfl⟩ | ⟨b, es, c', after, h₁, -, rfl⟩
  · obtain ⟨hfaults, he⟩ := h _ h₁
    refine ⟨hfaults, fun e' h' => ?_⟩
    cases he e' h'
    rfl
  · obtain ⟨hfaults, he⟩ := h _ h₁
    refine ⟨?_, fun e' h' => by cases he e' h'⟩
    rw [mismatches_append]
    exact hfaults.trans (List.prefix_append _ _)

/-- Less may be said of what was recorded. -/
theorem Troubled.mono {p : Parser α} (h : Troubled p stack c faults e?)
    (hfaults : faults' <+: faults) : Troubled p stack c faults' e? := by
  intro r hr
  obtain ⟨hr, he⟩ := h r hr
  exact ⟨hfaults.trans hr, he⟩

/-- Trouble comes after what went well. -/
theorem Gives.bind_troubled {p : Parser β} {f : β → Parser α} {b : β}
    (hp : Gives p stack c b faults c') (hf : Troubled (f b) stack c' faults' e?) :
    Troubled (p >>= f) stack c (faults ++ faults') e? := by
  intro r hr
  rcases run_bind_cases hr with ⟨e, es, c', h₁, -⟩ | ⟨b', es, c', after, h₁, hafter, rfl⟩
  · obtain ⟨_, he, -⟩ := hp _ h₁
    cases he
  · obtain ⟨_, he, hes⟩ := hp _ h₁
    cases he
    obtain ⟨hfaults, he⟩ := hf _ hafter
    refine ⟨?_, he⟩
    rw [mismatches_append, hes]
    exact (List.prefix_append_right_inj _).mpr hfaults

theorem Troubled.inRule {p : Parser α} {rule : Rule}
    (h : Troubled p (rule :: stack) c faults e?) : Troubled (inRule rule p) stack c faults e? := by
  intro r hr
  obtain ⟨t, rest, body, rfl, hb, rfl⟩ := run_inRule_cases hr
  obtain ⟨hfaults, he⟩ := h _ hb
  exact ⟨hfaults, he⟩

/-- Stopping the parse is trouble. -/
theorem troubled_unhandled (t : Token) :
    Troubled (unhandled t : Parser α) stack c []
      (some ⟨stack.head?.getD .program, t, t.span, stack.reverse⟩) := by
  intro r hr
  cases hr
  exact ⟨List.nil_prefix, fun e he => by cases he; rfl⟩

/-- So is a token that is not the expected one, whether it is consumed or not. -/
theorem troubled_eatBefore {expected : Kind} {follow : List Kind} {t : Token}
    (ht : t.kind ≠ expected) :
    Troubled (eatBefore expected follow) stack (t :: c) [(expected, t)] none := by
  intro r hr
  refine ⟨?_, fun e he => by cases he⟩
  cases run_eatBefore_cases hr with
  | found hk => exact absurd hk ht
  | standIn => exact List.prefix_refl _
  | missing => exact List.prefix_refl _

/-- The first round of a loop is in trouble. -/
theorem troubled_repeatWhile {item : Parser α} {test : Kind → Bool}
    (hc : ∀ t ∈ c.head?, test t.kind = true) (h : Troubled item stack c faults e?) :
    ∀ n, Troubled (repeatWhile test item n) stack c faults e?
  | 0 => fun _ hr => by cases hr
  | n + 1 => by
    cases c with
    | nil => intro r hr; cases hr
    | cons t c =>
      refine (gives_lookahead t).bind_troubled ?_
      rw [hc t rfl, if_pos rfl]
      exact h.bind _

theorem troubled_repeatWhile_cons {item : Parser α} {test : Kind → Bool} {a : α}
    (hc : ∀ t ∈ c.head?, test t.kind = true) (ha : Gives item stack c a faults c')
    (h : ∀ n, Troubled (repeatWhile test item n) stack c' faults' e?) :
    ∀ n, Troubled (repeatWhile test item n) stack c (faults ++ faults') e?
  | 0 => fun _ hr => by cases hr
  | n + 1 => by
    cases c with
    | nil => intro r hr; cases hr
    | cons t c =>
      refine (gives_lookahead t).bind_troubled ?_
      rw [hc t rfl, if_pos rfl]
      exact ha.bind_troubled ((h n).bind _)

/-- Trouble comes after the rounds that were made. -/
theorem Rounds.troubled {test : Kind → Bool} {item : Parser α} {as : List α}
    (h : Rounds test item stack c as d)
    (hd : ∀ n, Troubled (repeatWhile test item n) stack d faults e?) (n : Nat) :
    Troubled (repeatWhile test item n) stack c faults e? := by
  intro r hr
  obtain ⟨m, r', hm, houtcome, hmismatches, -⟩ := h.run hr
  obtain ⟨hfaults, he⟩ := hd m _ hm
  refine ⟨hmismatches ▸ hfaults, fun e h' => ?_⟩
  rw [houtcome, he e h']
  rfl

theorem troubled_many {item : Parser α} {test : Kind → Bool}
    (h : ∀ n, Troubled (repeatWhile test item n) stack c faults e?) :
    Troubled (many test item) stack c faults e? :=
  fun r hr => h _ r (run_of_many hr)

end

/-! ## 2. Bodies -/

section
variable {stack : List Rule} {c c' : Cursor} {bound : Nat} {faults : List (Kind × Token)}
  {name t : Token}

/-- The error at a token that cannot follow the name at the start of a statement. -/
def strayName (stack : List Rule) (t : Token) : SyntaxError :=
  ⟨.identTail, t, t.span, (.identTail :: .statement :: stack).reverse⟩

/-- **The name of a parameter starts no statement**: after it comes another parameter or the end
of the list. -/
theorem troubled_statement (hname : name.kind = .identifier) (ht : t.kind ∈ afterParameter) :
    ∀ bound, Troubled (statement bound) stack (name :: t :: c) [] (some (strayName stack t))
  | 0 => fun _ hr => by cases hr
  | bound + 1 => by
    refine ((gives_lookahead name).bind_troubled ?_).inRule
    simp only [hname]
    refine (gives_name (gives_found hname (by decide))).bind_troubled ?_
    refine ((gives_lookahead t).bind_troubled ?_).inRule
    rcases List.mem_pair.mp ht with h | h
    all_goals
      simp only [h]
      exact troubled_unhandled t

theorem troubled_block {brace : Token}
    (hopen : Gives (eatBefore .openScope afterOpenScope) (.block :: stack) c brace faults
      (name :: t :: c'))
    (hname : name.kind = .identifier) (ht : t.kind ∈ afterParameter) :
    Troubled (block (statement bound)) stack c faults (some (strayName (.block :: stack) t)) := by
  have hstatements : Troubled (many (fun k => k != .closeScope) (statement bound)) (.block :: stack)
      (name :: t :: c') [] (some (strayName (.block :: stack) t)) :=
    troubled_many (troubled_repeatWhile (by simp [hname]) (troubled_statement hname ht bound))
  refine Troubled.inRule ?_
  rw [← List.append_nil faults]
  exact hopen.bind_troubled (hstatements.bind _)

/-- The rest of a parameter list is no body. -/
theorem troubled_list_block {qs : List Parameter} {vs : List Token}
    (hname : name.kind = .identifier)
    (hvs : List.Forall₂ Slot.Fits (qs.flatMap Parameter.slots) vs)
    (ht : t.kind = .closeParenthesis) :
    ∃ u, Troubled (block (statement bound)) stack (name :: (vs ++ t :: c)) [(.openScope, name)]
      (some (strayName (.block :: stack) u)) := by
  have hopen : name.kind ≠ .openScope := by simp [hname]
  have hfollow : name.kind ∈ afterOpenScope := by simp [hname, afterOpenScope]
  cases qs with
  | nil =>
    cases hvs
    have hnext : StartsWith (· ∉ afterOpenScope) (t :: c) := ⟨t, rfl, by simp [ht, afterOpenScope]⟩
    exact ⟨t, troubled_block (gives_missing hopen hfollow hnext) hname
      (by simp [ht, afterParameter])⟩
  | cons q qs =>
    obtain ⟨typeName, _, htype, hnames, rfl⟩ := List.forall₂_cons_left_iff.mp hvs
    obtain ⟨next, vs, hnext, -, rfl⟩ := List.forall₂_cons_left_iff.mp hnames
    have hstart : StartsWith (· ∈ afterOpenScope) (typeName :: next :: (vs ++ t :: c)) :=
      ⟨typeName, rfl, by simp [htype.1, afterOpenScope]⟩
    exact ⟨next, troubled_block (gives_standIn hopen (by simp [hname]) hstart) htype.1
      (by simp [hnext.1, afterParameter])⟩

/-- Nor is it one after a brace. -/
theorem troubled_list_opened {qs : List Parameter} {vs : List Token} {brace : Token}
    (hbrace : brace.kind = .openScope) (hname : name.kind = .identifier)
    (hvs : List.Forall₂ Slot.Fits (qs.flatMap Parameter.slots) vs)
    (ht : t.kind = .closeParenthesis) :
    ∃ u, Troubled (block (statement bound)) stack (brace :: name :: (vs ++ t :: c)) []
      (some (strayName (.block :: stack) u)) := by
  obtain ⟨u, hu, hk⟩ := startsWith_parameters (c := t :: c) hvs ⟨t, rfl, ht⟩
  obtain ⟨rest, hrest⟩ := List.head?_eq_some_iff.mp hu
  rw [hrest]
  exact ⟨u, troubled_block (gives_found hbrace (by decide)) hname hk⟩

end

/-! ## 3. Functions -/

section
variable {stack : List Rule} {c c' : Cursor} {bound : Nat} {faults : List (Kind × Token)}
  {e? : Option SyntaxError} {x : Token} {f : Function}

/-- Trouble after the opening parenthesis of a function. -/
theorem troubled_functionDecl (head : f.Head)
    (h : Troubled (do
        let parameters ← many (· == .identifier) parameter
        let _ ← eatBefore .closeParenthesis afterParameters
        let body ← block (statement bound)
        return Function.mk f.name parameters body) (.functionDecl :: stack) c faults e?) :
    Troubled (functionDecl bound) stack (head.keyword :: head.name :: head.openList :: c) faults
      e? :=
  Troubled.inRule <| (gives_found head.keyword_kind (by decide)).bind_troubled <|
    (gives_head_name head _).bind_troubled <| (gives_head_openList head _).bind_troubled h

/-- **A token that is no name ends the list.**  It is found where the parenthesis should be, and
then what is left of the list where the body should be. -/
theorem troubled_listRest {qs : List Parameter} {vs : List Token} {name close : Token}
    {g : Block → Parser Function} (hname : name.kind = .identifier)
    (hvs : List.Forall₂ Slot.Fits (qs.flatMap Parameter.slots) vs)
    (hclose : close.kind = .closeParenthesis) (heof : x.kind ≠ .eof) :
    ∃ fault u, Troubled (do
        let _ ← eatBefore .closeParenthesis afterParameters
        let body ← block (statement bound)
        g body) stack (x :: name :: (vs ++ close :: c)) [fault]
      (some (strayName (.block :: stack) u)) := by
  by_cases hx : x.kind = .closeParenthesis
  · obtain ⟨u, hblock⟩ := troubled_list_block hname hvs hclose
    exact ⟨_, u, (gives_found hx (by decide)).bind_troubled (hblock.bind g)⟩
  by_cases hbrace : x.kind = .openScope
  · obtain ⟨u, hblock⟩ := troubled_list_opened hbrace hname hvs hclose
    have hfollow : x.kind ∈ afterParameters := by simp [hbrace, afterParameters]
    have hnext : StartsWith (· ∉ afterParameters) (name :: (vs ++ close :: c)) :=
      ⟨name, rfl, by simp [hname, afterParameters]⟩
    exact ⟨_, u, (gives_missing hx hfollow hnext).bind_troubled (hblock.bind g)⟩
  · obtain ⟨u, hblock⟩ := troubled_list_block hname hvs hclose
    have hfollow : x.kind ∉ afterParameters := by simpa [afterParameters] using hbrace
    have hinstead : Gives (eatBefore .closeParenthesis afterParameters) stack
        (x :: name :: (vs ++ close :: c)) x [(.closeParenthesis, x)] (name :: (vs ++ close :: c)) :=
      gives_instead hx heof fun h => absurd h hfollow
    exact ⟨_, u, (hinstead.bind_troubled (hblock.bind g)).mono (List.prefix_append _ _)⟩

theorem troubled_typeName (head : f.Head) {ps qs : List Parameter} {us vs : List Token}
    {name : Token} {body : Cursor} (hname : name.kind = .identifier)
    (hus : List.Forall₂ Slot.Fits (ps.flatMap Parameter.slots) us)
    (hvs : List.Forall₂ Slot.Fits (qs.flatMap Parameter.slots) vs) (hx : x.kind ≠ .identifier)
    (heof : x.kind ≠ .eof) :
    ∃ fault u, Troubled (functionDecl bound) stack (head.keyword :: head.name ::
        head.openList :: (us ++ x :: name :: (vs ++ head.closeList :: body))) [fault]
      (some (strayName (.block :: .functionDecl :: stack) u)) := by
  obtain ⟨fault, u, hrest⟩ := troubled_listRest hname hvs head.closeList_kind heof
  have hlist : Gives (many (· == .identifier) parameter) (.functionDecl :: stack)
      (us ++ x :: name :: (vs ++ head.closeList :: body)) ps []
      (x :: name :: (vs ++ head.closeList :: body)) :=
    gives_many (gives_parameters hus (by simpa using hx))
  exact ⟨fault, u, troubled_functionDecl head (hlist.bind_troubled hrest)⟩

/-! ### A name in the place of the parenthesis -/

theorem requires_identTail (s e : Parser Node) (n : Nat) (callee : String) :
    Requires (· ∈ [.openParenthesis, .assignment]) (identTail s e n callee) := by
  intro stack c a es c' hr
  obtain ⟨t, rest, ⟨o, es, c'⟩, rfl, hb, hr⟩ := run_inRule_cases hr
  cases hr
  obtain ⟨u, es₁, c₁, es₂, h₁, h₂, rfl⟩ := run_bind_success hb
  cases h₁
  refine ⟨t, rfl, ?_⟩
  split at h₂
  · simp_all
  · simp_all
  · cases h₂

/-- A statement that starts with a name goes on with none. -/
theorem statement_tail {name : Token} {n : Node} {es : List Event}
    (hr : (statement bound).run stack (name :: c) = .ok ⟨.ok n, es, c'⟩)
    (hname : name.kind = .identifier) : StartsWith (· ∈ [.openParenthesis, .assignment]) c := by
  cases bound with
  | zero => cases hr
  | succ bound =>
    obtain ⟨t, rest, ⟨o, es, c'⟩, ht, hb, hr⟩ := run_inRule_cases hr
    cases hr
    cases ht
    obtain ⟨u, es₁, c₁, es₂, h₁, h₂, rfl⟩ := run_bind_success hb
    cases h₁
    simp only [hname] at h₂
    obtain ⟨callee, es₁, c₁, es₂, h₁, h₂, rfl⟩ := run_bind_success h₂
    obtain ⟨_, he, -⟩ := gives_name (gives_found hname (by decide)) _ h₁
    cases he
    exact requires_identTail _ _ _ _ _ _ _ _ _ h₂

/-- What is known of the first tokens of a body: after its brace, a statement or its end. -/
theorem block_tail {b : Block} {es : List Event}
    (hr : (block (statement bound)).run stack c = .ok ⟨.ok b, es, c'⟩) (hes : mismatches es = []) :
    ∃ brace next rest, brace.kind = .openScope ∧ passed es ++ c' = brace :: next :: rest ∧
      next.kind ∈ afterOpenScope ∧
      (next.kind = .identifier → StartsWith (· ∈ [.openParenthesis, .assignment]) rest) := by
  obtain ⟨brace, inside, hbrace, hpassed, hrest, -, next, hnext, hk⟩ :=
    block_clean (.statement bound) (requires_statement bound) hr hes rfl
  obtain ⟨rest, htokens⟩ := List.head?_eq_some_iff.mp hnext
  refine ⟨brace, next, rest, hbrace, by rw [hpassed, List.cons_append, htokens], hk, ?_⟩
  intro hname
  obtain ⟨ns, es₁, c₁, es₂, h₁, -, -⟩ := run_bind_success hrest
  rw [htokens, run_many] at h₁
  obtain ⟨t, rest, ht, ⟨hstop, -⟩ | ⟨-, m, n, ns, es₁, c₁, es₂, -, -, -, hn, -⟩⟩ :=
    run_repeatWhile_cases h₁
  · cases ht
    simp [hname] at hstop
  · cases ht
    exact statement_tail hn hname

/-- The brace of the body is taken for the name of a parameter. -/
theorem gives_parameter_brace {brace : Token} (hx : x.kind = .identifier)
    (hbrace : brace.kind = .openScope) :
    Gives parameter stack (x :: brace :: c) ⟨x.text, brace.text⟩ [(.identifier, brace)] c := by
  have hfollow : brace.kind ∉ afterParameter := by simp [hbrace, afterParameter]
  exact Gives.inRule <| (gives_name (gives_found hx (by decide))).bind <|
    (gives_name (gives_instead (by simp [hbrace]) (by simp [hbrace]) fun h =>
      absurd h hfollow)).bind_pure (Parameter.mk x.text)

/-- **A name prolongs the list**, which ends with a second mismatch in the body: at the token after
a name that starts a statement, or else at the first token. -/
theorem troubled_closeList (head : f.Head) {brace next : Token} {rest : Cursor}
    (hx : x.kind = .identifier) (hbrace : brace.kind = .openScope)
    (hnext : next.kind ∈ afterOpenScope)
    (htail : next.kind = .identifier → StartsWith (· ∈ [.openParenthesis, .assignment]) rest) :
    ∃ fault, Troubled (functionDecl bound) stack (head.keyword :: head.name :: head.openList ::
      (head.list ++ x :: brace :: next :: rest)) [(.identifier, brace), fault] none := by
  -- the list goes on over the brace: a name behind it begins one more parameter, anything else ends
  -- it
  by_cases hname : next.kind = .identifier
  · obtain ⟨u, hu, hk⟩ := htail hname
    obtain ⟨rest, rfl⟩ := List.head?_eq_some_iff.mp hu
    have hwrong : u.kind ≠ .identifier := fun h => by simp [h] at hk
    have hparameter : Troubled parameter (.functionDecl :: stack) (next :: u :: rest)
        [(.identifier, u)] none :=
      Troubled.inRule <| (gives_name (gives_found hname (by decide))).bind_troubled <|
        ((troubled_eatBefore hwrong).bind _).bind _
    have hlist : Troubled (many (· == .identifier) parameter) (.functionDecl :: stack)
        (head.list ++ x :: brace :: next :: u :: rest) [(.identifier, brace), (.identifier, u)]
        none :=
      troubled_many <| (rounds_parameters head.list_fits).troubled <|
        troubled_repeatWhile_cons (by simp [hx]) (gives_parameter_brace hx hbrace) <|
          troubled_repeatWhile (by simp [hname]) hparameter
    exact ⟨_, troubled_functionDecl head (hlist.bind _)⟩
  · -- the list ends here, but not with its parenthesis
    have hwrong : next.kind ≠ .closeParenthesis := fun h => by simp [h, afterOpenScope] at hnext
    have hlist : Gives (many (· == .identifier) parameter) (.functionDecl :: stack)
        (head.list ++ x :: brace :: next :: rest) (f.parameters ++ [⟨x.text, brace.text⟩])
        [(.identifier, brace)] (next :: rest) :=
      gives_many <| (rounds_parameters head.list_fits).gives <|
        gives_repeatWhile_cons (by simp [hx]) (gives_parameter_brace hx hbrace) <|
          gives_repeatWhile_nil (by simpa using hname)
    exact ⟨_, troubled_functionDecl head (hlist.bind_troubled ((troubled_eatBefore hwrong).bind _))⟩

/-! ### Functions that were read without a mismatch -/

theorem troubled_spoiltType {es : List Event} {ps qs : List Parameter} {q : Parameter}
    (h : (functionDecl bound).run stack c = .ok ⟨.ok f, es, c'⟩) (hes : mismatches es = [])
    (hps : f.parameters = ps ++ q :: qs) (hx : x.kind ≠ .identifier) (heof : x.kind ≠ .eof) :
    ∃ fault u, Troubled (functionDecl bound) stack ((passed es).set (3 + 2 * ps.length) x ++ c')
      [fault] (some (strayName (.block :: .functionDecl :: stack) u)) := by
  obtain ⟨head, body, hpassed, -, -⟩ := functionDecl_clean h hes
  obtain ⟨us, typeName, name, vs, hlist, -, ⟨hname, -⟩, hus, hvs⟩ := head.exists_parameter hps
  have hindex : 3 + 2 * ps.length =
      (head.keyword :: head.name :: head.openList :: us).length := by
    simp only [List.length_cons, ← hus.length_eq, Function.length_parameterSlots]
    omega
  have htokens : (passed es).set (3 + 2 * ps.length) x ++ c' = head.keyword :: head.name ::
      head.openList :: (us ++ x :: name :: (vs ++ head.closeList :: (passed body ++ c'))) := by
    rw [hpassed, hindex]
    simp [Function.Head.tokens, hlist]
  rw [htokens]
  exact troubled_typeName head hname hus hvs hx heof

theorem troubled_spoiltEnd {es : List Event}
    (h : (functionDecl bound).run stack c = .ok ⟨.ok f, es, c'⟩) (hes : mismatches es = [])
    (hx : x.kind = .identifier) :
    ∃ fault fault', Troubled (functionDecl bound) stack
      ((passed es).set (3 + 2 * f.parameters.length) x ++ c') [fault, fault'] none := by
  obtain ⟨head, body, hpassed, hbody, hblock⟩ := functionDecl_clean h hes
  obtain ⟨brace, next, rest, hbrace, hrest, hnext, htail⟩ := block_tail hblock hbody
  have htokens : (passed es).set (3 + 2 * f.parameters.length) x ++ c' = head.keyword ::
      head.name :: head.openList :: (head.list ++ x :: brace :: next :: rest) := by
    rw [hpassed, ← head.length_beforeClose, ← hrest]
    simp [Function.Head.tokens]
  rw [htokens]
  exact ⟨_, troubled_closeList head hx hbrace hnext htail⟩

/-! ### The functions before -/

/-- From `c` on, a loop reads the functions `fs` and then `f` without a mismatch.  It reads `fs`
before anything else that starts as the tokens of `f` do. -/
structure Reaches (bound : Nat) (stack : List Rule) (fs : List Function) (f : Function)
    (c : Cursor) where
  before : List Token
  events : List Event
  after : Cursor
  tokens_eq : c = before ++ (passed events ++ after)
  length_before : before.length = (fs.flatMap Function.slots).length
  length_passed : (passed events).length = f.slots.length
  clean : mismatches events = []
  run : (functionDecl bound).run stack (passed events ++ after) = .ok ⟨.ok f, events, after⟩
  starts : ∀ t ∈ (passed events ++ after).head?, (t.kind == .keywordFunc) = true
  rounds : ∀ d : Cursor, d.head? = (passed events ++ after).head? →
    Rounds (· == .keywordFunc) (functionDecl bound) stack (before ++ d) fs d

/-- A loop without a mismatch reaches each of its functions. -/
theorem reaches_function {f : Function} {gs : List Function} : ∀ {fs : List Function} {c : Cursor}
    {es : List Event} {n : Nat},
    (repeatWhile (· == .keywordFunc) (functionDecl bound) n).run stack c =
      .ok ⟨.ok (fs ++ f :: gs), es, c'⟩ → mismatches es = [] → Nonempty (Reaches bound stack fs f c)
  | [], c, es, n, h, hes => by
    obtain ⟨hkeyword, m, es₁, es₂, us, hes₁, -, rfl, hslots, hf, -⟩ := functionDecl_round h hes
    exact ⟨⟨[], es₁, us, rfl, rfl, hslots, hes₁, hf, hkeyword, fun d _ => .nil⟩⟩
  | g :: fs, c, es, n, h, hes => by
    obtain ⟨hkeyword, m, es₁, es₂, vs, hes₁, hes₂, rfl, hslots, hg, hrest⟩ :=
      functionDecl_round h hes
    obtain ⟨reaches⟩ := reaches_function hrest hes₂
    refine ⟨{ reaches with
      before := passed es₁ ++ reaches.before, tokens_eq := ?_, length_before := ?_, rounds := ?_ }⟩
    · rw [List.append_assoc, ← reaches.tokens_eq]
    · rw [List.length_append, List.flatMap_cons, List.length_append, hslots, reaches.length_before]
    · intro d hd
      -- the functions between start as they did, whatever comes behind them
      have hhead : (reaches.before ++ d).head? = vs.head? := by
        conv_rhs => rw [reaches.tokens_eq]
        rw [List.head?_append, List.head?_append, hd]
      rw [List.append_assoc]
      refine .cons ?_ ((Composed.functionDecl bound).gives hg hes₁ hhead) (reaches.rounds d hd)
      rwa [List.head?_append, hhead, ← List.head?_append]

/-- Another token in the place of one of the function. -/
theorem Reaches.set_tokens {fs : List Function} (reaches : Reaches bound stack fs f c) {i : Nat}
    (hi : i < f.slots.length) (x : Token) :
    c.set ((fs.flatMap Function.slots).length + i) x =
      reaches.before ++ ((passed reaches.events).set i x ++ reaches.after) := by
  have hpassed : i < (passed reaches.events).length := reaches.length_passed ▸ hi
  conv_lhs => rw [reaches.tokens_eq, ← reaches.length_before]
  rw [List.set_append_right _ _ (Nat.le_add_right _ _), Nat.add_sub_cancel_left,
    List.set_append_left _ _ hpassed]

/-- The trouble of a function is that of the loop: what stands before it is read as before. -/
theorem Reaches.troubled {fs : List Function} (reaches : Reaches bound stack fs f c) {d : Cursor}
    (hd : d.head? = (passed reaches.events ++ reaches.after).head?)
    (h : Troubled (functionDecl bound) stack d faults e?) :
    Troubled (many (· == .keywordFunc) (functionDecl bound)) stack (reaches.before ++ d) faults
      e? :=
  troubled_many ((reaches.rounds d hd).troubled (troubled_repeatWhile (hd ▸ reaches.starts) h))

end

end Parser

/-! ## 4. Streams -/

section
variable {s t : TokenStream} {p : Program} {fs gs : List Function} {f : Function} {x : Token}
  {i : Nat}

/-- The token is one of the function, and not its first. -/
theorem Function.SpoilsList.bounds (h : f.SpoilsList x i) : 0 < i ∧ i < f.slots.length := by
  have hlength : f.headSlots.length ≤ f.slots.length := by simp [f.slots_eq]
  rw [f.length_headSlots] at hlength
  cases h with
  | typeName hps =>
    rw [hps, List.length_append, List.length_cons] at hlength
    omega
  | closeList => omega

/-- The trouble of a function with another token is that of the parse. -/
theorem TokenStream.exists_troubled (hs : s.run.outcome = .ok p) (hclean : s.run.diagnostics = [])
    (hp : p.functions = fs ++ f :: gs) (hi : 0 < i ∧ i < f.slots.length)
    (ht : t.tokens = s.tokens.set ((fs.flatMap Function.slots).length + i) x) :
    ∃ bound c es c', (Parser.functionDecl bound).run [.program] c = .ok ⟨.ok f, es, c'⟩ ∧
      mismatches es = [] ∧ ∀ faults e?, Parser.Troubled (Parser.functionDecl bound) [.program]
        ((passed es).set i x ++ c') faults e? →
        faults <+: mismatches t.run.events ∧ ∀ e ∈ e?, t.run.outcome = .error e := by
  obtain ⟨bound, n, es, c', hloop, hes, hr⟩ := TokenStream.exists_common_bound hs hclean t
  rw [hp] at hloop
  obtain ⟨reaches⟩ := Parser.reaches_function hloop hes
  rw [ht, reaches.set_tokens hi.2] at hr
  refine ⟨bound, _, reaches.events, reaches.after, reaches.run, reaches.clean, fun faults e? h => ?_⟩
  have hprogram := (reaches.troubled (head?_set_append hi.1 x rfl) h).bind fun fs =>
    (pure ⟨fs⟩ : Parser Program)
  exact hprogram.inRule _ hr

/-- **A wrong token that ends or prolongs a parameter list is not one mismatch.**  Let the parse of
a stream end with a tree and without a mismatch, and let one token of a parameter list be replaced
by another one.  If it was the type of a parameter and the other one is no name, then the parse
ends without a tree, in a statement that the text does not have, and has found a mismatch before.
If it was the parenthesis after the list and the other one is a name, then the parse finds at
least two mismatches. -/
theorem run_spoiltList (hs : s.run.outcome = .ok p) (hclean : s.run.diagnostics = [])
    (hp : p.functions = fs ++ f :: gs) (hx : f.SpoilsList x i)
    (ht : t.tokens = s.tokens.set ((fs.flatMap Function.slots).length + i) x) :
    (x.kind ≠ .identifier → t.run.diagnostics ≠ [] ∧ ∃ u : Token, t.run.outcome =
      .error ⟨.identTail, u, u.span, [.program, .functionDecl, .block, .statement, .identTail]⟩) ∧
    (x.kind = .identifier → 2 ≤ t.run.diagnostics.length) := by
  obtain ⟨bound, c, es, c', hf, hes, hrun⟩ :=
    TokenStream.exists_troubled hs hclean hp hx.bounds ht
  cases hx with
  | typeName hps hname heof =>
    refine ⟨fun _ => ?_, fun h => absurd h hname⟩
    obtain ⟨fault, u, htroubled⟩ := Parser.troubled_spoiltType hf hes hps hname heof
    obtain ⟨hfaults, herror⟩ := hrun _ _ htroubled
    -- a mismatch was found before the error
    refine ⟨fun hnone => ?_, u, herror _ rfl⟩
    rw [recorded_eq_nil_iff.mp hnone] at hfaults
    cases List.prefix_nil.mp hfaults
  | closeList hname =>
    refine ⟨fun h => absurd hname h, fun _ => ?_⟩
    obtain ⟨fault, fault', htroubled⟩ := Parser.troubled_spoiltEnd hf hes hname
    obtain ⟨hfaults, -⟩ := hrun _ _ htroubled
    rw [Reply.diagnostics, length_recorded]
    exact hfaults.length_le

/-- An operator is the type of the only parameter. -/
theorem run_spoiltList_operator :
    let f : List Token := [⟨.keywordFunc, "func", ⟨0, 4⟩⟩, ⟨.identifier, "f", ⟨5, 1⟩⟩,
      ⟨.openParenthesis, "(", ⟨6, 1⟩⟩, ⟨.identifier, "t", ⟨7, 1⟩⟩, ⟨.identifier, "a", ⟨9, 1⟩⟩,
      ⟨.closeParenthesis, ")", ⟨10, 1⟩⟩, ⟨.openScope, "\x7b", ⟨12, 1⟩⟩,
      ⟨.closeScope, "\x7d", ⟨14, 1⟩⟩, .eof 15]
    let x : Token := ⟨.add, "+", ⟨7, 1⟩⟩
    let s := TokenStream.ofTokens "" f .empty []
    let t := TokenStream.ofTokens "" (f.set 3 x) .empty []
    s.run.outcome = .ok ⟨[⟨"f", [⟨"t", "a"⟩], []⟩]⟩ ∧ s.run.diagnostics = [] ∧
      t.run.diagnostics ≠ [] ∧ ∃ u : Token, t.run.outcome = .error
        ⟨.identTail, u, u.span, [.program, .functionDecl, .block, .statement, .identTail]⟩ := by
  intro f x s t
  have hs : s.run.outcome = .ok ⟨[⟨"f", [⟨"t", "a"⟩], []⟩]⟩ := by decide
  have hclean : s.run.diagnostics = [] := by decide
  have hps : [(⟨"t", "a"⟩ : Parameter)] = [] ++ ⟨"t", "a"⟩ :: [] := rfl
  have hname : x.kind ≠ .identifier := by decide
  have heof : x.kind ≠ .eof := by decide
  have hx := Function.SpoilsList.typeName (f := ⟨"f", [⟨"t", "a"⟩], []⟩) hps hname heof
  have hp : [(⟨"f", [⟨"t", "a"⟩], []⟩ : Function)] = [] ++ ⟨"f", [⟨"t", "a"⟩], []⟩ :: [] := rfl
  obtain ⟨htype, -⟩ := run_spoiltList (t := t) hs hclean hp hx rfl
  exact ⟨hs, hclean, htype hname⟩

/-- So a wrong token does not always leave a tree and one mismatch. -/
theorem not_forall_spoiltList_recovers :
    ¬ ∀ (s t : TokenStream) (p : Program) (fs gs : List Function) (f : Function) (x : Token)
      (i : Nat), s.run.outcome = .ok p → s.run.diagnostics = [] → p.functions = fs ++ f :: gs →
      f.SpoilsList x i → t.tokens = s.tokens.set ((fs.flatMap Function.slots).length + i) x →
      (∃ q, t.run.outcome = .ok q) ∧ t.run.diagnostics.length = 1 := by
  intro hclaim
  let f : List Token := [⟨.keywordFunc, "func", ⟨0, 4⟩⟩, ⟨.identifier, "f", ⟨5, 1⟩⟩,
    ⟨.openParenthesis, "(", ⟨6, 1⟩⟩, ⟨.identifier, "t", ⟨7, 1⟩⟩, ⟨.identifier, "a", ⟨9, 1⟩⟩,
    ⟨.closeParenthesis, ")", ⟨10, 1⟩⟩, ⟨.openScope, "\x7b", ⟨12, 1⟩⟩,
    ⟨.closeScope, "\x7d", ⟨14, 1⟩⟩, .eof 15]
  let x : Token := ⟨.add, "+", ⟨7, 1⟩⟩
  let s := TokenStream.ofTokens "" f .empty []
  let t := TokenStream.ofTokens "" (f.set 3 x) .empty []
  have hps : [(⟨"t", "a"⟩ : Parameter)] = [] ++ ⟨"t", "a"⟩ :: [] := rfl
  have hname : x.kind ≠ .identifier := by decide
  have heof : x.kind ≠ .eof := by decide
  have hx := Function.SpoilsList.typeName (f := ⟨"f", [⟨"t", "a"⟩], []⟩) hps hname heof
  obtain ⟨⟨q, hq⟩, -⟩ := hclaim s t ⟨[⟨"f", [⟨"t", "a"⟩], []⟩]⟩ [] [] _ x _ (by decide) (by decide)
    rfl hx rfl
  have herror : t.run.outcome = .error ⟨.identTail, ⟨.closeParenthesis, ")", ⟨10, 1⟩⟩, ⟨10, 1⟩,
      [.program, .functionDecl, .block, .statement, .identTail]⟩ := by decide
  rw [herror] at hq
  cases hq

end
end FrontEnd
