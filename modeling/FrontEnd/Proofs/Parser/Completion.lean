/-
# A tree means that the text was complete

The end of the text can be consumed any number of times, and several rules do so without
complaint: it can be an operand, stand in for a bracket, or end a list of arguments.  Only a
block does not end with it.  A block is closed by its brace and by nothing else, so inside a
function the end of the text never leads back to a tree.

* `program_closes`: a program without functions is read without consuming anything, and any
  other one ends with the brace that closes its last body;
* `Trail.token_of_eof`: after the end of the text is the lookahead it stays so;
* `run_complete`: both together, for streams.
-/
import FrontEnd.Proofs.Parser.Faithfulness
import FrontEnd.Proofs.Parser.Mismatches

namespace FrontEnd

/-- The event happens while a function is read: it is none of those in which the program or
a function is entered. -/
def Event.InFunction : Event → Prop
  | .enter rule .. => rule ≠ .program ∧ rule ≠ .functionDecl
  | .consume _ => True
  | .mismatch .. => True

/-- The last token consumed is the brace that closed the body of the function: the block
that was read as this body ended with it. -/
def TokenStream.EndsWithBody (s : TokenStream) (f : Function) (brace : Token) : Prop :=
  ∃ before body c, s.run.events = before ++ body ++ [.consume brace] ∧
    (Parser.block (Parser.statement s.tokens.length)).run [.functionDecl, .program] c =
      .ok ⟨.ok f.body, body ++ [.consume brace], s.run.cursor⟩

/-! ## 1. The end of the text -/

/-- Once the end of the text is the lookahead, everything is about it. -/
theorem Trail.token_of_eof {t : Token} {rest : List Token} {c' : Cursor} (ht : t.kind = .eof) :
    ∀ {es : List Event}, Trail (t :: rest) es c' → ∀ e ∈ es, e.token = t
  | [], _ => by simp
  | _ :: _, .enter _ _ h => List.forall_mem_cons.mpr ⟨rfl, token_of_eof ht h⟩
  | _ :: _, .consume h => by
    rw [Parser.advance_eq_self ht] at h
    exact List.forall_mem_cons.mpr ⟨rfl, token_of_eof ht h⟩
  | _ :: _, .mismatch _ _ h => List.forall_mem_cons.mpr ⟨rfl, token_of_eof ht h⟩

/-- A trail that ends with another token than the end of the text never stood there. -/
theorem Trail.kind_ne_eof {c c' : Cursor} {es : List Event} {last : Event}
    (h : Trail c (es ++ [last]) c') (hlast : last.token.kind ≠ .eof) :
    ∀ e ∈ es ++ [last], e.token.kind ≠ .eof := by
  intro e he hk
  obtain ⟨before, after, hs⟩ := List.append_of_mem he
  rw [hs] at h
  obtain ⟨c₁, -, h₁⟩ := h.of_append
  have hhead := h₁.head?_token
  obtain ⟨rest, rfl⟩ : ∃ rest, c₁ = e.token :: rest := List.head?_eq_some_iff.mp hhead
  have hmem : last ∈ e :: after := by
    have := congrArg List.getLast? hs
    rw [List.getLast?_concat, List.getLast?_append_of_ne_nil _ (List.cons_ne_nil e after)] at this
    exact List.mem_of_getLast? this.symm
  exact hlast (Trail.token_of_eof hk h₁ last hmem ▸ hk)

/-! ## 2. How a program ends -/

namespace Parser

section
variable {α : Type} {stack : List Rule} {c c' : Cursor} {es : List Event}

/-- A block ends with its brace. -/
theorem block_ends {s : Parser Node} {b : Block}
    (h : (block s).run stack c = .ok ⟨.ok b, es, c'⟩) :
    ∃ body brace, es = body ++ [.consume brace] ∧ brace.kind = .closeScope := by
  obtain ⟨t, rest, ⟨o, es, c'⟩, rfl, h₁, hr⟩ := run_inRule_cases h
  cases hr
  obtain ⟨_, es₁, c₁, _, -, h₂, rfl⟩ := run_bind_success h₁
  obtain ⟨b', es₂, c₂, _, hmany, h₃, rfl⟩ := run_bind_success h₂
  obtain ⟨brace, es₃, c₃, _, heat, h₄, rfl⟩ := run_bind_success h₃
  cases h₄
  rw [run_many] at hmany
  obtain ⟨u, rest, rfl, hu⟩ := repeatWhile_stop hmany
  have hk : u.kind = .closeScope := by simpa using hu
  cases run_eatBefore_cases heat with
  | found => exact ⟨.enter .block (stack.length + 1) t :: (es₁ ++ es₂), _, by simp, hk⟩
  | standIn hne => exact absurd hk hne
  | missing hne => exact absurd hk hne

/-- The last thing that happens in a function is that its body is read. -/
theorem functionDecl_body {bound : Nat} {f : Function}
    (h : (functionDecl bound).run stack c = .ok ⟨.ok f, es, c'⟩) :
    ∃ before body cb, es = before ++ body ∧
      (block (statement bound)).run (.functionDecl :: stack) cb = .ok ⟨.ok f.body, body, c'⟩ := by
  obtain ⟨t, rest, ⟨o, es, c'⟩, rfl, h₁, hr⟩ := run_inRule_cases h
  cases hr
  obtain ⟨_, es₁, c₁, _, -, h₂, rfl⟩ := run_bind_success h₁
  obtain ⟨_, es₂, c₂, _, -, h₃, rfl⟩ := run_bind_success h₂
  obtain ⟨_, es₃, c₃, _, -, h₄, rfl⟩ := run_bind_success h₃
  obtain ⟨_, es₄, c₄, _, -, h₅, rfl⟩ := run_bind_success h₄
  obtain ⟨_, es₅, c₅, _, -, h₆, rfl⟩ := run_bind_success h₅
  obtain ⟨b, es₆, c₆, _, hbody, h₇, rfl⟩ := run_bind_success h₆
  cases h₇
  refine ⟨.enter .functionDecl (stack.length + 1) t :: (es₁ ++ es₂ ++ es₃ ++ es₄ ++ es₅), es₆, c₅,
    ?_, hbody⟩
  simp

/-- The last thing that happens in a loop is its last round. -/
theorem repeatWhile_last {item : Parser α} {test : Kind → Bool} :
    ∀ {n c es as}, (repeatWhile test item n).run stack c = .ok ⟨.ok as, es, c'⟩ →
      (as = [] ∧ es = [] ∧ c' = c) ∨ ∃ bs a before last c₁, as = bs ++ [a] ∧ es = before ++ last ∧
        item.run stack c₁ = .ok ⟨.ok a, last, c'⟩
  | n, c, es, as, h => by
    obtain ⟨t, rest, rfl, ⟨-, rfl, rfl, rfl⟩ | ⟨-, m, a, as', es₁, c₁, es₂, rfl, rfl, rfl, ha, has⟩⟩ :=
      run_repeatWhile_cases h
    · exact .inl ⟨rfl, rfl, rfl⟩
    · rcases repeatWhile_last has with ⟨rfl, rfl, rfl⟩ | ⟨bs, b, before, last, cb, rfl, rfl, hb⟩
      · exact .inr ⟨[], a, [], es₁, _, rfl, by simp, ha⟩
      · exact .inr ⟨a :: bs, b, es₁ ++ before, last, cb, rfl, by simp, hb⟩

/-- **A program ends with the brace that closes its last body**, if it has a function. -/
theorem program_closes {bound : Nat} {p : Program}
    (h : (program bound).run stack c = .ok ⟨.ok p, es, c'⟩) :
    (p.functions = [] ∧ ∃ depth t, es = [.enter .program depth t]) ∨
    ∃ fs f before body brace cb, p.functions = fs ++ [f] ∧
      es = before ++ body ++ [.consume brace] ∧ brace.kind = .closeScope ∧
      (block (statement bound)).run (.functionDecl :: .program :: stack) cb =
        .ok ⟨.ok f.body, body ++ [.consume brace], c'⟩ := by
  obtain ⟨t, rest, ⟨o, es, c'⟩, rfl, h₁, hr⟩ := run_inRule_cases h
  cases hr
  obtain ⟨fs, es, c₁, _, hloop, h₂, rfl⟩ := run_bind_success h₁
  cases h₂
  rw [run_many] at hloop
  rcases repeatWhile_last hloop with ⟨rfl, rfl, rfl⟩ | ⟨gs, f, before, last, cf, rfl, rfl, hf⟩
  · exact .inl ⟨rfl, _, t, rfl⟩
  · obtain ⟨header, body, cb, rfl, hb⟩ := functionDecl_body hf
    obtain ⟨body, brace, rfl, hk⟩ := block_ends hb
    exact .inr ⟨gs, f, .enter .program (stack.length + 1) t :: (before ++ header), body, brace, cb,
      rfl, by simp, hk, hb⟩

end
end Parser

/-! ## 3. Where the written form comes from -/

/-- Every slot is for a token that is there: the one that it asks for, or the one whose text
the tree has in its place. -/
theorem Edited.exists_token {after : List Token} {ss : List Slot} {ts : List Token}
    {ds : List Diagnostic} (h : Edited after ss ts ds) :
    ∀ s ∈ ss, ∃ t ∈ ts ++ after, s.Fits t ∨ s.Shows t := by
  -- each edit shows the token that it consumed, but for a missing one, which shows the token after
  -- it
  induction h with
  | nil => intro s hs; cases hs
  | @keep s t ss ts ds hfit _ ih =>
    intro u hu
    rcases List.mem_cons.mp hu with rfl | hu
    · exact ⟨t, by simp, .inl hfit⟩
    · obtain ⟨v, hv, h⟩ := ih u hu
      exact ⟨v, List.mem_cons_of_mem t hv, h⟩
  | @standIn s t d ss ts ds hshow _ _ _ ih =>
    intro u hu
    rcases List.mem_cons.mp hu with rfl | hu
    · exact ⟨t, by simp, .inr hshow⟩
    · obtain ⟨v, hv, h⟩ := ih u hu
      exact ⟨v, List.mem_cons_of_mem t hv, h⟩
  | @missing s t d ss ts ds hshow _ _ hnext _ ih =>
    intro u hu
    rcases List.mem_cons.mp hu with rfl | hu
    · exact ⟨t, List.mem_of_head? hnext, .inr hshow⟩
    · exact ih u hu

/-! ## 4. Streams -/

/-- In a parse that ends with a tree the end of the text may be the lookahead where the program
is entered, and else nowhere. -/
theorem enters_of_eof {s : TokenStream} {p : Program} (h : s.run.outcome = .ok p) {e : Event}
    (he : e ∈ s.run.events) (hk : e.token.kind = .eof) : ∃ depth t, e = .enter .program depth t := by
  have ht := s.trail_run
  rcases Parser.program_closes (TokenStream.program_run_of_tree h) with
    ⟨-, depth, t, hes⟩ | ⟨fs, f, before, body, brace, cb, -, hes, hbrace, -⟩
  · rw [hes] at he
    exact ⟨depth, t, List.mem_singleton.mp he⟩
  · rw [hes] at he ht
    exact absurd hk (ht.kind_ne_eof (by simp [Event.token, hbrace]) e he)

/-- Diagnostics come from mismatches. -/
theorem not_atEof_of_eofFree {es : List Event} (h : EofFree es) :
    ∀ d ∈ recorded es, ¬ d.AtEof := by
  intro d hd
  obtain ⟨e, he, hd⟩ := List.mem_filterMap.mp hd
  rintro ⟨expected, t, hp, hk⟩
  cases e with
  | enter => cases hd
  | consume => cases hd
  | mismatch k u stack =>
    cases hd
    cases hp
    exact h _ he hk

/-- What a parse that ends with a tree did, all at once. -/
theorem edited_of_tree {s : TokenStream} {p : Program} (h : s.run.outcome = .ok p) :
    EofFree s.run.events ∧ Edited [] p.slots (passed s.run.events) s.run.diagnostics := by
  obtain ⟨hfree, hedited⟩ := Parser.edited_program (TokenStream.program_run_of_tree h)
  exact ⟨hfree, hedited []⟩

/-- A parse of a stream ends with the last body, or consumes nothing. -/
theorem endsWithBody_of_tree {s : TokenStream} {p : Program} (h : s.run.outcome = .ok p) :
    (p.functions = [] ∧ passed s.run.events = []) ∨
    ∃ fs f ts brace, p.functions = fs ++ [f] ∧ passed s.run.events = ts ++ [brace] ∧
      brace.kind = .closeScope ∧ s.EndsWithBody f brace := by
  rcases Parser.program_closes (TokenStream.program_run_of_tree h) with
    ⟨hp, depth, t, hes⟩ | ⟨fs, f, before, body, brace, cb, hp, hes, hbrace, hb⟩
  · exact .inl ⟨hp, by rw [hes]; rfl⟩
  · refine .inr ⟨fs, f, passed (before ++ body), brace, hp, ?_, hbrace, before, body, cb, hes, hb⟩
    rw [hes, passed_append, passed_consume_cons (by simp [hbrace]), passed_nil]

/-- **A tree means that the text was complete.**  In a parse that ends with a tree the end of
the text is never consumed and no mismatch is recorded at it.  All that the tree shows, names
and garbage included, comes from consumed tokens, none of which is the end of the text.
These are none at all, or end with the brace that closed the body of the last function.

So once the end of the text is the lookahead inside a function, the parse fails and complains
of it: a parse that fails always stops at the token that it complains of. -/
theorem run_complete (s : TokenStream) :
    (∀ p, s.run.outcome = .ok p →
      EofFree s.run.events ∧ (∀ d ∈ s.run.diagnostics, ¬ d.AtEof) ∧
      ∃ consumed, s.tokens = consumed ++ s.run.cursor ∧ (∀ t ∈ consumed, t.kind ≠ .eof) ∧
        Edited [] p.slots consumed s.run.diagnostics ∧
        (∀ slot ∈ p.slots, ∃ t ∈ consumed, slot.Fits t ∨ slot.Shows t) ∧
        ((p.functions = [] ∧ consumed = []) ∨
          ∃ fs f ts brace, p.functions = fs ++ [f] ∧ consumed = ts ++ [brace] ∧
            brace.kind = .closeScope ∧ s.EndsWithBody f brace)) ∧
    (∀ before e after t, s.run.events = before ++ e :: after → e.InFunction →
      s.tokens[position before]? = some t → t.kind = .eof →
      ∃ err, s.run.outcome = .error err ∧ err.found = t) ∧
    (∀ err, s.run.outcome = .error err → s.run.cursor.head? = some err.found) := by
  refine ⟨fun p hp => ?_, fun before e after t he hin ht hk => ?_,
    fun err => TokenStream.found_of_error⟩
  · obtain ⟨hfree, hedited⟩ := edited_of_tree hp
    refine ⟨hfree, not_atEof_of_eofFree hfree, passed s.run.events, s.trail_run.eq_append,
      fun t => kind_ne_eof_of_mem_passed, hedited, fun slot hslot => ?_,
      endsWithBody_of_tree hp⟩
    simpa using hedited.exists_token slot hslot
  · have htrail := s.trail_run
    rw [he] at htrail
    obtain rfl : e.token = t := Option.some.inj (htrail.getElem?_token.symm.trans ht)
    cases ho : s.run.outcome with
    | ok p =>
      -- with a tree only entering the program is about the end of the text
      obtain ⟨depth, u, rfl⟩ := enters_of_eof ho (e := e) (by simp [he]) hk
      exact absurd rfl hin.1
    | error err =>
      refine ⟨err, rfl, ?_⟩
      -- from here on the cursor stays at the end of the text
      obtain ⟨c₁, -, h₁⟩ := htrail.of_append
      obtain ⟨rest, rfl⟩ := List.head?_eq_some_iff.mp h₁.head?_token
      have hfound := TokenStream.found_of_error ho
      rw [h₁.eq_of_eof hk] at hfound
      exact (Option.some.inj hfound).symm

end FrontEnd
