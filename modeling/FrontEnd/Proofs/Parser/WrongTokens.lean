/-
# One wrong token in a function

In functions that are read without a mismatch, one token each may be replaced by another: the
name of the function or of a parameter, a parenthesis around the parameters, or the brace
that opens the body or the block after an `else`.  The tree stays the same but for the text
of a name, and every replacement is one mismatch.

What makes it so is the look at the token after the wrong one.  It is the one that follows the
token that should be there, and each set of kinds that may follow a missing token holds its
kind; so the wrong token is taken in place of the right one, even where it looks like what
follows.

* `Function.WrongToken`, `WrongTokens`: functions, and their tokens with wrong ones;
* `gives_wrongToken`: one wrong token in a function;
* `run_wrongTokens`: the parse of a stream with wrong tokens.
-/
import FrontEnd.Proofs.Parser.Damage
import FrontEnd.Proofs.Parser.ElseBraces

namespace FrontEnd

/-! ## 1. Wrong tokens -/

/-- `f.WrongToken x i k g`: of the tokens of the function `f` the one at index `i`, which is of
kind `k`, may be wrong.  With `x` in its place the function is read as `g`: of these tokens the
tree keeps only the names. -/
inductive Function.WrongToken (f : Function) (x : Token) : Nat → Kind → Function → Prop
  | name : WrongToken f x 1 .identifier { f with name := x.text }
  | openList : WrongToken f x 2 .openParenthesis f
  | parameterName {ps qs : List Parameter} {q : Parameter} : f.parameters = ps ++ q :: qs →
      WrongToken f x (4 + 2 * ps.length) .identifier
        { f with parameters := ps ++ { q with name := x.text } :: qs }
  | closeList : WrongToken f x (3 + 2 * f.parameters.length) .closeParenthesis f
  | openBody : WrongToken f x (4 + 2 * f.parameters.length) .openScope f
  | openElse {i : Nat} : OpensElse f.slots i → WrongToken f x (i + 1) .openScope f

/-- `WrongTokens fs ts faults gs ts'`: the tokens `ts` start with those of the functions `fs`, and
`ts'` are the same but that in some of these functions one token is another one.  It is of
another kind, is not the end of the text and, in the place of the parenthesis after the
parameters, not a name.  For each of these functions `faults` has the kind that was there and
the token that is there now, and `gs` are all functions as they are read then. -/
inductive WrongTokens : List Function → List Token → List (Kind × Token) → List Function →
    List Token → Prop
  | rest (ts : List Token) : WrongTokens [] ts [] [] ts
  | intact {f : Function} {fs gs : List Function} {ts us us' : List Token}
      {faults : List (Kind × Token)} :
      ts.length = f.slots.length → WrongTokens fs us faults gs us' →
      WrongTokens (f :: fs) (ts ++ us) faults (f :: gs) (ts ++ us')
  | wrong {f g : Function} {fs gs : List Function} {ts us us' : List Token} {x : Token}
      {i : Nat} {k : Kind} {faults : List (Kind × Token)} :
      ts.length = f.slots.length → f.WrongToken x i k g → x.kind ≠ k → x.kind ≠ .eof →
      (k = .closeParenthesis → x.kind ≠ .identifier) → WrongTokens fs us faults gs us' →
      WrongTokens (f :: fs) (ts ++ us) ((k, x) :: faults) (g :: gs) (ts.set i x ++ us')

/-- The first token of a function is none of them. -/
theorem Function.WrongToken.pos {f g : Function} {x : Token} {i : Nat} {k : Kind}
    (h : f.WrongToken x i k g) : 0 < i := by
  cases h <;> omega

theorem Function.not_mem_headSlots (f : Function) : .fixed .keywordElse ∉ f.headSlots := by
  simp [headSlots, Parameter.slots]

namespace Parser

/-! ## 2. Functions -/

section
variable {stack : List Rule} {c c' d : Cursor} {es : List Event} {bound : Nat} {x : Token}

/-- A wrong token stands in for the name of a parameter. -/
theorem gives_wrong_parameter {typeName : Token} (htype : typeName.kind = .identifier)
    (hx : x.kind ≠ .identifier) (heof : x.kind ≠ .eof) (hc : StartsWith (· ∈ afterParameter) c) :
    Gives parameter stack (typeName :: x :: c) ⟨typeName.text, x.text⟩ [(.identifier, x)] c :=
  Gives.inRule <| (gives_name (gives_found htype (by decide))).bind <|
    (gives_name (gives_standIn hx heof hc)).bind_pure (Parameter.mk typeName.text)

/-- The other parameters are read as they are. -/
theorem gives_wrong_parameters {ps qs : List Parameter} {us vs : List Token} {typeName : Token}
    (htype : typeName.kind = .identifier)
    (hus : List.Forall₂ Slot.Fits (ps.flatMap Parameter.slots) us)
    (hvs : List.Forall₂ Slot.Fits (qs.flatMap Parameter.slots) vs)
    (hx : x.kind ≠ .identifier) (heof : x.kind ≠ .eof) (hc : StartsWith (· = .closeParenthesis) c) :
    ∀ n, Gives (repeatWhile (· == .identifier) parameter n) stack
      (us ++ typeName :: x :: (vs ++ c)) (ps ++ ⟨typeName.text, x.text⟩ :: qs) [(.identifier, x)] c := by
  have hlast : ∀ t ∈ c.head?, t.kind ≠ .identifier := by
    obtain ⟨t, ht, hk⟩ := hc
    intro u hu
    rw [Option.mem_unique hu ht, hk]
    decide
  exact (rounds_parameters hus).gives <| gives_repeatWhile_cons (by simp [htype])
    (gives_wrong_parameter htype hx heof (startsWith_parameters hvs hc)) (gives_parameters hvs hlast)

/-! ### The parts of a function -/

section
variable {f : Function} (head : f.Head) {b : Block} {body : Cursor}
  {faults : List (Kind × Token)}

theorem gives_wrong_name (hx : x.kind ≠ .identifier) (heof : x.kind ≠ .eof)
    (hbody : Gives (block (statement bound)) (.functionDecl :: stack) body b [] d) :
    Gives (functionDecl bound) stack
      (head.keyword :: x :: head.openList :: (head.list ++ head.closeList :: body))
      ⟨x.text, f.parameters, b⟩ [(.identifier, x)] d := by
  have hnext : StartsWith (· ∈ afterName)
      (head.openList :: (head.list ++ head.closeList :: body)) :=
    ⟨_, rfl, by simp [head.openList_kind, afterName]⟩
  exact gives_functionDecl head.keyword_kind (gives_name (gives_standIn hx heof hnext))
    (gives_head_openList head _) (gives_list_closed head) (gives_head_closeList head _) hbody

theorem gives_wrong_openList (hx : x.kind ≠ .openParenthesis) (heof : x.kind ≠ .eof)
    (hbody : Gives (block (statement bound)) (.functionDecl :: stack) body b [] d) :
    Gives (functionDecl bound) stack
      (head.keyword :: head.name :: x :: (head.list ++ head.closeList :: body))
      ⟨f.name, f.parameters, b⟩ [(.openParenthesis, x)] d := by
  have hnext : StartsWith (· ∈ afterParameter) (head.list ++ head.closeList :: body) :=
    startsWith_parameters head.list_fits ⟨_, rfl, head.closeList_kind⟩
  exact gives_functionDecl head.keyword_kind (gives_head_name head _)
    (gives_standIn hx heof hnext) (gives_list_closed head) (gives_head_closeList head _) hbody

theorem gives_wrong_list {ps qs : List Parameter} {us vs : List Token} {typeName : Token}
    (htype : typeName.kind = .identifier)
    (hus : List.Forall₂ Slot.Fits (ps.flatMap Parameter.slots) us)
    (hvs : List.Forall₂ Slot.Fits (qs.flatMap Parameter.slots) vs)
    (hx : x.kind ≠ .identifier) (heof : x.kind ≠ .eof)
    (hbody : Gives (block (statement bound)) (.functionDecl :: stack) body b [] d) :
    Gives (functionDecl bound) stack (head.keyword :: head.name :: head.openList ::
        (us ++ typeName :: x :: (vs ++ head.closeList :: body)))
      ⟨f.name, ps ++ ⟨typeName.text, x.text⟩ :: qs, b⟩ [(.identifier, x)] d :=
  gives_functionDecl head.keyword_kind (gives_head_name head _) (gives_head_openList head _)
    (gives_many (gives_wrong_parameters htype hus hvs hx heof ⟨_, rfl, head.closeList_kind⟩))
    (gives_head_closeList head _) hbody

/-- A name in the place of the parenthesis would be read as a parameter. -/
theorem gives_wrong_closeList (hx : x.kind ≠ .closeParenthesis) (heof : x.kind ≠ .eof)
    (hname : x.kind ≠ .identifier) (hbrace : StartsWith (· ∈ afterParameters) body)
    (hbody : Gives (block (statement bound)) (.functionDecl :: stack) body b [] d) :
    Gives (functionDecl bound) stack
      (head.keyword :: head.name :: head.openList :: (head.list ++ x :: body))
      ⟨f.name, f.parameters, b⟩ [(.closeParenthesis, x)] d :=
  gives_functionDecl head.keyword_kind (gives_head_name head _) (gives_head_openList head _)
    (gives_list head x hname) (gives_standIn hx heof hbrace) hbody

end

/-- **One wrong token in a function is one mismatch**, and the function is read as
`Function.WrongToken` says. -/
theorem gives_wrongToken {f g : Function} {i : Nat} {k : Kind}
    (h : (functionDecl bound).run stack c = .ok ⟨.ok f, es, c'⟩) (hes : mismatches es = [])
    (hw : f.WrongToken x i k g) (hx : x.kind ≠ k) (heof : x.kind ≠ .eof)
    (hclose : k = .closeParenthesis → x.kind ≠ .identifier) (hd : d.head? = c'.head?) :
    Gives (functionDecl bound) stack ((passed es).set i x ++ d) g [(k, x)] d := by
  obtain ⟨head, body, hpassed, hbody, hblock⟩ := functionDecl_clean h hes
  -- the block is read as before, since what follows it starts as before
  have hgives : Gives (block (statement bound)) (.functionDecl :: stack) (passed body ++ d) f.body []
      d := (Composed.block (.statement bound)).gives hblock hbody hd
  have hcloses : Closes (block (statement bound)) [] blockSlots :=
    closes_block (writes_statement bound)
  rw [hpassed]
  cases hw with
  | name =>
    have htokens : (head.tokens ++ passed body).set 1 x ++ d = head.keyword :: x :: head.openList ::
        (head.list ++ head.closeList :: (passed body ++ d)) := by simp [Function.Head.tokens]
    rw [htokens]
    exact gives_wrong_name head hx heof hgives
  | openList =>
    have htokens : (head.tokens ++ passed body).set 2 x ++ d = head.keyword :: head.name :: x ::
        (head.list ++ head.closeList :: (passed body ++ d)) := by simp [Function.Head.tokens]
    rw [htokens]
    exact gives_wrong_openList head hx heof hgives
  | @parameterName ps qs q hps =>
    obtain ⟨us, typeName, name, vs, hlist, ⟨htype, htext⟩, -, hus, hvs⟩ := head.exists_parameter hps
    -- the place of the name, counted over the keyword, the name, the parenthesis and two tokens for
    -- each parameter
    have hindex : 4 + 2 * ps.length =
        (head.keyword :: head.name :: head.openList :: (us ++ [typeName])).length := by
      simp only [List.length_cons, List.length_append, List.length_nil, ← hus.length_eq,
        Function.length_parameterSlots]
      omega
    have htokens : (head.tokens ++ passed body).set (4 + 2 * ps.length) x ++ d =
        head.keyword :: head.name :: head.openList ::
          (us ++ typeName :: x :: (vs ++ head.closeList :: (passed body ++ d))) := by
      rw [hindex]
      simp [Function.Head.tokens, hlist]
    rw [htokens, ← htext]
    exact gives_wrong_list head htype hus hvs hx heof hgives
  | closeList =>
    have htokens : (head.tokens ++ passed body).set (3 + 2 * f.parameters.length) x ++ d =
        head.keyword :: head.name :: head.openList :: (head.list ++ x :: (passed body ++ d)) := by
      rw [← head.length_beforeClose]
      simp [Function.Head.tokens]
    -- the brace is next, so the parenthesis is not taken to be missing
    have hbrace : StartsWith (· ∈ afterParameters) (passed body ++ d) := by
      obtain ⟨brace, rest, hk, -, hb⟩ :=
        List.forall₂_cons_left_iff.mp (hcloses.fits hblock hbody)
      rw [hb]
      exact ⟨brace, rfl, by simp [show brace.kind = .openScope from hk, afterParameters]⟩
    rw [htokens]
    exact gives_wrong_closeList head hx heof (hclose rfl) hbrace hgives
  | openBody =>
    have hindex : 4 + 2 * f.parameters.length = head.tokens.length := head.length_tokens.symm
    rw [hindex, List.set_append_right _ _ (Nat.le_refl _), Nat.sub_self, List.append_assoc]
    exact gives_head head (gives_wrong_block (.statement bound) (requires_statement bound) hblock
      hbody hx heof hd)
  | @openElse j hj =>
    -- the head holds no else, so the brace is one of the body
    rw [f.slots_eq] at hj
    have hle : f.headSlots.length ≤ j := hj.le_of_not_mem f.not_mem_headSlots
    have hlength : f.headSlots.length = head.tokens.length := by
      rw [f.length_headSlots, head.length_tokens]
    rw [List.set_append_right _ _ (by omega), List.append_assoc, ← hlength]
    refine gives_head head ((mends_block (mends_statement bound) (requires_statement bound)).mends
      hblock hbody ?_ hj (by omega) hx heof hd)
    exact (hcloses.edited hblock).1

end
end Parser

/-! ## 3. Streams -/

section
variable {fs gs : List Function} {ts ts' : List Token} {faults : List (Kind × Token)}

/-- A wrong token in a function, as damage. -/
def Function.wrongToken : Damage := fun f ts _ fault g ts' =>
  ∃ i, f.WrongToken fault.2 i fault.1 g ∧ fault.2.kind ≠ fault.1 ∧ fault.2.kind ≠ .eof ∧
    (fault.1 = .closeParenthesis → fault.2.kind ≠ .identifier) ∧ ts' = ts.set i fault.2

theorem WrongTokens.damaged (h : WrongTokens fs ts faults gs ts') :
    Damaged Function.wrongToken fs ts faults gs ts' := by
  induction h with
  | rest ts => exact .rest ts
  | intact hlength _ ih => exact .intact hlength ih
  | wrong hlength hw hx heof hclose _ ih => exact .damaged hlength ⟨_, hw, hx, heof, hclose, rfl⟩ ih

/-- A function keeps its keyword, and a wrong token after it is one mismatch. -/
theorem Parser.recovers_wrongToken (bound : Nat) (stack : List Rule) :
    Recovers Function.wrongToken bound stack := by
  refine ⟨?_, ?_⟩
  · rintro f ts us ⟨k, x⟩ g ts' ⟨i, hw, -, -, -, rfl⟩
    simpa using head?_set_append (c := []) hw.pos x rfl
  · rintro f g es us us' ⟨k, x⟩ ts' ⟨i, hw, hx, heof, hclose, rfl⟩ hf hes - hhead
    exact gives_wrongToken hf hes hw hx heof hclose hhead

/-- **A wrong token is one mismatch.**  Let the parse of a stream end with a tree and without a
mismatch, and let one token in each of some of its functions be replaced by another one: the
name of the function or of a parameter, a parenthesis around the parameters, or the brace
that opens the body or the block after an `else`.  Then the parse ends with the same tree, but
that a name that was replaced is the text of the other token.  Its diagnostics are one for each
replaced token, in the order of the functions: the kind that was there was expected, and the
other token found. -/
theorem run_wrongTokens {s t : TokenStream} {p : Program} (hs : s.run.outcome = .ok p)
    (hclean : s.run.diagnostics = []) (hw : WrongTokens p.functions s.tokens faults gs t.tokens) :
    t.run.outcome = .ok ⟨gs⟩ ∧
    t.run.diagnostics.map (fun d => (d.problem, d.span)) =
      faults.map fun q => (.mismatch q.1 q.2, some q.2.span) :=
  run_damaged hs hclean (fun bound => Parser.recovers_wrongToken bound [.program]) hw.damaged

/-- A brace after `else` and the name of the next function are wrong. -/
theorem run_wrongTokens_two :
    let f : List Token := [⟨.keywordFunc, "func", ⟨0, 4⟩⟩, ⟨.identifier, "f", ⟨5, 1⟩⟩,
      ⟨.openParenthesis, "(", ⟨6, 1⟩⟩, ⟨.closeParenthesis, ")", ⟨7, 1⟩⟩,
      ⟨.openScope, "\x7b", ⟨9, 1⟩⟩, ⟨.keywordIf, "if", ⟨11, 2⟩⟩, ⟨.identifier, "a", ⟨14, 1⟩⟩,
      ⟨.openScope, "\x7b", ⟨16, 1⟩⟩, ⟨.closeScope, "\x7d", ⟨18, 1⟩⟩, ⟨.keywordElse, "else", ⟨20, 4⟩⟩,
      ⟨.openScope, "\x7b", ⟨25, 1⟩⟩, ⟨.closeScope, "\x7d", ⟨27, 1⟩⟩, ⟨.closeScope, "\x7d", ⟨29, 1⟩⟩]
    let g : List Token := [⟨.keywordFunc, "func", ⟨31, 4⟩⟩, ⟨.identifier, "g", ⟨36, 1⟩⟩,
      ⟨.openParenthesis, "(", ⟨37, 1⟩⟩, ⟨.closeParenthesis, ")", ⟨38, 1⟩⟩,
      ⟨.openScope, "\x7b", ⟨40, 1⟩⟩, ⟨.closeScope, "\x7d", ⟨42, 1⟩⟩]
    let x : Token := ⟨.closeScope, "\x7d", ⟨25, 1⟩⟩
    let y : Token := ⟨.openParenthesis, "(", ⟨36, 1⟩⟩
    let body : Block := [.conditional (.identifier "a") [] (some [])]
    let s := TokenStream.ofTokens "" (f ++ (g ++ [.eof 43])) .empty []
    let t := TokenStream.ofTokens "" (f.set 10 x ++ (g.set 1 y ++ [.eof 43])) .empty []
    s.run.outcome = .ok ⟨[⟨"f", [], body⟩, ⟨"g", [], []⟩]⟩ ∧ s.run.diagnostics = [] ∧
      t.run.outcome = .ok ⟨[⟨"f", [], body⟩, ⟨"(", [], []⟩]⟩ ∧
      t.run.diagnostics.map (fun d => (d.problem, d.span)) =
        [(.mismatch .openScope x, some ⟨25, 1⟩), (.mismatch .identifier y, some ⟨36, 1⟩)] := by
  intro f g x y body s t
  have hg : WrongTokens [⟨"g", [], []⟩] (g ++ [.eof 43]) [(.identifier, y)] [⟨"(", [], []⟩]
      (g.set 1 y ++ [.eof 43]) :=
    .wrong rfl .name (by decide) (by decide) (by decide) (.rest _)
  have hf : WrongTokens [⟨"f", [], body⟩, ⟨"g", [], []⟩] (f ++ (g ++ [.eof 43]))
      [(.openScope, x), (.identifier, y)] [⟨"f", [], body⟩, ⟨"(", [], []⟩]
      (f.set 10 x ++ (g.set 1 y ++ [.eof 43])) :=
    .wrong rfl (.openElse ⟨rfl, rfl⟩) (by decide) (by decide) (by decide) hg
  have hs : s.run.outcome = .ok ⟨[⟨"f", [], body⟩, ⟨"g", [], []⟩]⟩ := by decide
  have hclean : s.run.diagnostics = [] := by decide
  exact ⟨hs, hclean, run_wrongTokens (t := t) hs hclean hf⟩

end
end FrontEnd
