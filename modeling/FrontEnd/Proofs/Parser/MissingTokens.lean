/-
# One missing token in a function

From functions that are read without a mismatch, one token each may be missing: the name, the
parenthesis after the parameters, the one before them if there are none, or the brace that opens
the body.  The tree stays the same, but that a missing name becomes the text of the parenthesis
after it, and every missing token is one mismatch.

A missing token looks like a wrong one until the token after the lookahead is seen.  Where the
lookahead may follow the missing token, the one after it must be none that may do so too, or the
lookahead would be taken for a wrong token.  For a name and the parentheses this is so by the
grammar: no two parentheses and no two braces follow one another there.  But two tokens that may
both follow a brace do stand at the start of some bodies, so that here it has to be asked for.

* `Function.MissingToken`: a token is missing from a function, as damage;
* `gives_missing_block`: a block without its brace;
* `recovers_missingToken`: a function without a token;
* `run_missingTokens`: the parse of a stream with missing tokens.
-/
import FrontEnd.Proofs.Parser.Damage

namespace FrontEnd

/-! ## 1. Missing tokens -/

/-- One token of the function `f` is missing.  The mismatch is the kind of that token, and the
token that came after it; of that token the tree keeps the text where a name is missing. -/
inductive Function.MissingToken (f : Function) (ts us : List Token) :
    Kind × Token → Function → List Token → Prop
  | name {next : Token} : ts[2]? = some next →
      MissingToken f ts us (.identifier, next) { f with name := next.text } (ts.eraseIdx 1)
  | openList {next : Token} : f.parameters = [] → ts[3]? = some next →
      MissingToken f ts us (.openParenthesis, next) f (ts.eraseIdx 2)
  | closeList {next : Token} : ts[4 + 2 * f.parameters.length]? = some next →
      MissingToken f ts us (.closeParenthesis, next) f (ts.eraseIdx (3 + 2 * f.parameters.length))
  | openBody {next : Token} : ts[4 + 2 * f.parameters.length + 1]? = some next →
      (∀ t ∈ (ts ++ us)[4 + 2 * f.parameters.length + 2]?,
        t.kind ∉ [.identifier, .keywordIf, .keywordReturn, .closeScope]) →
      MissingToken f ts us (.openScope, next) f (ts.eraseIdx (4 + 2 * f.parameters.length))

/-- Nothing but the next token of what follows is seen. -/
theorem getElem?_append_of_head? {α : Type} {as c d : List α} {i : Nat} (hi : i ≤ as.length)
    (h : d.head? = c.head?) : (as ++ d)[i]? = (as ++ c)[i]? := by
  rcases Nat.lt_or_eq_of_le hi with hlt | rfl
  · rw [List.getElem?_append_left hlt, List.getElem?_append_left hlt]
  · rw [List.getElem?_append_right (Nat.le_refl _), List.getElem?_append_right (Nat.le_refl _),
      Nat.sub_self, ← List.head?_eq_getElem?, ← List.head?_eq_getElem?, h]

/-- The tokens after the head of a function. -/
theorem Function.Head.getElem?_append {f : Function} (head : f.Head) (ts : List Token) (i : Nat) :
    (head.tokens ++ ts)[4 + 2 * f.parameters.length + i]? = ts[i]? := by
  rw [← head.length_tokens, List.getElem?_append_right (Nat.le_add_right _ _),
    Nat.add_sub_cancel_left]

theorem head?_eraseIdx_succ {α : Type} (as : List α) (i : Nat) :
    (as.eraseIdx (i + 1)).head? = as.head? := by
  cases as <;> rfl

theorem Function.MissingToken.head? {f g : Function} {ts us ts' : List Token}
    {fault : Kind × Token} (h : f.MissingToken ts us fault g ts') : ts'.head? = ts.head? := by
  cases h with
  | name | openList => exact head?_eraseIdx_succ ts _
  | closeList => rw [Nat.add_comm]; exact head?_eraseIdx_succ ts _
  | openBody => rw [Nat.add_comm]; exact head?_eraseIdx_succ ts _

namespace Parser

/-- What follows the first tokens is seen even if the rest changes after its first token. -/
theorem startsWith_drop {start : Kind → Prop} {as : List Token} {c d : Cursor} {n : Nat}
    (hn : n ≤ as.length) (hc : c ≠ []) (hd : d.head? = c.head?)
    (hnext : ∀ t ∈ (as ++ c)[n]?, start t.kind) : StartsWith start ((as ++ d).drop n) := by
  have hlt : n < (as ++ c).length := by
    have := List.length_pos_iff.mpr hc
    rw [List.length_append]
    omega
  refine ⟨(as ++ c)[n], ?_, hnext _ (List.getElem?_eq_getElem hlt)⟩
  rw [List.head?_drop, getElem?_append_of_head? hn hd]
  exact List.getElem?_eq_getElem hlt

/-! ## 2. Blocks -/

section
variable {stack : List Rule} {c c' d : Cursor} {es : List Event} {bound : Nat}

/-- **A block is read without its brace**, if the token after its first one can be no start of
it. -/
theorem gives_missing_block {s : Parser Node} {b : Block} {x : Token} (hs : Composed s)
    (hstart : Requires (· ∈ statementKinds) s)
    (hr : (block s).run stack c = .ok ⟨.ok b, es, c'⟩) (hes : mismatches es = [])
    (hd : d.head? = c'.head?) (hx : (passed es ++ d)[1]? = some x)
    (hnext : StartsWith (· ∉ afterOpenScope) ((passed es ++ d).drop 2)) :
    Gives (block s) stack ((passed es).eraseIdx 0 ++ d) b [(.openScope, x)] d := by
  obtain ⟨brace, inside, -, hpassed, -, hgives, y, hy, hk⟩ := block_clean hs hstart hr hes hd
  obtain ⟨tail, htail⟩ := List.head?_eq_some_iff.mp hy
  rw [hpassed, List.cons_append, htail] at hx hnext
  cases hx
  have hopen : x.kind ≠ .openScope := by
    intro h
    rw [h] at hk
    exact absurd hk (by decide)
  rw [hpassed, List.eraseIdx_cons_zero]
  rw [htail] at hgives ⊢
  exact Gives.inRule ((gives_missing hopen hk hnext).bind hgives)

/-! ## 3. Functions -/

section
variable {f : Function} (head : f.Head) {b : Block} {body : Cursor}

theorem gives_missing_name
    (hbody : Gives (block (statement bound)) (.functionDecl :: stack) body b [] d) :
    Gives (functionDecl bound) stack
      (head.keyword :: head.openList :: (head.list ++ head.closeList :: body))
      ⟨head.openList.text, f.parameters, b⟩ [(.identifier, head.openList)] d := by
  have hopen : head.openList.kind ≠ .identifier := by simp [head.openList_kind]
  have hfollow : head.openList.kind ∈ afterName := by simp [head.openList_kind, afterName]
  have hnext : StartsWith (· ∉ afterName) (head.list ++ head.closeList :: body) := by
    obtain ⟨t, ht, hk⟩ := startsWith_parameters (c := head.closeList :: body) head.list_fits
      ⟨_, rfl, head.closeList_kind⟩
    refine ⟨t, ht, ?_⟩
    rcases List.mem_pair.mp hk with h | h <;> simp [h, afterName]
  exact gives_functionDecl head.keyword_kind (gives_name (gives_missing hopen hfollow hnext))
    (gives_head_openList head _) (gives_list_closed head) (gives_head_closeList head _) hbody

/-- Without parameters the second parenthesis follows where the first one should be. -/
theorem gives_missing_openList (hnone : f.parameters = [])
    (hbrace : StartsWith (· = .openScope) body)
    (hbody : Gives (block (statement bound)) (.functionDecl :: stack) body b [] d) :
    Gives (functionDecl bound) stack (head.keyword :: head.name :: head.closeList :: body)
      ⟨f.name, f.parameters, b⟩ [(.openParenthesis, head.closeList)] d := by
  have hclose : head.closeList.kind ≠ .openParenthesis := by simp [head.closeList_kind]
  have hfollow : head.closeList.kind ∈ afterParameter := by
    simp [head.closeList_kind, afterParameter]
  have hnext : StartsWith (· ∉ afterParameter) body := by
    obtain ⟨t, ht, hk⟩ := hbrace
    exact ⟨t, ht, by simp [hk, afterParameter]⟩
  have hgives : Gives (many (· == .identifier) parameter) (.functionDecl :: stack)
      (head.list ++ head.closeList :: body) f.parameters [] (head.closeList :: body) :=
    gives_list_closed head
  rw [head.list_eq_nil hnone, List.nil_append] at hgives
  exact gives_functionDecl head.keyword_kind (gives_head_name head _)
    (gives_missing hclose hfollow hnext) hgives (gives_head_closeList head _) hbody

theorem gives_missing_closeList {brace : Token} {rest : Cursor} (hbrace : brace.kind = .openScope)
    (hnext : StartsWith (· ∉ afterParameters) rest)
    (hbody : Gives (block (statement bound)) (.functionDecl :: stack) (brace :: rest) b [] d) :
    Gives (functionDecl bound) stack
      (head.keyword :: head.name :: head.openList :: (head.list ++ brace :: rest))
      ⟨f.name, f.parameters, b⟩ [(.closeParenthesis, brace)] d := by
  have hclose : brace.kind ≠ .closeParenthesis := by simp [hbrace]
  have hfollow : brace.kind ∈ afterParameters := by simp [hbrace, afterParameters]
  exact gives_functionDecl head.keyword_kind (gives_head_name head _) (gives_head_openList head _)
    (gives_list head brace (by simp [hbrace])) (gives_missing hclose hfollow hnext) hbody

end

/-- **One missing token in a function is one mismatch.** -/
theorem gives_missingToken {f g : Function} {ts' : List Token} {fault : Kind × Token}
    (h : (functionDecl bound).run stack c = .ok ⟨.ok f, es, c'⟩) (hes : mismatches es = [])
    (hm : f.MissingToken (passed es) c' fault g ts') (hmore : c' ≠ []) (hd : d.head? = c'.head?) :
    Gives (functionDecl bound) stack (ts' ++ d) g [fault] d := by
  obtain ⟨head, body, hpassed, hbody, hblock⟩ := functionDecl_clean h hes
  have hgives : Gives (block (statement bound)) (.functionDecl :: stack) (passed body ++ d) f.body
      [] d := (Composed.block (.statement bound)).gives hblock hbody hd
  -- the brace of the body is needed where the parenthesis before it is missing
  obtain ⟨brace, inside, hbrace, hbraces, -, -, hstart⟩ :=
    block_clean (.statement bound) (requires_statement bound) hblock hbody hd
  rw [hpassed] at hm
  cases hm with
  | name hx =>
    have htokens : (head.tokens ++ passed body).eraseIdx 1 ++ d = head.keyword :: head.openList ::
        (head.list ++ head.closeList :: (passed body ++ d)) := by simp [Function.Head.tokens]
    obtain rfl : head.openList = _ := by simpa [Function.Head.tokens] using hx
    rw [htokens]
    exact gives_missing_name head hgives
  | openList hnone hx =>
    have hlist := head.list_eq_nil hnone
    have htokens : (head.tokens ++ passed body).eraseIdx 2 ++ d = head.keyword :: head.name ::
        head.closeList :: (passed body ++ d) := by simp [Function.Head.tokens, hlist]
    obtain rfl : head.closeList = _ := by simpa [Function.Head.tokens, hlist] using hx
    rw [htokens]
    exact gives_missing_openList head hnone ⟨brace, by simp [hbraces], hbrace⟩ hgives
  | closeList hx =>
    have htokens : (head.tokens ++ passed body).eraseIdx (3 + 2 * f.parameters.length) ++ d =
        head.keyword :: head.name :: head.openList ::
          (head.list ++ brace :: (passed inside ++ d)) := by
      rw [← head.length_beforeClose]
      simp [Function.Head.tokens, hbraces, List.eraseIdx_append_of_length_le]
    rw [← Nat.add_zero (4 + 2 * f.parameters.length), head.getElem?_append, hbraces] at hx
    cases hx
    rw [htokens]
    rw [hbraces] at hgives
    refine gives_missing_closeList head hbrace ?_ hgives
    obtain ⟨t, ht, hk⟩ := hstart
    exact ⟨t, ht, fun h => by simp_all [afterParameters, afterOpenScope]⟩
  | openBody hx hnext =>
    rw [head.getElem?_append] at hx
    have hlength := (List.getElem?_eq_some_iff.mp hx).1
    rw [List.append_assoc, head.getElem?_append] at hnext
    -- what comes two tokens on may lie behind the function, where it starts as before
    have hafter : StartsWith (· ∉ afterOpenScope) ((passed body ++ d).drop 2) :=
      startsWith_drop hlength hmore hd hnext
    rw [← head.length_tokens, List.eraseIdx_append_of_length_le (Nat.le_refl _), Nat.sub_self,
      List.append_assoc]
    refine gives_head head (gives_missing_block (.statement bound) (requires_statement bound) hblock
      hbody hd ?_ hafter)
    rwa [List.getElem?_append_left hlength]

/-- A function keeps its keyword, and a missing token after it is one mismatch. -/
theorem recovers_missingToken (bound : Nat) (stack : List Rule) :
    Recovers Function.MissingToken bound stack where
  head? := Function.MissingToken.head?
  gives hm hf hes hmore hhead := gives_missingToken hf hes hm hmore hhead

end
end Parser

/-! ## 4. Streams -/

/-- **A missing token is one mismatch.**  Let the parse of a stream end with a tree and without a
mismatch, and let one token be missing from each of some of its functions: the name, the
parenthesis after the parameters, the one before them if there are none, or the brace that opens
the body, if the token after the one that follows it may not follow a brace.  Then the parse ends
with the same tree, but that a missing name is the text of the parenthesis after it.  Its
diagnostics are one for each missing token, in the order of the functions: the kind that is
missing was expected, and the token after it found. -/
theorem run_missingTokens {s t : TokenStream} {p : Program} {gs : List Function}
    {faults : List (Kind × Token)} (hs : s.run.outcome = .ok p) (hclean : s.run.diagnostics = [])
    (hm : Damaged Function.MissingToken p.functions s.tokens faults gs t.tokens) :
    t.run.outcome = .ok ⟨gs⟩ ∧
    t.run.diagnostics.map (fun d => (d.problem, d.span)) =
      faults.map fun q => (.mismatch q.1 q.2, some q.2.span) :=
  run_damaged hs hclean (fun bound => Parser.recovers_missingToken bound _) hm

/-- A name, the brace of an empty body and the last parenthesis of a third function are
missing. -/
theorem run_missingTokens_three :
    let f : List Token := [⟨.keywordFunc, "func", ⟨0, 4⟩⟩, ⟨.identifier, "f", ⟨5, 1⟩⟩,
      ⟨.openParenthesis, "(", ⟨6, 1⟩⟩, ⟨.closeParenthesis, ")", ⟨7, 1⟩⟩,
      ⟨.openScope, "\x7b", ⟨9, 1⟩⟩, ⟨.closeScope, "\x7d", ⟨10, 1⟩⟩]
    let g : List Token := [⟨.keywordFunc, "func", ⟨12, 4⟩⟩, ⟨.identifier, "g", ⟨17, 1⟩⟩,
      ⟨.openParenthesis, "(", ⟨18, 1⟩⟩, ⟨.closeParenthesis, ")", ⟨19, 1⟩⟩,
      ⟨.openScope, "\x7b", ⟨21, 1⟩⟩, ⟨.closeScope, "\x7d", ⟨22, 1⟩⟩]
    let h : List Token := [⟨.keywordFunc, "func", ⟨24, 4⟩⟩, ⟨.identifier, "h", ⟨29, 1⟩⟩,
      ⟨.openParenthesis, "(", ⟨30, 1⟩⟩, ⟨.identifier, "int", ⟨31, 3⟩⟩, ⟨.identifier, "a", ⟨35, 1⟩⟩,
      ⟨.closeParenthesis, ")", ⟨36, 1⟩⟩, ⟨.openScope, "\x7b", ⟨38, 1⟩⟩,
      ⟨.keywordReturn, "return", ⟨40, 6⟩⟩, ⟨.identifier, "a", ⟨47, 1⟩⟩,
      ⟨.closeScope, "\x7d", ⟨49, 1⟩⟩]
    let f' : Function := ⟨"f", [], []⟩
    let g' : Function := ⟨"g", [], []⟩
    let h' : Function := ⟨"h", [⟨"int", "a"⟩], [.returned (.identifier "a")]⟩
    let s := TokenStream.ofTokens "" (f ++ (g ++ (h ++ [.eof 50]))) .empty []
    let t := TokenStream.ofTokens ""
      (f.eraseIdx 1 ++ (g.eraseIdx 4 ++ (h.eraseIdx 5 ++ [.eof 50]))) .empty []
    s.run.outcome = .ok ⟨[f', g', h']⟩ ∧ s.run.diagnostics = [] ∧
      t.run.outcome = .ok ⟨[⟨"(", [], []⟩, g', h']⟩ ∧
      t.run.diagnostics.map (fun d => (d.problem, d.span)) =
        [(.mismatch .identifier ⟨.openParenthesis, "(", ⟨6, 1⟩⟩, some ⟨6, 1⟩),
         (.mismatch .openScope ⟨.closeScope, "\x7d", ⟨22, 1⟩⟩, some ⟨22, 1⟩),
         (.mismatch .closeParenthesis ⟨.openScope, "\x7b", ⟨38, 1⟩⟩, some ⟨38, 1⟩)] := by
  intro f g h f' g' h' s t
  have hf : f'.MissingToken f (g ++ (h ++ [.eof 50])) (.identifier, ⟨.openParenthesis, "(", ⟨6, 1⟩⟩)
      ⟨"(", [], []⟩ (f.eraseIdx 1) := .name rfl
  have hg : g'.MissingToken g (h ++ [.eof 50]) (.openScope, ⟨.closeScope, "\x7d", ⟨22, 1⟩⟩) g'
      (g.eraseIdx 4) := .openBody rfl (by decide)
  have hh : h'.MissingToken h [.eof 50] (.closeParenthesis, ⟨.openScope, "\x7b", ⟨38, 1⟩⟩) h'
      (h.eraseIdx 5) := .closeList rfl
  have hs : s.run.outcome = .ok ⟨[f', g', h']⟩ := by decide
  have hclean : s.run.diagnostics = [] := by decide
  exact ⟨hs, hclean, run_missingTokens (t := t) hs hclean
    (.damaged rfl hf (.damaged rfl hg (.damaged rfl hh (.rest _))))⟩

end FrontEnd
