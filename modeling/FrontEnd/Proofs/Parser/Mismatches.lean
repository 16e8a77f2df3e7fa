/-
# Every mismatch is reported once, in the order of the text

The parser records mismatches as it goes.  It may look at one token in several rules, so
that nothing forbids two mismatches about one token but what the rules do with a token that
is left in place: `FrontEnd.Proofs.Parser.Settling` says that it is consumed before anything
else is recorded.  So the positions of the tokens that were found increase strictly, until
the end of the text is reached; there the parser stays, and may record any number of
mismatches.

* `reports`: the diagnostics of a parse, each with the position of the token that was found;
* `reports_pairwise`: these positions increase;
* `reports_increase`: so it is for every stream, and for a text the spans increase too.
-/
import FrontEnd.Proofs.Lexer.Partition
import FrontEnd.Proofs.Parser.Settling
import FrontEnd.Proofs.Parser.Totality

namespace FrontEnd

/-! ## 1. Diagnostics with positions -/

/-- The diagnostics that events record, each with the position of the token that was found.
The parser is at position `i` before the events. -/
def reports (i : Nat) : List Event → List (Nat × Diagnostic)
  | [] => []
  | .enter .. :: es => reports i es
  | .consume t :: es => reports (if t.kind = .eof then i else i + 1) es
  | .mismatch expected t stack :: es =>
    (i, ⟨.mismatch expected t, some t.span, .ofStack (stack.map Rule.name)⟩) :: reports i es

/-- The diagnostic is about the token at the position. -/
def Reports (tokens : List Token) (q : Nat × Diagnostic) : Prop :=
  ∃ expected t, tokens[q.1]? = some t ∧ q.2.problem = .mismatch expected t ∧
    q.2.span = some t.span

/-- The second position comes after the first, unless the end of the text is at the first:
then it is the same. -/
def Ahead (tokens : List Token) (i j : Nat) : Prop :=
  ∃ t, tokens[i]? = some t ∧ if t.kind = .eof then i = j else i < j

/-- The diagnostic is about the end of the text. -/
def Diagnostic.AtEof (d : Diagnostic) : Prop :=
  ∃ expected t, d.problem = .mismatch expected t ∧ t.kind = .eof

theorem map_reports (i : Nat) (es : List Event) : (reports i es).map Prod.snd = recorded es := by
  induction es generalizing i with
  | nil => rfl
  | cons e es ih =>
    cases e with
    | enter => exact ih i
    | consume t => exact ih _
    | mismatch => exact congrArg (_ :: ·) (ih i)

section
variable {tokens : List Token} {c c' : Cursor} {es : List Event} {i : Nat}

theorem getElem?_of_drop {t : Token} {rest : List Token} (h : tokens.drop i = t :: rest) :
    tokens[i]? = some t := by
  have := congrArg List.head? h
  rwa [List.head?_drop] at this

theorem drop_succ {t : Token} {rest : List Token} (h : tokens.drop i = t :: rest) :
    tokens.drop (i + 1) = rest := by
  rw [← List.tail_drop, h, List.tail_cons]

/-- After a token is consumed the cursor is at the position that `reports` counts. -/
theorem drop_advance {t : Token} {rest : List Token} (h : tokens.drop i = t :: rest) :
    tokens.drop (if t.kind = .eof then i else i + 1) = Cursor.advance (t :: rest) := by
  split
  · rename_i hk
    rw [Parser.advance_eq_self hk, h]
  · rename_i hk
    rw [Parser.advance_eq_rest hk, drop_succ h]

theorem reports_of_trail (h : Trail c es c') :
    ∀ {i}, tokens.drop i = c → ∀ q ∈ reports i es, Reports tokens q := by
  induction h with
  | nil => intro i _ q hq; cases hq
  | enter _ _ _ ih => exact ih
  | consume _ ih => intro i hi; exact ih (drop_advance hi)
  | @mismatch t rest _ es expected stack _ ih =>
    intro i hi q hq
    rcases List.mem_cons.mp hq with rfl | hq
    · exact ⟨expected, t, getElem?_of_drop hi, rfl, rfl⟩
    · exact ih hi q hq

/-- At the end of the text the position stays. -/
theorem reports_of_eof {t : Token} {rest : List Token} (ht : t.kind = .eof) :
    ∀ {es : List Event}, Trail (t :: rest) es c' → ∀ q ∈ reports i es, q.1 = i
  | [], _, _, hq => by cases hq
  | _ :: _, .enter _ _ h, q, hq => reports_of_eof ht h q hq
  | _ :: _, .consume h, q, hq => by
    rw [Parser.advance_eq_self ht] at h
    rw [reports, if_pos ht] at hq
    exact reports_of_eof ht h q hq
  | _ :: _, .mismatch _ _ h, q, hq => by
    rcases List.mem_cons.mp hq with rfl | hq
    · rfl
    · exact reports_of_eof ht h q hq

/-- No diagnostic is about an earlier token, nor about one that is due. -/
theorem reports_le {due due' : Option Token} (h : Settles due es due')
    (hdue : ∀ t ∈ due, t.kind ≠ .eof) :
    ∀ {i}, ∀ q ∈ reports i es, i ≤ q.1 ∧ (due ≠ none → i < q.1) := by
  -- along the events, with what is due: the next token that is consumed is the one reported
  induction h with
  | nil => intro i q hq; cases hq
  | enter _ _ _ _ ih => exact ih hdue
  | @consume due _ es t ht _ ih =>
    intro i q hq
    have hle := (ih (by simp) q hq).1
    split at hle
    · rename_i hk
      refine ⟨hle, fun hd => ?_⟩
      obtain ⟨u, rfl⟩ := Option.ne_none_iff_exists'.mp hd
      exact absurd (ht u rfl ▸ hk) (hdue u rfl)
    · exact ⟨by omega, fun _ => by omega⟩
  | @mismatch _ es expected t stack _ ih =>
    intro i q hq
    refine ⟨?_, fun hd => absurd rfl hd⟩
    rcases List.mem_cons.mp hq with rfl | hq
    · exact Nat.le_refl i
    · refine (ih (fun u hu => ?_) q hq).1
      split at hu
      · cases hu
      · cases hu
        assumption

/-- **The positions of the tokens that were found increase.** -/
theorem reports_pairwise {due due' : Option Token} (h : Settles due es due') :
    ∀ {c i}, Trail c es c' → tokens.drop i = c →
      (reports i es).Pairwise fun q q' => Ahead tokens q.1 q'.1 := by
  induction h with
  | nil => intro c i _ _; exact .nil
  | enter _ _ _ _ ih =>
    intro c i ht hi
    cases ht with
    | enter _ _ ht => exact ih ht hi
  | consume _ _ ih =>
    intro c i ht hi
    cases ht with
    | consume ht => exact ih ht (drop_advance hi)
  | @mismatch _ es expected t stack hs ih =>
    intro c i ht hi
    cases ht with
    | @mismatch _ rest _ _ _ _ ht =>
      refine List.pairwise_cons.mpr ⟨fun q hq => ⟨t, getElem?_of_drop hi, ?_⟩, ih ht hi⟩
      split
      · rename_i hk
        exact (reports_of_eof hk ht q hq).symm
      · rename_i hk
        rw [if_neg hk] at hs
        exact (reports_le hs (by simpa using hk) q hq).2 (by simp)

end

/-! ## 2. Streams and texts -/

/-- A token that is found in the place of another is the next token consumed. -/
theorem next_consume_of_mismatch {s : TokenStream} {before after : List Event} {expected : Kind}
    {t : Token} {stack : List Rule}
    (h : s.run.events = before ++ .mismatch expected t stack :: after) (ht : t.kind ≠ .eof) :
    ∃ entered rest, after = entered ++ .consume t :: rest ∧
      ∀ e ∈ entered, ∃ rule depth lookahead, e = .enter rule depth lookahead := by
  have hs := s.settles_run
  rw [h] at hs
  obtain ⟨mid, -, hs⟩ := hs.of_append
  cases hs with
  | mismatch _ _ _ hs =>
    rw [if_neg ht] at hs
    exact hs.next_consume

/-- In a text, what is ahead starts after the end of what is before. -/
theorem before_of_ahead {tokens : List Token} {q q' : Nat × Diagnostic}
    (htokens : tokens.Pairwise fun t u => Before t.span u.span) (hq : Reports tokens q)
    (hq' : Reports tokens q') (h : Ahead tokens q.1 q'.1) :
    ∃ a b, q.2.span = some a ∧ q'.2.span = some b ∧
      (Before a b ∨ q.2.AtEof ∧ q'.2.AtEof ∧ a = b) := by
  obtain ⟨expected, t, ht, hp, hspan⟩ := hq
  obtain ⟨expected', t', ht', hp', hspan'⟩ := hq'
  obtain ⟨u, hu, h⟩ := h
  obtain rfl : t = u := Option.some.inj (ht.symm.trans hu)
  refine ⟨t.span, t'.span, hspan, hspan', ?_⟩
  split at h
  · rename_i hk
    obtain rfl : t = t' := Option.some.inj (ht.symm.trans (h ▸ ht'))
    exact .inr ⟨⟨expected, t, hp, hk⟩, ⟨expected', t, hp', hk⟩, rfl⟩
  · obtain ⟨hi, rfl⟩ := List.getElem?_eq_some_iff.mp ht
    obtain ⟨hj, rfl⟩ := List.getElem?_eq_some_iff.mp ht'
    exact .inl (List.pairwise_iff_getElem.mp htokens _ _ hi hj h)

/-- **Every mismatch is reported once, in the order of the tokens.**  Whether the parse of a
stream ends with a tree or not, each of its diagnostics is about the token at a position;
the positions increase, until the end of the text is reached and reported any number of
times.  So no other token is found in the place of two others: it is the next token that is
consumed, and before that rules are entered and no mismatch is recorded.  In the parse of a
text each diagnostic has a span after that of the one before, as long as they are not both
about the end of the text. -/
theorem reports_increase (s : TokenStream) :
    (reports 0 s.run.events).map Prod.snd = s.run.diagnostics ∧
    (∀ q ∈ reports 0 s.run.events, Reports s.tokens q) ∧
    (reports 0 s.run.events).Pairwise (fun q q' => Ahead s.tokens q.1 q'.1) ∧
    (∀ before expected t stack after,
      s.run.events = before ++ .mismatch expected t stack :: after → t.kind ≠ .eof →
      ∃ entered rest, after = entered ++ .consume t :: rest ∧
        ∀ e ∈ entered, ∃ rule depth lookahead, e = .enter rule depth lookahead) ∧
    (∀ path source, (lex path source).run.diagnostics.Pairwise fun d d' =>
      ∃ a b, d.span = some a ∧ d'.span = some b ∧
        (Before a b ∨ d.AtEof ∧ d'.AtEof ∧ a = b)) := by
  have hreports (s : TokenStream) : ∀ q ∈ reports 0 s.run.events, Reports s.tokens q :=
    reports_of_trail s.trail_run rfl
  have hahead (s : TokenStream) :
      (reports 0 s.run.events).Pairwise fun q q' => Ahead s.tokens q.1 q'.1 :=
    reports_pairwise s.settles_run s.trail_run rfl
  refine ⟨map_reports 0 _, hreports s, hahead s, fun _ _ _ _ _ => next_consume_of_mismatch,
    fun path source => ?_⟩
  rw [Reply.diagnostics, ← map_reports 0]
  refine List.pairwise_map.mpr ((hahead (lex path source)).imp_of_mem fun hq hq' h => ?_)
  exact before_of_ahead (pairwise_tokens_lex path source) (hreports _ _ hq) (hreports _ _ hq') h

end FrontEnd
