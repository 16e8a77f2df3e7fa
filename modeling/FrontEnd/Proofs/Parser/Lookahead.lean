/-
# A parse rests on the tokens up to its last lookahead

Two streams that agree up to the token where the parse of one ends are parsed alike.

A parser looks at the lookahead, and where it did not expect it also at the token after it.
So a parser that stops right after such a look has seen one token more than it should.  In
the grammar this does not happen: a token that is left in place is consumed later
(`FrontEnd.Proofs.Parser.Settling`), and then the token after it is the lookahead.

* `reach`: how many tokens the events of a run rest on;
* `Replays`, `Composed.replays`: a second run on a cursor that agrees so far does the same;
* `Settles.reach_eq`: events that settle rest on what was passed and the lookahead.
-/
import FrontEnd.Proofs.Parser.Faithfulness
import FrontEnd.Proofs.Parser.Settling
import FrontEnd.Proofs.Parser.Totality

namespace FrontEnd

/-! ## 1. What events rest on -/

/-- How many tokens, from the cursor on, events rest on: all lookaheads, and the token after a
lookahead that was not expected. -/
def reach : List Event → Nat
  | [] => 1
  | .enter .. :: es => reach es
  | .consume t :: es => if t.kind = .eof then reach es else reach es + 1
  | .mismatch _ t _ :: es => if t.kind = .eof then reach es else max 2 (reach es)

/-- At least the first token is looked at. -/
theorem one_le_reach (es : List Event) : 1 ≤ reach es := by
  induction es with
  | nil => exact Nat.le_refl 1
  | cons e es ih =>
    cases e with
    | enter => exact ih
    | consume t => simp only [reach]; split <;> omega
    | mismatch _ t => simp only [reach]; split <;> omega

theorem position_consume_cons (t : Token) (es : List Event) :
    position (.consume t :: es) = if t.kind = .eof then position es else position es + 1 := by
  split
  · rename_i h
    rw [position, passed_consume_eof_cons h, position]
  · rename_i h
    rw [position, passed_consume_cons h, List.length_cons, position]

/-- What comes later rests on what comes after the tokens passed until then. -/
theorem reach_append (es es' : List Event) :
    reach (es ++ es') = max (reach es) (position es + reach es') := by
  induction es with
  | nil =>
    have := one_le_reach es'
    simp only [List.nil_append, reach, position, passed_nil, List.length_nil]
    omega
  | cons e es ih =>
    rw [List.cons_append]
    cases e with
    | enter => exact ih
    | consume t =>
      simp only [reach, position_consume_cons, ih]
      split <;> omega
    | mismatch k t stack =>
      have hp : position (.mismatch k t stack :: es) = position es := rfl
      simp only [reach, hp, ih]
      split <;> omega

/-- **Events that settle rest on what was passed and the lookahead.**  The induction is on
the events with a token due or none before them; a token that is due is passed. -/
theorem Settles.reach_eq {due due' : Option Token} {es : List Event} (h : Settles due es due')
    (hdue : ∀ t ∈ due, t.kind ≠ .eof) (hend : due' = none) :
    reach es = position es + 1 ∧ (due ≠ none → 1 ≤ position es) := by
  induction h with
  | nil due => exact ⟨rfl, fun h => absurd hend h⟩
  | enter rule depth t _ ih => exact ih hdue hend
  | @consume due _ es t ht _ ih =>
    obtain ⟨ihr, -⟩ := ih (by simp) hend
    simp only [reach, position_consume_cons]
    split
    · rename_i hk
      refine ⟨ihr, fun hd => ?_⟩
      obtain ⟨u, rfl⟩ := Option.ne_none_iff_exists'.mp hd
      exact absurd (ht u rfl ▸ hk) (hdue u rfl)
    · exact ⟨by omega, fun _ => by omega⟩
  | @mismatch _ es k t stack _ ih =>
    have hp : position (.mismatch k t stack :: es) = position es := rfl
    rw [hp]
    simp only [reach]
    refine ⟨?_, fun hd => absurd rfl hd⟩
    split
    · rename_i hk
      exact (ih (by simp [hk]) hend).1
    · rename_i hk
      obtain ⟨ihr, ihp⟩ := ih (by simp [hk]) hend
      have := ihp (by simp [hk])
      omega

/-! ## 2. Two runs -/

namespace Parser

section
variable {α β : Type} {c d : Cursor}

/-- Cursors that agree on one token have the same lookahead. -/
theorem head?_eq_of_take {m : Nat} (h : c.take m = d.take m) (hm : 1 ≤ m) : c.head? = d.head? := by
  have := congrArg List.head? h
  rwa [List.head?_take, List.head?_take, if_neg (by omega), if_neg (by omega)] at this

/-- Those that agree on two have the same token after it. -/
theorem next?_eq_of_take {m : Nat} (h : c.take m = d.take m) (hm : 2 ≤ m) : c.next? = d.next? := by
  have h₂ := congrArg (List.take 2) h
  rw [List.take_take, List.take_take, Nat.min_eq_left hm] at h₂
  match c, d, h₂ with
  | [], [], _ => rfl
  | [_], [_], h₂ => simp_all [Cursor.next?]
  | _ :: _ :: _, _ :: _ :: _, h₂ => simp_all [Cursor.next?]

/-- Wherever both answer, and the cursors agree on the tokens that the answer of the first
rests on, the second does the same. -/
def Replays (p q : Parser α) : Prop :=
  ∀ stack c d r r' m, p.run stack c = .ok r → q.run stack d = .ok r' → reach r.events ≤ m →
    c.take m = d.take m → r'.outcome = r.outcome ∧ r'.events = r.events

theorem replays_pure (a : α) : Replays (pure a) (pure a) := by
  intro stack c d r r' m hr hr' _ _
  cases hr
  cases hr'
  exact ⟨rfl, rfl⟩

theorem replays_lookahead : Replays lookahead lookahead := by
  intro stack c d r r' m hr hr' hm ht
  obtain ⟨t, rest, rfl, rfl⟩ := run_lookahead_cases hr
  obtain ⟨u, rest', rfl, rfl⟩ := run_lookahead_cases hr'
  have := head?_eq_of_take ht hm
  simp_all

theorem replays_advance : Replays advance advance := by
  intro stack c d r r' m hr hr' hm ht
  obtain ⟨t, rest, rfl, rfl⟩ := run_advance_cases hr
  obtain ⟨u, rest', rfl, rfl⟩ := run_advance_cases hr'
  have := head?_eq_of_take ht (Nat.le_trans (one_le_reach _) hm)
  simp_all

/-- The token after the lookahead matters only where a mismatch is recorded. -/
theorem replays_eatBefore (expected : Kind) {follow : List Kind} (hf : .eof ∉ follow) :
    Replays (eatBefore expected follow) (eatBefore expected follow) := by
  rintro stack (_ | ⟨t, rest⟩) d r r' m hr hr' hm ht
  · cases run_eatBefore_cases hr
  have hhead := head?_eq_of_take ht (Nat.le_trans (one_le_reach _) hm)
  obtain ⟨rest', rfl⟩ : ∃ rest', d = t :: rest' := by
    cases d with
    | nil => cases hhead
    | cons u rest' => cases hhead; exact ⟨rest', rfl⟩
  -- the second look may differ so far; it counts only where both sees are within reach
  obtain ⟨u, hu⟩ := exists_next t rest
  obtain ⟨u', hu'⟩ := exists_next t rest'
  rw [run_eatBefore_cons hu] at hr
  rw [run_eatBefore_cons hu'] at hr'
  by_cases hk : t.kind = expected
  · simp only [if_pos hk, Except.ok.injEq] at hr hr'
    subst hr hr'
    exact ⟨rfl, rfl⟩
  rw [if_neg hk] at hr hr'
  by_cases hmem : t.kind ∈ follow
  · -- a token of a kind that may follow is not the end of the text, so both see the next one
    have heof : t.kind ≠ .eof := fun h => hf (h ▸ hmem)
    have hnext : u = u' := by
      have hm₂ : 2 ≤ m := by
        refine Nat.le_trans ?_ hm
        split at hr <;> cases hr <;> simp [reach, heof]
      have := next?_eq_of_take ht hm₂
      rw [hu, hu'] at this
      exact Option.some.inj this
    subst hnext
    split at hr
    · rename_i h
      rw [if_pos h] at hr'
      cases hr
      cases hr'
      exact ⟨rfl, rfl⟩
    · rename_i h
      rw [if_neg h] at hr'
      cases hr
      cases hr'
      exact ⟨rfl, rfl⟩
  · rw [if_neg (fun h => hmem h.1)] at hr hr'
    cases hr
    cases hr'
    exact ⟨rfl, rfl⟩

/-- **Agreement is used up as the cursor moves on.**  Both cursors have moved by the same tokens. -/
theorem take_of_trail {es : List Event} {c' d' : Cursor} {m : Nat} (hc : Trail c es c')
    (hd : Trail d es d') (h : c.take m = d.take m) :
    c'.take (m - position es) = d'.take (m - position es) := by
  have := congrArg (List.drop (position es)) h
  rwa [List.drop_take, List.drop_take, hc.eq_append, hd.eq_append, position, List.drop_left,
    List.drop_left] at this

/-- After the first parts the cursors agree on what is left. -/
theorem Replays.bind {p q : Parser α} {f g : α → Parser β} (h : Replays p q) (hp : Trails p)
    (hq : Trails q) (hf : ∀ a, Replays (f a) (g a)) : Replays (p >>= f) (q >>= g) := by
  intro stack c d r r' m hr hr' hm ht
  rcases run_bind_cases hr with ⟨e, es, c', h₁, rfl⟩ | ⟨a, es, c', after, h₁, h₂, rfl⟩
  · rcases run_bind_cases hr' with ⟨e', es', d', h₁', rfl⟩ | ⟨a', es', d', after', h₁', -, -⟩
    · obtain ⟨ho, he⟩ := h _ _ _ _ _ m h₁ h₁' hm ht
      cases ho
      exact ⟨rfl, he⟩
    · cases (h _ _ _ _ _ m h₁ h₁' hm ht).1
  · have hreach : reach es ≤ m ∧ position es + reach after.events ≤ m := by
      rw [reach_append] at hm
      omega
    rcases run_bind_cases hr' with ⟨e', es', d', h₁', -⟩ | ⟨a', es', d', after', h₁', h₂', rfl⟩
    · cases (h _ _ _ _ _ m h₁ h₁' hreach.1 ht).1
    · obtain ⟨ho, he⟩ := h _ _ _ _ _ m h₁ h₁' hreach.1 ht
      cases ho
      obtain rfl : es' = es := he
      have hc : Trail c es' c' := hp _ _ _ h₁
      have hd : Trail d es' d' := hq _ _ _ h₁'
      obtain ⟨ho', he'⟩ := hf a _ _ _ _ _ (m - position es') h₂ h₂' (by omega)
        (take_of_trail hc hd ht)
      exact ⟨ho', congrArg (_ ++ ·) he'⟩

theorem Replays.inRule {p q : Parser α} (rule : Rule) (h : Replays p q) :
    Replays (inRule rule p) (inRule rule q) := by
  intro stack c d r r' m hr hr' hm ht
  obtain ⟨t, rest, body, rfl, hb, rfl⟩ := run_inRule_cases hr
  obtain ⟨t', rest', body', rfl, hb', rfl⟩ := run_inRule_cases hr'
  have hhead : some t = some t' := head?_eq_of_take ht (Nat.le_trans (one_le_reach _) hm)
  obtain ⟨ho, he⟩ := h _ _ _ _ _ m hb hb' hm ht
  exact ⟨ho, by rw [he, Option.some.inj hhead]⟩

/-- The rounds of a loop are the same, however many it may make. -/
theorem Replays.repeatWhile {item : Parser α} (test : Kind → Bool) (h : Replays item item)
    (htrail : Trails item) :
    ∀ n n', Replays (repeatWhile test item n) (repeatWhile test item n')
  | 0, _ => fun _ _ _ _ _ _ hr => by cases hr
  | _ + 1, 0 => fun _ _ _ _ _ _ _ hr' => by cases hr'
  | n + 1, n' + 1 => by
    refine replays_lookahead.bind trails_lookahead trails_lookahead fun t => ?_
    split
    · have hrest : ∀ k, Trails (Parser.repeatWhile test item k) := htrail.repeatWhile test
      exact h.bind htrail htrail fun a => (Replays.repeatWhile test h htrail n n').bind (hrest n)
        (hrest n') fun as => replays_pure _
    · exact replays_pure _

/-- **A second run does the same**, where the cursors agree on what the first one rests on. -/
theorem Composed.replays {p : Parser α} (hp : Composed p) : Replays p p := by
  induction hp with
  | pure a => exact replays_pure a
  | bind hp _ ihp ihf => exact ihp.bind hp.trails hp.trails ihf
  | outOfBound => intro stack c d r r' m hr; cases hr
  | lookahead => exact replays_lookahead
  | advance => exact replays_advance
  | eatBefore expected follow h => exact replays_eatBefore expected h.1
  | unhandled found =>
    intro stack c d r r' m hr hr' _ _
    cases hr
    cases hr'
    exact ⟨rfl, rfl⟩
  | inRule rule _ ih => exact ih.inRule rule
  | many test hp ih =>
    intro stack c d r r' m hr hr' hm ht
    exact ih.repeatWhile test hp.trails _ _ _ _ _ _ _ m (run_of_many hr) (run_of_many hr') hm ht

end
end Parser

/-! ## 3. Streams -/

/-- After a tree the lookahead starts no function. -/
theorem TokenStream.stop_of_tree {s : TokenStream} {p : Program} (h : s.run.outcome = .ok p) :
    ∃ u ∈ s.run.cursor.head?, u.kind ≠ .keywordFunc := by
  have hr := program_run_of_tree h
  generalize s.run.events = es, s.run.cursor = c' at hr ⊢
  obtain ⟨t, rest, ⟨o, es, c'⟩, ht, hb, hr⟩ := Parser.run_inRule_cases hr
  cases hr
  obtain ⟨fs, es₁, c₁, es₂, h₁, h₂, rfl⟩ := Parser.run_bind_success hb
  cases h₂
  rw [Parser.run_many] at h₁
  obtain ⟨u, rest, rfl, hu⟩ := Parser.repeatWhile_stop h₁
  exact ⟨u, rfl, by simpa using hu⟩

/-- The lookahead at the end is the token at the position of the parser. -/
theorem getElem?_position (s : TokenStream) :
    s.tokens[position s.run.events]? = s.run.cursor.head? := by
  rw [s.trail_run.eq_append, position, List.getElem?_append_right (Nat.le_refl _), Nat.sub_self,
    List.head?_eq_getElem?]

/-- **Nothing after the last lookahead matters.**  A stream that agrees with another one up
to the token where the parse of that one ends, this token included, is parsed alike: to the
same tree or the same syntax error, with the same diagnostics, and step by step with the
same events, so that it ends at the same token.

That token is not after the first end of the text.  It is the token that a syntax error is
about, or, after a tree, the first one at which no function starts. -/
theorem run_eq_of_take {s t : TokenStream}
    (h : t.tokens.take (position s.run.events + 1) =
      s.tokens.take (position s.run.events + 1)) :
    t.run.outcome = s.run.outcome ∧ t.run.diagnostics = s.run.diagnostics ∧
    t.run.events = s.run.events ∧ position t.run.events = position s.run.events ∧
    position s.run.events ≤ firstEof s.tokens ∧
    (∀ e, s.run.outcome = .error e → s.tokens[position s.run.events]? = some e.found) ∧
    (∀ p, s.run.outcome = .ok p →
      ∃ u, s.tokens[position s.run.events]? = some u ∧ u.kind ≠ .keywordFunc) := by
  -- with enough levels of nesting for both, the two parses are runs of one parser
  have hs := Parser.program_refines (Nat.le_max_left s.tokens.length t.tokens.length) _ _ _
    s.program_run
  have ht := Parser.program_refines (Nat.le_max_right s.tokens.length t.tokens.length) _ _ _
    t.program_run
  have hreach : reach s.run.events = position s.run.events + 1 :=
    (s.settles_run.reach_eq (by simp) rfl).1
  obtain ⟨houtcome, hevents⟩ :=
    (Parser.Composed.program _).replays _ _ _ _ _ _ hs ht (Nat.le_of_eq hreach) h.symm
  refine ⟨houtcome, ?_, hevents, ?_, s.trail_run.position_le_firstEof, fun e he => ?_,
    fun p hp => ?_⟩
  · rw [Reply.diagnostics, Reply.diagnostics, hevents]
  · rw [hevents]
  · rw [getElem?_position]
    exact TokenStream.found_of_error he
  · rw [getElem?_position]
    exact TokenStream.stop_of_tree hp

/-- A missing parenthesis is noticed by a look at two tokens.  What comes after the function
does not matter. -/
theorem run_eq_of_take_missing :
    let tokens : List Token := [⟨.keywordFunc, "func", ⟨0, 4⟩⟩, ⟨.identifier, "f", ⟨5, 1⟩⟩,
      ⟨.openParenthesis, "(", ⟨6, 1⟩⟩, ⟨.openScope, "\x7b", ⟨8, 1⟩⟩,
      ⟨.closeScope, "\x7d", ⟨10, 1⟩⟩, ⟨.identifier, "x", ⟨12, 1⟩⟩]
    let s := TokenStream.ofTokens "" (tokens ++ [⟨.assignment, "=", ⟨14, 1⟩⟩]) .empty []
    let t := TokenStream.ofTokens "" (tokens ++ [⟨.keywordFunc, "func", ⟨14, 4⟩⟩]) .empty []
    position s.run.events = 5 ∧ s.run.diagnostics.length = 1 ∧
      t.tokens.take (position s.run.events + 1) = s.tokens.take (position s.run.events + 1) ∧
      t.run.outcome = s.run.outcome ∧ t.run.events = s.run.events :=
  ⟨by decide, by decide, by decide, (run_eq_of_take (by decide)).1,
    (run_eq_of_take (by decide)).2.2.1⟩

end FrontEnd
