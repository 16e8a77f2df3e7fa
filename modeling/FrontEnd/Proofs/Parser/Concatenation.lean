/-
# Programs are parsed one after the other

Tokens that are parsed to a program can be put before any stream: the functions of the program
come first, then the parse of the stream goes on as if it had begun there.

Two things could go wrong at the seam.  After its last function a parser might remember
something; it does not, since the stack of rules is what it was.  And a parser that found a
wrong token looks at the token after it, so that in the last function it may look over the
seam, and see there the stream instead of the end of the text.  It then only asks whether that
token can follow inside a function, and neither the end of the text nor `func` can.  Where
nothing was recorded there was no such look, and anything may stand after the seam.

* `Carries`: before another rest, a parser that does not get to it does the same;
* `Seals`: so does one that gets there, if a token was the last thing it asked for;
* `seals_functionDecl`: functions are of this kind, as their bodies end with a brace;
* `program_append`: so the events of a program are those of its two parts.
-/
import FrontEnd.Proofs.Parser.Recovery

namespace FrontEnd

/-! ## 1. Seams -/

/-- Nothing was recorded, or what follows cannot be taken for a part of a function. -/
def Seam (es : List Event) (rest : Cursor) : Prop :=
  mismatches es = [] ∨ Parser.StartsWith (fun k => k = .eof ∨ k = .keywordFunc) rest

theorem seam_append {es es' : List Event} {rest : Cursor} :
    Seam (es ++ es') rest ↔ Seam es rest ∧ Seam es' rest := by
  simp only [Seam, mismatches_append, List.append_eq_nil_iff]
  tauto

namespace Parser

section
variable {α β : Type} {stack : List Rule} {c c' c'' d : Cursor}

/-- The parser answers this, if it answers. -/
def Does (p : Parser α) (stack : List Rule) (c : Cursor) (r : Reply α) : Prop :=
  ∀ r', p.run stack c = .ok r' → r' = r

/-- Sequences do what their parts do. -/
theorem Does.bind {p : Parser β} {f : β → Parser α} {b : β} {o : Except SyntaxError α}
    {es es' : List Event} (hp : Does p stack c ⟨.ok b, es, c'⟩)
    (hf : Does (f b) stack c' ⟨o, es', c''⟩) : Does (p >>= f) stack c ⟨o, es ++ es', c''⟩ := by
  intro r hr
  rcases run_bind_cases hr with ⟨e, es₁, c₁, h₁, -⟩ | ⟨b', es₁, c₁, after, h₁, h₂, rfl⟩
  · cases hp _ h₁
  · cases hp _ h₁
    rw [hf _ h₂]

/-- After an error nothing is done. -/
theorem Does.bind_error {p : Parser β} (f : β → Parser α) {e : SyntaxError} {es : List Event}
    (hp : Does p stack c ⟨.error e, es, c'⟩) : Does (p >>= f) stack c ⟨.error e, es, c'⟩ := by
  intro r hr
  rcases run_bind_cases hr with ⟨e', es₁, c₁, h₁, rfl⟩ | ⟨b', es₁, c₁, after, h₁, h₂, rfl⟩
  · cases hp _ h₁
    rfl
  · cases hp _ h₁

theorem Does.inRule {p : Parser α} {rule : Rule} {t : Token} {o : Except SyntaxError α}
    {es : List Event} (h : Does p (rule :: stack) (t :: c) ⟨o, es, c'⟩) :
    Does (inRule rule p) stack (t :: c) ⟨o, .enter rule (stack.length + 1) t :: es, c'⟩ := by
  intro r hr
  obtain ⟨u, rest, body, hc, hb, rfl⟩ := run_inRule_cases hr
  cases hc
  rw [h _ hb]

theorem does_lookahead (t : Token) : Does lookahead stack (t :: c) ⟨.ok t, [], t :: c⟩ := by
  intro r hr
  cases hr
  rfl

/-- A last step that reads nothing. -/
theorem Does.bind_pure {p : Parser β} {b : β} {es : List Event}
    (hp : Does p stack c ⟨.ok b, es, c'⟩) (g : β → α) :
    Does (p >>= fun b => pure (g b)) stack c ⟨.ok (g b), es, c'⟩ := by
  have hpure : Does (pure (g b) : Parser α) stack c' ⟨.ok (g b), [], c'⟩ := by
    intro r hr
    cases hr
    rfl
  have := hp.bind (f := fun b => pure (g b)) hpure
  rwa [List.append_nil] at this

/-- The expected token is taken. -/
theorem does_found {expected : Kind} {follow : List Kind} {t : Token} (ht : t.kind = expected)
    (heof : expected ≠ .eof) :
    Does (eatBefore expected follow) stack (t :: c) ⟨.ok t, [.consume t], c⟩ := by
  intro r hr
  cases run_eatBefore_cases hr with
  | found => rw [advance_eq_rest (ht ▸ heof)]
  | standIn hne => exact absurd ht hne
  | missing hne => exact absurd ht hne

/-! ## 2. Parsers that stop before the seam -/

/-- A run on tokens before `c` that does not get to `c` is repeated on these tokens before
`d`. -/
def Carries (c d : Cursor) (p q : Parser α) : Prop :=
  ∀ stack ts o es us, us ≠ [] → Seam es d → p.run stack (ts ++ c) = .ok ⟨o, es, us ++ c⟩ →
    Does q stack (ts ++ d) ⟨o, es, us ++ d⟩

/-- A run on tokens before `c` that stops before `c` has passed a part of them. -/
theorem tokens_of_trail {ts us : List Token} {es : List Event} (h : Trail (ts ++ c) es (us ++ c)) :
    ts = passed es ++ us := by
  have := h.eq_append
  rw [← List.append_assoc] at this
  exact List.append_cancel_right this

/-- What is left behind a trail was there before it. -/
theorem exists_cons_of_trail {ts us : List Token} {es : List Event} (hus : us ≠ [])
    (h : Trail (ts ++ c) es (us ++ c)) : ∃ t ts', ts = t :: ts' := by
  refine List.exists_cons_of_ne_nil ?_
  rw [tokens_of_trail h]
  simp [hus]

theorem advance_append (t : Token) (ts : List Token) (c : Cursor) :
    Cursor.advance (t :: (ts ++ c)) = Cursor.advance (t :: ts) ++ c := by
  simp only [Cursor.advance]
  split <;> rfl

theorem carries_pure (a : α) : Carries c d (pure a) (pure a) := by
  intro stack ts o es us hus _ hr r hr'
  cases tokens_of_trail (trails_pure a _ _ _ hr)
  cases hr
  cases hr'
  rfl

theorem carries_lookahead : Carries c d lookahead lookahead := by
  intro stack ts o es us hus _ hr
  obtain ⟨t, ts', rfl⟩ := exists_cons_of_trail hus (trails_lookahead _ _ _ hr)
  obtain rfl : t :: ts' = us := List.append_cancel_right (congrArg Reply.cursor (Except.ok.inj hr))
  cases hr
  exact does_lookahead t

/-- Consuming a token before the seam does the same on both sides. -/
theorem carries_advance : Carries c d advance advance := by
  intro stack ts o es us hus _ hr r hr'
  obtain ⟨t, ts', rfl⟩ := exists_cons_of_trail hus (Composed.advance.trail hr)
  rw [List.cons_append] at hr hr'
  generalize hc : us ++ c = after at hr
  cases hr
  rw [advance_append] at hc
  obtain rfl := List.append_cancel_right hc
  rw [← advance_append]
  exact (Except.ok.inj hr').symm

/-- The second look may reach over the seam only if the token is the last one before it and is
left in place.  Then it was recorded. -/
theorem carries_eatBefore (expected : Kind) {follow : List Kind} (hf : Inner follow) :
    Carries c d (eatBefore expected follow) (eatBefore expected follow) := by
  intro stack ts o es us hus hseam hr r hr'
  obtain ⟨t, ts', rfl⟩ := exists_cons_of_trail hus (run_eatBefore_cases hr).trail
  rw [List.cons_append] at hr hr'
  obtain ⟨u, hu⟩ := exists_next t (ts' ++ d)
  rw [run_eatBefore_cons hu] at hr'
  -- the cursor that is left decides the case, and has to be a variable for it
  generalize hc : us ++ c = after at hr
  cases run_eatBefore_cases hr with
  | found ht =>
    rw [advance_append] at hc
    obtain rfl := List.append_cancel_right hc
    rw [if_pos ht, advance_append] at hr'
    exact (Except.ok.inj hr').symm
  | standIn hne hnext =>
    rw [advance_append] at hc
    obtain rfl := List.append_cancel_right hc
    -- something is left before the seam, so the token after this one is the same on both sides
    have htaken : ¬ (t.kind ∈ follow ∧ u.kind ∉ follow) := by
      rintro ⟨hmem, hu'⟩
      have heof : t.kind ≠ .eof := fun he => hf.1 (he ▸ hmem)
      rw [advance_eq_rest heof] at hus
      obtain ⟨v, vs, rfl⟩ := List.exists_cons_of_ne_nil hus
      obtain ⟨w, hw, hk⟩ := hnext hmem
      cases hu
      cases hw
      exact hu' hk
    rw [if_neg hne, if_neg htaken, advance_append] at hr'
    exact (Except.ok.inj hr').symm
  | missing hne hmem hnext =>
    rw [← List.cons_append] at hc
    obtain rfl := List.append_cancel_right hc
    have hleft : u.kind ∉ follow := by
      cases ts' with
      | cons v vs =>
        cases hu
        exact hnext _ rfl
      | nil =>
        -- the token was the last one before the seam: what comes after the seam may follow nothing
        obtain ⟨v, hv, hk⟩ := hseam.resolve_left (by simp)
        obtain ⟨rest, rfl⟩ := List.head?_eq_some_iff.mp hv
        cases hu
        rcases hk with hk | hk
        · exact hk ▸ hf.1
        · exact hk ▸ hf.2
    rw [if_neg hne, if_pos ⟨hmem, hleft⟩] at hr'
    exact (Except.ok.inj hr').symm

/-- **Sequences are carried part by part**, if the first one ends before the seam. -/
theorem Carries.bind {p q : Parser α} {f g : α → Parser β} (h : Carries c d p q)
    (hf : ∀ a, Carries c d (f a) (g a)) (htrails : ∀ a, Trails (f a)) :
    Carries c d (p >>= f) (q >>= g) := by
  intro stack ts o es us hus hseam hr
  rcases run_bind_cases hr with ⟨e, es, c₁, h₁, he⟩ | ⟨a, es₁, c₁, ⟨o₂, es₂, c₂⟩, h₁, h₂, he⟩
  · cases he
    exact (h _ _ _ _ _ hus hseam h₁).bind_error g
  · cases he
    obtain ⟨hseam₁, hseam₂⟩ := seam_append.mp hseam
    have hc₁ : c₁ = passed es₂ ++ us ++ c := by
      rw [List.append_assoc]
      exact (htrails a _ _ _ h₂).eq_append
    rw [hc₁] at h₁ h₂
    exact (h _ _ _ _ _ (by simp [hus]) hseam₁ h₁).bind (hf a _ _ _ _ _ hus hseam₂ h₂)

theorem Carries.inRule {p q : Parser α} (rule : Rule) (h : Carries c d p q) (hp : Trails p) :
    Carries c d (inRule rule p) (inRule rule q) := by
  intro stack ts o es us hus hseam hr
  obtain ⟨t, rest, ⟨o, es, c'⟩, hts, hb, he⟩ := run_inRule_cases hr
  cases he
  rw [← hts] at hb
  obtain ⟨u, ts', rfl⟩ := exists_cons_of_trail hus (hp _ _ _ hb)
  cases hts
  exact (h _ _ _ es _ hus hseam hb).inRule

/-- The rounds of a loop are the same, however many it may make. -/
theorem Carries.repeatWhile {item : Parser α} (test : Kind → Bool) (h : Carries c d item item)
    (hitem : Trails item) :
    ∀ n n', Carries c d (repeatWhile test item n) (repeatWhile test item n')
  | 0, _ => fun _ _ _ _ _ _ _ hr => by cases hr
  | _ + 1, 0 => fun _ _ _ _ _ _ _ _ _ hr' => by cases hr'
  | n + 1, n' + 1 => by
    have hrest := hitem.repeatWhile test n
    refine carries_lookahead.bind (fun t => ?_) fun t => ?_
    · split
      · exact h.bind (fun a => (Carries.repeatWhile test h hitem n n').bind
          (fun as => carries_pure _) fun as => trails_pure _)
          fun a => hrest.bind fun as => trails_pure _
      · exact carries_pure _
    · split
      · exact hitem.bind fun a => hrest.bind fun as => trails_pure _
      · exact trails_pure _

/-- **What stops before the seam does not depend on what comes after it.** -/
theorem Composed.carries {p : Parser α} (hp : Composed p) : Carries c d p p := by
  induction hp with
  | pure a => exact carries_pure a
  | bind _ hf ihp ihf => exact ihp.bind ihf fun a => (hf a).trails
  | outOfBound => intro stack ts o es us _ _ hr; cases hr
  | lookahead => exact carries_lookahead
  | advance => exact carries_advance
  | eatBefore expected follow h => exact carries_eatBefore expected h
  | unhandled found =>
    intro stack ts o es us hus _ hr r hr'
    cases tokens_of_trail ((Composed.unhandled found).trail hr)
    cases hr
    cases hr'
    rfl
  | inRule rule hp ih => exact ih.inRule rule hp.trails
  | many test hp ih =>
    intro stack ts o es us hus hseam hr r hr'
    exact ih.repeatWhile test hp.trails _ _ _ _ _ _ _ hus hseam (run_of_many hr) r
      (run_of_many hr')

/-! ## 3. Parsers that stop at the seam -/

/-- A success passes tokens, and where it passes all tokens before `c` it is repeated on these
tokens before `d`: the last thing that the parser asked for was one of them. -/
structure Seals (p : Parser α) : Prop where
  composed : Composed p
  passes : ∀ {stack c a es c'}, p.run stack c = .ok ⟨.ok a, es, c'⟩ → passed es ≠ []
  seals : ∀ {stack ts a es c d}, Seam es d → p.run stack (ts ++ c) = .ok ⟨.ok a, es, c⟩ →
    Does p stack (ts ++ d) ⟨.ok a, es, d⟩

/-- What ends with a sealed part is sealed. -/
theorem Seals.bind {p : Parser β} {f : β → Parser α} (hp : Composed p) (hf : ∀ b, Seals (f b)) :
    Seals (p >>= f) := by
  refine ⟨.bind hp fun b => (hf b).composed, fun hr => ?_, fun {stack ts a es c d} hseam hr => ?_⟩
  · obtain ⟨b, es₁, c₁, es₂, -, h₂, rfl⟩ := run_bind_success hr
    simp [(hf b).passes h₂]
  · obtain ⟨b, es₁, c₁, es₂, h₁, h₂, rfl⟩ := run_bind_success hr
    obtain ⟨hseam₁, hseam₂⟩ := seam_append.mp hseam
    rw [((hf b).composed.trail h₂).eq_append] at h₁ h₂
    exact (hp.carries _ _ _ _ _ ((hf b).passes h₂) hseam₁ h₁).bind ((hf b).seals hseam₂ h₂)

/-- Putting a tree together reads nothing. -/
theorem Seals.bind_pure {p : Parser β} (hp : Seals p) (g : β → α) :
    Seals (p >>= fun b => pure (g b)) := by
  refine ⟨.bind hp.composed fun b => .pure _, fun hr => ?_, fun {stack ts a es c d} hseam hr => ?_⟩
  · obtain ⟨b, es₁, c₁, es₂, h₁, h₂, rfl⟩ := run_bind_success hr
    simp [hp.passes h₁]
  · obtain ⟨b, es₁, c₁, es₂, h₁, h₂, rfl⟩ := run_bind_success hr
    cases h₂
    rw [List.append_nil] at hseam ⊢
    exact (hp.seals hseam h₁).bind_pure g

theorem Seals.inRule {p : Parser α} (rule : Rule) (hp : Seals p) : Seals (inRule rule p) := by
  refine ⟨.inRule rule hp.composed, fun hr => ?_, fun {stack ts a es c d} hseam hr => ?_⟩
  · obtain ⟨t, rest, ⟨o, body, c'⟩, rfl, hb, he⟩ := run_inRule_cases hr
    cases he
    simpa using hp.passes hb
  · obtain ⟨t, rest, ⟨o, body, c'⟩, hts, hb, he⟩ := run_inRule_cases hr
    cases he
    rw [← hts] at hb
    have htokens : ts = passed body ++ [] := tokens_of_trail (hp.composed.trail hb)
    have hts' : ts ≠ [] := by simpa [htokens] using hp.passes hb
    obtain ⟨u, ts', rfl⟩ := List.exists_cons_of_ne_nil hts'
    cases hts
    have hbody : Seam body d := hseam
    exact (hp.seals hbody hb).inRule

/-- Whether the success gets to the seam or not. -/
theorem Seals.does {p : Parser α} (hp : Seals p) {ts us : List Token} {a : α} {es : List Event}
    (hseam : Seam es d) (h : p.run stack (ts ++ c) = .ok ⟨.ok a, es, us ++ c⟩) :
    Does p stack (ts ++ d) ⟨.ok a, es, us ++ d⟩ := by
  cases us with
  | nil => exact hp.seals hseam h
  | cons u us => exact hp.composed.carries _ _ _ _ _ (List.cons_ne_nil u us) hseam h

/-- The part of a block after its opening brace. -/
def blockRest (s : Parser Node) : Parser Block := do
  let statements ← many (fun k => k != .closeScope) s
  let _ ← eat .closeScope
  return statements

/-- The brace that ends a block is there: its loop stops at nothing else. -/
theorem run_blockRest_cases {s : Parser Node} {b : Block} {es : List Event}
    (h : (blockRest s).run stack c = .ok ⟨.ok b, es, c'⟩) :
    ∃ es₁ brace, es = es₁ ++ [.consume brace] ∧ brace.kind = .closeScope ∧
      (many (fun k => k != .closeScope) s).run stack c = .ok ⟨.ok b, es₁, brace :: c'⟩ := by
  obtain ⟨b', es₁, c₁, es₂, h₁, h₂, rfl⟩ := run_bind_success h
  obtain ⟨t, es₂, c₂, es₃, h₂, h₃, rfl⟩ := run_bind_success h₂
  cases h₃
  obtain ⟨brace, rest, rfl, hbrace⟩ := repeatWhile_stop (run_of_many h₁)
  have hk : brace.kind = .closeScope := by simpa using hbrace
  cases run_eatBefore_cases h₂ with
  | found _ =>
    have hrest : Cursor.advance (t :: rest) = rest := advance_eq_rest (by simp [hk])
    exact ⟨es₁, t, by simp, hk, by rwa [hrest]⟩
  | standIn hne => exact absurd hk hne
  | missing hne => exact absurd hk hne

theorem seals_blockRest {s : Parser Node} (hs : Composed s) : Seals (blockRest s) := by
  refine ⟨composed_statements hs, fun hr => ?_, fun {stack ts b es c d} hseam hr => ?_⟩
  · obtain ⟨es₁, brace, rfl, hk, -⟩ := run_blockRest_cases hr
    have hbrace : brace.kind ≠ .eof := by simp [hk]
    simp [passed_consume_cons hbrace]
  · obtain ⟨es₁, brace, rfl, hk, h₁⟩ := run_blockRest_cases hr
    have hmany := (Composed.many _ hs).carries stack ts _ _ [brace] (by simp)
      (seam_append.mp hseam).1 h₁
    have hbrace : Does (eat .closeScope) stack ([brace] ++ d) ⟨.ok brace, [.consume brace], d⟩ :=
      does_found hk (by decide)
    exact hmany.bind (hbrace.bind_pure fun _ => b)

/-- **A block is sealed by its brace**: whatever follows it is not looked at. -/
theorem seals_block {s : Parser Node} (hs : Composed s) : Seals (block s) :=
  (Seals.bind (.eatBefore _ _ (by decide)) fun _ => seals_blockRest hs).inRule _

/-- **A function ends at its last brace**, and nothing after it is looked at. -/
theorem seals_functionDecl (bound : Nat) : Seals (functionDecl bound) :=
  (Seals.bind (.eat _) fun _ => .bind (.name _ (by decide)) fun _ =>
    .bind (.eatBefore _ _ (by decide)) fun _ =>
    .bind (.many _ .parameter) fun _ => .bind (.eatBefore _ _ (by decide)) fun _ =>
      (seals_block (.statement bound)).bind_pure fun _ => _).inRule _

/-! ## 4. Loops and programs -/

/-- **A loop goes on after the seam.**  Its items before the seam are those that it gives
before another rest. -/
theorem repeatWhile_append {item : Parser α} {test : Kind → Bool} (hitem : Seals item) :
    ∀ {n ts as es n' r}, Seam es d →
      (repeatWhile test item n).run stack (ts ++ c) = .ok ⟨.ok as, es, c⟩ →
      (repeatWhile test item n').run stack (ts ++ d) = .ok r →
      ∃ m s, (repeatWhile test item m).run stack d = .ok s ∧
        r = ⟨s.outcome.map (as ++ ·), es ++ s.events, s.cursor⟩
  | n, ts, as, es, n', r, hseam, h, hr => by
    have htrail := (hitem.composed.repeatWhile test n).trail h
    have hts : ts = passed es ++ [] := tokens_of_trail htrail
    obtain ⟨t, rest, hc, ⟨-, rfl, rfl, -⟩ |
      ⟨ht, m, a, as', es₁, c₁, es₂, rfl, rfl, rfl, h₁, h₂⟩⟩ := run_repeatWhile_cases h
    · -- no item, so there are no tokens either
      obtain rfl : ts = [] := by simpa using hts
      refine ⟨n', r, hr, ?_⟩
      cases r with | mk o es c' => cases o <;> simp [Except.map]
    · obtain ⟨hseam₁, hseam₂⟩ := seam_append.mp hseam
      rw [((hitem.composed.repeatWhile test m).trail h₂).eq_append] at h₁ h₂
      have hdoes := hitem.does hseam₁ h₁
      obtain ⟨u, ts', rfl⟩ : ∃ u ts', ts = u :: ts' := by
        refine List.exists_cons_of_ne_nil ?_
        simp [hts, hitem.passes h₁]
      cases hc
      rcases run_repeatWhile_round ht hr with ⟨e, es, c', h₃, -⟩ | ⟨k, b, es, c', s, h₃, h₄, rfl⟩
      · cases hdoes _ h₃
      · cases hdoes _ h₃
        obtain ⟨l, s', hs', rfl⟩ := repeatWhile_append hitem hseam₂ h₂ h₄
        refine ⟨l, s', hs', ?_⟩
        cases s' with | mk o es c' => cases o <;> simp [Except.map]

/-- How many rounds a loop may make does not matter, if it answers. -/
theorem repeatWhile_unique {item : Parser α} {test : Kind → Bool} (hitem : Composed item)
    {n n' : Nat} {r r' : Reply (List α)} (h : (repeatWhile test item n).run stack c = .ok r)
    (h' : (repeatWhile test item n').run stack c = .ok r') : r' = r := by
  have hreplays := hitem.replays.repeatWhile test hitem.trails n n'
  obtain ⟨ho, he⟩ := hreplays _ _ _ _ _ _ h h' (Nat.le_refl _) rfl
  have ht := ((hitem.repeatWhile test n).trail h).eq_append
  rw [((hitem.repeatWhile test n').trail h').eq_append, he] at ht
  have hc : r'.cursor = r.cursor := List.append_cancel_left ht
  cases r
  cases r'
  cases ho
  cases he
  cases hc
  rfl

/-- A program is its loop. -/
theorem run_program_cases {bound : Nat} {r : Reply Program}
    (h : (program bound).run stack c = .ok r) :
    ∃ t rest s, c = t :: rest ∧
      (many (· == .keywordFunc) (functionDecl bound)).run (.program :: stack) c = .ok s ∧
      r = ⟨s.outcome.map Program.mk, .enter .program (stack.length + 1) t :: s.events,
        s.cursor⟩ := by
  obtain ⟨t, rest, body, rfl, hb, rfl⟩ := run_inRule_cases h
  rcases run_bind_cases hb with ⟨e, es, c', h₁, rfl⟩ | ⟨fs, es, c', after, h₁, h₂, rfl⟩
  · exact ⟨t, rest, _, rfl, h₁, rfl⟩
  · cases h₂
    exact ⟨t, rest, _, rfl, h₁, by simp [Except.map]⟩

/-- **Programs are parsed one after the other.**  What the parse of `d` answers is put after
the functions, and what it records after what was recorded. -/
theorem program_append {bound : Nat} {ts : List Token} {p : Program} {es : List Event}
    {r s : Reply Program} (hseam : Seam es d)
    (h : (program bound).run stack (ts ++ c) = .ok ⟨.ok p, es, c⟩)
    (hs : (program bound).run stack d = .ok s) (hr : (program bound).run stack (ts ++ d) = .ok r) :
    r.outcome = s.outcome.map (fun q => ⟨p.functions ++ q.functions⟩) ∧
      recorded r.events = recorded es ++ recorded s.events ∧ r.cursor = s.cursor := by
  obtain ⟨t, rest, ⟨o, body, c'⟩, -, hmany, he⟩ := run_program_cases h
  obtain ⟨u, rest', s, -, hsecond, rfl⟩ := run_program_cases hs
  obtain ⟨v, rest'', r, -, hwhole, rfl⟩ := run_program_cases hr
  cases o with
  | error e => cases he
  | ok fs =>
    cases he
    have hbody : Seam body d := hseam
    obtain ⟨m, s', hs', rfl⟩ :=
      repeatWhile_append (seals_functionDecl bound) hbody (run_of_many hmany) (run_of_many hwhole)
    obtain rfl := repeatWhile_unique (.functionDecl bound) hs' (run_of_many hsecond)
    refine ⟨?_, by simp, rfl⟩
    cases s.outcome <;> rfl

/-- Where no function starts, a program is at its end. -/
theorem run_program_nil {bound : Nat} {t : Token} {r : Reply Program}
    (ht : t.kind ≠ .keywordFunc) (h : (program bound).run stack (t :: c) = .ok r) :
    r.outcome = .ok ⟨[]⟩ ∧ recorded r.events = [] := by
  obtain ⟨_, _, s, -, hs, rfl⟩ := run_program_cases h
  have hloop : Gives (many (· == .keywordFunc) (functionDecl bound)) (.program :: stack) (t :: c)
      [] [] (t :: c) := gives_many (gives_repeatWhile_nil (by simpa using ht))
  obtain ⟨es, rfl, hes⟩ := hloop _ hs
  exact ⟨rfl, by simpa using recorded_eq_nil_iff.mpr hes⟩

end
end Parser

/-! ## 5. Streams -/

theorem TokenStream.exists_cons (s : TokenStream) : ∃ t rest, s.tokens = t :: rest := by
  obtain ⟨t, ht, -⟩ := s.hasEof
  exact List.exists_cons_of_ne_nil (List.ne_nil_of_mem ht)

/-- **Where the text ends does not matter**, as long as the parse is not stopped there: the
token for its end may be any other. -/
theorem run_of_end {ts : List Token} {e e' : Token} {s s' : TokenStream}
    (hs : s.tokens = ts ++ [e]) (hs' : s'.tokens = ts ++ [e'])
    (hstop : ∀ x, s.run.outcome = .error x → x.found.kind ≠ .eof) :
    s'.run.outcome = s.run.outcome ∧ s'.run.diagnostics = s.run.diagnostics := by
  have heof : e.kind = .eof := by simpa [EndsWithEof, hs] using s.endsWithEof
  have heof' : e'.kind = .eof := by simpa [EndsWithEof, hs'] using s'.endsWithEof
  have hseam : Seam s.run.events [e'] := .inr ⟨e', rfl, .inl heof'⟩
  -- what is left ends with the end of the text
  obtain ⟨us, hus⟩ : ∃ us, s.run.cursor = us ++ [e] := by
    obtain ⟨t, ht, -⟩ := s.trail_run.exists_eof s.hasEof
    rcases List.eq_nil_or_concat s.run.cursor with hnil | ⟨us, u, hu⟩
    · exact absurd (hnil ▸ ht) List.not_mem_nil
    · have htokens := s.trail_run.eq_append
      rw [List.concat_eq_append] at hu
      rw [hs, hu, ← List.append_assoc] at htokens
      obtain ⟨-, hlast⟩ := List.append_inj' htokens rfl
      exact ⟨us, by rw [hu, List.singleton_inj.mp hlast]⟩
  have hrun := s.program_run
  have hrun' := s'.program_run
  have hlength : s'.tokens.length = s.tokens.length := by simp [hs, hs']
  have hbound : 1 ≤ s.tokens.length := by simp [hs]
  rw [hlength, hs'] at hrun'
  generalize s.tokens.length = bound at hrun hrun' hbound
  rw [hs, show s.run = ⟨s.run.outcome, s.run.events, us ++ [e]⟩ by rw [← hus]] at hrun
  by_cases hnil : us = []
  · subst hnil
    cases ho : s.run.outcome with
    | error x =>
      have hfound := s.found_of_error ho
      rw [hus] at hfound
      exact absurd heof (Option.some.inj hfound ▸ hstop x ho)
    | ok p =>
      rw [ho] at hrun
      obtain ⟨r, hr⟩ := Parser.answers_program bound [] [e'] hbound ⟨e', by simp, heof'⟩
        ⟨e', rfl, trivial⟩
      obtain ⟨hnone, hrecorded⟩ := Parser.run_program_nil (by simp [heof']) hr
      obtain ⟨houtcome, hdiagnostics, -⟩ := Parser.program_append hseam hrun hr hrun'
      refine ⟨by simp [houtcome, hnone, Except.map], ?_⟩
      rw [Reply.diagnostics, hdiagnostics, hrecorded, List.append_nil, Reply.diagnostics]
  · have hsame := (Parser.Composed.program bound).carries [] ts _ _ us hnil hseam hrun _ hrun'
    exact ⟨by rw [hsame], by rw [hsame]; rfl⟩

/-- **Programs are parsed one after the other.**  The first stream is parsed to a program up to
its last token, the end of the text.  The tokens before it are put before a second stream,
which may be any if nothing was recorded, and else starts with `func` or is at its end.  Then
the functions of the first program come before those of the second, or the syntax error of
the second stream is what comes out: an abort does not depend on functions before it.  The
diagnostics are those of the first stream and then those of the second.

So tokens that start no function change nothing if they come after a program. -/
theorem run_append {ts : List Token} {e : Token} {first second whole : TokenStream} {p : Program}
    (hfirst : first.tokens = ts ++ [e]) (hwhole : whole.tokens = ts ++ second.tokens)
    (htree : first.run.outcome = .ok p) (hall : first.run.cursor = [e])
    (hseam : first.run.diagnostics = [] ∨
      ∃ t ∈ second.tokens.head?, t.kind = .keywordFunc ∨ t.kind = .eof) :
    whole.run.outcome = second.run.outcome.map (fun q => ⟨p.functions ++ q.functions⟩) ∧
    whole.run.diagnostics = first.run.diagnostics ++ second.run.diagnostics ∧
    whole.run.cursor = second.run.cursor ∧
    ((∀ t ∈ second.tokens.head?, t.kind ≠ .keywordFunc) →
      whole.run.outcome = .ok p ∧ whole.run.diagnostics = first.run.diagnostics) := by
  -- one bound on nesting is enough for the three streams
  let bound := max first.tokens.length (max second.tokens.length whole.tokens.length)
  have hrun : (Parser.program bound).run [] (ts ++ [e]) =
      .ok ⟨.ok p, first.run.events, [e]⟩ := by
    have := Parser.program_refines (by omega : first.tokens.length ≤ bound) _ _ _
      (TokenStream.program_run_of_tree htree)
    rwa [hall, hfirst] at this
  have hsecond : (Parser.program bound).run [] second.tokens = .ok second.run :=
    Parser.program_refines (by omega) _ _ _ second.program_run
  have hboth : (Parser.program bound).run [] (ts ++ second.tokens) = .ok whole.run := by
    have := Parser.program_refines (by omega : whole.tokens.length ≤ bound) _ _ _
      whole.program_run
    rwa [hwhole] at this
  have hseam' : Seam first.run.events second.tokens := by
    refine hseam.imp recorded_eq_nil_iff.mp ?_
    rintro ⟨t, ht, hk⟩
    exact ⟨t, ht, hk.symm⟩
  obtain ⟨houtcome, hrecorded, hcursor⟩ := Parser.program_append hseam' hrun hsecond hboth
  refine ⟨houtcome, hrecorded, hcursor, fun hstop => ?_⟩
  obtain ⟨t, rest, ht⟩ := second.exists_cons
  have hnone := Parser.run_program_nil (hstop t (by simp [ht])) (ht ▸ hsecond)
  rw [hnone.1] at houtcome
  rw [hnone.2, List.append_nil] at hrecorded
  exact ⟨by simpa [Except.map] using houtcome, hrecorded⟩

/-- A closing parenthesis is missing, and the function after it is stopped at a literal. -/
theorem run_append_abort :
    let ts : List Token := [⟨.keywordFunc, "func", ⟨0, 4⟩⟩, ⟨.identifier, "f", ⟨5, 1⟩⟩,
      ⟨.openParenthesis, "(", ⟨6, 1⟩⟩, ⟨.openScope, "\x7b", ⟨8, 1⟩⟩, ⟨.closeScope, "\x7d", ⟨9, 1⟩⟩]
    let us : List Token := [⟨.keywordFunc, "func", ⟨11, 4⟩⟩, ⟨.identifier, "g", ⟨16, 1⟩⟩,
      ⟨.openParenthesis, "(", ⟨17, 1⟩⟩, ⟨.closeParenthesis, ")", ⟨18, 1⟩⟩,
      ⟨.openScope, "\x7b", ⟨20, 1⟩⟩, ⟨.integerLiteral, "1", ⟨22, 1⟩⟩]
    let first := TokenStream.ofTokens "" (ts ++ [.eof 10]) .empty []
    let second := TokenStream.ofTokens "" (us ++ [.eof 23]) .empty []
    let whole := TokenStream.ofTokens "" (ts ++ (us ++ [.eof 23])) .empty []
    let missing : Diagnostic := ⟨.mismatch .closeParenthesis ⟨.openScope, "\x7b", ⟨8, 1⟩⟩,
      some ⟨8, 1⟩, .ofStack ["program", "function_decl"]⟩
    first.run.outcome = .ok ⟨[⟨"f", [], []⟩]⟩ ∧ first.run.cursor = [.eof 10] ∧
      first.run.diagnostics = [missing] ∧
      second.run.outcome = .error ⟨.statement, ⟨.integerLiteral, "1", ⟨22, 1⟩⟩, ⟨22, 1⟩,
        [.program, .functionDecl, .block, .statement]⟩ ∧
      whole.run.outcome = second.run.outcome ∧ whole.run.diagnostics = [missing] := by
  intro ts us first second whole missing
  have hp : first.run.outcome = .ok ⟨[⟨"f", [], []⟩]⟩ := by decide
  have hc : first.run.cursor = [.eof 10] := by decide
  have hd : first.run.diagnostics = [missing] := by decide
  have hq : second.run.outcome = .error ⟨.statement, ⟨.integerLiteral, "1", ⟨22, 1⟩⟩, ⟨22, 1⟩,
      [.program, .functionDecl, .block, .statement]⟩ := by decide
  have hnone : second.run.diagnostics = [] := by decide
  have hw : whole.tokens = ts ++ second.tokens := rfl
  obtain ⟨ho, hes, -⟩ := run_append rfl hw hp hc (.inr ⟨_, rfl, .inl rfl⟩)
  refine ⟨hp, hc, hd, hq, ho.trans (by rw [hq]; rfl), hes.trans (by rw [hd, hnone]; rfl)⟩

end FrontEnd
