/-
# How a parse goes on after a mismatch

A parse that records nothing tells how another one goes, of tokens that differ from its own
in one place: up to the mismatch and after it the same is done.  This rests on one token of
lookahead, so the tokens on both sides of the mismatch need only start alike.

* `Gives`: what a parser answers at a cursor, which mismatches it records and where it stops;
* `Composed.gives`: a run without mismatches is repeated before another rest;
* `functionDecl_clean`: the tokens of a function that was read without a mismatch;
* `gives_functionDecl`: how a function is read, part by part.
-/
import FrontEnd.Proofs.Parser.Completion
import FrontEnd.Proofs.Parser.Lookahead
import FrontEnd.Proofs.Parser.Reading

namespace FrontEnd

/-! ## 1. Mismatches -/

/-- The kind that was expected and the token that was found. -/
def Event.mismatch? : Event → Option (Kind × Token)
  | .mismatch expected found _ => some (expected, found)
  | _ => none

/-- The mismatches among events, in order. -/
def mismatches (events : List Event) : List (Kind × Token) := events.filterMap Event.mismatch?

@[simp] theorem mismatches_nil : mismatches [] = [] := rfl

@[simp] theorem mismatches_append (es es' : List Event) :
    mismatches (es ++ es') = mismatches es ++ mismatches es' := by
  simp [mismatches]

@[simp] theorem mismatches_enter_cons (rule : Rule) (depth : Nat) (t : Token) (es : List Event) :
    mismatches (.enter rule depth t :: es) = mismatches es := rfl

@[simp] theorem mismatches_consume_cons (t : Token) (es : List Event) :
    mismatches (.consume t :: es) = mismatches es := rfl

@[simp] theorem mismatches_mismatch_cons (expected : Kind) (t : Token) (stack : List Rule)
    (es : List Event) :
    mismatches (.mismatch expected t stack :: es) = (expected, t) :: mismatches es := rfl

/-- Each mismatch is recorded as one diagnostic, with the span of the token that was found. -/
theorem map_recorded (es : List Event) :
    (recorded es).map (fun d => (d.problem, d.span)) =
      (mismatches es).map fun q => (.mismatch q.1 q.2, some q.2.span) := by
  induction es with
  | nil => rfl
  | cons e es ih =>
    cases e with
    | enter => exact ih
    | consume => exact ih
    | mismatch => exact congrArg (_ :: ·) ih

/-- Nothing is recorded if and only if nothing was mismatched. -/
theorem recorded_eq_nil_iff {es : List Event} : recorded es = [] ↔ mismatches es = [] := by
  rw [← List.map_eq_nil_iff, map_recorded, List.map_eq_nil_iff]

theorem length_recorded (es : List Event) : (recorded es).length = (mismatches es).length := by
  simpa using congrArg List.length (map_recorded es)

/-- Events without a mismatch rest on what was passed and the lookahead. -/
theorem reach_of_clean {es : List Event} (h : mismatches es = []) : reach es = position es + 1 := by
  induction es with
  | nil => rfl
  | cons e es ih =>
    cases e with
    | enter => exact ih h
    | consume t =>
      have := ih h
      simp only [reach, position_consume_cons]
      split <;> omega
    | mismatch => cases h

/-- What comes after the first element does not matter to it. -/
theorem head?_set_append {α : Type} {ts c d : List α} {i : Nat} (hi : 0 < i) (x : α)
    (h : d.head? = c.head?) : (ts.set i x ++ d).head? = (ts ++ c).head? := by
  cases ts with
  | nil => exact h
  | cons t ts =>
    obtain ⟨j, rfl⟩ := Nat.exists_eq_succ_of_ne_zero (Nat.pos_iff_ne_zero.mp hi)
    rfl

/-! ## 2. What a parser gives -/

namespace Parser

section
variable {α β : Type} {stack : List Rule} {c c' c'' d : Cursor} {es : List Event}
  {faults faults' : List (Kind × Token)}

/-- The answer at the cursor `c`, if there is one, is `a`, after these mismatches and no other,
and the parser stops at `c'`. -/
def Gives (p : Parser α) (stack : List Rule) (c : Cursor) (a : α) (faults : List (Kind × Token))
    (c' : Cursor) : Prop :=
  ∀ r, p.run stack c = .ok r → ∃ es, r = ⟨.ok a, es, c'⟩ ∧ mismatches es = faults

theorem gives_pure (a : α) : Gives (pure a) stack c a [] c := by
  intro r hr
  cases hr
  exact ⟨[], rfl, rfl⟩

/-- Sequences give what their parts give, with the mismatches of both. -/
theorem Gives.bind {p : Parser β} {f : β → Parser α} {b : β} {a : α}
    (hp : Gives p stack c b faults c') (hf : Gives (f b) stack c' a faults' c'') :
    Gives (p >>= f) stack c a (faults ++ faults') c'' := by
  intro r hr
  rcases run_bind_cases hr with ⟨e, es, c₁, h₁, -⟩ | ⟨b', es, c₁, after, h₁, hafter, rfl⟩
  · obtain ⟨_, he, -⟩ := hp _ h₁
    cases he
  · obtain ⟨_, he, hes⟩ := hp _ h₁
    cases he
    obtain ⟨es', rfl, hes'⟩ := hf _ hafter
    exact ⟨es ++ es', rfl, by rw [mismatches_append, hes, hes']⟩

/-- A last step that reads nothing. -/
theorem Gives.bind_pure {p : Parser β} {b : β} (hp : Gives p stack c b faults c') (g : β → α) :
    Gives (p >>= fun b => pure (g b)) stack c (g b) faults c' := by
  have := hp.bind (f := fun b => pure (g b)) (gives_pure (g b))
  rwa [List.append_nil] at this

/-- What is given does not depend on whether a rule was entered on the way. -/
theorem Gives.inRule {p : Parser α} {a : α} {rule : Rule}
    (h : Gives p (rule :: stack) c a faults c') :
    Gives (inRule rule p) stack c a faults c' := by
  intro r hr
  obtain ⟨t, rest, body, rfl, hb, rfl⟩ := run_inRule_cases hr
  obtain ⟨es, rfl, hes⟩ := h _ hb
  exact ⟨_, rfl, hes⟩

theorem gives_lookahead (t : Token) : Gives lookahead stack (t :: c) t [] (t :: c) := by
  intro r hr
  cases hr
  exact ⟨[], rfl, rfl⟩

/-- The expected token is taken. -/
theorem gives_found {expected : Kind} {follow : List Kind} {t : Token} (ht : t.kind = expected)
    (heof : expected ≠ .eof) :
    Gives (eatBefore expected follow) stack (t :: c) t [] c := by
  intro r hr
  cases run_eatBefore_cases hr with
  | found => exact ⟨_, by rw [advance_eq_rest (ht ▸ heof)], rfl⟩
  | standIn hne => exact absurd ht hne
  | missing hne => exact absurd ht hne

/-- Another token stands in for the expected one, unless it may follow that one and the next one
may not. -/
theorem gives_instead {expected : Kind} {follow : List Kind} {x : Token} (hx : x.kind ≠ expected)
    (heof : x.kind ≠ .eof) (hc : x.kind ∈ follow → StartsWith (· ∈ follow) c) :
    Gives (eatBefore expected follow) stack (x :: c) x [(expected, x)] c := by
  intro r hr
  cases run_eatBefore_cases hr with
  | found ht => exact absurd ht hx
  | standIn => exact ⟨_, by rw [advance_eq_rest heof], rfl⟩
  | missing _ hfollow hnext =>
    obtain ⟨u, hu, hk⟩ := hc hfollow
    obtain ⟨rest, rfl⟩ := List.head?_eq_some_iff.mp hu
    exact absurd hk (hnext u rfl)

/-- So it does if the next one may follow the expected one. -/
theorem gives_standIn {expected : Kind} {follow : List Kind} {x : Token} (hx : x.kind ≠ expected)
    (heof : x.kind ≠ .eof) (hc : StartsWith (· ∈ follow) c) :
    Gives (eatBefore expected follow) stack (x :: c) x [(expected, x)] c :=
  gives_instead hx heof fun _ => hc

/-- Nothing is taken for the expected token, if the lookahead may follow that one and the next
token may not. -/
theorem gives_missing {expected : Kind} {follow : List Kind} {x : Token} (hx : x.kind ≠ expected)
    (hfollow : x.kind ∈ follow) (hc : StartsWith (· ∉ follow) c) :
    Gives (eatBefore expected follow) stack (x :: c) x [(expected, x)] (x :: c) := by
  intro r hr
  cases run_eatBefore_cases hr with
  | found ht => exact absurd ht hx
  | standIn _ hnext =>
    obtain ⟨u, hu, hk⟩ := hc
    obtain ⟨rest, rfl⟩ := List.head?_eq_some_iff.mp hu
    obtain ⟨v, hv, hin⟩ := hnext hfollow
    cases hv
    exact absurd hin hk
  | missing => exact ⟨_, rfl, rfl⟩

theorem gives_repeatWhile_nil {item : Parser α} {test : Kind → Bool}
    (hc : ∀ t ∈ c.head?, test t.kind = false) :
    ∀ n, Gives (repeatWhile test item n) stack c [] [] c
  | 0 => fun _ hr => by cases hr
  | n + 1 => by
    cases c with
    | nil => intro r hr; cases hr
    | cons t c =>
      refine (gives_lookahead t).bind ?_
      rw [hc t rfl, if_neg Bool.false_ne_true]
      exact gives_pure []

/-- A round and the rounds after it. -/
theorem gives_repeatWhile_cons {item : Parser α} {test : Kind → Bool} {a : α} {as : List α}
    (hc : ∀ t ∈ c.head?, test t.kind = true) (ha : Gives item stack c a faults c')
    (has : ∀ n, Gives (repeatWhile test item n) stack c' as faults' c'') :
    ∀ n, Gives (repeatWhile test item n) stack c (a :: as) (faults ++ faults') c''
  | 0 => fun _ hr => by cases hr
  | n + 1 => by
    cases c with
    | nil => intro r hr; cases hr
    | cons t c =>
      refine (gives_lookahead t).bind ?_
      rw [hc t rfl, if_pos rfl]
      exact ha.bind ((has n).bind_pure (a :: ·))

theorem gives_many {item : Parser α} {test : Kind → Bool} {as : List α}
    (h : ∀ n, Gives (repeatWhile test item n) stack c as faults c') :
    Gives (many test item) stack c as faults c' :=
  fun r hr => h _ r (run_of_many hr)

/-- What is read back is given. -/
theorem Reads.gives {stop : Kind → Prop} {p : Parser α} {slots : List Slot} {a : α}
    {ts : List Token} (h : Reads stop p slots a) (hts : List.Forall₂ Slot.Fits slots ts)
    (hc : ∀ t ∈ c.head?, stop t.kind) : Gives p stack (ts ++ c) a [] c := by
  intro r hr
  obtain ⟨es, he, hes⟩ := h.reads hts hc hr
  exact ⟨es, he, recorded_eq_nil_iff.mp hes⟩

/-- Tokens before rests that start alike look alike, one token further than they go. -/
theorem take_of_head? (ts : List Token) (h : d.head? = c.head?) :
    (ts ++ c).take (ts.length + 1) = (ts ++ d).take (ts.length + 1) := by
  rw [List.take_length_add_append, List.take_length_add_append]
  cases c <;> cases d <;> simp_all

/-- **A run without mismatches is repeated** before another rest that starts alike. -/
theorem Composed.gives {p : Parser α} {a : α} (hp : Composed p)
    (hr : p.run stack c = .ok ⟨.ok a, es, c'⟩) (hes : mismatches es = [])
    (hd : d.head? = c'.head?) : Gives p stack (passed es ++ d) a [] d := by
  intro r hr'
  have htake : c.take (position es + 1) = (passed es ++ d).take (position es + 1) := by
    rw [(hp.trail hr).eq_append]
    exact take_of_head? (passed es) hd
  obtain ⟨houtcome, hevents⟩ :=
    hp.replays _ _ _ _ _ _ hr hr' (Nat.le_of_eq (reach_of_clean hes)) htake
  obtain ⟨o, es', d'⟩ := r
  cases houtcome
  cases hevents
  have : d = d' := List.append_cancel_left (hp.trail hr').eq_append
  exact ⟨es, by rw [this], hes⟩

/-! ## 3. How parsers start -/

/-- A success starts with a token of a kind that passes. -/
def Requires (start : Kind → Prop) (p : Parser α) : Prop :=
  ∀ stack c a es c', p.run stack c = .ok ⟨.ok a, es, c'⟩ → StartsWith start c

variable {start start' : Kind → Prop}

theorem Requires.bind {p : Parser β} (hp : Requires start p) (f : β → Parser α) :
    Requires start (p >>= f) := by
  intro stack c a es c' hr
  obtain ⟨b, es₁, c₁, es₂, h₁, -, -⟩ := run_bind_success hr
  exact hp _ _ _ _ _ h₁

/-- A loop requires what its item does, or a token that ends it. -/
theorem Requires.many {item : Parser α} {test : Kind → Bool} (h : Requires start item)
    (hstart : ∀ k, start k → start' k) (hstop : ∀ k, test k = false → start' k) :
    Requires start' (many test item) := by
  intro stack c as es c' hr
  obtain ⟨t, rest, rfl, ⟨ht, -⟩ | ⟨-, m, a, as', es₁, c₁, es₂, -, -, -, ha, -⟩⟩ :=
    run_repeatWhile_cases (run_of_many hr)
  · exact ⟨t, rfl, hstop _ ht⟩
  · obtain ⟨u, hu, hk⟩ := h _ _ _ _ _ ha
    exact ⟨u, hu, hstart _ hk⟩

/-- A statement that was read has begun with one of three kinds: of all others it makes an error. -/
theorem requires_statement : ∀ bound, Requires (· ∈ statementKinds) (statement bound)
  | 0 => by intro stack c a es c' hr; cases hr
  | bound + 1 => by
    intro stack c n es c' hr
    obtain ⟨t, rest, ⟨o, es, c'⟩, rfl, hb, hr⟩ := run_inRule_cases hr
    cases hr
    obtain ⟨u, es₁, c₁, es₂, h₁, h₂, rfl⟩ := run_bind_success hb
    cases h₁
    refine ⟨t, rfl, ?_⟩
    split at h₂
    · simp_all [statementKinds]
    · simp_all [statementKinds]
    · simp_all [statementKinds]
    · cases h₂

/-! ## 4. Blocks -/

/-- A block that was read without a mismatch starts with its brace, and then comes what may
follow the brace. -/
theorem openScope_clean {f : Parser α} {a : α} (hf : Composed f)
    (hstart : Requires (· ∈ afterOpenScope) f)
    (hr : (eatBefore .openScope afterOpenScope >>= fun _ => f).run stack c =
      .ok ⟨.ok a, es, c'⟩)
    (hes : mismatches es = []) (hd : d.head? = c'.head?) :
    ∃ brace inside, brace.kind = .openScope ∧ passed es = brace :: passed inside ∧
      f.run stack (passed inside ++ c') = .ok ⟨.ok a, inside, c'⟩ ∧
      Gives f stack (passed inside ++ d) a [] d ∧
      StartsWith (· ∈ afterOpenScope) (passed inside ++ d) := by
  obtain ⟨brace, es₁, c₁, es₂, h₁, h₂, rfl⟩ := run_bind_success hr
  -- nothing was recorded, so the brace was there
  cases run_eatBefore_cases h₁ with
  | standIn => cases hes
  | missing => cases hes
  | @found _ rest hk =>
    have hbrace : brace.kind ≠ .eof := by simp [hk]
    rw [advance_eq_rest hbrace] at h₂
    obtain rfl : rest = passed es₂ ++ c' := (hf.trail h₂).eq_append
    refine ⟨brace, es₂, hk, by rw [passed_append, passed_consume_cons hbrace]; rfl, h₂,
      hf.gives h₂ hes hd, ?_⟩
    obtain ⟨t, ht, hk⟩ := hstart _ _ _ _ _ h₂
    rw [List.head?_append] at ht
    exact ⟨t, by rwa [List.head?_append, hd], hk⟩

/-- **A wrong brace stands in for the brace that opens a block.**  Whatever it is, it is not
taken for the start of a statement: the next token is one. -/
theorem gives_wrong_openScope {f : Parser α} {a : α} {x : Token} (hf : Composed f)
    (hstart : Requires (· ∈ afterOpenScope) f)
    (hr : (eatBefore .openScope afterOpenScope >>= fun _ => f).run stack c =
      .ok ⟨.ok a, es, c'⟩)
    (hes : mismatches es = []) (hx : x.kind ≠ .openScope) (heof : x.kind ≠ .eof)
    (hd : d.head? = c'.head?) :
    Gives (eatBefore .openScope afterOpenScope >>= fun _ => f) stack
      ((passed es).set 0 x ++ d) a [(.openScope, x)] d := by
  obtain ⟨brace, inside, -, hpassed, -, hgives, hnext⟩ := openScope_clean hf hstart hr hes hd
  rw [hpassed]
  exact (gives_standIn hx heof hnext).bind hgives

/-! The part of a block after its opening brace. -/

theorem composed_statements {s : Parser Node} (hs : Composed s) :
    Composed (do
      let statements ← many (fun k => k != .closeScope) s
      let _ ← eat .closeScope
      return statements) :=
  .bind (.many _ hs) fun _ => .bind (.eat _) fun _ => .pure _

/-- **After the brace that opens a block comes what may follow it.**  This is why a missing brace is
told from a wrong one. -/
theorem requires_statements {s : Parser Node} (hs : Requires (· ∈ statementKinds) s) :
    Requires (· ∈ afterOpenScope) (do
      let statements ← many (fun k => k != .closeScope) s
      let _ ← eat .closeScope
      return statements) := by
  refine (hs.many (fun k hk => ?_) fun k hk => ?_).bind _
  · revert k; decide
  · have : k = .closeScope := by simpa using hk
    exact this ▸ by decide

/-- **What is known of a block that was read without a mismatch**: its brace, and the run of what
comes after the brace. -/
theorem block_clean {s : Parser Node} {b : Block} (hs : Composed s)
    (hstart : Requires (· ∈ statementKinds) s)
    (hr : (block s).run stack c = .ok ⟨.ok b, es, c'⟩) (hes : mismatches es = [])
    (hd : d.head? = c'.head?) :
    ∃ (brace : Token) (inside : List Event), brace.kind = .openScope ∧
      passed es = brace :: passed inside ∧
      (do
        let statements ← many (fun k => k != .closeScope) s
        let _ ← eat .closeScope
        return statements : Parser Block).run (.block :: stack) (passed inside ++ c') =
          .ok ⟨.ok b, inside, c'⟩ ∧
      Gives (do
        let statements ← many (fun k => k != .closeScope) s
        let _ ← eat .closeScope
        return statements) (.block :: stack) (passed inside ++ d) b [] d ∧
      StartsWith (· ∈ afterOpenScope) (passed inside ++ d) := by
  obtain ⟨t, rest, ⟨o, es, c'⟩, rfl, hb, hr⟩ := run_inRule_cases hr
  cases hr
  obtain ⟨brace, inside, hk, hpassed, hrest⟩ :=
    openScope_clean (composed_statements hs) (requires_statements hstart) hb hes hd
  exact ⟨brace, inside, hk, hpassed, hrest⟩

/-- **A wrong brace stands in for the opening one**, and the block is read as before.  The token
after it may follow a brace, so that the brace is not taken to be missing. -/
theorem gives_wrong_block {s : Parser Node} {b : Block} {x : Token} (hs : Composed s)
    (hstart : Requires (· ∈ statementKinds) s)
    (hr : (block s).run stack c = .ok ⟨.ok b, es, c'⟩) (hes : mismatches es = [])
    (hx : x.kind ≠ .openScope) (heof : x.kind ≠ .eof) (hd : d.head? = c'.head?) :
    Gives (block s) stack ((passed es).set 0 x ++ d) b [(.openScope, x)] d := by
  obtain ⟨t, rest, ⟨o, es, c'⟩, rfl, hb, hr⟩ := run_inRule_cases hr
  cases hr
  exact (gives_wrong_openScope (composed_statements hs) (requires_statements hstart) hb hes hx heof
    hd).inRule

end

/-! ## 5. Functions -/

end Parser

/-- The tokens of a function before its body, as they should be. -/
structure Function.Head (f : Function) where
  keyword : Token
  name : Token
  openList : Token
  list : List Token
  closeList : Token
  keyword_kind : keyword.kind = .keywordFunc
  name_fits : name.kind = .identifier ∧ name.text = f.name
  openList_kind : openList.kind = .openParenthesis
  list_fits : List.Forall₂ Slot.Fits (f.parameters.flatMap Parameter.slots) list
  closeList_kind : closeList.kind = .closeParenthesis

namespace Function

/-- The slots of a function before its body. -/
def headSlots (f : Function) : List Slot :=
  .fixed .keywordFunc :: .text .identifier f.name :: .fixed .openParenthesis
    :: (f.parameters.flatMap Parameter.slots ++ [.fixed .closeParenthesis])

/-- A function is its head and its body. -/
theorem slots_eq (f : Function) : f.slots = f.headSlots ++ blockSlots f.body := by
  simp [slots, headSlots]

theorem length_parameterSlots (ps : List Parameter) :
    (ps.flatMap Parameter.slots).length = 2 * ps.length := by
  induction ps with
  | nil => rfl
  | cons p ps ih =>
    rw [List.flatMap_cons, List.length_append, ih, List.length_cons]
    simp only [Parameter.slots, List.length_cons, List.length_nil]
    omega

theorem length_headSlots (f : Function) : f.headSlots.length = 4 + 2 * f.parameters.length := by
  simp only [headSlots, List.length_cons, List.length_append, length_parameterSlots,
    List.length_nil]
  omega

namespace Head

variable {f : Function}

def tokens (h : f.Head) : List Token :=
  h.keyword :: h.name :: h.openList :: (h.list ++ [h.closeList])

theorem length_list (h : f.Head) : h.list.length = 2 * f.parameters.length := by
  rw [← h.list_fits.length_eq, length_parameterSlots]

theorem list_eq_nil (h : f.Head) (hnone : f.parameters = []) : h.list = [] := by
  rw [← List.length_eq_zero_iff, h.length_list, hnone, List.length_nil]

/-- The index of the parenthesis after the parameters. -/
theorem length_beforeClose (h : f.Head) :
    (h.keyword :: h.name :: h.openList :: h.list).length = 3 + 2 * f.parameters.length := by
  simp only [List.length_cons, h.length_list]
  omega

theorem length_tokens (h : f.Head) : h.tokens.length = 4 + 2 * f.parameters.length := by
  simp only [tokens, List.length_cons, List.length_append, h.length_list, List.length_nil]
  omega

/-- The tokens that fit the head of a function are a head. -/
theorem exists_tokens {ts : List Token} (h : List.Forall₂ Slot.Fits f.headSlots ts) :
    ∃ head : f.Head, ts = head.tokens := by
  rw [headSlots] at h
  cases h with | cons hkeyword h =>
  cases h with | cons hname h =>
  cases h with | cons hopen h =>
  obtain ⟨list, ts, rfl, hlist, hlast⟩ := fits_append_cases h
  cases hlast with | cons hclose hnil =>
  cases hnil
  exact ⟨⟨_, _, _, list, _, hkeyword, hname, hopen, hlist, hclose⟩, rfl⟩

/-- The tokens of a parameter among the others. -/
theorem exists_parameter (h : f.Head) {ps qs : List Parameter} {q : Parameter}
    (hq : f.parameters = ps ++ q :: qs) :
    ∃ us typeName name vs, h.list = us ++ typeName :: name :: vs ∧
      (typeName.kind = .identifier ∧ typeName.text = q.typeName) ∧
      (name.kind = .identifier ∧ name.text = q.name) ∧
      List.Forall₂ Slot.Fits (ps.flatMap Parameter.slots) us ∧
      List.Forall₂ Slot.Fits (qs.flatMap Parameter.slots) vs := by
  have hlist := h.list_fits
  rw [hq, List.flatMap_append, List.flatMap_cons] at hlist
  obtain ⟨us, ws, hlist, hus, hws⟩ := fits_append_cases hlist
  obtain ⟨typeName, _, htype, hnames, rfl⟩ := List.forall₂_cons_left_iff.mp hws
  obtain ⟨name, vs, hname, hvs, rfl⟩ := List.forall₂_cons_left_iff.mp hnames
  exact ⟨us, typeName, name, vs, hlist, htype, hname, hus, hvs⟩

end Head
end Function

namespace Parser

section
variable {stack : List Rule} {c c' c₁ c₂ c₃ c₄ c₅ : Cursor} {es : List Event} {bound : Nat}
  {f : Function}

/-- What closes without a mismatch has consumed its written form. -/
theorem Closes.fits {α : Type} {p : Parser α} {a : α} {slots : α → List Slot}
    (hp : Closes p [] slots) (hr : p.run stack c = .ok ⟨.ok a, es, c'⟩) (hes : mismatches es = []) :
    List.Forall₂ Slot.Fits (slots a) (passed es) := by
  obtain ⟨-, -, w, hw, he⟩ := hp.edited hr
  have hedited := he []
  rw [recorded_eq_nil_iff.mpr hes] at hedited
  rw [hw]
  exact hedited.forall₂

/-- **What is known of a function that was read without a mismatch**: the tokens of its head,
and the run of its body. -/
theorem functionDecl_clean (h : (functionDecl bound).run stack c = .ok ⟨.ok f, es, c'⟩)
    (hes : mismatches es = []) :
    ∃ (head : f.Head) (body : List Event), passed es = head.tokens ++ passed body ∧
      mismatches body = [] ∧
      (block (statement bound)).run (.functionDecl :: stack) (passed body ++ c') =
        .ok ⟨.ok f.body, body, c'⟩ := by
  obtain ⟨before, body, cb, rfl, hb⟩ := functionDecl_body h
  obtain ⟨-, hbody⟩ : mismatches before = [] ∧ mismatches body = [] := by simpa using hes
  have hfits := (closes_functionDecl bound).fits h hes
  have hbodyFits : List.Forall₂ Slot.Fits (blockSlots f.body) (passed body) :=
    (closes_block (writes_statement bound)).fits hb hbody
  rw [f.slots_eq] at hfits
  obtain ⟨ts, us, hts, hhead, hus⟩ := fits_append_cases hfits
  obtain ⟨head, rfl⟩ := Function.Head.exists_tokens hhead
  have hlength : (passed body).length = us.length := by
    rw [← hus.length_eq, ← hbodyFits.length_eq]
  rw [passed_append] at hts
  obtain ⟨hbefore, rfl⟩ := List.append_inj' hts hlength
  refine ⟨head, body, by rw [passed_append, hbefore], hbody, ?_⟩
  rw [← ((Composed.block (.statement bound)).trail hb).eq_append]
  exact hb

/-- A name is its text, whichever token gave it. -/
theorem gives_name {follow : List Kind} {t : Token} {faults : List (Kind × Token)}
    (h : Gives (eatBefore .identifier follow) stack c t faults c') :
    Gives (name follow) stack c t.text faults c' :=
  h.bind_pure Token.text

/-- **A function is read part by part**: its name, its parameters between two parentheses and
its body. -/
theorem gives_functionDecl {keyword openList closeList : Token} {x : String}
    {ps : List Parameter} {b : Block} {F₁ F₂ F₃ F₄ F₅ : List (Kind × Token)}
    (hkeyword : keyword.kind = .keywordFunc)
    (hname : Gives (name afterName) (.functionDecl :: stack) c x F₁ c₁)
    (hopen : Gives (eatBefore .openParenthesis afterParameter) (.functionDecl :: stack) c₁
      openList F₂ c₂)
    (hlist : Gives (many (· == .identifier) parameter) (.functionDecl :: stack) c₂ ps F₃ c₃)
    (hclose : Gives (eatBefore .closeParenthesis afterParameters) (.functionDecl :: stack) c₃
      closeList F₄ c₄)
    (hbody : Gives (block (statement bound)) (.functionDecl :: stack) c₄ b F₅ c₅) :
    Gives (functionDecl bound) stack (keyword :: c) ⟨x, ps, b⟩
      (F₁ ++ (F₂ ++ (F₃ ++ (F₄ ++ F₅)))) c₅ :=
  Gives.inRule <| (gives_found hkeyword (by decide)).bind <| hname.bind <| hopen.bind <|
    hlist.bind <|
    hclose.bind <| hbody.bind_pure (Function.mk x ps)

/-! ### The parts as they should be -/

/-- The name of a function, as it was read. -/
theorem gives_head_name (h : f.Head) (follow : List Kind) :
    Gives (name follow) stack (h.name :: c) f.name [] c := by
  rw [← h.name_fits.2]
  exact gives_name (gives_found h.name_fits.1 (by decide))

theorem gives_head_openList (h : f.Head) (follow : List Kind) :
    Gives (eatBefore .openParenthesis follow) stack (h.openList :: c) h.openList [] c :=
  gives_found h.openList_kind (by decide)

theorem gives_head_closeList (h : f.Head) (follow : List Kind) :
    Gives (eatBefore .closeParenthesis follow) stack (h.closeList :: c) h.closeList [] c :=
  gives_found h.closeList_kind (by decide)

/-- Parameters end at the first token that is no name. -/
theorem gives_parameters {ps : List Parameter} {ts : List Token}
    (hts : List.Forall₂ Slot.Fits (ps.flatMap Parameter.slots) ts)
    (hc : ∀ t ∈ c.head?, t.kind ≠ .identifier) (n : Nat) :
    Gives (repeatWhile (· == .identifier) parameter n) stack (ts ++ c) ps [] c := by
  have hreads : Reads (· ≠ .identifier) (repeatWhile (· == .identifier) parameter n)
      (ps.flatMap Parameter.slots) ps := by
    refine reads_repeatWhile (fun k (hk : k = .identifier) => ⟨by simp [hk], trivial⟩)
      (fun k hk => ⟨by simpa using hk, trivial⟩) n
      fun q _ => ⟨reads_parameter q, opens_cons rfl⟩
  exact hreads.gives hts hc

end
end Parser
end FrontEnd
