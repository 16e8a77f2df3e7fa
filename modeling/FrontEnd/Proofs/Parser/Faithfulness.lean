/-
# The tree says what was read

A tree that comes out of a parse, written out, is what the parse consumed, but for one edit
for each mismatch that the parse recorded.

The argument goes through the rules with one judgement, `Writes`: what a parser adds to the
slots written so far has been consumed, up to edits that were recorded.  It is kept by
sequences and loops, so each rule is a walk through its parts.  The judgement is about runs
that do not meet the end of the text; `eofFree_run` says that a tree comes out of no other,
since a block is closed by its brace and the end of the text is never passed.
-/
import FrontEnd.Proofs.Parser.Slots

namespace FrontEnd

/-- The parser consumed the end of the text, or recorded a mismatch there. -/
def Event.MeetsEof : Event → Prop
  | .enter .. => False
  | .consume t => t.kind = .eof
  | .mismatch _ t _ => t.kind = .eof

/-- The events do not meet the end of the text. -/
def EofFree (events : List Event) : Prop := ∀ e ∈ events, ¬ e.MeetsEof

theorem eofFree_append {es es' : List Event} : EofFree (es ++ es') ↔ EofFree es ∧ EofFree es' := by
  simp [EofFree, or_imp, forall_and]

theorem eofFree_enter_cons {rule : Rule} {depth : Nat} {t : Token} {es : List Event} :
    EofFree (.enter rule depth t :: es) ↔ EofFree es := by
  simp [EofFree, Event.MeetsEof]

/-- A trail that meets the end of the text stops there. -/
theorem Trail.eofFree {c c' : Cursor} {es : List Event} (h : Trail c es c')
    (hc : ∀ t ∈ c'.head?, t.kind ≠ .eof) : EofFree es := by
  rintro e he
  obtain ⟨before, after, rfl⟩ := List.append_of_mem he
  obtain ⟨c₁, -, h₁⟩ := h.of_append
  cases h₁ with
  | enter => exact id
  | @consume t rest _ _ h₂ =>
    intro (ht : t.kind = .eof)
    rw [Parser.advance_eq_self ht] at h₂
    exact hc t (by rw [h₂.eq_of_eof ht]; rfl) ht
  | @mismatch t rest _ _ _ _ h₂ =>
    intro (ht : t.kind = .eof)
    exact hc t (by rw [h₂.eq_of_eof ht]; rfl) ht

namespace Parser

section
variable {α β : Type} {on : Token → Prop} {before : List Slot}

/-! ## 1. The judgement -/

/-- From a lookahead that passes, a success of the parser adds to the slots written `before`
what it consumed, up to edits that it recorded. -/
structure Writes (on : Token → Prop) (p : Parser α) (before : List Slot)
    (slots : α → List Slot) : Prop where
  composed : Composed p
  edited : ∀ {stack c es c' a}, (∀ t ∈ c.head?, on t) → p.run stack c = .ok ⟨.ok a, es, c'⟩ →
    EofFree es →
    ∃ written, slots a = before ++ written ∧ Edited c' written (passed es) (recorded es)

/-- Every token passes. -/
def anyToken (_ : Token) : Prop := True

variable {slots : α → List Slot}

/-- What is written on any token is written on some. -/
theorem Writes.anywhere {p : Parser α} (h : Writes anyToken p before slots) :
    Writes on p before slots :=
  ⟨h.composed, fun _ => h.edited fun _ _ => trivial⟩

/-- More may be written before. -/
theorem Writes.prepend {p : Parser α} (h : Writes on p before slots) (first : List Slot) :
    Writes on p (first ++ before) fun a => first ++ slots a := by
  refine ⟨h.composed, fun hon hr hfree => ?_⟩
  obtain ⟨w, hw, he⟩ := h.edited hon hr hfree
  exact ⟨w, by rw [hw, List.append_assoc], he⟩

/-- What a parser writes does not depend on what was written before. -/
theorem Writes.after {p : Parser α} (h : Writes on p [] slots) (before : List Slot) :
    Writes on p before fun a => before ++ slots a := by
  simpa using h.prepend before

theorem writes_pure {a : α} (h : slots a = before) : Writes on (pure a) before slots := by
  refine ⟨.pure a, fun _ hr _ => ?_⟩
  cases hr
  exact ⟨[], by simpa using h, .nil⟩

/-- A parser that gives no answer writes whatever is asked, since it is asked of successes only. -/
theorem writes_outOfBound : Writes on outOfBound before slots :=
  ⟨.outOfBound, fun _ hr => by cases hr⟩

/-- So does one that stops the parse. -/
theorem writes_unhandled (t : Token) : Writes on (unhandled t) before slots :=
  ⟨.unhandled t, fun _ hr => by cases hr⟩

/-- **Writing goes on where the first part stopped.**  Its slots are those before the second part.
-/
theorem Writes.bind {p : Parser β} {f : β → Parser α} {mid : β → List Slot}
    (hp : Writes on p before mid) (hf : ∀ b, Writes anyToken (f b) (mid b) slots) :
    Writes on (p >>= f) before slots := by
  refine ⟨.bind hp.composed fun b => (hf b).composed, fun hon hr hfree => ?_⟩
  obtain ⟨b, es₁, c₁, es₂, h₁, h₂, rfl⟩ := run_bind_success hr
  obtain ⟨hfree₁, hfree₂⟩ := eofFree_append.mp hfree
  obtain ⟨w₁, hw₁, he₁⟩ := hp.edited hon h₁ hfree₁
  obtain ⟨w₂, hw₂, he₂⟩ := (hf b).edited (fun _ _ => trivial) h₂ hfree₂
  refine ⟨w₁ ++ w₂, by rw [hw₂, hw₁, List.append_assoc], ?_⟩
  rw [((hf b).composed.trail h₂).eq_append] at he₁
  rw [passed_append, recorded_append]
  exact he₁.append he₂

/-- What is written may depend on the next token. -/
theorem writes_lookahead_bind {f : Token → Parser α}
    (hf : ∀ t, Writes (· = t) (f t) before slots) : Writes on (lookahead >>= f) before slots := by
  refine ⟨.bind .lookahead fun t => (hf t).composed, fun hon hr hfree => ?_⟩
  obtain ⟨t, es₁, c₁, es₂, h₁, h₂, rfl⟩ := run_bind_success hr
  obtain ⟨u, rest, rfl, h₁⟩ := run_lookahead_cases h₁
  cases h₁
  exact (hf t).edited (by simp) h₂ hfree

/-- A token that is consumed fits the slot written for it. -/
theorem writes_advance_bind {f : Token → Parser α} (hc : ∀ t, Composed (f t))
    (hf : ∀ t, on t → ∃ s : Slot, s.Fits t ∧ Writes anyToken (f t) (before ++ [s]) slots) :
    Writes on (advance >>= f) before slots := by
  refine ⟨.bind .advance hc, fun hon hr hfree => ?_⟩
  obtain ⟨t, es₁, c₁, es₂, h₁, h₂, rfl⟩ := run_bind_success hr
  obtain ⟨u, rest, rfl, h₁⟩ := run_advance_cases h₁
  cases h₁
  obtain ⟨hfree₁, hfree₂⟩ := eofFree_append.mp hfree
  have ht : t.kind ≠ .eof := hfree₁ (.consume t) (by simp)
  obtain ⟨s, hs, hw⟩ := hf t (hon t rfl)
  obtain ⟨w, hw, he⟩ := hw.edited (fun _ _ => trivial) h₂ hfree₂
  refine ⟨s :: w, by simpa using hw, ?_⟩
  rw [List.singleton_append, passed_consume_cons ht, recorded_consume_cons]
  exact .keep hs he

/-- What `eatBefore` takes, or leaves, is edited at one slot at most. -/
theorem Eaten.edited {expected : Kind} {follow : List Kind} {stack : List Rule} {c c' : Cursor}
    {t : Token} {es : List Event} {s : Slot}
    (h : Eaten expected follow stack c ⟨.ok t, es, c'⟩) (hk : s.kind = expected)
    (hfit : t.kind = expected → s.Fits t) (hshow : s.Shows t) (hfree : EofFree es) :
    Edited c' [s] (passed es) (recorded es) := by
  subst hk
  cases h with
  | found ht =>
    have heof : t.kind ≠ .eof := hfree (.consume t) (by simp)
    rw [passed_consume_cons heof]
    exact .keep (hfit ht) .nil
  | standIn ht =>
    have heof : t.kind ≠ .eof := hfree (.consume t) (by simp)
    rw [passed_mismatch_cons, passed_consume_cons heof, recorded_mismatch_cons]
    exact .standIn hshow ht rfl .nil
  | missing ht => exact .missing hshow ht rfl rfl .nil

/-- **A token is taken up to one edit.**  The expected token is written in the tree; the one that
was consumed fits it, stands in for it, or is not there, and the last two were recorded. -/
theorem writes_eatBefore (expected : Kind) (follow : List Kind)
    (h : Inner follow) :
    Writes on (eatBefore expected follow) before fun _ => before ++ [.fixed expected] :=
  ⟨.eatBefore _ _ h, fun _ hr hfree =>
    ⟨_, rfl, (run_eatBefore_cases hr).edited rfl id trivial hfree⟩⟩

theorem writes_eat (expected : Kind) :
    Writes on (eat expected) before fun _ => before ++ [.fixed expected] :=
  writes_eatBefore expected [] (by decide)

/-- Of a name the text is written, also if another token stood in for it. -/
theorem writes_name (follow : List Kind) (h : Inner follow) :
    Writes on (name follow) before fun x => before ++ [.text .identifier x] := by
  refine ⟨.name follow h, fun _ hr hfree => ?_⟩
  obtain ⟨t, es₁, c₁, es₂, h₁, h₂, rfl⟩ := run_bind_success hr
  cases h₂
  rw [List.append_nil] at hfree ⊢
  exact ⟨_, rfl, (run_eatBefore_cases h₁).edited rfl (fun hk => ⟨hk, rfl⟩) rfl hfree⟩

theorem Writes.inRule {p : Parser α} (rule : Rule) (h : Writes on p before slots) :
    Writes on (inRule rule p) before slots := by
  refine ⟨.inRule rule h.composed, fun hon hr hfree => ?_⟩
  obtain ⟨t, rest, ⟨o, es, c'⟩, rfl, hb, hr⟩ := run_inRule_cases hr
  cases hr
  obtain ⟨w, hw, he⟩ := h.edited hon hb (eofFree_enter_cons.mp hfree)
  exact ⟨w, hw, he⟩

/-- A loop writes one round after the other. -/
theorem writes_repeatWhile {item : Parser α} (test : Kind → Bool)
    (h : Writes anyToken item [] slots) :
    ∀ n {before}, Writes anyToken (repeatWhile test item n) before
      fun as => before ++ as.flatMap slots
  | 0, _ => writes_outOfBound
  | n + 1, before => by
    refine writes_lookahead_bind fun t => ?_
    split
    · refine (h.after before).anywhere.bind fun a => ?_
      refine (writes_repeatWhile test h n).bind fun as => writes_pure ?_
      simp
    · exact writes_pure (by simp)

theorem writes_many {item : Parser α} (test : Kind → Bool) (h : Writes anyToken item [] slots) :
    Writes anyToken (many test item) before fun as => before ++ as.flatMap slots :=
  ⟨.many test h.composed, fun hon hr =>
    (writes_repeatWhile test h _).edited hon (run_of_many hr)⟩

end

/-! ## 2. The rules -/

section
variable {s e : Parser Node} {before : List Slot}

/-- The name of what is called was written before the call began. -/
theorem writes_call (callee : String) (he : Writes anyToken e [] Node.slots) :
    Writes anyToken (call e callee) [.text .identifier callee] Node.slots := by
  refine ((writes_eat _).bind fun _ => (writes_many _ he).bind fun as =>
    (writes_eat _).bind fun _ => writes_pure ?_).inRule _
  simp [slots_call, argumentSlots]

/-- Each kind of operand is written as it was read, garbage as the token that it is. -/
theorem writes_unary (he : Writes anyToken e [] Node.slots) :
    Writes anyToken (unary e) [] Node.slots := by
  refine Writes.inRule _ (writes_advance_bind (fun token => ?_) fun token _ => ?_)
  · split
    · exact .bind .lookahead fun _ => .ite (.call _ he.composed) (.pure _)
    all_goals exact .pure _
  · split
    · rename_i hk
      refine ⟨.text .identifier token.text, ⟨hk, rfl⟩, writes_lookahead_bind fun next => ?_⟩
      split
      · exact (writes_call token.text he).anywhere
      · exact writes_pure rfl
    · rename_i hk
      exact ⟨.text .integerLiteral token.text, ⟨hk, rfl⟩, writes_pure rfl⟩
    · rename_i hk
      exact ⟨.text .floatLiteral token.text, ⟨hk, rfl⟩, writes_pure rfl⟩
    · rename_i hk
      exact ⟨.text .stringLiteral token.text, ⟨hk, rfl⟩, writes_pure rfl⟩
    · exact ⟨.token token, rfl, writes_pure rfl⟩

/-- An operand alone, or two with the operator that was found between them. -/
theorem writes_expression : ∀ bound, Writes anyToken (expression bound) [] Node.slots
  | 0 => writes_outOfBound
  | bound + 1 => by
    have operand := writes_unary (writes_expression bound)
    refine (operand.bind fun left => writes_lookahead_bind fun t => ?_).inRule _
    split
    · rename_i operator ho
      refine writes_advance_bind (fun _ => .bind operand.composed fun _ => .pure _) ?_
      rintro u rfl
      refine ⟨.fixed operator.kind, Operator.ofKind?_eq_some_iff.mp ho, ?_⟩
      refine (operand.after _).bind fun right => writes_pure ?_
      simp [Node.slots]
    · exact writes_pure rfl

/-- A block is its statements between braces. -/
theorem writes_block (hs : Writes anyToken s [] Node.slots) :
    Writes anyToken (block s) before fun b => before ++ blockSlots b := by
  refine ((writes_eatBefore _ _ (by decide)).bind fun _ => (writes_many _ hs).bind fun b =>
    (writes_eat _).bind fun _ => writes_pure ?_).inRule _
  simp [blockSlots]

/-- The second branch is written if `else` was read. -/
theorem writes_ifStmt (hs : Writes anyToken s [] Node.slots)
    (he : Writes anyToken e [] Node.slots) : Writes anyToken (ifStmt s e) [] Node.slots := by
  refine ((writes_eat _).bind fun _ => (he.after _).bind fun condition =>
    (writes_block hs).bind fun t => writes_lookahead_bind fun next => ?_).inRule _
  split
  · refine (writes_eat _).bind fun _ => (writes_block hs).bind fun b => writes_pure ?_
    simp [slots_conditional_some]
  · exact writes_pure (by simp [slots_conditional_none])

theorem writes_returnStmt (he : Writes anyToken e [] Node.slots) :
    Writes anyToken (returnStmt e) [] Node.slots := by
  refine ((writes_eat _).bind fun _ => (he.after _).bind fun v => writes_pure ?_).inRule _
  simp [Node.slots]

/-- A chained assignment writes the name that the expression before it has written. -/
theorem writes_assignment (hs : Writes anyToken s [] Node.slots)
    (he : Writes anyToken e [] Node.slots) :
    ∀ bound target, Writes anyToken (assignment s e bound target) [.text .identifier target]
      Node.slots
  | 0, _ => writes_outOfBound
  | bound + 1, target => by
    refine ((writes_eat _).bind fun _ => writes_lookahead_bind fun start => ?_).inRule _
    split
    · exact (hs.after _).anywhere.bind fun v => writes_pure (by simp [Node.slots])
    · refine (he.after _).anywhere.bind fun v => writes_lookahead_bind fun next => ?_
      split
      · rename_i name _
        refine ((writes_assignment hs he bound name).prepend _).anywhere.bind fun v =>
          writes_pure ?_
        simp [Node.slots]
      · exact writes_pure (by simp [Node.slots])

/-- A name and a parenthesis, or a name and an equals sign; anything else has stopped the parse. -/
theorem writes_identTail (hs : Writes anyToken s [] Node.slots)
    (he : Writes anyToken e [] Node.slots) (bound : Nat) (name : String) :
    Writes anyToken (identTail s e bound name) [.text .identifier name] Node.slots := by
  refine (writes_lookahead_bind fun t => ?_).inRule _
  split
  · exact (writes_call name he).anywhere
  · exact (writes_assignment hs he bound name).anywhere
  · exact writes_unhandled t

/-- The cases are those of the first token, and each form is written by its rule. -/
theorem writes_statement : ∀ bound, Writes anyToken (statement bound) [] Node.slots
  | 0 => writes_outOfBound
  | bound + 1 => by
    have hs := writes_statement bound
    have he := writes_expression bound
    refine (writes_lookahead_bind fun t => ?_).inRule _
    split
    · exact (writes_name _ (by decide)).bind fun name => writes_identTail hs he bound name
    · exact (writes_ifStmt hs he).anywhere
    · exact (writes_returnStmt he).anywhere
    · exact writes_unhandled t

theorem writes_parameter : Writes anyToken parameter [] Parameter.slots :=
  ((writes_name _ (by decide)).bind fun _ => (writes_name _ (by decide)).bind fun _ =>
    writes_pure rfl).inRule _

end

/-! ## 3. What a closing brace ends

A success that ends with a closing brace has not met the end of the text, and its edits do
not depend on what follows the brace. -/

section
variable {α β : Type} {before : List Slot} {slots : α → List Slot}

/-- As `Writes`, for every success, which ends with a closing brace. -/
structure Closes (p : Parser α) (before : List Slot) (slots : α → List Slot) : Prop where
  composed : Composed p
  edited : ∀ {stack c es c' a}, p.run stack c = .ok ⟨.ok a, es, c'⟩ →
    EofFree es ∧ (∃ t ∈ (passed es).getLast?, t.kind = .closeScope) ∧
      ∃ written, slots a = before ++ written ∧
        ∀ after, Edited after written (passed es) (recorded es)

/-- Entering a rule writes nothing. -/
theorem Closes.inRule {p : Parser α} (rule : Rule) (h : Closes p before slots) :
    Closes (inRule rule p) before slots := by
  refine ⟨.inRule rule h.composed, fun hr => ?_⟩
  obtain ⟨t, rest, ⟨o, es, c'⟩, rfl, hb, hr⟩ := run_inRule_cases hr
  cases hr
  obtain ⟨hfree, hlast, w, hw, he⟩ := h.edited hb
  exact ⟨eofFree_enter_cons.mpr hfree, hlast, w, hw, he⟩

/-- Putting a tree together writes nothing either. -/
theorem Closes.bind_pure {p : Parser β} {mid : β → List Slot} {g : β → α}
    (h : Closes p before mid) (hg : ∀ b, slots (g b) = mid b) :
    Closes (p >>= fun b => pure (g b)) before slots := by
  refine ⟨.bind h.composed fun b => .pure _, fun hr => ?_⟩
  obtain ⟨b, es₁, c₁, es₂, h₁, h₂, rfl⟩ := run_bind_success hr
  cases h₂
  rw [List.append_nil]
  obtain ⟨hfree, hlast, w, hw, he⟩ := h.edited h₁
  exact ⟨hfree, hlast, w, by rw [hg, hw], he⟩

/-- What comes before a success that closes has not met the end of the text either. -/
theorem Writes.bind_closes {p : Parser β} {f : β → Parser α} {mid : β → List Slot}
    (hp : Writes anyToken p before mid) (hf : ∀ b, Closes (f b) (mid b) slots) :
    Closes (p >>= f) before slots := by
  refine ⟨.bind hp.composed fun b => (hf b).composed, fun {stack c es c' a} hr => ?_⟩
  obtain ⟨b, es₁, c₁, es₂, h₁, h₂, rfl⟩ := run_bind_success hr
  obtain ⟨hfree₂, ⟨brace, hlast, hbrace⟩, w₂, hw₂, he₂⟩ := (hf b).edited h₂
  have ht₂ := ((hf b).composed.trail h₂).eq_append
  obtain ⟨u, us, hu⟩ : ∃ u us, passed es₂ = u :: us :=
    List.exists_cons_of_ne_nil fun hn => by simp [hn] at hlast
  -- the second part begins at a token that is passed, and after the end of the text none is
  have hfree₁ : EofFree es₁ := by
    refine (hp.composed.trail h₁).eofFree fun t hc => ?_
    rw [ht₂, hu] at hc
    cases hc
    have hmem : u ∈ passed es₂ := by simp [hu]
    exact kind_ne_eof_of_mem_passed hmem
  obtain ⟨w₁, hw₁, he₁⟩ := hp.edited (fun _ _ => trivial) h₁ hfree₁
  refine ⟨eofFree_append.mpr ⟨hfree₁, hfree₂⟩, ⟨brace, ?_, hbrace⟩, w₁ ++ w₂,
    by rw [hw₂, hw₁, List.append_assoc], fun after => ?_⟩
  · rw [passed_append, List.getLast?_append, hlast]
    rfl
  · rw [passed_append, recorded_append]
    exact (he₁.congr_after (by rw [ht₂, hu]; rfl)).append (he₂ after)

/-- A loop ends at a lookahead that fails its test. -/
theorem repeatWhile_stop {item : Parser α} {test : Kind → Bool} {stack : List Rule}
    {c' : Cursor} : ∀ {n c es as}, (repeatWhile test item n).run stack c = .ok ⟨.ok as, es, c'⟩ →
      ∃ t rest, c' = t :: rest ∧ test t.kind = false
  | n, c, es, as, h => by
    obtain ⟨t, rest, rfl, ⟨ht, -, -, rfl⟩ | ⟨-, m, a, as', es₁, c₁, es₂, rfl, -, -, -, has⟩⟩ :=
      run_repeatWhile_cases h
    · exact ⟨t, rest, rfl, ht⟩
    · exact repeatWhile_stop has

/-- Statements and the brace that ends them. -/
theorem closes_statements {s : Parser Node} {slots : Block → List Slot}
    (hs : Writes anyToken s [] Node.slots)
    (hb : ∀ b, slots b = before ++ b.flatMap Node.slots ++ [.fixed .closeScope]) :
    Closes (do
        let statements ← many (fun k => k != .closeScope) s
        let _ ← eat .closeScope
        return statements) before slots := by
  refine ⟨.bind (.many _ hs.composed) fun _ => .bind (.eat _) fun _ => .pure _,
    fun {stack c es c' b} hr => ?_⟩
  obtain ⟨b', es₁, c₁, es₂, h₁, h₂, rfl⟩ := run_bind_success hr
  obtain ⟨t, es₂, c₂, es₃, h₂, h₃, rfl⟩ := run_bind_success h₂
  cases h₃
  obtain ⟨u, rest, rfl, hu⟩ := repeatWhile_stop (run_of_many h₁)
  have hk : u.kind = .closeScope := by simpa using hu
  have heof : u.kind ≠ .eof := by simp [hk]
  -- the brace is there, so it is what the last step takes
  cases run_eatBefore_cases h₂ with
  | standIn hne => exact absurd hk hne
  | missing hne => exact absurd hk hne
  | found _ =>
    have hfree₁ : EofFree es₁ := by
      refine (Composed.trail (.many _ hs.composed) h₁).eofFree fun v hv => ?_
      cases hv
      exact heof
    have hmany : Writes anyToken (many (fun k => k != .closeScope) s) before
        fun b => before ++ b.flatMap Node.slots := writes_many _ hs
    obtain ⟨w, hw, he⟩ := hmany.edited (fun _ _ => trivial) h₁ hfree₁
    refine ⟨?_, ⟨t, ?_, hk⟩, w ++ [.fixed .closeScope], ?_, fun after => ?_⟩
    · refine eofFree_append.mpr ⟨hfree₁, ?_⟩
      simpa [EofFree, Event.MeetsEof] using heof
    · simp [passed_consume_cons heof]
    · rw [hb, hw, List.append_assoc]
    · rw [List.append_nil, passed_append, recorded_append, passed_consume_cons heof]
      exact .append (he.congr_after rfl) (.keep hk .nil)

/-- **A block that was read ends with its brace.**  So the end of the text was not met, since
nothing after it is passed. -/
theorem closes_block {s : Parser Node} (hs : Writes anyToken s [] Node.slots) :
    Closes (block s) before fun b => before ++ blockSlots b := by
  refine ((writes_eatBefore _ _ (by decide)).bind_closes fun _ => ?_).inRule _
  exact closes_statements hs fun b => by simp [blockSlots]

/-- A function ends with the brace of its body. -/
theorem closes_functionDecl (bound : Nat) : Closes (functionDecl bound) [] Function.slots := by
  refine ((writes_eat _).bind_closes fun _ => (writes_name _ (by decide)).bind_closes fun _ =>
    (writes_eatBefore _ _ (by decide)).bind_closes fun _ => (writes_many _ writes_parameter).bind_closes
      fun _ => (writes_eatBefore _ _ (by decide)).bind_closes fun _ =>
        (closes_block (writes_statement bound)).bind_pure fun _ => ?_).inRule _
  simp [Function.slots]

/-- A loop over successes that close does not meet the end of the text. -/
theorem edited_repeatWhile {item : Parser α} {test : Kind → Bool} {stack : List Rule}
    {c' : Cursor} (h : Closes item [] slots) :
    ∀ {n c es as}, (repeatWhile test item n).run stack c = .ok ⟨.ok as, es, c'⟩ →
      EofFree es ∧ ∀ after, Edited after (as.flatMap slots) (passed es) (recorded es)
  | n, c, es, as, hr => by
    obtain ⟨t, rest, rfl, ⟨-, rfl, rfl, rfl⟩ | ⟨-, m, a, as', es₁, c₁, es₂, rfl, rfl, rfl, ha, has⟩⟩ :=
      run_repeatWhile_cases hr
    · exact ⟨by simp [EofFree], fun after => .nil⟩
    · obtain ⟨hfree₁, -, w, hw, he₁⟩ := h.edited ha
      obtain ⟨hfree₂, he₂⟩ := edited_repeatWhile h has
      refine ⟨eofFree_append.mpr ⟨hfree₁, hfree₂⟩, fun after => ?_⟩
      rw [passed_append, recorded_append, List.flatMap_cons, hw, List.nil_append]
      exact (he₁ _).append (he₂ after)

/-- A program does not meet the end of the text before it is complete. -/
theorem edited_program {bound : Nat} {stack : List Rule} {c c' : Cursor} {es : List Event}
    {p : Program} (h : (program bound).run stack c = .ok ⟨.ok p, es, c'⟩) :
    EofFree es ∧ ∀ after, Edited after p.slots (passed es) (recorded es) := by
  obtain ⟨t, rest, ⟨o, es, c'⟩, rfl, hb, hr⟩ := run_inRule_cases h
  cases hr
  obtain ⟨fs, es₁, c₁, es₂, h₁, h₂, rfl⟩ := run_bind_success hb
  cases h₂
  rw [run_many] at h₁
  obtain ⟨hfree, hedited⟩ := edited_repeatWhile (closes_functionDecl bound) h₁
  rw [List.append_nil]
  exact ⟨eofFree_enter_cons.mpr hfree, hedited⟩

end

end Parser

/-! ## 4. Trees of streams -/

/-- **The tree says what was read.**  If a parse answers with a tree, the tokens that it
consumed are the written form of the tree, but for one edit per mismatch that it recorded, in
the order of the diagnostics and each at a slot of its own: the slot holds the token that
was found instead, or none and the token that was found is the next one consumed.  So
without a mismatch they are the written form: the kinds are those of the slots, and so are
the texts of names and literals and the tokens kept as garbage. -/
theorem edited_run {s : TokenStream} {p : Program} (h : s.run.outcome = .ok p) :
    ∃ consumed, s.tokens = consumed ++ s.run.cursor ∧
      Edited [] p.slots consumed s.run.diagnostics ∧
      (s.run.diagnostics = [] → List.Forall₂ Slot.Fits p.slots consumed) := by
  have hr := s.program_run
  generalize s.run = r at h hr ⊢
  obtain ⟨o, es, c'⟩ := r
  cases h
  have he := (Parser.edited_program hr).2 []
  refine ⟨passed es, ((Parser.Composed.program _).trail hr).eq_append, he, fun hn => ?_⟩
  rw [Reply.diagnostics] at hn
  exact (hn ▸ he).forall₂

/-- A parameter list that is not closed. -/
theorem edited_run_open_list :
    let s := TokenStream.ofTokens "" [⟨.keywordFunc, "func", ⟨0, 4⟩⟩, ⟨.identifier, "f", ⟨5, 1⟩⟩,
      ⟨.openParenthesis, "(", ⟨6, 1⟩⟩, ⟨.openScope, "\x7b", ⟨8, 1⟩⟩, ⟨.closeScope, "\x7d", ⟨10, 1⟩⟩] .empty []
    let p : Program := ⟨[⟨"f", [], []⟩]⟩
    s.run.outcome = .ok p ∧
      ∃ consumed, s.tokens = consumed ++ s.run.cursor ∧
        Edited [] p.slots consumed s.run.diagnostics ∧
        (s.run.diagnostics = [] → List.Forall₂ Slot.Fits p.slots consumed) :=
  ⟨by decide, edited_run (by decide)⟩

end FrontEnd
