/-
# A wrong brace after `else`

In a statement that is read without a mismatch, a brace that opens a block after an `else` may
be replaced by another token.  The statement stays the same, and the token is one mismatch.

Such braces stand anywhere in a statement, so this goes through the rules: `Mends` says it of
a parser and is kept by sequences and loops.  A sequence can be cut only where its first part
does not end with `else`, since the token after it is looked at there.  No node ends with
`else` (`Node.not_endsInElse`), and a condition holds no brace
(`Node.Shaped.not_mem_openScope`), so the only place that is left is the block itself.

* `OpensElse`: where such a brace is in the written form;
* `mends_block`, `mends_statement`: blocks and statements are mended.
-/
import FrontEnd.Proofs.Parser.Recovery

namespace FrontEnd

/-! ## 1. Where `else` stands -/

/-- The slot at the index is an `else`, and the next one a brace. -/
def OpensElse (slots : List Slot) (i : Nat) : Prop :=
  slots[i]? = some (.fixed .keywordElse) ∧ slots[i + 1]? = some (.fixed .openScope)

/-- The last of the slots is an `else`. -/
def EndsInElse (slots : List Slot) : Prop := slots.getLast? = some (.fixed .keywordElse)

theorem not_endsInElse_nil : ¬ EndsInElse [] := by simp [EndsInElse]

theorem not_endsInElse_snoc (slots : List Slot) {s : Slot} (h : s ≠ .fixed .keywordElse) :
    ¬ EndsInElse (slots ++ [s]) := by
  simpa [EndsInElse] using h

/-- Slots end with `else` only if the last that are not empty do. -/
theorem not_endsInElse_append {ss ss' : List Slot} (h : ¬ EndsInElse ss) (h' : ¬ EndsInElse ss') :
    ¬ EndsInElse (ss ++ ss') := by
  cases ss' with
  | nil => rwa [List.append_nil]
  | cons s ss' => rwa [EndsInElse, List.getLast?_append_of_ne_nil _ (List.cons_ne_nil s ss')]

/-- No node ends with `else`. -/
theorem Node.not_endsInElse : ∀ n : Node, ¬ EndsInElse n.slots
  | .conditional c t none => by
    rw [slots_conditional_none, blockSlots, ← List.append_assoc]
    exact not_endsInElse_snoc _ (by decide)
  | .conditional c t (some e) => by
    rw [slots_conditional_some, blockSlots, blockSlots, ← List.append_assoc]
    exact not_endsInElse_snoc _ (by decide)
  | .returned v => by
    have h := not_endsInElse_append (not_endsInElse_snoc [] (s := .fixed .keywordReturn) (by decide))
      v.not_endsInElse
    exact h
  | .binary l o r => by
    have h := not_endsInElse_append (not_endsInElse_snoc l.slots (s := .fixed o.kind)
      (by cases o <;> decide)) r.not_endsInElse
    rwa [List.append_assoc] at h
  | .identifier _ => not_endsInElse_snoc [] (by simp)
  | .literal _ _ => not_endsInElse_snoc [] (by simp)
  | .call f as => by
    rw [slots_call, argumentSlots, ← List.cons_append]
    exact not_endsInElse_snoc _ (by decide)
  | .assignment x v => by
    have h := not_endsInElse_append (not_endsInElse_snoc [.text .identifier x]
      (s := .fixed .assignment) (by decide)) v.not_endsInElse
    exact h
  | .garbage _ => not_endsInElse_snoc [] (by simp)

/-- In an expression there is no brace but as garbage. -/
theorem Node.Shaped.not_mem_openScope {stray : Token → Prop} {form : Form} {n : Node}
    (h : n.Shaped stray form) (hform : form ≠ .statement) : .fixed .openScope ∉ n.slots := by
  induction h with
  | identifier | literal | garbage => simp [Node.slots]
  | @call f as _ ih =>
    have := fun a ha => ih a ha (by decide)
    simpa [slots_call, argumentSlots] using this
  | single _ ih => exact ih (by decide)
  | binary o _ _ ihl ihr =>
    have ho : o.kind ≠ .openScope := by cases o <;> decide
    simp [Node.slots, ihl (by decide), ihr (by decide), ho.symm]
  | callAlone | conditional | returned | assignExpression | assignStatement => exact absurd rfl hform

namespace OpensElse

variable {ss ss' : List Slot} {i : Nat}

/-- Such a brace stands in the first part if it does not stand at its end. -/
theorem of_append_left (h : OpensElse (ss ++ ss') i) (hi : i + 1 < ss.length) : OpensElse ss i := by
  rw [OpensElse, List.getElem?_append_left (by omega), List.getElem?_append_left hi] at h
  exact h

/-- A brace after an `else` that is not the last of the first slots belongs to the others with
its `else`. -/
theorem le_of_not_endsInElse (h : OpensElse (ss ++ ss') i) (hi : ss.length ≤ i + 1)
    (hss : ¬ EndsInElse ss) : ss.length ≤ i := by
  rcases Nat.lt_or_ge i ss.length with hlt | hge
  · have hlast : i = ss.length - 1 := by omega
    rw [OpensElse, List.getElem?_append_left hlt, hlast, ← List.getLast?_eq_getElem?] at h
    exact absurd h.1 hss
  · exact hge

/-- It stands behind whatever holds no `else`. -/
theorem le_of_not_mem (h : OpensElse (ss ++ ss') i) (hss : .fixed .keywordElse ∉ ss) :
    ss.length ≤ i := by
  refine Nat.le_of_not_lt fun hlt => hss ?_
  rw [OpensElse, List.getElem?_append_left hlt] at h
  exact List.mem_of_getElem? h.1

/-- Otherwise it stands in the second part. -/
theorem of_append_right (h : OpensElse (ss ++ ss') i) (hi : ss.length ≤ i) :
    OpensElse ss' (i - ss.length) := by
  rw [OpensElse, List.getElem?_append_right hi, List.getElem?_append_right (by omega),
    Nat.sub_add_comm hi] at h
  exact h

end OpensElse

namespace Parser

/-! ## 2. The judgement -/

section
variable {α β : Type} {before : List Slot} {slots : α → List Slot}

/-- As `Writes`.  And where a success without mismatches wrote a brace after an `else`, another
token in the place of this brace is the only mismatch, and the answer is the same. -/
structure Mends (p : Parser α) (before : List Slot) (slots : α → List Slot) : Prop where
  writes : Writes anyToken p before slots
  mends : ∀ {stack c a es c' i x d}, p.run stack c = .ok ⟨.ok a, es, c'⟩ → mismatches es = [] →
    EofFree es → OpensElse (slots a) i → before.length ≤ i + 1 → x.kind ≠ .openScope →
    x.kind ≠ .eof → d.head? = c'.head? →
    Gives p stack ((passed es).set (i + 1 - before.length) x ++ d) a [(.openScope, x)] d

/-- Without mismatches a token is consumed for each slot that is written. -/
theorem Writes.clean {p : Parser α} {stack : List Rule} {c c' : Cursor} {a : α} {es : List Event}
    (h : Writes anyToken p before slots) (hr : p.run stack c = .ok ⟨.ok a, es, c'⟩)
    (hes : mismatches es = []) (hfree : EofFree es) :
    ∃ written, slots a = before ++ written ∧ written.length = (passed es).length := by
  obtain ⟨w, hw, he⟩ := h.edited (fun _ _ => trivial) hr hfree
  rw [recorded_eq_nil_iff.mpr hes] at he
  exact ⟨w, hw, he.forall₂.length_eq⟩

/-- What writes no brace has none to be mended. -/
theorem mends_quiet {p : Parser α} (hw : Writes anyToken p before slots)
    (hquiet : Yields p fun a => ∀ w, slots a = before ++ w → .fixed .openScope ∉ w) :
    Mends p before slots := by
  refine ⟨hw, fun hr hes hfree helse hi _ _ _ => ?_⟩
  obtain ⟨w, hw, -⟩ := hw.clean hr hes hfree
  have hbrace := helse.2
  rw [hw, List.getElem?_append_right hi] at hbrace
  exact absurd (List.mem_of_getElem? hbrace) (hquiet _ _ _ _ _ hr w hw)

theorem mends_pure {a : α} (h : slots a = before) : Mends (pure a) before slots :=
  mends_quiet (writes_pure h) <| yields_pure fun w hw => by
    rw [h] at hw
    simp [List.self_eq_append_right.mp hw]

/-- A parser without an answer has nothing to mend. -/
theorem mends_outOfBound : Mends outOfBound before slots :=
  mends_quiet writes_outOfBound yields_outOfBound

theorem mends_unhandled (t : Token) : Mends (unhandled t) before slots :=
  mends_quiet (writes_unhandled t) fun _ _ _ _ _ hr => by cases hr

/-- A name is no brace. -/
theorem mends_name (follow : List Kind) (h : Inner follow) :
    Mends (name follow) before fun x => before ++ [.text .identifier x] :=
  mends_quiet (writes_name follow h) fun _ _ x _ _ _ w hw => by
    rw [← List.append_cancel_left hw]
    simp

/-- In a sequence the second part looks at the token after those of the first.  This is never
the one that is replaced, if the first part does not end with `else`. -/
theorem Mends.bind {p : Parser β} {f : β → Parser α} {mid : β → List Slot}
    (hp : Mends p before mid) (hf : ∀ b, Mends (f b) (mid b) slots)
    (hmid : ∀ b, ¬ EndsInElse (mid b)) : Mends (p >>= f) before slots := by
  refine ⟨hp.writes.bind fun b => (hf b).writes, ?_⟩
  intro stack c a es c' i x d hr hes hfree helse hi hx heof hd
  obtain ⟨b, es₁, c₁, es₂, h₁, h₂, rfl⟩ := run_bind_success hr
  obtain ⟨hfree₁, hfree₂⟩ := eofFree_append.mp hfree
  obtain ⟨hes₁, hes₂⟩ : mismatches es₁ = [] ∧ mismatches es₂ = [] := by simpa using hes
  -- without mismatches as many tokens were consumed as slots were written
  obtain ⟨w₁, hw₁, hlen₁⟩ := hp.writes.clean h₁ hes₁ hfree₁
  obtain ⟨w₂, hw₂, hlen₂⟩ := (hf b).writes.clean h₂ hes₂ hfree₂
  have hc₁ : c₁ = passed es₂ ++ c' := ((hf b).writes.composed.trail h₂).eq_append
  have hlength : (mid b).length = before.length + (passed es₁).length := by
    rw [hw₁, List.length_append, hlen₁]
  have helse' := helse
  rw [hw₂] at helse
  rw [passed_append]
  -- the brace stands in the first part, or in the second
  rcases Nat.lt_or_ge (i + 1) (mid b).length with hlt | hge
  · have hhead : (passed es₂ ++ d).head? = c₁.head? := by
      rw [hc₁, List.head?_append, List.head?_append, hd]
    rw [List.set_append_left _ _ (by omega), List.append_assoc]
    exact (hp.mends h₁ hes₁ hfree₁ (helse.of_append_left hlt) hi hx heof hhead).bind
      ((hf b).writes.composed.gives h₂ hes₂ hd)
  · have hle := helse.le_of_not_endsInElse hge (hmid b)
    have hindex : i + 1 - before.length - (passed es₁).length = i + 1 - (mid b).length := by omega
    rw [List.set_append_right _ _ (by omega), hindex, List.append_assoc]
    -- it is not the first token of the second part, which the first part looks at
    have hhead : ((passed es₂).set (i + 1 - (mid b).length) x ++ d).head? = c₁.head? := by
      rw [hc₁]
      exact head?_set_append (by omega) x hd
    exact (hp.writes.composed.gives h₁ hes₁ hhead).bind
      ((hf b).mends h₂ hes₂ hfree₂ helse' hge hx heof hd)

/-- A token that is taken looks no further: it may be `else`.  The token itself is mended
separately. -/
theorem mends_eatBefore_bind {expected : Kind} {follow : List Kind} {f : Token → Parser α}
    (hfollow : Inner follow) (hexpected : expected ≠ .eof)
    (hf : ∀ t, Mends (f t) (before ++ [.fixed expected]) slots)
    (hbrace : ∀ {stack c a es c' x d}, expected = .openScope →
      (eatBefore expected follow >>= f).run stack c = .ok ⟨.ok a, es, c'⟩ → mismatches es = [] →
      x.kind ≠ .openScope → x.kind ≠ .eof → d.head? = c'.head? →
      Gives (eatBefore expected follow >>= f) stack ((passed es).set 0 x ++ d) a
        [(.openScope, x)] d) :
    Mends (eatBefore expected follow >>= f) before slots := by
  refine ⟨(writes_eatBefore expected follow hfollow).bind fun t => (hf t).writes, ?_⟩
  intro stack c a es c' i x d hr hes hfree helse hi hx heof hd
  obtain ⟨t, es₁, c₁, es₂, h₁, h₂, rfl⟩ := run_bind_success hr
  obtain ⟨hfree₁, hfree₂⟩ := eofFree_append.mp hfree
  obtain ⟨hes₁, hes₂⟩ : mismatches es₁ = [] ∧ mismatches es₂ = [] := by simpa using hes
  obtain ⟨w, hw, -⟩ := (hf t).writes.clean h₂ hes₂ hfree₂
  -- the brace is the token that is taken here, or comes later
  rcases Nat.eq_or_lt_of_le hi with heq | hlt
  · have hslot := helse.2
    rw [hw, ← heq] at hslot
    obtain rfl : expected = .openScope := by simpa using hslot
    rw [← heq, Nat.sub_self]
    exact hbrace rfl hr hes hx heof hd
  · cases run_eatBefore_cases h₁ with
    | standIn => cases hes₁
    | missing => cases hes₁
    | found ht =>
      have hteof : t.kind ≠ .eof := ht ▸ hexpected
      -- the first token stays, and the place is counted from the second
      obtain ⟨j, hj⟩ : ∃ j, i + 1 - before.length = j + 1 := ⟨i - before.length, by omega⟩
      have hindex : i + 1 - (before ++ [Slot.fixed expected]).length = j := by
        rw [List.length_append, List.length_singleton]
        omega
      rw [advance_eq_rest hteof] at h₂
      rw [passed_append, passed_consume_cons hteof, hj]
      refine (gives_found ht hexpected).bind ?_
      rw [← hindex]
      refine (hf t).mends h₂ hes₂ hfree₂ helse ?_ hx heof hd
      rw [List.length_append, List.length_singleton]
      omega

/-- Nor is any other token that is expected, so that the brace stands behind it. -/
theorem mends_eat_bind {expected : Kind} {f : Token → Parser α}
    (h : expected ≠ .eof ∧ expected ≠ .openScope)
    (hf : ∀ t, Mends (f t) (before ++ [.fixed expected]) slots) :
    Mends (eat expected >>= f) before slots :=
  mends_eatBefore_bind (by decide) h.1 hf fun hbrace => absurd hbrace h.2

/-- The lookahead is not the token that is replaced, if no `else` was written before. -/
theorem mends_lookahead_bind {f : Token → Parser α} (hbefore : ¬ EndsInElse before)
    (hf : ∀ t, Mends (f t) before slots) : Mends (lookahead >>= f) before slots := by
  refine ⟨writes_lookahead_bind fun t => (hf t).writes.anywhere, ?_⟩
  intro stack c a es c' i x d hr hes hfree helse hi hx heof hd
  obtain ⟨t, es₁, c₁, es₂, h₁, h₂, rfl⟩ := run_bind_success hr
  obtain ⟨u, rest, rfl, h₁⟩ := run_lookahead_cases h₁
  cases h₁
  obtain ⟨w, hw, -⟩ := (hf t).writes.clean h₂ hes hfree
  have hle : before.length ≤ i := (hw ▸ helse).le_of_not_endsInElse hi hbefore
  have hgives := (hf t).mends h₂ hes hfree helse hi hx heof hd
  have hhead : ((passed es₂).set (i + 1 - before.length) x ++ d).head? = some t := by
    rw [head?_set_append (by omega) x hd, ← ((hf t).writes.composed.trail h₂).eq_append]
    rfl
  obtain ⟨rest', hrest'⟩ := List.head?_eq_some_iff.mp hhead
  rw [List.nil_append]
  rw [hrest'] at hgives ⊢
  exact (gives_lookahead t).bind hgives

/-- Entering a rule changes nothing. -/
theorem Mends.inRule {p : Parser α} (rule : Rule) (h : Mends p before slots) :
    Mends (inRule rule p) before slots := by
  refine ⟨h.writes.inRule rule, fun hr hes hfree helse hi hx heof hd => ?_⟩
  obtain ⟨t, rest, ⟨o, es, c'⟩, rfl, hb, hr⟩ := run_inRule_cases hr
  cases hr
  exact (h.mends hb hes (eofFree_enter_cons.mp hfree) helse hi hx heof hd).inRule

/-- More may be written before, but for an `else` before what wrote nothing. -/
theorem Mends.prepend {p : Parser α} (h : Mends p before slots) (first : List Slot)
    (hfirst : before = [] → ¬ EndsInElse first) :
    Mends p (first ++ before) fun a => first ++ slots a := by
  refine ⟨h.writes.prepend first, ?_⟩
  intro stack c a es c' i x d hr hes hfree helse hi hx heof hd
  rw [List.length_append] at hi ⊢
  have hle : first.length ≤ i := by
    cases before with
    | nil => exact helse.le_of_not_endsInElse hi (hfirst rfl)
    | cons => simp only [List.length_cons] at hi; omega
  have := h.mends hr hes hfree (helse.of_append_right hle) (by omega) hx heof hd
  rwa [← Nat.sub_add_comm hle, Nat.sub_sub] at this

/-- What stands before matters only by whether it ends with `else`. -/
theorem Mends.after {p : Parser α} (h : Mends p [] slots) (hbefore : ¬ EndsInElse before) :
    Mends p before fun a => before ++ slots a := by
  simpa using h.prepend before fun _ => hbefore

theorem not_endsInElse_flatMap (hslots : ∀ a, ¬ EndsInElse (slots a)) (as : List α) :
    ¬ EndsInElse (as.flatMap slots) := by
  induction as with
  | nil => exact not_endsInElse_nil
  | cons a as ih => exact not_endsInElse_append (hslots a) ih

/-- **The rounds of a loop can be taken apart**, as no item ends with `else`: the brace stands in
one of them, those before are read as they were, and those after it too. -/
theorem mends_repeatWhile {item : Parser α} (test : Kind → Bool) (h : Mends item [] slots)
    (hslots : ∀ a, ¬ EndsInElse (slots a)) : ∀ n {before}, ¬ EndsInElse before →
      Mends (repeatWhile test item n) before fun as => before ++ as.flatMap slots
  | 0, _, _ => mends_outOfBound
  | n + 1, before, hbefore => by
    refine mends_lookahead_bind hbefore fun t => ?_
    split
    · have hmid : ∀ a, ¬ EndsInElse (before ++ slots a) :=
        fun a => not_endsInElse_append hbefore (hslots a)
      refine (h.after hbefore).bind (fun a => ?_) hmid
      refine (mends_repeatWhile test h hslots n (hmid a)).bind (fun as => mends_pure (by simp)) ?_
      exact fun as => not_endsInElse_append (hmid a) (not_endsInElse_flatMap hslots as)
    · exact mends_pure (by simp)

/-- More rounds change nothing. -/
theorem repeatWhile_refines {item : Parser α} {test : Kind → Bool} :
    ∀ {n m}, n ≤ m → Refines (repeatWhile test item n) (repeatWhile test item m)
  | 0, _, _ => outOfBound_refines _
  | _ + 1, _ + 1, h => .after _ fun _ => .ite
    (.after _ fun _ => (repeatWhile_refines (Nat.le_of_succ_le_succ h)).before _) (.refl _)

/-- Both runs of a loop are runs with the larger of their bounds. -/
theorem mends_many {item : Parser α} (test : Kind → Bool) (h : Mends item [] slots)
    (hslots : ∀ a, ¬ EndsInElse (slots a)) (hbefore : ¬ EndsInElse before) :
    Mends (many test item) before fun as => before ++ as.flatMap slots := by
  refine ⟨writes_many test h.writes, ?_⟩
  intro stack c as es c' i x d hr hes hfree helse hi hx heof hd
  refine gives_many fun n r hr' => ?_
  have hc := repeatWhile_refines (Nat.le_max_left c.length n) _ _ _ (run_of_many hr)
  have hc' := repeatWhile_refines (Nat.le_max_right c.length n) _ _ _ hr'
  exact (mends_repeatWhile test h hslots _ hbefore).mends hc hes hfree helse hi hx heof hd r hc'

/-! ## 3. Statements -/

end

section
variable {s : Parser Node} {before : List Slot} {bound : Nat}

/-- An expression holds no brace at all. -/
theorem mends_expression (bound : Nat) : Mends (expression bound) [] Node.slots := by
  refine mends_quiet (writes_expression bound) fun _ _ n _ _ hr w hw => ?_
  have hshaped : n.Shaped (fun _ => True) .expression :=
    yields_expression (fun _ _ => trivial) bound _ _ _ _ _ hr
  rw [← show n.slots = w from hw]
  exact hshaped.not_mem_openScope (by decide)

theorem mends_call (bound : Nat) (callee : String) :
    Mends (call (expression bound) callee) [.text .identifier callee] Node.slots := by
  refine (mends_eat_bind (by decide) fun _ => ?_).inRule _
  have hbefore : ¬ EndsInElse ([Slot.text .identifier callee] ++ [Slot.fixed .openParenthesis]) :=
    not_endsInElse_snoc _ (by decide)
  refine (mends_many _ (mends_expression bound) Node.not_endsInElse hbefore).bind (fun as => ?_)
    fun as => not_endsInElse_append hbefore (not_endsInElse_flatMap Node.not_endsInElse as)
  exact mends_eat_bind (by decide) fun _ => mends_pure (by simp [slots_call, argumentSlots])

/-- A block ends with its closing brace. -/
theorem not_endsInElse_block (b : Block) : ¬ EndsInElse (before ++ blockSlots b) := by
  rw [blockSlots, ← List.append_assoc]
  exact not_endsInElse_snoc _ (by decide)

/-- A block may come after `else`. -/
theorem mends_block (hs : Mends s [] Node.slots) (hstart : Requires (· ∈ statementKinds) s) :
    Mends (block s) before fun b => before ++ blockSlots b := by
  have hbefore : ¬ EndsInElse (before ++ [Slot.fixed .openScope]) :=
    not_endsInElse_snoc _ (by decide)
  refine (mends_eatBefore_bind (by decide) (by decide) (fun _ => ?_) fun _ hr hes hx heof hd =>
    gives_wrong_openScope (composed_statements hs.writes.composed) (requires_statements hstart) hr
      hes hx heof hd).inRule _
  refine (mends_many _ hs Node.not_endsInElse hbefore).bind (fun b => ?_)
    fun b => not_endsInElse_append hbefore (not_endsInElse_flatMap Node.not_endsInElse b)
  exact mends_eat_bind (by decide) fun _ => mends_pure (by simp [blockSlots])

/-- **The brace is in one of the blocks or opens the second one.**  In the last case it is the one
after `else`, and stands in for the brace that the block asks for. -/
theorem mends_ifStmt (hs : Mends s [] Node.slots) (hstart : Requires (· ∈ statementKinds) s) :
    Mends (ifStmt s (expression bound)) [] Node.slots := by
  refine (mends_eat_bind (by decide) fun _ => ?_).inRule _
  have hif : ¬ EndsInElse ([] ++ [Slot.fixed .keywordIf]) := not_endsInElse_snoc _ (by decide)
  refine ((mends_expression bound).after hif).bind (fun condition => ?_)
    fun condition => not_endsInElse_append hif condition.not_endsInElse
  refine (mends_block hs hstart).bind (fun t => ?_) not_endsInElse_block
  refine mends_lookahead_bind (not_endsInElse_block t) fun next => ?_
  split
  · refine mends_eat_bind (by decide) fun _ => ?_
    refine (mends_block hs hstart).bind (fun e => ?_) not_endsInElse_block
    exact mends_pure (by simp [slots_conditional_some])
  · exact mends_pure (by simp [slots_conditional_none])

theorem mends_returnStmt (bound : Nat) : Mends (returnStmt (expression bound)) [] Node.slots := by
  refine (mends_eat_bind (by decide) fun _ => ?_).inRule _
  have hreturn : ¬ EndsInElse ([] ++ [Slot.fixed .keywordReturn]) :=
    not_endsInElse_snoc _ (by decide)
  exact ((mends_expression bound).after hreturn).bind (fun v => mends_pure (by simp [Node.slots]))
    fun v => not_endsInElse_append hreturn v.not_endsInElse

/-- A brace stands in what is assigned, if that is a statement. -/
theorem mends_assignment (hs : Mends s [] Node.slots) :
    ∀ rounds target, Mends (assignment s (expression bound) rounds target)
      [.text .identifier target] Node.slots
  | 0, _ => mends_outOfBound
  | rounds + 1, target => by
    refine (mends_eat_bind (by decide) fun _ => ?_).inRule _
    have htarget : ¬ EndsInElse ([Slot.text .identifier target] ++ [Slot.fixed .assignment]) :=
      not_endsInElse_snoc _ (by decide)
    have hmid : ∀ n : Node,
        ¬ EndsInElse ([Slot.text .identifier target] ++ [Slot.fixed .assignment] ++ n.slots) :=
      fun n => not_endsInElse_append htarget n.not_endsInElse
    refine mends_lookahead_bind htarget fun start => ?_
    split
    · exact (hs.after htarget).bind (fun v => mends_pure (by simp [Node.slots])) hmid
    · refine ((mends_expression bound).after htarget).bind (fun v => ?_) hmid
      refine mends_lookahead_bind (hmid v) fun next => ?_
      split
      · rename_i name _
        refine ((mends_assignment hs rounds name).prepend _ (by simp)).bind (fun v => ?_) hmid
        exact mends_pure (by simp [Node.slots])
      · exact mends_pure (by simp [Node.slots])

/-- In a call there is no brace, in an assignment there may be one. -/
theorem mends_identTail (hs : Mends s [] Node.slots) (rounds : Nat) (name : String) :
    Mends (identTail s (expression bound) rounds name) [.text .identifier name] Node.slots := by
  refine (mends_lookahead_bind (not_endsInElse_snoc [] (by simp)) fun t => ?_).inRule _
  split
  · exact mends_call bound name
  · exact mends_assignment hs rounds name
  · exact mends_unhandled t

/-- **Braces after `else` are mended**, however deep they are in a statement. -/
theorem mends_statement : ∀ bound, Mends (statement bound) [] Node.slots
  | 0 => mends_outOfBound
  | bound + 1 => by
    have hs := mends_statement bound
    have hstart := requires_statement bound
    refine (mends_lookahead_bind not_endsInElse_nil fun t => ?_).inRule _
    split
    · exact (mends_name [] (by decide)).bind (fun name => mends_identTail hs bound name)
        fun name => not_endsInElse_snoc [] (by simp)
    · exact mends_ifStmt hs hstart
    · exact mends_returnStmt bound
    · exact mends_unhandled t

end
end Parser
end FrontEnd
