/-
# Written trees are read back

Tokens that are the written form of a tree are parsed to that tree, and nothing is recorded.

What makes this a question is where each rule stops.  Arguments have no separators,
operators are looked for after every operand, a name may turn out to be a call or to be
assigned, and a condition may go on with `else`.  So a parser reads its node back only
before a token that does not continue the node, and `Form.Ends` says which do not.  The
first token of what the grammar writes next is always one of them.

* `Reads`: a parser reads slots back as a value, before a token that passes;
* `reads_node`: the parsers of all forms read their nodes back, however deep they nest;
* `reads_program`: and so does the parser of programs.
-/
import FrontEnd.Proofs.Parser.Shapes

namespace FrontEnd

/-- A token that may come first where the slots are written, before one that passes. -/
def Next (slots : List Slot) (stop : Kind → Prop) (t : Token) : Prop :=
  match slots with
  | [] => stop t.kind
  | s :: _ => s.Fits t

/-- The next token is the first of the written ones, or one that stops if nothing is written. -/
theorem next_of_fits {slots : List Slot} {stop : Kind → Prop} {ts rest : List Token} {t : Token}
    (h : List.Forall₂ Slot.Fits slots ts) (hrest : ∀ t ∈ rest.head?, stop t.kind)
    (ht : t ∈ (ts ++ rest).head?) : Next slots stop t := by
  cases h with
  | nil => exact hrest t ht
  | cons hs _ =>
    cases ht
    exact hs

/-- What the first slot opens with is the kind of the next token. -/
theorem Opens.next {start stop : Kind → Prop} {ss : List Slot} {t : Token} (h : Opens start ss)
    (ht : Next ss stop t) : start t.kind := by
  obtain ⟨s, hs, hk⟩ := h
  cases ss with
  | nil => cases hs
  | cons u us =>
    cases hs
    rw [Slot.Fits.kind_eq ht]
    exact hk

/-- Tokens that fit slots in two parts fall into two parts themselves. -/
theorem fits_append_cases : ∀ {ss ss' : List Slot} {ts : List Token},
    List.Forall₂ Slot.Fits (ss ++ ss') ts → ∃ ts₁ ts₂, ts = ts₁ ++ ts₂ ∧
      List.Forall₂ Slot.Fits ss ts₁ ∧ List.Forall₂ Slot.Fits ss' ts₂
  | [], _, ts, h => ⟨[], ts, rfl, .nil, h⟩
  | _ :: _, _, _, .cons ht h => by
    obtain ⟨ts₁, ts₂, rfl, h₁, h₂⟩ := fits_append_cases h
    exact ⟨_ :: ts₁, ts₂, rfl, .cons ht h₁, h₂⟩

namespace Parser

/-! ## 1. The judgement -/

section
variable {α β : Type} {stop mid : Kind → Prop} {ss ss' : List Slot}

/-- From tokens that fit the slots, before a token that passes `stop`, the parser answers
`a`, if it answers.  It takes the tokens, no more, and records nothing. -/
structure Reads (stop : Kind → Prop) (p : Parser α) (slots : List Slot) (a : α) : Prop where
  reads : ∀ {stack ts rest r}, List.Forall₂ Slot.Fits slots ts →
    (∀ t ∈ rest.head?, stop t.kind) → p.run stack (ts ++ rest) = .ok r →
    ∃ es, r = ⟨.ok a, es, rest⟩ ∧ recorded es = []

theorem reads_pure (a : α) : Reads stop (pure a) [] a := by
  refine ⟨fun hts _ hr => ?_⟩
  cases hts
  cases hr
  exact ⟨[], rfl, rfl⟩

/-- What gives no answer reads everything back, since it is asked of answers only. -/
theorem reads_outOfBound {a : α} : Reads stop outOfBound ss a :=
  ⟨fun _ _ hr => by cases hr⟩

/-- In a sequence, what the second part reads must stop the first. -/
theorem Reads.bind {p : Parser β} {f : β → Parser α} {b : β} {a : α} (hp : Reads mid p ss b)
    (hnext : ∀ t, Next ss' stop t → mid t.kind) (hf : Reads stop (f b) ss' a) :
    Reads stop (p >>= f) (ss ++ ss') a := by
  refine ⟨fun {stack ts rest r} hts hrest hr => ?_⟩
  obtain ⟨ts₁, ts₂, rfl, h₁, h₂⟩ := fits_append_cases hts
  rw [List.append_assoc] at hr
  have hmid : ∀ t ∈ (ts₂ ++ rest).head?, mid t.kind :=
    fun t ht => hnext t (next_of_fits h₂ hrest ht)
  rcases run_bind_cases hr with ⟨e, es, c, hp', -⟩ | ⟨b', es₁, c₁, after, hp', hf', rfl⟩
  · obtain ⟨_, he, -⟩ := hp.reads h₁ hmid hp'
    cases he
  · obtain ⟨_, he, hes₁⟩ := hp.reads h₁ hmid hp'
    cases he
    obtain ⟨es₂, rfl, hes₂⟩ := hf.reads h₂ hrest hf'
    exact ⟨es₁ ++ es₂, rfl, by rw [recorded_append, hes₁, hes₂]; rfl⟩

/-- A last step that reads nothing. -/
theorem Reads.bind_last {p : Parser β} {f : β → Parser α} {b : β} {a : α} (hp : Reads mid p ss b)
    (hstop : ∀ k, stop k → mid k) (hf : Reads stop (f b) [] a) : Reads stop (p >>= f) ss a := by
  rw [← List.append_nil ss]
  exact hp.bind (fun t ht => hstop t.kind ht) hf

theorem Reads.inRule {p : Parser α} {a : α} (rule : Rule) (h : Reads stop p ss a) :
    Reads stop (inRule rule p) ss a := by
  refine ⟨fun hts hrest hr => ?_⟩
  obtain ⟨t, c, body, hc, hb, rfl⟩ := run_inRule_cases hr
  rw [← hc] at hb
  obtain ⟨es, rfl, hes⟩ := h.reads hts hrest hb
  exact ⟨_, rfl, hes⟩

/-- Of the lookahead it is known that it fits the next slot, or stops if there is none. -/
theorem reads_lookahead_bind {f : Token → Parser α} {a : α}
    (hf : ∀ t, Next ss stop t → Reads stop (f t) ss a) : Reads stop (lookahead >>= f) ss a := by
  refine ⟨fun hts hrest hr => ?_⟩
  rcases run_bind_cases hr with ⟨e, es, c, hl, -⟩ | ⟨t, es, c, after, hl, hf', rfl⟩
  · obtain ⟨_, _, _, he⟩ := run_lookahead_cases hl
    cases he
  · obtain ⟨u, us, hc, he⟩ := run_lookahead_cases hl
    cases he
    rw [← hc] at hf'
    exact (hf t (next_of_fits hts hrest (by rw [hc]; rfl))).reads hts hrest hf'

/-- One slot is one token. -/
theorem reads_advance_bind {s : Slot} {f : Token → Parser α} {a : α} (hs : s.kind ≠ .eof)
    (hf : ∀ t, s.Fits t → Reads stop (f t) ss a) : Reads stop (advance >>= f) (s :: ss) a := by
  refine ⟨?_⟩
  rintro stack _ rest r (_ | @⟨_, t, _, ts, ht, hts⟩) hrest hr
  rw [List.cons_append] at hr
  rcases run_bind_cases hr with ⟨e, es, c, ha, -⟩ | ⟨u, es, c, after, ha, hf', rfl⟩
  · cases ha
  · have hc : Cursor.advance (t :: (ts ++ rest)) = ts ++ rest :=
      advance_eq_rest (by rwa [ht.kind_eq])
    cases ha
    rw [hc] at hf'
    obtain ⟨es, rfl, hes⟩ := (hf t ht).reads hts hrest hf'
    exact ⟨_, rfl, hes⟩

/-- The expected token is there and is taken. -/
theorem reads_eatBefore_bind {s : Slot} {follow : List Kind} {f : Token → Parser α} {a : α}
    (hs : s.kind ≠ .eof) (hf : ∀ t, s.Fits t → Reads stop (f t) ss a) :
    Reads stop (eatBefore s.kind follow >>= f) (s :: ss) a := by
  refine ⟨?_⟩
  rintro stack _ rest r (_ | @⟨_, t, _, ts, ht, hts⟩) hrest hr
  rw [List.cons_append] at hr
  have hk := ht.kind_eq
  rcases run_bind_cases hr with ⟨e, es, c, he, -⟩ | ⟨u, es, c, after, he, hf', rfl⟩
  · cases run_eatBefore_cases he
  · have hc : Cursor.advance (t :: (ts ++ rest)) = ts ++ rest := advance_eq_rest (by rwa [hk])
    cases run_eatBefore_cases he with
    | standIn hne => exact absurd hk hne
    | missing hne => exact absurd hk hne
    | found _ =>
      rw [hc] at hf'
      obtain ⟨es, rfl, hes⟩ := (hf t ht).reads hts hrest hf'
      exact ⟨_, rfl, hes⟩

/-- An expected token is there, so that nothing is recorded. -/
theorem reads_eat_bind {k : Kind} {follow : List Kind} {f : Token → Parser α} {a : α}
    (hk : k ≠ .eof) (hf : ∀ t, Reads stop (f t) ss a) :
    Reads stop (eatBefore k follow >>= f) (.fixed k :: ss) a :=
  reads_eatBefore_bind (s := .fixed k) hk fun t _ => hf t

theorem reads_name {follow : List Kind} (x : String) :
    Reads anyKind (name follow) [.text .identifier x] x :=
  reads_eatBefore_bind (s := .text .identifier x) (by simp [Slot.kind]) fun t ht => by
    rw [ht.2]
    exact reads_pure x

/-- A loop reads its items, if each starts with a token that passes the test and stops the
item before it, and what follows fails the test and stops the last item. -/
theorem reads_repeatWhile {item : Parser α} {test : Kind → Bool} {slots : α → List Slot}
    {start : Kind → Prop} (hstart : ∀ k, start k → test k = true ∧ mid k)
    (hstop : ∀ k, stop k → test k = false ∧ mid k) : ∀ {as : List α} (n : Nat),
    (∀ a ∈ as, Reads mid item (slots a) a ∧ Opens start (slots a)) →
    Reads stop (repeatWhile test item n) (as.flatMap slots) as
  | _, 0, _ => reads_outOfBound
  | [], n + 1, _ => reads_lookahead_bind fun t ht => by
    rw [(hstop t.kind ht).1, if_neg Bool.false_ne_true]
    exact reads_pure []
  | a :: as, n + 1, h => by
    obtain ⟨ha, hopens⟩ := h a (by simp)
    have has := fun b hb => h b (List.mem_cons_of_mem a hb)
    rw [List.flatMap_cons]
    refine reads_lookahead_bind fun t ht => ?_
    rw [(hstart t.kind ((hopens.append _).next ht)).1, if_pos rfl]
    refine ha.bind (fun u hu => ?_)
      ((reads_repeatWhile hstart hstop n has).bind_last (fun _ => id) (reads_pure _))
    cases as with
    | nil => exact (hstop u.kind hu).2
    | cons b bs => exact (hstart u.kind (((h b (by simp)).2.append _).next hu)).2

/-- **A loop reads its items back** if each begins with a token that passes the test, and what comes
after the last one does not.  Both kinds of token end the item before, which is what the items need.
-/
theorem reads_many {item : Parser α} {test : Kind → Bool} {slots : α → List Slot}
    (start stop : Kind → Prop) (hstart : ∀ k, start k → test k = true ∧ mid k)
    (hstop : ∀ k, stop k → test k = false ∧ mid k) {as : List α}
    (h : ∀ a ∈ as, Reads mid item (slots a) a ∧ Opens start (slots a)) :
    Reads stop (many test item) (as.flatMap slots) as :=
  ⟨fun hts hrest hr => (reads_repeatWhile hstart hstop _ h).reads hts hrest (run_of_many hr)⟩

/-- Items up to the token of the kind `close`, which is taken too. -/
theorem reads_many_until {item : Parser α} {test : Kind → Bool} {slots : α → List Slot}
    {close : Kind} {follow : List Kind} {f : List α → Parser β} {as : List α} {b : β}
    (start : Kind → Prop) (hstart : ∀ k, start k → test k = true ∧ mid k)
    (hclose : test close = false ∧ mid close) (hc : close ≠ .eof)
    (h : ∀ a ∈ as, Reads mid item (slots a) a ∧ Opens start (slots a))
    (hf : Reads stop (f as) ss b) :
    Reads stop (many test item >>= fun as => eatBefore close follow >>= fun _ => f as)
      (as.flatMap slots ++ .fixed close :: ss) b := by
  refine (reads_many start (· = close) hstart ?_ h).bind (fun t ht => ht)
    (reads_eat_bind hc fun _ => hf)
  rintro k rfl
  exact hclose

end

end Parser

/-! ## 2. Nodes -/

/-- A token of this kind does not continue a node of the form. -/
def Form.Ends : Form → Kind → Prop
  | operand, k => k ≠ .openParenthesis
  | expression, k => k ≠ .openParenthesis ∧ Operator.ofKind? k = none
  | statement, k =>
    k ≠ .openParenthesis ∧ Operator.ofKind? k = none ∧ k ≠ .assignment ∧ k ≠ .keywordElse

namespace Parser

/-- An assignment reads the node back as what is assigned. -/
def ReadsAssigned (n : Node) : Prop :=
  ∀ b c target, Reads Form.statement.Ends (assignment (statement b) (expression b) c target)
    (.fixed .assignment :: n.slots) (.assignment target n)

/-- The parser for the form reads the node back, however deep it may nest. -/
def ReadsNode : Form → Node → Prop
  | .operand, n => ∀ b, Reads Form.operand.Ends (unary (expression b)) n.slots n
  | .expression, n => ∀ b, Reads Form.expression.Ends (expression b) n.slots n
  | .statement, n =>
    (∀ b, Reads Form.statement.Ends (statement b) n.slots n) ∧ ReadsAssigned n

/-- The parser reads the nodes back, and each starts as its form says. -/
def ReadsAll (form : Form) (p : Parser Node) (ns : List Node) : Prop :=
  ∀ n ∈ ns, Reads form.Ends p n.slots n ∧ Opens form.Starts n.slots

/-- What begins an argument does not continue the one before. -/
theorem expression_start {k : Kind} (h : Form.expression.Starts k) :
    (k != .closeParenthesis && k != .eof) = true ∧ Form.expression.Ends k := by
  simp only [Form.Starts, List.mem_cons, List.not_mem_nil, or_false] at h
  rcases h with rfl | rfl | rfl | rfl <;> exact ⟨rfl, by decide, rfl⟩

/-- What begins a statement does not continue the one before. -/
theorem statement_start {k : Kind} (h : Form.statement.Starts k) :
    (k != .closeScope) = true ∧ Form.statement.Ends k := by
  simp only [Form.Starts, List.mem_cons, List.not_mem_nil, or_false] at h
  rcases h with rfl | rfl | rfl <;> exact ⟨rfl, by decide, rfl, by decide, by decide⟩

/-! ### Operands and expressions -/

section
variable {e : Parser Node} {as : List Node} {stop : Kind → Prop}

/-- Arguments have nothing between them, and each ends where the next begins. -/
theorem reads_call (callee : String) (has : ReadsAll .expression e as) :
    Reads stop (call e callee) (argumentSlots as) (.call callee as) := by
  refine (reads_eat_bind (by decide) fun _ => ?_).inRule _
  refine reads_many_until _ (fun _ => expression_start) ?_ (by decide) has (reads_pure _)
  exact ⟨rfl, by decide, rfl⟩

/-- A name is no call if no parenthesis follows. -/
theorem reads_identifier (x : String) :
    Reads Form.operand.Ends (unary e) (Node.identifier x).slots (.identifier x) := by
  refine (reads_advance_bind (by simp [Slot.kind]) fun t ht => ?_).inRule _
  simp only [ht.1, ht.2]
  refine reads_lookahead_bind fun u hu => ?_
  rw [if_neg hu]
  exact reads_pure _

theorem reads_literal {k : LiteralKind} (text : String) (hk : k ≠ .char) :
    Reads Form.operand.Ends (unary e) (Node.literal k text).slots (.literal k text) := by
  cases k with
  | char => exact absurd rfl hk
  | integer | float | string =>
    refine (reads_advance_bind (by simp [Slot.kind, LiteralKind.kind]) fun t ht => ?_).inRule _
    simp only [ht.1, ht.2, LiteralKind.kind]
    exact reads_pure _

/-- A name before a parenthesis is called. -/
theorem reads_called (f : String) (has : ReadsAll .expression e as) :
    Reads Form.operand.Ends (unary e) (Node.call f as).slots (.call f as) := by
  rw [slots_call]
  refine (reads_advance_bind (by simp [Slot.kind]) fun t ht => ?_).inRule _
  simp only [ht.1, ht.2]
  refine reads_lookahead_bind fun u hu => ?_
  rw [if_pos (show u.kind = .openParenthesis from hu)]
  exact reads_call f has

end

/-- An operand alone is an expression where no operator follows. -/
theorem reads_single {n : Node} (h : ReadsNode .operand n) : ReadsNode .expression n
  | 0 => reads_outOfBound
  | b + 1 => by
    refine ((h b).bind_last (fun _ hk => hk.1) (reads_lookahead_bind fun t ht => ?_)).inRule _
    rw [ht.2]
    exact reads_pure n

/-- Operators do not chain, so the right operand ends the expression. -/
theorem reads_binary {l r : Node} (o : Operator) (hl : ReadsNode .operand l)
    (hr : ReadsNode .operand r) : ReadsNode .expression (.binary l o r)
  | 0 => reads_outOfBound
  | b + 1 => by
    have hs : (Node.binary l o r).slots = l.slots ++ (.fixed o.kind :: r.slots) := by
      simp [Node.slots]
    rw [hs]
    refine ((hl b).bind (fun t ht => ?_) (reads_lookahead_bind fun t ht => ?_)).inRule _
    · cases o <;> simp_all [Next, Slot.Fits, Form.Ends, Operator.kind]
    · rw [Operator.ofKind?_eq_some_iff.mpr ht]
      refine reads_advance_bind (by cases o <;> simp [Slot.kind, Operator.kind]) fun _ _ => ?_
      exact (hr b).bind_last (fun _ hk => hk.1) (reads_pure _)

/-! ### What is assigned -/

/-- What is assigned is an expression if it begins like one. -/
theorem readsAssigned_expression {n : Node} (h : ReadsNode .expression n)
    (hopens : Opens Form.expression.Starts n.slots) : ReadsAssigned n
  | _, 0, _ => reads_outOfBound
  | b, c + 1, target => by
    refine (reads_eat_bind (by decide) fun _ => reads_lookahead_bind fun t ht => ?_).inRule _
    have hstart : Form.expression.Starts t.kind := hopens.next ht
    rw [if_neg (by rintro (hk | hk) <;> simp [hk, Form.Starts] at hstart)]
    refine (h b).bind_last (fun _ hk => ⟨hk.1, hk.2.1⟩) (reads_lookahead_bind fun u hu => ?_)
    split
    · rename_i hk
      exact absurd hk hu.2.2.1
    · exact reads_pure _

/-- What is assigned is a statement if it begins with one of two keywords, which no expression does.
-/
theorem readsAssigned_statement {n : Node}
    (h : ∀ b, Reads Form.statement.Ends (statement b) n.slots n)
    (hopens : Opens (fun k => k = .keywordIf ∨ k = .keywordReturn) n.slots) : ReadsAssigned n
  | _, 0, _ => reads_outOfBound
  | b, c + 1, target => by
    refine (reads_eat_bind (by decide) fun _ => reads_lookahead_bind fun t ht => ?_).inRule _
    rw [if_pos (hopens.next ht)]
    exact (h b).bind_last (fun _ => id) (reads_pure _)

/-- A name that is assigned again is first read as an expression. -/
theorem readsAssigned_assignment {x : String} {v : Node} (h : ReadsAssigned v) :
    ReadsAssigned (.assignment x v)
  | _, 0, _ => reads_outOfBound
  | b, c + 1, target => by
    have hs : (Node.assignment x v).slots =
        (Node.identifier x).slots ++ (.fixed .assignment :: v.slots) := by simp [Node.slots]
    rw [hs]
    refine (reads_eat_bind (by decide) fun _ => reads_lookahead_bind fun t ht => ?_).inRule _
    have hk : t.kind = .identifier := ht.1
    rw [if_neg (by simp [hk])]
    refine (reads_single (fun _ => reads_identifier x) b).bind (fun u hu => ?_)
      (reads_lookahead_bind fun u hu => ?_)
    · rw [show u.kind = .assignment from hu]
      exact ⟨by decide, rfl⟩
    · rw [show u.kind = .assignment from hu]
      exact (h b c x).bind_last (fun _ => id) (reads_pure _)

/-! ### Statements -/

section
variable {s e : Parser Node} {stop : Kind → Prop}

/-- After its closing brace a block is over, whatever follows. -/
theorem reads_block {b : Block} (hb : ReadsAll .statement s b) :
    Reads anyKind (block s) (blockSlots b) b := by
  refine (reads_eat_bind (by decide) fun _ => ?_).inRule _
  refine reads_many_until _ (fun _ => statement_start) ?_ (by decide) hb (reads_pure _)
  exact ⟨rfl, by decide, rfl, by decide, by decide⟩

/-- Without a second branch the statement ends before a token that is not `else`. -/
theorem reads_ifStmt {c : Node} {t : Block} {o : Option Block}
    (hc : Reads Form.expression.Ends e c.slots c) (ht : ReadsAll .statement s t)
    (ho : ∀ b ∈ o, ReadsAll .statement s b) :
    Reads Form.statement.Ends (ifStmt s e) (Node.conditional c t o).slots (.conditional c t o) := by
  have hopens : Opens Form.expression.Ends (blockSlots t) :=
    opens_cons ⟨by decide, rfl⟩
  cases o with
  | none =>
    rw [slots_conditional_none, List.append_assoc]
    refine (reads_eat_bind (by decide) fun _ => hc.bind (fun u hu => hopens.next hu) ?_).inRule _
    refine (reads_block ht).bind_last (fun _ _ => trivial) (reads_lookahead_bind fun u hu => ?_)
    rw [if_neg hu.2.2.2]
    exact reads_pure _
  | some b =>
    rw [slots_conditional_some, List.append_assoc, List.append_assoc, List.append_assoc]
    refine (reads_eat_bind (by decide) fun _ =>
      hc.bind (fun u hu => (hopens.append _).next hu) ?_).inRule _
    refine (reads_block ht).bind (fun _ _ => trivial) (reads_lookahead_bind fun u hu => ?_)
    rw [if_pos (show u.kind = .keywordElse from hu)]
    exact reads_eat_bind (by decide) fun _ =>
      (reads_block (ho b rfl)).bind_last (fun _ _ => trivial) (reads_pure _)

theorem reads_returnStmt {v : Node} (hv : Reads Form.expression.Ends e v.slots v) :
    Reads Form.statement.Ends (returnStmt e) (Node.returned v).slots (.returned v) := by
  rw [Node.slots]
  refine (reads_eat_bind (by decide) fun _ => ?_).inRule _
  exact hv.bind_last (fun _ hk => ⟨hk.1, hk.2.1⟩) (reads_pure _)

end

/-- A statement that starts with a name goes on as a call or as an assignment. -/
theorem reads_identStmt {n : Node} {x : String} {ss : List Slot} (b : Nat)
    (hn : n.slots = .text .identifier x :: ss)
    (htail : Reads Form.statement.Ends (identTail (statement b) (expression b) b x) ss n) :
    Reads Form.statement.Ends (statement (b + 1)) n.slots n := by
  rw [hn]
  refine (reads_lookahead_bind fun t ht => ?_).inRule _
  simp only [show t.kind = .identifier from ht.1]
  exact (reads_name x).bind (fun _ _ => trivial) htail

/-- A call alone is a statement that begins with its name. -/
theorem reads_callAlone {f : String} {as : List Node} (has : ∀ b, ReadsAll .expression (expression b) as) :
    ∀ b, Reads Form.statement.Ends (statement b) (Node.call f as).slots (.call f as)
  | 0 => reads_outOfBound
  | b + 1 => by
    refine reads_identStmt b (slots_call f as) ?_
    refine (reads_lookahead_bind fun t ht => ?_).inRule _
    simp only [show t.kind = .openParenthesis from ht]
    exact reads_call f (has b)

/-- So is an assignment, and the token after the name tells them apart. -/
theorem reads_assignment {x : String} {v : Node} (hv : ReadsAssigned v) :
    ∀ b, Reads Form.statement.Ends (statement b) (Node.assignment x v).slots (.assignment x v)
  | 0 => reads_outOfBound
  | b + 1 => by
    have hslots : (Node.assignment x v).slots =
        .text .identifier x :: (.fixed .assignment :: v.slots) := by rw [Node.slots]
    refine reads_identStmt b hslots ?_
    refine (reads_lookahead_bind fun t ht => ?_).inRule _
    simp only [show t.kind = .assignment from ht]
    exact hv b b x

theorem reads_conditional {c : Node} {t : Block} {o : Option Block}
    (hc : ReadsNode .expression c) (ht : ∀ b, ReadsAll .statement (statement b) t)
    (ho : ∀ b, ∀ d ∈ o, ReadsAll .statement (statement b) d) :
    ∀ b, Reads Form.statement.Ends (statement b) (Node.conditional c t o).slots
      (.conditional c t o)
  | 0 => reads_outOfBound
  | b + 1 => by
    have hif := reads_ifStmt (hc b) (ht b) (ho b)
    rw [Node.slots, List.cons_append, List.cons_append] at hif ⊢
    refine (reads_lookahead_bind fun u hu => ?_).inRule _
    simp only [show u.kind = .keywordIf from hu]
    exact hif

theorem reads_returned {v : Node} (hv : ReadsNode .expression v) :
    ∀ b, Reads Form.statement.Ends (statement b) (Node.returned v).slots (.returned v)
  | 0 => reads_outOfBound
  | b + 1 => by
    have hreturn := reads_returnStmt (hv b)
    rw [Node.slots] at hreturn ⊢
    refine (reads_lookahead_bind fun u hu => ?_).inRule _
    simp only [show u.kind = .keywordReturn from hu]
    exact hreturn

/-! ### All nodes -/

/-- **Nodes are read back.**  The induction is on how the grammar builds the node; an
assignment asks of what is assigned more than that it is a statement. -/
theorem reads_node {form : Form} {n : Node} (h : n.Shaped noToken form) : ReadsNode form n := by
  induction h with
  | identifier x => exact fun b => reads_identifier x
  | literal text hk => exact fun b => reads_literal text hk
  | garbage ht => exact ht.elim
  | @call f as has ih =>
    exact fun b => reads_called f fun a ha => ⟨ih a ha b, (has a ha).opens⟩
  | single _ ih => exact reads_single ih
  | binary o _ _ ihl ihr => exact reads_binary o ihl ihr
  | @callAlone f as has ih =>
    have harguments : ∀ b, ReadsAll .expression (expression b) as :=
      fun b a ha => ⟨ih a ha b, (has a ha).opens⟩
    refine ⟨reads_callAlone harguments, ?_⟩
    exact readsAssigned_expression (reads_single fun b => reads_called f (harguments b))
      (Node.Shaped.call has).opens
  | @conditional c t e _ ht he ihc iht ihe =>
    have hs := reads_conditional ihc (fun b n hn => ⟨(iht n hn).1 b, (ht n hn).opens⟩)
      fun b d hd n hn => ⟨(ihe d hd n hn).1 b, (he d hd n hn).opens⟩
    exact ⟨hs, readsAssigned_statement hs (opens_cons (.inl rfl))⟩
  | returned _ ih =>
    exact ⟨reads_returned ih, readsAssigned_statement (reads_returned ih) (opens_cons (.inr rfl))⟩
  | assignExpression hv ih =>
    have ha := readsAssigned_expression ih hv.opens
    exact ⟨reads_assignment ha, readsAssigned_assignment ha⟩
  | assignStatement _ ih => exact ⟨reads_assignment ih.2, readsAssigned_assignment ih.2⟩

/-! ## 3. Functions and programs -/

theorem reads_parameter (q : Parameter) : Reads anyKind parameter q.slots q :=
  ((reads_name q.typeName).bind (fun _ _ => trivial)
    ((reads_name q.name).bind_last (fun _ => id) (reads_pure q))).inRule _

/-- A function is its head and its block, and nothing can continue it. -/
theorem reads_functionDecl {f : Function} (b : Nat) (h : ∀ n ∈ f.body, n.Shaped noToken .statement) :
    Reads anyKind (functionDecl b) f.slots f := by
  have hbody : ReadsAll .statement (statement b) f.body :=
    fun n hn => ⟨(reads_node (h n hn)).1 b, (h n hn).opens⟩
  refine (reads_eat_bind (by decide) fun _ => ?_).inRule _
  refine (reads_name f.name).bind (fun _ _ => trivial) (reads_eat_bind (by decide) fun _ => ?_)
  refine reads_many_until (· = .identifier) ?_ ⟨rfl, trivial⟩ (by decide)
    (fun q _ => ⟨reads_parameter q, opens_cons rfl⟩) ?_
  · rintro k rfl
    exact ⟨rfl, trivial⟩
  · exact (reads_block hbody).bind_last (fun _ => id) (reads_pure _)

/-- **Programs are read back** before the end of the text. -/
theorem reads_program {p : Program} (b : Nat) (h : p.Shaped noToken) :
    Reads (· = .eof) (program b) p.slots p := by
  refine Reads.inRule _ (Reads.bind_last (reads_many (· = .keywordFunc) _ ?_ ?_
    fun f hf => ⟨reads_functionDecl b (h f hf), opens_cons rfl⟩) (fun _ => id) (reads_pure _))
  · rintro k rfl
    exact ⟨rfl, trivial⟩
  · rintro k rfl
    exact ⟨rfl, trivial⟩

end Parser
end FrontEnd
