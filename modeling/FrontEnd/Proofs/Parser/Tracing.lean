/-
# What a tracer sees

A tracer is told of rules and tokens, and of no rule that ends.  All the same what it sees
shows where in the grammar the parser is: a rule that is entered comes with its depth, and the
rule that was entered last one level up is the one that called it.

* `calls`: the events that a tracer is told of;
* `Descends`, `Descent`: the rules that were entered last, one for each depth, before and after
  a call, and after some calls;
* `Nests`: a part of a rule that descends only to the rules that this one calls;
* `run_traced`: so does the parse of every stream, and a syntax error lists the rules that were
  entered last.

The open rules and those entered last are not the same: when a rule succeeds it is no longer
open, but still the last at its depth.  They are the same again when a parse fails, as the
rules that fail do so before they enter another one.  So `Nests` says of a part of a rule
where it may stand: at the beginning, where nothing was entered since (`Fresh`), or anywhere
(`Within`).
-/
import FrontEnd.Parser.Watch
import FrontEnd.Proofs.Parser.Sites

namespace FrontEnd

/-! ## 1. Calls of a tracer -/

/-- A tracer is told of the event. -/
def Event.isCall : Event → Bool
  | .enter .. | .consume _ => true
  | .mismatch .. => false

/-- The events that a tracer is told of. -/
def calls (events : List Event) : List Event := events.filter Event.isCall

@[simp] theorem calls_nil : calls [] = [] := rfl

@[simp] theorem calls_append (es es' : List Event) : calls (es ++ es') = calls es ++ calls es' :=
  List.filter_append es es'

@[simp] theorem calls_enter_cons (rule : Rule) (depth : Nat) (t : Token) (es : List Event) :
    calls (.enter rule depth t :: es) = .enter rule depth t :: calls es := rfl

@[simp] theorem calls_consume_cons (t : Token) (es : List Event) :
    calls (.consume t :: es) = .consume t :: calls es := rfl

@[simp] theorem calls_mismatch_cons (expected : Kind) (t : Token) (stack : List Rule)
    (es : List Event) : calls (.mismatch expected t stack :: es) = calls es := rfl

/-- No token is passed without a call. -/
theorem passed_calls (es : List Event) : passed (calls es) = passed es := by
  induction es with
  | nil => rfl
  | cons e es ih =>
    cases e with
    | enter rule depth t => exact ih
    | consume t =>
      rw [calls_consume_cons]
      by_cases ht : t.kind = .eof
      · rw [passed_consume_eof_cons ht, passed_consume_eof_cons ht, ih]
      · rw [passed_consume_cons ht, passed_consume_cons ht, ih]
    | mismatch expected t stack => exact ih

/-- Where the calls are cut, the events can be. -/
theorem exists_append_of_calls {es before after : List Event} {e : Event}
    (h : calls es = before ++ e :: after) :
    ∃ before' after', es = before' ++ e :: after' ∧ calls before' = before := by
  obtain ⟨es₁, es₂, rfl, h₁, h₂⟩ := List.filter_eq_append_iff.mp h
  obtain ⟨mid, es₃, rfl, hmid, -, -⟩ := List.filter_eq_cons_iff.mp h₂
  refine ⟨es₁ ++ mid, es₃, by rw [List.append_assoc], ?_⟩
  have hnone : calls mid = [] := by
    rw [calls, List.filter_eq_nil_iff]
    exact hmid
  rw [calls_append, hnone, List.append_nil]
  exact h₁

namespace Tracer

variable {σ : Type}

/-- **A tracer depends on the calls only.** -/
theorem watch_calls (tracer : Tracer σ) (es : List Event) :
    ∀ state, tracer.watch state (calls es) = tracer.watch state es := by
  induction es with
  | nil =>
    intro state
    rfl
  | cons e es ih =>
    intro state
    cases e with
    | enter rule depth t => exact ih (tracer.enter rule depth t state)
    | consume t => exact ih (tracer.consume t state)
    | mismatch expected t stack => exact ih state

/-- A tracer that records what it is told has been told of the calls. -/
theorem recorder_watch (es : List Event) : recorder.watch [] es = calls es := by
  have hsee (events : List Event) (e : Event) :
      recorder.see events e = events ++ (Option.guard Event.isCall e).toList := by
    cases e with
    | enter rule depth t => rfl
    | consume t => rfl
    | mismatch expected t stack => exact (List.append_nil events).symm
  rw [watch_eq_append hsee, List.filterMap_eq_filter, List.nil_append, calls]

end Tracer

/-! ## 2. The rules that were entered last -/

/-- The depth at which the event enters a rule. -/
def Event.depth? : Event → Option Nat
  | .enter _ depth _ => some depth
  | _ => none

/-- The rule that the event enters at this depth. -/
def Event.ruleAt? (depth : Nat) : Event → Option Rule
  | .enter rule d _ => if d = depth then some rule else none
  | _ => none

/-- The depth of the last rule that was entered. -/
def lastDepth? (events : List Event) : Option Nat := (events.filterMap Event.depth?).getLast?

/-- The last rule that was entered at this depth. -/
def lastRule? (depth : Nat) (events : List Event) : Option Rule :=
  (events.filterMap (Event.ruleAt? depth)).getLast?

/-- A call of a tracer, with the rules that were entered last before it and after it, one for
each depth from one on.  A rule is entered right below one that calls it, and what was entered
there and deeper is forgotten. -/
inductive Descends (path : List Rule) : Event → List Rule → Prop
  | enter {outer : List Rule} {caller rule : Rule} (t : Token) :
      outer ++ [caller] <+: path → rule ∈ caller.callees →
      Descends path (.enter rule (outer.length + 2) t) (outer ++ [caller, rule])
  | consume (t : Token) : Descends path (.consume t) path

/-- The calls of a tracer from the beginning of a parse, with the rules that were entered
last. -/
inductive Descent : List Event → List Rule → Prop
  | program (t : Token) : Descent [.enter .program 1 t] [.program]
  | call {es : List Event} {path path' : List Rule} {e : Event} :
      Descent es path → Descends path e path' → Descent (es ++ [e]) path'

section
variable {es : List Event} {path path' : List Rule} {e : Event}

/-- The rules are those that were entered last, each at its depth, and there are none below. -/
structure Entered (es : List Event) (path : List Rule) : Prop where
  depth : lastDepth? es = some path.length
  rules : ∀ i < path.length, lastRule? (i + 1) es = path[i]?

/-- **A call keeps account of what was entered last.** -/
theorem Entered.call (h : Entered es path) (he : Descends path e path') :
    Entered (es ++ [e]) path' := by
  obtain ⟨hdepth, hrules⟩ := h
  cases he with
  | @enter outer caller rule t hprefix hcall =>
    constructor
    · simp [lastDepth?, Event.depth?]
    · intro i hi
      have hlength : i < outer.length + 2 := by simpa using hi
      -- At its own depth the new rule is the last one, and above it nothing has changed.
      by_cases hlast : i = outer.length + 1
      · subst hlast
        simp [lastRule?, Event.ruleAt?]
      · have hi' : i < (outer ++ [caller]).length := by
          rw [List.length_append, List.length_singleton]
          omega
        have hother : lastRule? (i + 1) (es ++ [.enter rule (outer.length + 2) t])
            = lastRule? (i + 1) es := by
          have hne : ¬ outer.length + 2 = i + 1 := by omega
          simp [lastRule?, Event.ruleAt?, hne]
        rw [hother, hrules i (Nat.lt_of_lt_of_le hi' hprefix.length_le)]
        obtain ⟨below, rfl⟩ := hprefix
        rw [List.append_cons outer caller [rule], List.getElem?_append_left hi',
          List.getElem?_append_left hi']
  | consume t =>
    constructor
    · simpa [lastDepth?, Event.depth?] using hdepth
    · intro i hi
      simpa [lastRule?, Event.ruleAt?] using hrules i hi

/-- A rule is entered at most one level below the last one, where one that calls it was entered
last. -/
theorem Entered.of_enter {rule : Rule} {depth : Nat} {t : Token} (h : Entered es path)
    (he : Descends path (.enter rule depth t) path') :
    ∃ last caller, lastDepth? es = some last ∧ 2 ≤ depth ∧ depth ≤ last + 1 ∧
      lastRule? (depth - 1) es = some caller ∧ rule ∈ caller.callees := by
  cases he with
  | @enter outer caller _ _ hprefix hcall =>
    have hlength : outer.length + 1 ≤ path.length := by simpa using hprefix.length_le
    refine ⟨path.length, caller, h.depth, by omega, by omega, ?_, hcall⟩
    have hrule : lastRule? (outer.length + 1) es = path[outer.length]? :=
      h.rules outer.length (by omega)
    obtain ⟨below, rfl⟩ := hprefix
    simpa using hrule

/-- **A descent has in it what was entered last.** -/
theorem Descent.entered (h : Descent es path) : Entered es path := by
  induction h with
  | program t =>
    constructor
    · rfl
    · intro i hi
      obtain rfl : i = 0 := by simpa using hi
      rfl
  | call _ he ih => exact ih.call he

/-- A descent begins with the program. -/
theorem Descent.exists_cons (h : Descent es path) : ∃ t rest, es = .enter .program 1 t :: rest := by
  induction h with
  | program t => exact ⟨t, [], rfl⟩
  | @call _ _ _ e _ _ ih =>
    obtain ⟨t, rest, rfl⟩ := ih
    exact ⟨t, rest ++ [e], rfl⟩

/-- Every call but the first comes after a descent and goes on with it. -/
theorem Descent.exists_descends (h : Descent es path) :
    ∀ {before after : List Event}, before ≠ [] → es = before ++ e :: after →
      ∃ path₁ path₂, Descent before path₁ ∧ Descends path₁ e path₂ := by
  induction h with
  | program t =>
    intro before after hbefore hes
    rcases List.cons_eq_append_iff.mp hes with ⟨hnil, -⟩ | ⟨rest, -, hrest⟩
    · exact absurd hnil hbefore
    · simp at hrest
  | @call es path path' e' hd he ih =>
    intro before after hbefore hes
    rcases List.eq_nil_or_concat after with rfl | ⟨rest, last, rfl⟩
    · obtain ⟨rfl, he'⟩ := List.append_inj' hes rfl
      cases he'
      exact ⟨path, path', hd, he⟩
    · rw [List.concat_eq_append, ← List.cons_append, ← List.append_assoc] at hes
      obtain ⟨hes, -⟩ := List.append_inj' hes rfl
      exact ih hbefore hes

end

/-! ## 3. The judgement -/

/-- Nothing was entered since the innermost of the open rules. -/
abbrev Fresh (stack path : List Rule) : Prop := path = stack.reverse

/-- What was entered since the innermost of the open rules is below it. -/
abbrev Within (stack path : List Rule) : Prop := stack.reverse <+: path

/-- Where nothing was entered since, the open rules are those that were entered last. -/
theorem Fresh.within {stack path : List Rule} (h : Fresh stack path) : Within stack path :=
  h ▸ List.prefix_refl _

/-- A reply that goes on with the descent `before` and ends below the open rules.  If it is a
failure, the rules that the error lists are those that were entered last. -/
def Reply.Nested {α : Type} (r : Reply α) (stack : List Rule) (before : List Event) : Prop :=
  ∃ path, Descent (before ++ calls r.events) path ∧ Within stack path ∧
    ∀ e, r.outcome = .error e → e.stack = path

/-- A success lists no rules. -/
theorem nested_ok {α : Type} {a : α} {stack path : List Rule} {before es : List Event} {c : Cursor}
    (hd : Descent (before ++ calls es) path) (hpath : Within stack path) :
    Reply.Nested ⟨.ok a, es, c⟩ stack before := by
  refine ⟨path, hd, hpath, fun e he => ?_⟩
  cases he

namespace Parser

section
variable {α β : Type} {here : Option Rule} {rule : Rule}
  {pre : List Rule → List Rule → Prop}

/-- A part of the rule `here` that descends to the rules that this one calls.  Where it stands,
the open rules and those that were entered last are as `pre` says. -/
def Nests (here : Option Rule) (pre : List Rule → List Rule → Prop) (p : Parser α) : Prop :=
  ∀ ⦃stack path before c r⦄, stack.head? = here → pre stack path → Descent before path →
    p.run stack c = .ok r → r.Nested stack before

/-- The parser may stand in every rule that calls this one. -/
abbrev NestsAs (rule : Rule) (p : Parser α) : Prop :=
  ∀ ⦃caller⦄, rule ∈ caller.callees → Nests (some caller) Within p

/-- What may stand anywhere in a rule may stand at its beginning. -/
theorem Nests.fresh {p : Parser α} (h : Nests here Within p) : Nests here Fresh p :=
  fun _ _ _ _ _ hs hpath hd hr => h hs hpath.within hd hr

theorem nests_pure {a : α} : Nests here Within (pure a) := by
  intro stack path before c r _ hpath hd hr
  cases hr
  refine nested_ok ?_ hpath
  rwa [calls_nil, List.append_nil]

/-- A parser that gives no answer tells nobody. -/
theorem nests_outOfBound : Nests here pre (outOfBound : Parser α) :=
  fun _ _ _ _ _ _ _ _ hr => by cases hr

/-- **The second part may stand anywhere**, because the first one may have entered a rule.  It stays
within the rules that are open. -/
theorem Nests.bind {p : Parser β} {f : β → Parser α} (hp : Nests here pre p)
    (hf : ∀ b, Nests here Within (f b)) : Nests here pre (p >>= f) := by
  intro stack path before c r hs hpath hd hr
  rcases run_bind_cases hr with ⟨e, es, c', h₁, rfl⟩ | ⟨b, es, c', after, h₁, h₂, rfl⟩
  · obtain ⟨path₁, hd₁, hpath₁, he⟩ := hp hs hpath hd h₁
    refine ⟨path₁, hd₁, hpath₁, fun e' he' => ?_⟩
    cases he'
    exact he e rfl
  · obtain ⟨path₁, hd₁, hpath₁, -⟩ := hp hs hpath hd h₁
    obtain ⟨path₂, hd₂, hpath₂, he⟩ := hf b hs hpath₁ hd₁ h₂
    refine ⟨path₂, ?_, hpath₂, he⟩
    rw [calls_append, ← List.append_assoc]
    exact hd₂

/-- A look at a token is no call. -/
theorem nests_lookahead_bind {f : Token → Parser α} (hf : ∀ t, Nests here pre (f t)) :
    Nests here pre (lookahead >>= f) := by
  intro stack path before c r hs hpath hd hr
  rcases run_bind_cases hr with ⟨e, es, c', h₁, rfl⟩ | ⟨t, es, c', after, h₁, h₂, rfl⟩
  · obtain ⟨_, _, _, h₁⟩ := run_lookahead_cases h₁
    cases h₁
  · obtain ⟨u, rest, rfl, h₁⟩ := run_lookahead_cases h₁
    cases h₁
    exact hf t hs hpath hd h₂

/-- **A rule gives up only before it enters another one.** -/
theorem nests_unhandled (t : Token) : Nests here Fresh (unhandled t : Parser α) := by
  intro stack path before c r _ hpath hd hr
  cases hr
  refine ⟨path, ?_, hpath.within, fun e he => ?_⟩
  · rwa [calls_nil, List.append_nil]
  · cases he
    exact hpath.symm

/-- A token is consumed by the rules that are open. -/
theorem nests_advance : Nests here Within advance := by
  intro stack path before c r _ hpath hd hr
  obtain ⟨t, rest, rfl, rfl⟩ := run_advance_cases hr
  exact nested_ok (hd.call (.consume t)) hpath

/-- A mismatch is not told to a tracer, and the token is consumed if it is not left in place. -/
theorem nests_eatBefore (expected : Kind) (follow : List Kind) :
    Nests here Within (eatBefore expected follow) := by
  intro stack path before c r _ hpath hd hr
  cases run_eatBefore_cases hr with
  | found => exact nested_ok (hd.call (.consume _)) hpath
  | standIn => exact nested_ok (hd.call (.consume _)) hpath
  | missing =>
    refine nested_ok ?_ hpath
    rwa [calls_mismatch_cons, calls_nil, List.append_nil]

theorem nests_name (follow : List Kind) : Nests here Within (name follow) :=
  (nests_eatBefore .identifier follow).bind fun _ => nests_pure

/-- The rounds of a loop stand anywhere within the open rules. -/
theorem nests_repeatWhile {item : Parser α} (test : Kind → Bool) (h : Nests here Within item) :
    ∀ n, Nests here Within (repeatWhile test item n)
  | 0 => nests_outOfBound
  | n + 1 => by
    refine nests_lookahead_bind fun t => ?_
    split
    · refine h.bind fun a => ?_
      refine (nests_repeatWhile test h n).bind fun as => ?_
      exact nests_pure
    · exact nests_pure

theorem nests_many {item : Parser α} (test : Kind → Bool) (h : Nests here Within item) :
    Nests here Within (many test item) :=
  fun _ _ _ _ _ hs hpath hd hr => nests_repeatWhile test h _ hs hpath hd (run_of_many hr)

/-- **A rule is entered right below the one that calls it.** -/
theorem Nests.inRule {p : Parser α} (h : Nests (some rule) Fresh p) :
    NestsAs rule (inRule rule p) := by
  intro caller hcall stack path before c r hs hpath hd hr
  obtain ⟨t, rest, body, rfl, hb, rfl⟩ := run_inRule_cases hr
  obtain ⟨outer, rfl⟩ : ∃ outer, stack = caller :: outer := List.head?_eq_some_iff.mp hs
  have hentered : Descends path (.enter rule (outer.length + 1 + 1) t)
      (rule :: caller :: outer).reverse := by
    have hpath' : outer.reverse ++ [caller] <+: path := by
      rw [← List.reverse_cons]
      exact hpath
    simpa using Descends.enter t hpath' hcall
  obtain ⟨path', hd', hpath', he⟩ := h rfl rfl (hd.call hentered) hb
  refine ⟨path', ?_, ?_, he⟩
  · rw [calls_enter_cons, List.append_cons]
    exact hd'
  · refine List.IsPrefix.trans ?_ hpath'
    simp

end

/-! ## 4. The rules -/

section
variable {s e : Parser Node}

theorem nests_call (callee : String) (he : NestsAs .expression e) : NestsAs .call (call e callee) := by
  refine Nests.inRule (Nests.fresh ?_)
  refine (nests_eatBefore _ _).bind fun _ => ?_
  refine (nests_many _ (he (by decide))).bind fun _ => ?_
  refine (nests_eatBefore _ _).bind fun _ => ?_
  exact nests_pure

/-- An operand enters one rule at most. -/
theorem nests_unary (he : NestsAs .expression e) : NestsAs .unary (unary e) := by
  refine Nests.inRule (Nests.fresh ?_)
  refine nests_advance.bind fun token => ?_
  split
  · refine nests_lookahead_bind fun next => ?_
    split
    · exact nests_call _ he (by decide)
    · exact nests_pure
  all_goals exact nests_pure

/-- The operands are read one level deeper, both below this rule. -/
theorem nests_expression : ∀ bound, NestsAs .expression (expression bound)
  | 0 => fun _ _ => nests_outOfBound
  | bound + 1 => by
    have he : NestsAs .expression (expression bound) := nests_expression bound
    refine Nests.inRule (Nests.fresh ?_)
    refine (nests_unary he (by decide)).bind fun left => ?_
    refine nests_lookahead_bind fun t => ?_
    split
    · refine nests_advance.bind fun _ => ?_
      refine (nests_unary he (by decide)).bind fun right => ?_
      exact nests_pure
    · exact nests_pure

/-- Statements are read below the block. -/
theorem nests_block (hs : NestsAs .statement s) : NestsAs .block (block s) := by
  refine Nests.inRule (Nests.fresh ?_)
  refine (nests_eatBefore _ _).bind fun _ => ?_
  refine (nests_many _ (hs (by decide))).bind fun _ => ?_
  refine (nests_eatBefore _ _).bind fun _ => ?_
  exact nests_pure

/-- The condition and both blocks are below, one after the other. -/
theorem nests_ifStmt (hs : NestsAs .statement s) (he : NestsAs .expression e) :
    NestsAs .ifStmt (ifStmt s e) := by
  refine Nests.inRule (Nests.fresh ?_)
  refine (nests_eatBefore _ _).bind fun _ => ?_
  refine (he (by decide)).bind fun condition => ?_
  refine (nests_block hs (by decide)).bind fun thenBranch => ?_
  refine nests_lookahead_bind fun t => ?_
  split
  · refine (nests_eatBefore _ _).bind fun _ => ?_
    refine (nests_block hs (by decide)).bind fun elseBranch => ?_
    exact nests_pure
  · exact nests_pure

theorem nests_returnStmt (he : NestsAs .expression e) : NestsAs .returnStmt (returnStmt e) := by
  refine Nests.inRule (Nests.fresh ?_)
  refine (nests_eatBefore _ _).bind fun _ => ?_
  refine (he (by decide)).bind fun value => ?_
  exact nests_pure

/-- A name that is assigned again is a level deeper, below the first. -/
theorem nests_assignment (hs : NestsAs .statement s) (he : NestsAs .expression e) :
    ∀ bound target, NestsAs .assignment (assignment s e bound target)
  | 0, _ => fun _ _ => nests_outOfBound
  | bound + 1, target => by
    refine Nests.inRule (Nests.fresh ?_)
    refine (nests_eatBefore _ _).bind fun _ => ?_
    refine nests_lookahead_bind fun start => ?_
    split
    · refine (hs (by decide)).bind fun value => ?_
      exact nests_pure
    · refine (he (by decide)).bind fun value => ?_
      refine nests_lookahead_bind fun next => ?_
      split
      · refine (nests_assignment hs he bound _ (by decide)).bind fun value => ?_
        exact nests_pure
      · exact nests_pure

/-- The error comes before anything was entered, and names the rules that are open. -/
theorem nests_identTail (hs : NestsAs .statement s) (he : NestsAs .expression e) (bound : Nat)
    (name : String) : NestsAs .identTail (identTail s e bound name) := by
  refine Nests.inRule ?_
  refine nests_lookahead_bind fun t => ?_
  split
  · exact (nests_call name he (by decide)).fresh
  · exact (nests_assignment hs he bound name (by decide)).fresh
  · exact nests_unhandled t

/-- Here too: the three forms enter a rule, and where there is an error none was entered. -/
theorem nests_statement : ∀ bound, NestsAs .statement (statement bound)
  | 0 => fun _ _ => nests_outOfBound
  | bound + 1 => by
    have hs : NestsAs .statement (statement bound) := nests_statement bound
    have he : NestsAs .expression (expression bound) := nests_expression bound
    refine Nests.inRule ?_
    refine nests_lookahead_bind fun t => ?_
    split
    · refine (nests_name _).fresh.bind fun name => ?_
      exact nests_identTail hs he bound name (by decide)
    · exact (nests_ifStmt hs he (by decide)).fresh
    · exact (nests_returnStmt he (by decide)).fresh
    · exact nests_unhandled t

theorem nests_parameter : NestsAs .parameter parameter := by
  refine Nests.inRule (Nests.fresh ?_)
  refine (nests_name _).bind fun typeName => ?_
  refine (nests_name _).bind fun name => ?_
  exact nests_pure

/-- Parameters and block are below the function. -/
theorem nests_functionDecl (bound : Nat) : NestsAs .functionDecl (functionDecl bound) := by
  refine Nests.inRule (Nests.fresh ?_)
  refine (nests_eatBefore _ _).bind fun _ => ?_
  refine (nests_name _).bind fun name => ?_
  refine (nests_eatBefore _ _).bind fun _ => ?_
  refine (nests_many _ (nests_parameter (by decide))).bind fun parameters => ?_
  refine (nests_eatBefore _ _).bind fun _ => ?_
  refine (nests_block (nests_statement bound) (by decide)).bind fun body => ?_
  exact nests_pure

/-- A parse begins with its program, within which the rest is. -/
theorem nested_program {bound : Nat} {c : Cursor} {r : Reply Program}
    (hr : (program bound).run [] c = .ok r) : r.Nested [] [] := by
  obtain ⟨t, rest, body, rfl, hb, rfl⟩ := run_inRule_cases hr
  have hbody : Nests (some .program) Within
      (do return (⟨← many (· == .keywordFunc) (functionDecl bound)⟩ : Program)) := by
    refine (nests_many _ (nests_functionDecl bound (by decide))).bind fun functions => ?_
    exact nests_pure
  obtain ⟨path, hd, -, he⟩ := hbody rfl (List.prefix_refl _) (.program t) hb
  exact ⟨path, hd, List.nil_prefix, he⟩

end
end Parser

/-! ## 5. Streams -/

/-- **A tracer sees the run as it is.**  Whatever tracer watches the parse of a stream, the
outcome and the diagnostics are those of the parse without it, and the state of the tracer is
the one after the calls that a recorder keeps.  Each of these is about the token at the
position that the tokens consumed before lead to, so that those consumed are the tokens of the
stream up to where the parse stopped.  The first call enters `program` at depth one.  Every
later rule is entered at most one level below the last one and never at the first, and the
last rule entered one level up calls it in the grammar.  If the parse fails, the rules that the
error lists are at each depth the last one entered, down to the depth of the last. -/
theorem run_traced (s : TokenStream) :
    let calls := (s.parseWith Tracer.recorder []).2
    (∀ (σ : Type) (tracer : Tracer σ) (state : σ),
      s.parseWith tracer state = (s.parse, tracer.watch state calls)) ∧
    (∀ before e after, calls = before ++ e :: after →
      s.tokens[position before]? = some e.token) ∧
    s.tokens = passed calls ++ s.run.cursor ∧
    (∃ t rest, calls = .enter .program 1 t :: rest) ∧
    (∀ before rule depth t after, before ≠ [] → calls = before ++ .enter rule depth t :: after →
      ∃ last caller, lastDepth? before = some last ∧ 2 ≤ depth ∧ depth ≤ last + 1 ∧
        lastRule? (depth - 1) before = some caller ∧ rule ∈ caller.callees) ∧
    ∀ e, s.run.outcome = .error e → lastDepth? calls = some e.stack.length ∧
      ∀ i < e.stack.length, lastRule? (i + 1) calls = e.stack[i]? := by
  have hcalls : (s.parseWith Tracer.recorder []).2 = calls s.run.events := by
    rw [s.parseWith_eq]
    exact Tracer.recorder_watch s.run.events
  have htrail := s.trail_run
  -- the rules entered last make a path all the way down
  obtain ⟨path, hdescent, -, hstack⟩ := Parser.nested_program s.program_run
  rw [List.nil_append] at hdescent
  rw [hcalls]
  refine ⟨?_, ?_, ?_, hdescent.exists_cons, ?_, ?_⟩
  · intro σ tracer state
    rw [s.parseWith_eq, tracer.watch_calls]
  · intro before e after hes
    -- a call is one of the events, with mismatches left out before it
    obtain ⟨before', after', hevents, rfl⟩ := exists_append_of_calls hes
    rw [hevents] at htrail
    rw [position, passed_calls]
    exact htrail.getElem?_token
  · rw [passed_calls]
    exact htrail.eq_append
  · intro before rule depth t after hbefore hes
    obtain ⟨path₁, path₂, hd, hstep⟩ := hdescent.exists_descends hbefore hes
    exact hd.entered.of_enter hstep
  · intro e he
    rw [hstack e he]
    exact ⟨hdescent.entered.depth, hdescent.entered.rules⟩

end FrontEnd
