/-
# Damage to functions

Of the functions of a program some are damaged, in one place each, and the others stand as they
are.  How the whole is read follows from how one damaged function is read: a damaged function
still starts with its keyword, so what stands before it is read as before, and nothing but the
next token is asked about what stands after it.

This holds for any damage that a function recovers from, so the damage is a parameter here.

* `Damaged`: functions, and their tokens after some were damaged;
* `Rounds`: what a loop reads without a mismatch before it gets to the damage;
* `Recovers`, `gives_damaged`: a loop over damaged functions;
* `run_damaged`: the parse of a damaged stream.
-/
import FrontEnd.Proofs.Parser.Recovery

namespace FrontEnd

/-! ## 1. Damage -/

/-- `D f ts us fault g ts'` says that the tokens `ts` of the function `f`, with `us` after them,
may become `ts'`, and that the function should then be read as `g`, with this mismatch. -/
abbrev Damage :=
  Function → List Token → List Token → Kind × Token → Function → List Token → Prop

/-- `Damaged D fs ts faults gs ts'`: the tokens `ts` start with those of the functions `fs`, and
`ts'` are the same but that some of these functions are damaged.  For each of them `faults` has
the mismatch, and `gs` are all functions as they should then be read. -/
inductive Damaged (D : Damage) : List Function → List Token → List (Kind × Token) →
    List Function → List Token → Prop
  | rest (ts : List Token) : Damaged D [] ts [] [] ts
  | intact {f : Function} {fs gs : List Function} {ts us us' : List Token}
      {faults : List (Kind × Token)} :
      ts.length = f.slots.length → Damaged D fs us faults gs us' →
      Damaged D (f :: fs) (ts ++ us) faults (f :: gs) (ts ++ us')
  | damaged {f g : Function} {fs gs : List Function} {ts ts' us us' : List Token}
      {fault : Kind × Token} {faults : List (Kind × Token)} :
      ts.length = f.slots.length → D f ts us fault g ts' → Damaged D fs us faults gs us' →
      Damaged D (f :: fs) (ts ++ us) (fault :: faults) (g :: gs) (ts' ++ us')

namespace Parser

section
variable {α : Type} {stack : List Rule} {c c' d : Cursor} {es : List Event} {bound : Nat}
  {faults : List (Kind × Token)}

/-! ## 2. Rounds without a mismatch -/

/-- From `c` to `d` a loop reads these items, one in each round and without a mismatch. -/
inductive Rounds (test : Kind → Bool) (item : Parser α) (stack : List Rule) :
    Cursor → List α → Cursor → Prop
  | nil {c : Cursor} : Rounds test item stack c [] c
  | cons {c c' d : Cursor} {a : α} {as : List α} : (∀ t ∈ c.head?, test t.kind = true) →
      Gives item stack c a [] c' → Rounds test item stack c' as d →
      Rounds test item stack c (a :: as) d

/-- The loop then does what it does from there on. -/
theorem Rounds.run {test : Kind → Bool} {item : Parser α} {as : List α}
    (h : Rounds test item stack c as d) {n : Nat} {r : Reply (List α)}
    (hr : (repeatWhile test item n).run stack c = .ok r) :
    ∃ m r', (repeatWhile test item m).run stack d = .ok r' ∧
      r.outcome = r'.outcome.map (as ++ ·) ∧ mismatches r.events = mismatches r'.events ∧
      r.cursor = r'.cursor := by
  induction h generalizing n r with
  | nil => exact ⟨n, r, hr, by cases r.outcome <;> rfl, rfl, rfl⟩
  | @cons c c' d a as hc ha _ ih =>
    cases c with
    | nil => cases n <;> cases hr
    | cons t c =>
      rcases run_repeatWhile_round (hc t rfl) hr with
        ⟨e, es, c₁, h₁, -⟩ | ⟨m, b, es, c₁, s, h₁, hs, rfl⟩
      · obtain ⟨_, he, -⟩ := ha _ h₁
        cases he
      · obtain ⟨_, he, hes⟩ := ha _ h₁
        cases he
        obtain ⟨m', r', hr', houtcome, hmismatches, hcursor⟩ := ih hs
        refine ⟨m', r', hr', ?_, by simpa [hes] using hmismatches, hcursor⟩
        rw [houtcome]
        cases r'.outcome <;> rfl

/-- Rounds that were made come before those that are to be made. -/
theorem Rounds.gives {test : Kind → Bool} {item : Parser α} {as bs : List α}
    (h : Rounds test item stack c as d)
    (hd : ∀ n, Gives (repeatWhile test item n) stack d bs faults c') (n : Nat) :
    Gives (repeatWhile test item n) stack c (as ++ bs) faults c' := by
  intro r hr
  obtain ⟨m, r', hm, houtcome, hmismatches, hcursor⟩ := h.run hr
  obtain ⟨es, rfl, hes⟩ := hd m _ hm
  obtain ⟨outcome, events, cursor⟩ := r
  cases houtcome
  cases hcursor
  exact ⟨events, rfl, hmismatches.trans hes⟩

/-- The parameters of a function are the rounds of its list. -/
theorem rounds_parameters : ∀ {ps : List Parameter} {ts : List Token},
    List.Forall₂ Slot.Fits (ps.flatMap Parameter.slots) ts →
      Rounds (· == .identifier) parameter stack (ts ++ c) ps c
  | [], _, .nil => .nil
  | p :: ps, _, hts => by
    rw [List.flatMap_cons] at hts
    obtain ⟨us, vs, rfl, hus, hvs⟩ := fits_append_cases hts
    rw [List.append_assoc]
    refine .cons ?_ ((reads_parameter p).gives hus fun _ _ => trivial) (rounds_parameters hvs)
    cases hus with
    | cons ht =>
      intro u hu
      cases hu
      simp [ht.1]

/-! ## 3. The parts of a function that was read without a mismatch -/

/-- Behind a parameter is another one or the end of the list. -/
theorem startsWith_parameters {ps : List Parameter} {ts : List Token}
    (hts : List.Forall₂ Slot.Fits (ps.flatMap Parameter.slots) ts)
    (hc : StartsWith (· = .closeParenthesis) c) : StartsWith (· ∈ afterParameter) (ts ++ c) := by
  cases ps with
  | nil =>
    cases hts
    obtain ⟨t, ht, hk⟩ := hc
    exact ⟨t, ht, by simp [hk, afterParameter]⟩
  | cons p ps =>
    cases hts with
    | cons ht => exact ⟨_, rfl, by simp [ht.1, afterParameter]⟩

section
variable {f : Function} (head : f.Head) {b : Block} {body : Cursor}

/-- A list ends before whatever begins no parameter. -/
theorem gives_list (t : Token) (ht : t.kind ≠ .identifier) :
    Gives (many (· == .identifier) parameter) stack (head.list ++ t :: c) f.parameters []
      (t :: c) :=
  gives_many (gives_parameters head.list_fits (by simpa using ht))

theorem gives_list_closed :
    Gives (many (· == .identifier) parameter) stack (head.list ++ head.closeList :: c)
      f.parameters [] (head.closeList :: c) :=
  gives_list head _ (by simp [head.closeList_kind])

/-- After a head without mistakes the mismatches are those of the body. -/
theorem gives_head
    (hbody : Gives (block (statement bound)) (.functionDecl :: stack) body b faults d) :
    Gives (functionDecl bound) stack (head.tokens ++ body) ⟨f.name, f.parameters, b⟩ faults d := by
  have htokens : head.tokens ++ body = head.keyword :: head.name :: head.openList ::
      (head.list ++ head.closeList :: body) := by simp [Function.Head.tokens]
  rw [htokens]
  exact gives_functionDecl head.keyword_kind (gives_head_name head _)
    (gives_head_openList head _) (gives_list_closed head) (gives_head_closeList head _) hbody

end

/-- The first round of a loop without mismatches takes as many tokens as its function has
slots. -/
theorem functionDecl_round {f : Function} {fs : List Function} {n : Nat}
    (h : (repeatWhile (· == .keywordFunc) (functionDecl bound) n).run stack c =
      .ok ⟨.ok (f :: fs), es, c'⟩)
    (hes : mismatches es = []) :
    (∀ t ∈ c.head?, (t.kind == .keywordFunc) = true) ∧
    ∃ m es₁ es₂ us, mismatches es₁ = [] ∧ mismatches es₂ = [] ∧ c = passed es₁ ++ us ∧
      (passed es₁).length = f.slots.length ∧
      (functionDecl bound).run stack (passed es₁ ++ us) = .ok ⟨.ok f, es₁, us⟩ ∧
      (repeatWhile (· == .keywordFunc) (functionDecl bound) m).run stack us =
        .ok ⟨.ok fs, es₂, c'⟩ := by
  obtain ⟨t, rest, rfl, ⟨-, has, -⟩ | ⟨ht, m, a, as', es₁, us, es₂, -, has, rfl, hf, hrest⟩⟩ :=
    run_repeatWhile_cases h
  · cases has
  cases has
  obtain ⟨hes₁, hes₂⟩ : mismatches es₁ = [] ∧ mismatches es₂ = [] := by simpa using hes
  have hfits := (closes_functionDecl bound).fits hf hes₁
  have htrail := ((Composed.functionDecl bound).trail hf).eq_append
  exact ⟨by simpa using ht, m, es₁, es₂, us, hes₁, hes₂, htrail, hfits.length_eq.symm,
    htrail ▸ hf, hrest⟩

end

/-! ## 4. Damaged functions -/

section
variable {D : Damage} {stack : List Rule} {bound : Nat} {fs gs : List Function}
  {ts ts' : List Token} {faults : List (Kind × Token)}

/-- Functions keep their first tokens, and if one was read without a mismatch, then after the
damage it is read as it should be. -/
structure Recovers (D : Damage) (bound : Nat) (stack : List Rule) : Prop where
  head? : ∀ {f ts us fault g ts'}, D f ts us fault g ts' → ts'.head? = ts.head?
  gives : ∀ {f g es us us' fault ts'}, D f (passed es) us fault g ts' →
    (functionDecl bound).run stack (passed es ++ us) = .ok ⟨.ok f, es, us⟩ → mismatches es = [] →
    us ≠ [] → us'.head? = us.head? → Gives (functionDecl bound) stack (ts' ++ us') g [fault] us'

/-- Damaged functions begin like the functions that they were. -/
theorem Recovers.head?_damaged (hD : Recovers D bound stack) (h : Damaged D fs ts faults gs ts') :
    ts'.head? = ts.head? := by
  induction h with
  | rest => rfl
  | intact _ _ ih => rw [List.head?_append, List.head?_append, ih]
  | damaged _ hdamage _ ih => rw [List.head?_append, List.head?_append, hD.head? hdamage, ih]

/-- **Each damaged function is one mismatch.**  Functions are read one by one, and what follows
each starts as before. -/
theorem gives_damaged (hD : Recovers D bound stack) (h : Damaged D fs ts faults gs ts') :
    ∀ {n es c'}, (repeatWhile (· == .keywordFunc) (functionDecl bound) n).run stack ts =
      .ok ⟨.ok fs, es, c'⟩ → mismatches es = [] → ∀ m,
      Gives (repeatWhile (· == .keywordFunc) (functionDecl bound) m) stack ts' gs faults c' := by
  -- by induction over the damage, function by function; the two parses may have different bounds
  induction h with
  | rest ts =>
    intro n es c' hr hes
    obtain ⟨t, rest, rfl, ⟨ht, -, -, rfl⟩ | ⟨-, m, a, as', es₁, c₁, es₂, -, has, -⟩⟩ :=
      run_repeatWhile_cases hr
    · exact gives_repeatWhile_nil (by simpa using ht)
    · cases has
  | @intact f fs gs ts us us' faults hlength h ih =>
    intro n es c' hr hes
    obtain ⟨ht, m, es₁, es₂, vs, hes₁, hes₂, htokens, hslots, hf, hrest⟩ :=
      functionDecl_round hr hes
    obtain ⟨rfl, rfl⟩ := List.append_inj htokens (hlength.trans hslots.symm)
    have hhead := hD.head?_damaged h
    refine gives_repeatWhile_cons ?_ ((Composed.functionDecl bound).gives hf hes₁ hhead)
      (ih hrest hes₂)
    rwa [List.head?_append, hhead, ← List.head?_append]
  | @damaged f g fs gs ts ts' us us' fault faults hlength hdamage h ih =>
    intro n es c' hr hes
    obtain ⟨ht, m, es₁, es₂, vs, hes₁, hes₂, htokens, hslots, hf, hrest⟩ :=
      functionDecl_round hr hes
    obtain ⟨rfl, rfl⟩ := List.append_inj htokens (hlength.trans hslots.symm)
    have hhead := hD.head?_damaged h
    -- a loop that goes on has looked at a token
    have hmore : us ≠ [] := by
      obtain ⟨t, rest, rfl, -⟩ := run_repeatWhile_cases hrest
      exact List.cons_ne_nil t rest
    refine gives_repeatWhile_cons ?_ (hD.gives hdamage hf hes₁ hmore hhead) (ih hrest hes₂)
    rwa [List.head?_append, hD.head? hdamage, hhead, ← List.head?_append]

end
end Parser

/-! ## 5. Streams -/

section
variable {s t : TokenStream} {p : Program}

/-- With enough levels of nesting for both, the parses of two streams are runs of one parser. -/
theorem TokenStream.exists_common_bound (hs : s.run.outcome = .ok p)
    (hclean : s.run.diagnostics = []) (t : TokenStream) :
    ∃ bound n es c', (Parser.repeatWhile (· == .keywordFunc) (Parser.functionDecl bound) n).run
        [.program] s.tokens = .ok ⟨.ok p.functions, es, c'⟩ ∧ mismatches es = [] ∧
      (Parser.program bound).run [] t.tokens = .ok t.run := by
  have hr := Parser.program_refines (Nat.le_max_left s.tokens.length t.tokens.length) _ _ _
    (TokenStream.program_run_of_tree hs)
  have hr' := Parser.program_refines (Nat.le_max_right s.tokens.length t.tokens.length) _ _ _
    t.program_run
  generalize max s.tokens.length t.tokens.length = bound at hr hr'
  have hes : mismatches s.run.events = [] := recorded_eq_nil_iff.mp hclean
  generalize s.run.events = es, s.run.cursor = c' at hr hes
  obtain ⟨u, rest, ⟨o, es, c'⟩, hu, hb, hr⟩ := Parser.run_inRule_cases hr
  cases hr
  obtain ⟨fs, es₁, c₁, es₂, hloop, hp, rfl⟩ := Parser.run_bind_success hb
  cases hp
  rw [List.append_nil] at hes
  rw [← hu] at hloop
  exact ⟨bound, _, es₁, c', Parser.run_of_many hloop, hes, hr'⟩

/-- **Damage that functions recover from is one mismatch each**, and nothing else of the tree
changes. -/
theorem run_damaged {D : Damage} {gs : List Function} {faults : List (Kind × Token)}
    (hs : s.run.outcome = .ok p) (hclean : s.run.diagnostics = [])
    (hD : ∀ bound, Parser.Recovers D bound [.program])
    (h : Damaged D p.functions s.tokens faults gs t.tokens) :
    t.run.outcome = .ok ⟨gs⟩ ∧
    t.run.diagnostics.map (fun d => (d.problem, d.span)) =
      faults.map fun q => (.mismatch q.1 q.2, some q.2.span) := by
  obtain ⟨bound, n, es, c', hloop, hes, hr'⟩ := TokenStream.exists_common_bound hs hclean t
  have hgives : Parser.Gives (Parser.program bound) [] t.tokens ⟨gs⟩ faults c' :=
    ((Parser.gives_many (Parser.gives_damaged (hD bound) h hloop hes)).bind_pure
      Program.mk).inRule
  obtain ⟨es', ht, hes'⟩ := hgives _ hr'
  rw [ht]
  exact ⟨rfl, by rw [Reply.diagnostics, map_recorded, hes']⟩

end
end FrontEnd
