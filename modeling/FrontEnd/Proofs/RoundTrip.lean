/-
# Written programs are compiled to themselves

A program that the grammar builds can be written out and compiled, and the program comes
back, whatever it is and however its tokens are laid out.

* `lex_spaced`: a text that is the written form of slots is lexed to tokens that fit them;
* `compile_written`: so the parse reads the tree back (`Parser.reads_program`).

Three things are asked of the program and its text.  The program is one that the grammar
builds without garbage; its names are words that are no keywords and its literals are
spelled as their kinds demand; and each token of the text is followed by a blank, or by
nothing at the end.
-/
import FrontEnd.Compilation
import FrontEnd.Proofs.Lexer.Placement
import FrontEnd.Proofs.Lexer.Spaced
import FrontEnd.Proofs.Parser.Reading

namespace FrontEnd

/-! ## 1. Writing slots -/

namespace Slot

/-- How the token of the slot is written. -/
def written : Slot → List Char
  | fixed k => k.symbol?.getD []
  | text k x => Lexeme.written k x.toList
  | token t => t.written

/-- A name or a literal is spelled as its kind demands. -/
def Spelled : Slot → Prop
  | text k x => Lexeme.Spelling k (Lexeme.written k x.toList)
  | _ => True

instance : ∀ s : Slot, Decidable s.Spelled
  | text k x => inferInstanceAs (Decidable (Lexeme.Spelling k (Lexeme.written k x.toList)))
  | fixed _ => .isTrue trivial
  | token _ => .isTrue trivial

/-- The slot is no garbage, and what is fixed has a spelling. -/
def Plain : Slot → Prop
  | fixed k => k.symbol?.isSome
  | text _ _ => True
  | token _ => False

@[simp] theorem plain_fixed (k : Kind) : (fixed k).Plain ↔ k.symbol?.isSome := Iff.rfl

@[simp] theorem plain_text (k : Kind) (x : String) : (text k x).Plain := trivial

/-- A plain slot that is spelled is the spelling of its kind. -/
theorem Plain.spelling {s : Slot} (hp : s.Plain) (hs : s.Spelled) :
    Lexeme.Spelling s.kind s.written := by
  cases s with
  | fixed k =>
    obtain ⟨chars, hk⟩ := Option.isSome_iff_exists.mp hp
    exact .symbol (by simp [written, Slot.kind, hk])
  | text k x => exact hs
  | token t => exact hp.elim

/-- The segment that writes the slot is lexed to a token that fits it. -/
theorem Plain.exists_token {s : Slot} (hp : s.Plain) (offset : Nat) :
    ∃ t, Segment.token? ⟨.lexeme s.kind, s.written⟩ offset = some t ∧ s.Fits t := by
  refine ⟨_, rfl, ?_⟩
  cases s with
  | fixed k => rfl
  | text k x => exact ⟨rfl, by simp [written, Lexeme.text_written, Slot.kind]⟩
  | token t => exact hp.elim

end Slot

/-- The names and literals of the program are spelled as their kinds demand. -/
def Program.Spelled (p : Program) : Prop := ∀ s ∈ p.slots, s.Spelled

theorem Operator.symbol?_isSome (o : Operator) : o.kind.symbol?.isSome := by
  cases o <;> rfl

/-- Every slot is plain. -/
def AllPlain (slots : List Slot) : Prop := ∀ s ∈ slots, s.Plain

@[simp] theorem allPlain_nil : AllPlain [] := fun _ h => by cases h

@[simp] theorem allPlain_cons {s : Slot} {ss : List Slot} :
    AllPlain (s :: ss) ↔ s.Plain ∧ AllPlain ss := List.forall_mem_cons

@[simp] theorem allPlain_append {ss ss' : List Slot} :
    AllPlain (ss ++ ss') ↔ AllPlain ss ∧ AllPlain ss' := List.forall_mem_append

@[simp] theorem allPlain_flatMap {α : Type} {as : List α} {slots : α → List Slot} :
    AllPlain (as.flatMap slots) ↔ ∀ a ∈ as, AllPlain (slots a) := List.forall_mem_flatMap

theorem allPlain_blockSlots {b : Block} (h : ∀ n ∈ b, AllPlain n.slots) :
    AllPlain (blockSlots b) := by
  simpa [blockSlots, Kind.symbol?] using h

/-- The slots of what the grammar builds are plain. -/
theorem Node.Shaped.allPlain {form : Form} {n : Node} (h : n.Shaped noToken form) :
    AllPlain n.slots := by
  induction h with
  | identifier x => simp [Node.slots]
  | literal text _ => simp [Node.slots]
  | garbage ht => exact ht.elim
  | call _ ih | callAlone _ ih => simpa [slots_call, argumentSlots, Kind.symbol?] using ih
  | single _ ih => exact ih
  | binary o _ _ ihl ihr => simp [Node.slots, o.symbol?_isSome, ihl, ihr]
  | @conditional c t e _ _ _ ihc iht ihe =>
    have ht := allPlain_blockSlots iht
    cases e with
    | none => simp [slots_conditional_none, Kind.symbol?, ihc, ht]
    | some b => simp [slots_conditional_some, Kind.symbol?, ihc, ht, allPlain_blockSlots (ihe b rfl)]
  | returned _ ih | assignExpression _ ih | assignStatement _ ih =>
    simpa [Node.slots, Kind.symbol?] using ih

/-- Everything that the grammar writes is plain. -/
theorem Program.Shaped.allPlain {p : Program} (h : p.Shaped noToken) : AllPlain p.slots := by
  refine allPlain_flatMap.mpr fun f hf => ?_
  have hbody := allPlain_blockSlots fun n hn => (h f hf n hn).allPlain
  simp [Function.slots, Parameter.slots, Kind.symbol?, hbody]

/-! ## 2. Lexing what is written -/

/-- The marks of what is written out are tokens that fit the slots. -/
theorem marked_spaced : ∀ {slots : List Slot} {text : List Char},
    AllPlain slots → (∀ s ∈ slots, s.Spelled) → Spaced (slots.map Slot.written) text →
    ∀ offset, List.Forall₂ Slot.Fits slots ((marked offset text).filterMap placedToken?) ∧
      (marked offset text).filterMap placedDiagnostic? = []
  | [], _, _, _, .nil hl, offset => by
    have hnone := marked_closed hl [] offset
    rw [List.append_nil, marked_nil] at hnone
    rw [hnone]
    exact ⟨.nil, rfl⟩
  | s :: slots, _, hp, hs, @Spaced.cons layout _ _ _ hl ha hrest, offset => by
    have hlexeme := (hp s (by simp)).spelling (hs s (by simp))
    rw [List.append_assoc, marked_closed hl, marked_lexeme hlexeme ha]
    generalize offset + Text.byteLength layout = start
    obtain ⟨t, hst, hfit⟩ := (hp s (by simp)).exists_token start
    obtain ⟨ih, ihd⟩ := marked_spaced (fun u hu => hp u (by simp [hu]))
      (fun u hu => hs u (by simp [hu])) hrest (start + Text.byteLength s.written)
    rw [List.filterMap_cons, List.filterMap_cons]
    simp only [placedToken?, hst, placedDiagnostic?]
    exact ⟨.cons hfit ih, ihd⟩

/-- **Slots that are written out are lexed to tokens that fit them**, and nothing is
reported. -/
theorem lex_spaced {slots : List Slot} {text : List Char} (hp : AllPlain slots)
    (hs : ∀ s ∈ slots, s.Spelled) (htext : Spaced (slots.map Slot.written) text) (offset : Nat) :
    List.Forall₂ Slot.Fits slots ((placed offset (segments text)).filterMap placedToken?) ∧
      (placed offset (segments text)).filterMap placedDiagnostic? = [] := by
  rw [← filterMap_token_marked, ← filterMap_diagnostic_marked]
  exact marked_spaced hp hs htext offset

/-! ## 3. Compiling what is written -/

/-- **A program that is written out is compiled to itself**: the outcome is that program,
nothing is reported, and so the compilation succeeds.  The program can have any number of
functions and its nodes can nest to any depth. -/
theorem compile_written (c : Compiler) (path : String) {p : Program} {source : String}
    (hshape : p.Shaped noToken) (hspelled : p.Spelled)
    (hsource : Spaced (p.slots.map Slot.written) source.toList) :
    (c.compile path source).outcome = .ok p ∧ (c.compile path source).stream.diagnostics = [] ∧
      (c.compile path source).succeeded = true := by
  obtain ⟨hfits, hdiagnostics⟩ := lex_spaced hshape.allPlain hspelled hsource 0
  have hrun := (lex path source).program_run
  rw [lex_tokens] at hrun
  have hend : ∀ t ∈ [Token.eof source.utf8ByteSize].head?, t.kind = .eof := by simp
  obtain ⟨es, hr, hes⟩ := (Parser.reads_program _ hshape).reads hfits hend hrun
  have houtcome : (c.compile path source).outcome = .ok p := by
    rw [c.compile_eq]
    show (lex path source).run.outcome = .ok p
    rw [hr]
  have hnone : (c.compile path source).stream.diagnostics = [] := by
    rw [c.compile_eq]
    show (lex path source).diagnostics ++ recorded (lex path source).run.events = []
    rw [lex_diagnostics, hdiagnostics, hr, hes]
    rfl
  refine ⟨houtcome, hnone, ?_⟩
  simp [Compilation.succeeded, Compilation.program?, TokenStream.hasErrors, houtcome, hnone,
    Except.toOption]

/-- A call among assignments that chain, and a condition with both branches. -/
theorem compile_written_chain :
    let p : Program := ⟨[⟨"f", [⟨"Int", "a"⟩],
      [.assignment "b" (.assignment "c" (.call "g" [.identifier "a", .literal .integer "1"])),
        .conditional (.binary (.identifier "a") .equal (.literal .float "2.5"))
          [.returned (.literal .string "x")] (some [.call "f" []])]⟩]⟩
    let source :=
      "func f ( Int a ) \x7b b = c = g ( a 1 ) if a == 2.5 \x7b return \"x\" \x7d else \x7b f ( ) \x7d \x7d "
    let compilation := (Compiler.usual false false).compile "" source
    compilation.outcome = .ok p ∧ compilation.stream.diagnostics = [] ∧
      compilation.succeeded = true := by
  intro p source compilation
  have hchain : (Node.assignment "b" (.assignment "c" (.call "g"
      [.identifier "a", .literal .integer "1"]))).Shaped noToken .statement := by
    refine .assignStatement (.assignExpression (.single (.call ?_)))
    rintro _ (_ | ⟨_, _ | ⟨_, ⟨⟩⟩⟩)
    · exact .single (.identifier "a")
    · exact .single (.literal "1" (by decide))
  have hcondition : (Node.conditional (.binary (.identifier "a") .equal (.literal .float "2.5"))
      [.returned (.literal .string "x")] (some [.call "f" []])).Shaped noToken .statement := by
    refine .conditional (.binary _ (.identifier "a") (.literal "2.5" (by decide))) ?_ ?_
    · rintro _ (_ | ⟨_, ⟨⟩⟩)
      exact .returned (.single (.literal "x" (by decide)))
    · rintro _ ⟨⟩ _ (_ | ⟨_, ⟨⟩⟩)
      exact .callAlone (by simp)
  have hsource : source.toList = (p.slots.map fun s => (s.written, [' '])).flatMap
      fun q => q.1 ++ q.2 := by decide
  refine compile_written _ _ ?_ (show ∀ s ∈ p.slots, s.Spelled by decide) ?_
  · simpa [p, Program.Shaped] using ⟨hchain, hcondition⟩
  · have hlexemes : p.slots.map Slot.written =
        (p.slots.map fun s => (s.written, [' '])).map Prod.fst := by simp
    rw [hsource, hlexemes]
    refine spaced_flatMap fun q hq => ?_
    obtain ⟨s, -, rfl⟩ := List.mem_map.mp hq
    exact ⟨Layout.closed_blanks (by simp [Layout.isBlank]), by simp, by
      simp [Lexeme.Apart, Layout.isBlank]⟩

end FrontEnd
