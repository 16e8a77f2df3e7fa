/-
# Which compilations have a report

A report is the printed tree, or the error that stopped the parse, and then every diagnostic.  Two
things can end the program before it is complete: a margin of the tree that is too wide to be
printed, and a position whose column is not a number of the machine.  The second takes a line as
long as the greatest number.  So a text that is shorter has a report exactly if the margins of its
tree can be printed, and where the parse was stopped it always has one.

* `Text.OnLine.exists_position`: every part of a text has a position;
* `TokenStream.exists_listErrors`: so the diagnostics can be listed;
* `Compiler.exists_report_iff`: which compilations have a report;
* `Compiler.report_eq_error`: what is missing where there is none.
-/
import FrontEnd.Compilation
import FrontEnd.Proofs.Lexer.Positions
import FrontEnd.Proofs.Parser.Sites

namespace FrontEnd

/-! ## 1. Lists of what can fail -/

/-- If nothing of a list fails then the list does not. -/
theorem exists_mapM_eq_ok {ε α β : Type} {f : α → Except ε β} {as : List α}
    (h : ∀ a ∈ as, ∃ b, f a = .ok b) : ∃ bs, as.mapM f = .ok bs := by
  induction as with
  | nil => exact ⟨[], rfl⟩
  | cons a as ih =>
    obtain ⟨b, hb⟩ := h a List.mem_cons_self
    obtain ⟨bs, hbs⟩ := ih fun a' ha' => h a' (List.mem_cons_of_mem a ha')
    exact ⟨b :: bs, by rw [List.mapM_cons, hb, hbs]; rfl⟩

theorem mapM_congr {ε α β : Type} {f g : α → Except ε β} {as : List α}
    (h : ∀ a ∈ as, f a = g a) : as.mapM f = as.mapM g := by
  induction as with
  | nil => rfl
  | cons a as ih =>
    rw [List.mapM_cons, List.mapM_cons, h a List.mem_cons_self,
      ih fun a' ha' => h a' (List.mem_cons_of_mem a ha')]

/-! ## 2. Positions -/

/-- **A part of a text has a position**, if the text is not as long as the greatest number. -/
theorem Text.OnLine.exists_position (path : String) {source : String} {span : Span}
    (h : OnLine source.toList span) (hshort : source.utf8ByteSize < Machine.greatest) :
    ∃ text, (lex path source).position span = .ok text := by
  obtain ⟨before, after, -, -, -, hok⟩ := h.locates path
  have hlookup := hok (by rwa [Text.byteLength_toList])
  exact ⟨_, by rw [TokenStream.position, hlookup]; rfl⟩

namespace TokenStream

/-- Diagnostics can be listed if the places that they are about have positions. -/
theorem exists_listErrors {s : TokenStream}
    (h : ∀ d ∈ s.diagnostics, ∀ span, d.span = some span → ∃ text, s.position span = .ok text) :
    ∃ text, s.listErrors = .ok text := by
  have hdescribe : ∀ d ∈ s.diagnostics, ∃ text, s.describe d = .ok text := by
    intro d hd
    cases hspan : d.span with
    | none => exact ⟨_, by rw [describe, place, hspan]; rfl⟩
    | some span =>
      obtain ⟨text, ht⟩ := h d hd span hspan
      exact ⟨_, by simp only [describe, place, hspan, ht]; rfl⟩
  obtain ⟨texts, htexts⟩ := exists_mapM_eq_ok hdescribe
  exact ⟨String.join texts, by rw [listErrors, htexts]; rfl⟩

end TokenStream

/-- What stops a parse is a token, and the error is at its span. -/
theorem span_of_error {s : TokenStream} {e : SyntaxError} (h : s.run.outcome = .error e) :
    ∃ t ∈ s.tokens, e.span = t.span := by
  have hfound := s.found_of_error h
  have hmem : e.found ∈ s.tokens := by
    rw [s.trail_run.eq_append]
    exact List.mem_append_right _ (List.mem_of_mem_head? hfound)
  exact ⟨e.found, hmem, (s.honest_run.failure e h).2.span⟩

/-- Every diagnostic of a compilation is about a part of the source. -/
theorem onLine_of_compiled {path source : String} {d : Diagnostic}
    (h : d ∈ (lex path source).diagnostics ++ (lex path source).run.diagnostics) :
    ∃ span, d.span = some span ∧ Text.OnLine source.toList span := by
  rcases List.mem_append.mp h with h | h
  · exact onLine_diagnostic h
  · obtain ⟨t, ht, hspan⟩ := TokenStream.exists_found h
    exact ⟨t.span, hspan, onLine_token ht⟩

namespace Compiler

variable {c : Compiler} {path source : String}

/-! ## 3. Compilations -/

/-- The error that stopped the parse is about a part of the source. -/
theorem onLine_of_error {e : SyntaxError} (h : (c.compile path source).outcome = .error e) :
    Text.OnLine source.toList e.span := by
  rw [c.compile_eq] at h
  obtain ⟨t, ht, hspan⟩ := span_of_error (s := lex path source) h
  rw [hspan]
  exact onLine_token ht

theorem diagnostics_compile : (c.compile path source).stream.diagnostics =
    (lex path source).diagnostics ++ (lex path source).run.diagnostics := by
  rw [c.compile_eq]
  rfl

theorem indent_compile : (c.compile path source).indent = c.indent := by
  rw [c.compile_eq]

/-- Positions are looked up in the lines that the lexer noted. -/
theorem position_compile (span : Span) :
    (c.compile path source).stream.position span = (lex path source).position span := by
  rw [c.compile_eq]
  rfl

theorem exists_listErrors_compile (c : Compiler) (path : String) {source : String}
    (hshort : source.utf8ByteSize < Machine.greatest) :
    ∃ text, (c.compile path source).listErrors = .ok text := by
  refine TokenStream.exists_listErrors fun d hd span hspan => ?_
  rw [diagnostics_compile] at hd
  obtain ⟨span', hspan', hline⟩ := onLine_of_compiled hd
  obtain rfl : span = span' := Option.some.inj (hspan.symm.trans hspan')
  rw [position_compile]
  exact hline.exists_position path hshort

/-- **A stopped parse is always reported.** -/
theorem exists_report_of_error {e : SyntaxError}
    (hshort : source.utf8ByteSize < Machine.greatest)
    (h : (c.compile path source).outcome = .error e) :
    ∃ report, (c.compile path source).report = .ok report := by
  obtain ⟨errors, herrors⟩ := exists_listErrors_compile c path hshort
  obtain ⟨place, hplace⟩ := (onLine_of_error h).exists_position path hshort
  rw [← position_compile (c := c)] at hplace
  exact ⟨_, by simp only [Compilation.report, Compilation.result, h, Compilation.describeError,
    hplace, herrors]; rfl⟩

/-- Of a tree the report is what is printed of it, with the diagnostics. -/
theorem report_of_tree {p : Program} (hshort : source.utf8ByteSize < Machine.greatest)
    (h : (c.compile path source).outcome = .ok p) :
    ∃ errors, (c.compile path source).report = (p.print c.indent).map (· ++ errors) := by
  obtain ⟨errors, herrors⟩ := exists_listErrors_compile c path hshort
  refine ⟨errors, ?_⟩
  simp only [Compilation.report, Compilation.result, h, indent_compile, herrors]
  cases p.print c.indent <;> rfl

/-- **A compilation has a report exactly if the margins of its tree can be printed.** -/
theorem exists_report_iff (hshort : source.utf8ByteSize < Machine.greatest) :
    (∃ report, (c.compile path source).report = .ok report) ↔
      ∀ p, (c.compile path source).outcome = .ok p →
        (p.levels - 1) * c.indent ≤ Printer.widestMargin := by
  cases houtcome : (c.compile path source).outcome with
  | error e => simp [exists_report_of_error hshort houtcome]
  | ok p =>
    obtain ⟨errors, hreport⟩ := report_of_tree hshort houtcome
    rw [hreport, p.print_eq]
    split
    · rename_i hfits
      simp [Except.map, hfits]
    · rename_i hwide
      simp [Except.map, hwide]

/-- What keeps a compilation from a report is a margin. -/
theorem report_eq_error (hshort : source.utf8ByteSize < Machine.greatest) {panic : Panic}
    (h : (c.compile path source).report = .error panic) : panic = .marginTooWide := by
  cases houtcome : (c.compile path source).outcome with
  | error e =>
    obtain ⟨report, hreport⟩ := exists_report_of_error hshort houtcome
    rw [hreport] at h
    cases h
  | ok p =>
    obtain ⟨errors, hreport⟩ := report_of_tree hshort houtcome
    rw [hreport, p.print_eq] at h
    split at h <;> cases h
    rfl

end Compiler
end FrontEnd
