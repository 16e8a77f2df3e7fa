/-
# Golden files

A source can hold the report that is expected for it, each line of it in a comment.  Appending
the report of a source to the source itself makes such a file, and it passes its own test.

That is not so by construction, since the file that is tested is another text than the one
that was compiled.  The comments must leave every token, every diagnostic and every position
as it was: they come after a line feed, so that no lexeme, comment or fault of the source goes
on into them, and the only token that moves is the end of the text.  And the lines of the
report must survive being written into comments: a blank or a carriage return at the end of a
line is lost on both sides.

Where the source has no report, as a margin of its tree is too wide, no file that holds the
source and comments can be tested.

* `lex_withReport`: the tokens and the diagnostics are those of the source;
* `report_withReport`: so is the report, if there is one;
* `ofSource_withReport`: the lines of the report are what the file expects;
* `not_forall_golden`: with a wide indentation a golden file is not tested.
-/
import FrontEnd.Proofs.Lexer.Lines
import FrontEnd.Proofs.Lexer.Spaced
import FrontEnd.Proofs.Parser.Concatenation
import FrontEnd.Proofs.Reports

namespace FrontEnd

/-! ## 1. Reports in comments -/

/-- A line of output as a line of source that expects it. -/
def commentLine (line : String) : String := "// " ++ line ++ "\n"

/-- A source with the report that it expects at its end. -/
def withReport (source report : String) : String :=
  source ++ "\n" ++ String.join ((Text.lines report).map commentLine)

/-- The comments of a report, as characters. -/
def comments (report : String) : List Char :=
  (Text.splitLines report.toList).flatMap fun line => '/' :: '/' :: ' ' :: (line ++ ['\n'])

theorem toList_withReport (source report : String) :
    (withReport source report).toList = source.toList ++ '\n' :: comments report := by
  simp [withReport, comments, commentLine, Text.lines, String.toList_join, List.flatMap_map]

/-- Comments at the ends of lines are layout. -/
theorem closed_comments (report : String) : Layout.Closed (comments report) := by
  unfold comments
  have hlines := fun line => @Text.not_mem_of_mem_splitLines report.toList line
  generalize Text.splitLines report.toList = lines at hlines
  induction lines with
  | nil => exact .nil
  | cons line lines ih =>
    have hbody : '\n' ∉ ' ' :: line := by simpa using hlines line (by simp)
    have hrest := ih fun l hl => hlines l (List.mem_cons_of_mem _ hl)
    simpa using Layout.Closed.lineComment hbody hrest

/-! ## 2. What a source expects -/

namespace Expectations

theorem startsWith_of_ofLine? {line rest : List Char} (h : ofLine? line = some rest) :
    ['/', '/'] <+: line := by
  unfold ofLine? at h
  split at h
  · exact ⟨_, rfl⟩
  · exact ⟨_, rfl⟩
  · cases h

/-- **A line of output comes back out of its comment**, but for blanks at its end. -/
theorem ofLine?_comment {line : List Char} (h : '\n' ∉ line) :
    (Text.splitLines ('/' :: '/' :: ' ' :: (line ++ ['\n']))).filterMap ofLine? =
      [Text.dropBlanksAtEnd line] := by
  have hcomment : '\n' ∉ '/' :: '/' :: ' ' :: line := by simpa using h
  obtain ⟨kept, hsplit, hkept⟩ := Text.splitLines_line hcomment
  rw [List.cons_append, List.cons_append, List.cons_append] at hsplit
  rw [hsplit]
  rcases hkept with rfl | hkept
  · rfl
  · -- the carriage return goes with the line feed, and is a blank of the line of output
    rcases List.eq_nil_or_concat line with rfl | ⟨body, c, rfl⟩
    · have hmarker : ['/', '/'] ++ [' '] = kept ++ ['\r'] := hkept
      exact absurd (List.append_inj' hmarker rfl).2 (by decide)
    · rw [List.concat_eq_append] at hkept ⊢
      have hbody : '/' :: '/' :: ' ' :: body ++ [c] = kept ++ ['\r'] := hkept
      obtain ⟨rfl, hc⟩ := List.append_inj' hbody rfl
      rw [List.singleton_inj.mp hc, Text.dropBlanksAtEnd_snoc (by decide)]
      rfl

/-- **The lines of the report are what the file expects.**  The source expects nothing itself,
and neither does it with a line feed at its end. -/
theorem ofSource_withReport {source : String} (report : String)
    (h : ∀ line ∈ Text.splitLines source.toList, ¬ ['/', '/'] <+: line) :
    ofSource (withReport source report) = ⟨actualLines report⟩ := by
  have hsource : (Text.splitLines (source.toList ++ ['\n'])).filterMap ofLine? = [] := by
    refine List.filterMap_eq_nil_iff.mpr fun line hline => ?_
    by_contra hne
    obtain ⟨rest, hrest⟩ := Option.ne_none_iff_exists'.mp hne
    have hstart := startsWith_of_ofLine? hrest
    -- a line of the source with a line feed behind it is one of its lines or a part of one
    rcases Text.prefix_of_mem_splitLines hline with rfl | ⟨whole, hwhole, hprefix⟩
    · cases hrest
    · exact h whole hwhole (hstart.trans hprefix)
  have hcomments : (Text.splitLines (comments report)).filterMap ofLine? =
      (Text.splitLines report.toList).map Text.dropBlanksAtEnd := by
    unfold comments
    have hlines := fun line => @Text.not_mem_of_mem_splitLines report.toList line
    generalize Text.splitLines report.toList = lines at hlines
    induction lines with
    | nil => rfl
    | cons line lines ih =>
      have hline := ofLine?_comment (hlines line (by simp))
      have hrest := ih fun l hl => hlines l (List.mem_cons_of_mem _ hl)
      rw [List.flatMap_cons, List.map_cons, ← hrest]
      have hsplit := Text.splitLines_append ('/' :: '/' :: ' ' :: line)
        (lines.flatMap fun line => '/' :: '/' :: ' ' :: (line ++ ['\n']))
      simp only [List.cons_append, List.append_assoc, List.nil_append] at hsplit ⊢
      rw [hsplit, List.filterMap_append, hline]
      rfl
  rw [ofSource, toList_withReport, Text.splitLines_append, List.filterMap_append, hsource,
    hcomments]
  simp [actualLines, Text.lines, Text.trimEnd]

end Expectations

/-! ## 3. What is lexed and parsed -/

/-- **The comments leave the tokens and the diagnostics as they were.**  Only the end of the text
moves. -/
theorem lex_withReport (path : String) {source : String} (report : String)
    (h : ∀ s ∈ segments source.toList, s.content ≠ .layout .openComment) :
    (∃ tokens offset, (lex path source).tokens = tokens ++ [.eof source.utf8ByteSize] ∧
      (lex path (withReport source report)).tokens = tokens ++ [.eof offset]) ∧
    (lex path (withReport source report)).diagnostics = (lex path source).diagnostics := by
  have hmarked : marked 0 (withReport source report).toList = marked 0 source.toList := by
    have hlayout := marked_closed (closed_comments report) []
    rw [List.append_nil] at hlayout
    rw [toList_withReport, marked_line _ h, hlayout, marked_nil, List.append_nil]
  refine ⟨⟨_, (withReport source report).utf8ByteSize, lex_tokens_marked path source, ?_⟩, ?_⟩
  · rw [lex_tokens_marked, hmarked]
  · rw [lex_diagnostics_marked, lex_diagnostics_marked, hmarked]

/-- A part of the source is at the same line and column in both texts. -/
theorem position_withReport (path : String) {source : String} (report : String) {span : Span}
    (h : Text.OnLine source.toList span) :
    (lex path (withReport source report)).position span = (lex path source).position span := by
  obtain ⟨piece, after, ⟨before, htext, ho, -⟩, -⟩ := h
  rw [List.append_assoc] at htext
  have hgolden : (withReport source report).toList =
      before ++ (piece ++ after ++ '\n' :: comments report) := by
    rw [toList_withReport, htext, List.append_assoc]
  have hline : (lex path (withReport source report)).lineCol span =
      (lex path source).lineCol span := by
    rw [TokenStream.lineCol, TokenStream.lineCol, LineTable.lineCol, LineTable.lineCol, ← ho,
      lineAt_byteLength hgolden, lineAt_byteLength htext]
  rw [TokenStream.position, TokenStream.position, hline, lex_path, lex_path]

/-- **The parse is that of the source.** -/
theorem run_withReport {path source : String} (report : String)
    (hclosed : ∀ s ∈ segments source.toList, s.content ≠ .layout .openComment)
    (hstop : ∀ e, (lex path source).run.outcome = .error e → e.found.kind ≠ .eof) :
    (lex path (withReport source report)).run.outcome = (lex path source).run.outcome ∧
      (lex path (withReport source report)).run.diagnostics =
        (lex path source).run.diagnostics := by
  obtain ⟨⟨tokens, offset, hs, hs'⟩, -⟩ := lex_withReport path report hclosed
  exact run_of_end hs hs' hstop

/-! ## 4. Reports -/

/-- A diagnostic about a part of the source is described in the same words. -/
theorem describe_withReport {path source report : String} {ds ds' : List Diagnostic}
    {d : Diagnostic} (h : ∃ span, d.span = some span ∧ Text.OnLine source.toList span) :
    ((lex path (withReport source report)).append ds').describe d =
      ((lex path source).append ds).describe d := by
  obtain ⟨span, hspan, hline⟩ := h
  have hposition : ((lex path (withReport source report)).append ds').position span =
      ((lex path source).append ds).position span := position_withReport path report hline
  simp only [TokenStream.describe, TokenStream.place, hspan, hposition]

namespace Compiler

/-- **The report is that of the source**: the same tree or the same error, and the same
diagnostics at the same positions. -/
theorem report_withReport (c : Compiler) {path source : String} (report : String)
    (hclosed : ∀ s ∈ segments source.toList, s.content ≠ .layout .openComment)
    (hstop : ∀ e, (c.compile path source).outcome = .error e → e.found.kind ≠ .eof) :
    (c.compile path (withReport source report)).report = (c.compile path source).report := by
  have hstopped : ∀ e, (lex path source).run.outcome = .error e → e.found.kind ≠ .eof := by
    rwa [c.compile_eq] at hstop
  obtain ⟨hrun, hdiagnostics⟩ := run_withReport report hclosed hstopped
  have houtcome : (c.compile path (withReport source report)).outcome =
      (c.compile path source).outcome := by
    rw [c.compile_eq, c.compile_eq]
    exact hrun
  have hlist : (c.compile path (withReport source report)).listErrors =
      (c.compile path source).listErrors := by
    have hall : (c.compile path (withReport source report)).stream.diagnostics =
        (c.compile path source).stream.diagnostics := by
      rw [diagnostics_compile, diagnostics_compile, hdiagnostics,
        (lex_withReport path report hclosed).2]
    -- every diagnostic is about a part of the source, and that part has not moved
    have hdescribe : ∀ d ∈ (c.compile path source).stream.diagnostics,
        (c.compile path (withReport source report)).stream.describe d =
          (c.compile path source).stream.describe d := by
      intro d hd
      rw [diagnostics_compile] at hd
      rw [c.compile_eq, c.compile_eq]
      exact describe_withReport (onLine_of_compiled hd)
    rw [Compilation.listErrors, Compilation.listErrors, TokenStream.listErrors,
      TokenStream.listErrors, hall, mapM_congr hdescribe]
  have hresult : (c.compile path (withReport source report)).result =
      (c.compile path source).result := by
    rw [Compilation.result, Compilation.result, houtcome, indent_compile, indent_compile]
    cases ho : (c.compile path source).outcome with
    | ok p => rfl
    | error e =>
      -- the token that stopped the parse is one of the source, as it is not the end of the text
      have hposition := position_withReport path report (onLine_of_error ho)
      simp only [Compilation.describeError, position_compile, hposition]
  rw [Compilation.report, Compilation.report, hresult, hlist]

/-- **Golden files pass.**  No line of the source starts with two slashes, no comment of it is
left open at its end, and the parse comes to a tree or stops at a token of the text, with
diagnostics or without.  Then the source with its own report at its end passes its test.  There
is a report exactly if the margins of the tree can be printed.  If there is none then a margin is
the reason, and no test of the source, with whatever report at its end, has an outcome. -/
theorem test_golden (c : Compiler) (path : String) {source : String}
    (hlines : ∀ line ∈ Text.splitLines source.toList, ¬ ['/', '/'] <+: line)
    (hclosed : ∀ s ∈ segments source.toList, s.content ≠ .layout .openComment)
    (hstop : ∀ e, (c.compile path source).outcome = .error e → e.found.kind ≠ .eof) :
    (∀ report, (c.compile path source).report = .ok report →
      c.test path (withReport source report) = .ok ⟨[]⟩) ∧
    (source.utf8ByteSize < Machine.greatest →
      ((∃ report, (c.compile path source).report = .ok report) ↔
        ∀ p, (c.compile path source).outcome = .ok p →
          (p.levels - 1) * c.indent ≤ Printer.widestMargin)) ∧
    ∀ panic, (c.compile path source).report = .error panic →
      (source.utf8ByteSize < Machine.greatest → panic = .marginTooWide) ∧
      ∀ report, c.test path (withReport source report) = .error panic := by
  have hreport := fun report => c.report_withReport report hclosed hstop
  refine ⟨fun report h => ?_, exists_report_iff, fun panic h =>
    ⟨fun hshort => report_eq_error hshort h, fun report => ?_⟩⟩
  · rw [test, hreport, h]
    show Except.ok _ = _
    -- the expected lines are the lines of the report, which is the report of this text too
    rw [Expectations.ofSource_withReport _ hlines, Expectations.check,
      Expectations.compareFrom_self]
  · rw [test, hreport, h]
    rfl

/-- A text whose tokens are known comes to what they come to. -/
theorem outcome_of_tokens {c : Compiler} {path source : String} {tokens : List Token}
    (h : (lex path source).tokens = (TokenStream.ofTokens path tokens .empty []).tokens) :
    (c.compile path source).outcome =
      (TokenStream.ofTokens path tokens .empty []).run.outcome := by
  rw [c.compile_eq, ← TokenStream.run_congr h]
  rfl

/-- A parse with a tree was not stopped. -/
theorem not_stopped {c : Compiler} {path source : String} {p : Program}
    (h : (c.compile path source).outcome = .ok p) :
    ∀ e, (c.compile path source).outcome = .error e → e.found.kind ≠ .eof := by
  intro e he
  rw [h] at he
  cases he

/-- The name of the function is missing, which is recorded. -/
theorem test_golden_missing_name :
    let source := "func()\x7b\x7d"
    let c := Compiler.usual false false
    (∀ line ∈ Text.splitLines source.toList, ¬ ['/', '/'] <+: line) ∧
      (∀ s ∈ segments source.toList, s.content ≠ .layout .openComment) ∧
      (c.compile "a" source).outcome = .ok ⟨[⟨"(", [], []⟩]⟩ ∧
      ∃ report, (c.compile "a" source).report = .ok report ∧
        c.test "a" (withReport source report) = .ok ⟨[]⟩ := by
  intro source c
  have hlines : ∀ line ∈ Text.splitLines source.toList, ¬ ['/', '/'] <+: line := by decide
  have hsegments : segments source.toList = firstSegments 8 source.toList :=
    segments_eq_firstSegments (by decide)
  have hclosed : ∀ s ∈ segments source.toList, s.content ≠ .layout .openComment := by
    rw [hsegments]
    decide
  let tokens : List Token := [⟨.keywordFunc, "func", ⟨0, 4⟩⟩,
    ⟨.openParenthesis, "(", ⟨4, 1⟩⟩, ⟨.closeParenthesis, ")", ⟨5, 1⟩⟩,
    ⟨.openScope, "\x7b", ⟨6, 1⟩⟩, ⟨.closeScope, "\x7d", ⟨7, 1⟩⟩, .eof 8]
  have htokens : (lex "a" source).tokens = (TokenStream.ofTokens "a" tokens .empty []).tokens := by
    rw [lex_tokens, hsegments]
    decide
  have htree : (c.compile "a" source).outcome = .ok ⟨[⟨"(", [], []⟩]⟩ := by
    rw [outcome_of_tokens htokens]
    decide
  obtain ⟨hpasses, hprinted, -⟩ := test_golden c "a" hlines hclosed (not_stopped htree)
  obtain ⟨report, hreport⟩ := (hprinted (by decide)).mpr fun p hp => by
    rw [htree] at hp
    cases hp
    decide
  exact ⟨hlines, hclosed, htree, report, hreport, hpasses report hreport⟩

/-- **Not every source with its report is a golden file.**  With an indentation wider than every
margin that can be printed, a function whose block is indented has no report. -/
theorem not_forall_golden : ¬ ∀ (c : Compiler) (path source : String),
    (∀ line ∈ Text.splitLines source.toList, ¬ ['/', '/'] <+: line) →
    (∀ s ∈ segments source.toList, s.content ≠ .layout .openComment) →
    (∀ e, (c.compile path source).outcome = .error e → e.found.kind ≠ .eof) →
    ∃ report, (c.compile path source).report = .ok report ∧
      c.test path (withReport source report) = .ok ⟨[]⟩ := by
  intro h
  let source := "func f() \x7b \x7d"
  let c : Compiler := ⟨{}, false, 65536, by decide⟩
  have hlines : ∀ line ∈ Text.splitLines source.toList, ¬ ['/', '/'] <+: line := by decide
  have hsegments : segments source.toList = firstSegments 12 source.toList :=
    segments_eq_firstSegments (by decide)
  have hclosed : ∀ s ∈ segments source.toList, s.content ≠ .layout .openComment := by
    rw [hsegments]
    decide
  let tokens : List Token := [⟨.keywordFunc, "func", ⟨0, 4⟩⟩, ⟨.identifier, "f", ⟨5, 1⟩⟩,
    ⟨.openParenthesis, "(", ⟨6, 1⟩⟩, ⟨.closeParenthesis, ")", ⟨7, 1⟩⟩,
    ⟨.openScope, "\x7b", ⟨9, 1⟩⟩, ⟨.closeScope, "\x7d", ⟨11, 1⟩⟩, .eof 12]
  have htokens : (lex "a" source).tokens = (TokenStream.ofTokens "a" tokens .empty []).tokens := by
    rw [lex_tokens, hsegments]
    decide
  have htree : (c.compile "a" source).outcome = .ok ⟨[⟨"f", [], []⟩]⟩ := by
    rw [outcome_of_tokens htokens]
    decide
  obtain ⟨report, hreport, -⟩ := h c "a" source hlines hclosed (not_stopped htree)
  have hshort : source.utf8ByteSize < Machine.greatest := by decide
  have hfits := (exists_report_iff hshort).mp ⟨report, hreport⟩ _ htree
  -- the block stands on the second of two levels, 65536 blanks from the left
  exact absurd hfits (by decide)

end Compiler
end FrontEnd
