/-
# Files that cannot be read

Two commands go over a list of files, and each ends early where a file cannot be read, but not
in the same way.  Compiling asks for every file before it answers: it has all compilations, or
all errors, and in the second case nothing was written.  Testing answers file by file, so that
the verdicts before the first file that cannot be read are already out.

In both, a file that is named twice is read twice, and the answers stand in the order of the
names.  That is said here against the reader alone: `canRead` and `failures` do not mention
compilations.

Either command also ends where a report cannot be told, after what was written before it.  With
the usual indentation that takes a tree of more than `deepest` levels.

* `compileAll_eq_ok_iff`, `compileAll_eq_error_iff`: when all files are compiled, and what is
  answered otherwise;
* `Application.compile_unread`, `Application.compile_read`, `Application.compile_stopped`: the
  command that compiles;
* `Application.verdicts_of_prefix`, `Application.verdicts_snd_iff`: the command that tests;
* `exists_report_usual`: which files have a report.
-/
import FrontEnd.Application
import FrontEnd.Proofs.Reports

namespace FrontEnd

/-! ## 1. What a reader can read -/

namespace Reader

/-- Whether the file can be read. -/
def canRead (r : Reader) (path : String) : Bool := (r.read path).isOk

/-- The errors of the files that cannot be read, in order, one for each time that such a file is
named. -/
def failures (r : Reader) (paths : List String) : List CompileError :=
  paths.filterMap fun path =>
    match r.read path with
    | .ok _ => none
    | .error cause => some (.unreadable path cause)

variable {r : Reader} {c : Compiler} {path : String} {paths : List String}

theorem canRead_iff : r.canRead path = true ↔ ∃ source, r.read path = .ok source := by
  unfold canRead
  cases r.read path <;> simp [Except.isOk, Except.toBool]

theorem canRead_eq_false_iff :
    r.canRead path = false ↔ ∃ cause, r.read path = .error cause := by
  unfold canRead
  cases r.read path <;> simp [Except.isOk, Except.toBool]

theorem failures_eq_nil_iff : r.failures paths = [] ↔ ∀ path ∈ paths, r.canRead path = true := by
  simp only [failures, List.filterMap_eq_nil_iff, canRead_iff]
  refine forall₂_congr fun path _ => ?_
  cases r.read path <;> simp

theorem source_of_read {source : String} (h : r.read path = .ok source) :
    r.source path = .ok source := by
  rw [Reader.source, h]
  rfl

theorem source_of_unread {cause : ReadError} (h : r.read path = .error cause) :
    r.source path = .error (.unreadable path cause) := by
  rw [Reader.source, h]
  rfl

/-- The file's text is compiled under its path. -/
theorem compile_of_read {source : String} (h : r.read path = .ok source) :
    r.compile c path = .ok (c.compile path source) := by
  rw [compile, source_of_read h]
  rfl

theorem compile_of_unread {cause : ReadError} (h : r.read path = .error cause) :
    r.compile c path = .error (.unreadable path cause) := by
  rw [compile, source_of_unread h]
  rfl

theorem test_of_read {source : String} (h : r.read path = .ok source) :
    r.test c path = (c.test path source).mapError .panicked := by
  rw [test, source_of_read h]
  rfl

theorem test_of_unread {cause : ReadError} (h : r.read path = .error cause) :
    r.test c path = .error (.failed (.unreadable path cause)) := by
  rw [test, source_of_unread h]
  rfl

/-- A file has a verdict if it can be read and has a report. -/
theorem test_of_report {source report : String} (h : r.read path = .ok source)
    (hreport : (c.compile path source).report = .ok report) :
    r.test c path = .ok ((Expectations.ofSource source).check report) := by
  rw [test_of_read h, Compiler.test, hreport]
  rfl

end Reader

/-! ## 2. All compilations or all errors -/

theorem errorsOf_map_ok {ε α : Type} (as : List α) :
    errorsOf (as.map (Except.ok (ε := ε))) = [] := by
  simp [errorsOf]

theorem valuesOf_map_ok {ε α : Type} (as : List α) :
    valuesOf (as.map (Except.ok (ε := ε))) = as := by
  simp [valuesOf, Function.comp_def, Except.toOption]

/-- Results without an error are values. -/
theorem map_ok_valuesOf {ε α : Type} {results : List (Except ε α)} (h : errorsOf results = []) :
    results = (valuesOf results).map .ok := by
  induction results with
  | nil => rfl
  | cons result results ih =>
    cases result with
    | error e => simp [errorsOf] at h
    | ok a =>
      have := ih (by simpa [errorsOf] using h)
      simpa [valuesOf, Except.toOption] using this

namespace Reader

variable {r : Reader} {c : Compiler} {paths : List String}

/-- The errors of compiling are those of reading. -/
theorem errorsOf_compile : errorsOf (paths.map (r.compile c)) = r.failures paths := by
  simp only [errorsOf, failures, List.filterMap_map]
  congr 1
  funext path
  cases h : r.read path with
  | ok source => simp [compile_of_read h]
  | error cause => simp [compile_of_unread h]

/-- The errors are answered, if there are any, and the compilations otherwise. -/
theorem compileAll_eq : r.compileAll c paths =
    if r.failures paths = [] then .ok (valuesOf (paths.map (r.compile c)))
    else .error (.several (r.failures paths)) := by
  simp only [compileAll, errorsOf_compile]
  split
  · rename_i h
    rw [if_pos h]
  · rename_i h
    rw [if_neg h]

/-- **The compilations are answered, one for each path**, if all files can be read. -/
theorem compileAll_eq_ok_iff {cs : List Compilation} :
    r.compileAll c paths = .ok cs ↔ paths.map (r.compile c) = cs.map .ok := by
  rw [compileAll_eq]
  constructor
  · intro h
    split at h
    · rename_i hnone
      cases h
      exact map_ok_valuesOf (errorsOf_compile.trans hnone)
    · cases h
  · intro h
    rw [← errorsOf_compile (c := c), h, if_pos (errorsOf_map_ok cs), valuesOf_map_ok]

/-- **Otherwise all errors of reading are answered**, and nothing else. -/
theorem compileAll_eq_error_iff {e : CompileError} : r.compileAll c paths = .error e ↔
    (∃ path ∈ paths, r.canRead path = false) ∧ e = .several (r.failures paths) := by
  have hsome : r.failures paths ≠ [] ↔ ∃ path ∈ paths, r.canRead path = false := by
    simp [failures_eq_nil_iff]
  rw [compileAll_eq, ← hsome]
  split
  · rename_i hnone
    simp [hnone]
  · rename_i herrors
    simp [herrors, eq_comm]

theorem exists_compileAll_iff :
    (∃ cs, r.compileAll c paths = .ok cs) ↔ ∀ path ∈ paths, r.canRead path = true := by
  rw [← failures_eq_nil_iff, compileAll_eq]
  split <;> simp_all

end Reader

/-- The text of several errors is that of each on lines of its own. -/
theorem CompileError.message_several (errors : List CompileError) :
    (several errors).message = "\n".intercalate (errors.map message) := by
  have hmessages : ∀ errors, messages errors = errors.map message := by
    intro errors
    induction errors with
    | nil => rfl
    | cons e es ih => rw [messages, ih, List.map_cons]
  rw [message, hmessages]

namespace Application

/-! ## 3. Compiling -/

variable {r : Reader} {c : Compiler} {files : List String}

/-- The status is that of success if nothing failed. -/
theorem status_countOf (failed total : Nat) (complaint : String) :
    (countOf failed total complaint).status = 0 ↔ failed = 0 := by
  unfold countOf
  split <;> simp_all [Ending.status]

/-- The report of a file, under its heading. -/
def headed (several : Bool) (path report : String) : String := heading several path ++ report

/-- A compilation bears the path of its file. -/
theorem path_of_compile {path : String} {compilation : Compilation}
    (h : r.compile c path = .ok compilation) : compilation.path = path := by
  cases hread : r.read path with
  | ok source =>
    rw [Reader.compile_of_read hread, c.compile_eq] at h
    cases h
    exact lex_path path source
  | error cause =>
    rw [Reader.compile_of_unread hread] at h
    cases h

/-- Reports that can be told are all told, each under the path of its file. -/
theorem reports_of_told (several : Bool) : ∀ {files : List String} {cs : List Compilation}
    {texts : List String}, files.map (r.compile c) = cs.map .ok →
      cs.map Compilation.report = texts.map .ok →
      reports several cs = (String.join (List.zipWith (headed several) files texts), .ok ())
  | [], [], [], _, _ => rfl
  | [], _ :: _, _, h, _ | _ :: _, [], _, h, _ => by cases h
  | _ :: _, _ :: _, [], _, h | [], [], _ :: _, _, h => by cases h
  | file :: files, k :: cs, text :: texts, hfiles, htexts => by
    obtain ⟨hk, hfiles⟩ := List.cons.inj hfiles
    obtain ⟨htext, htexts⟩ := List.cons.inj htexts
    simp only [reports, htext, reports_of_told several hfiles htexts, path_of_compile hk,
      List.zipWith_cons_cons, String.join_cons, headed]

/-- The first report that cannot be told ends the others, after its heading. -/
theorem reports_of_stopped (several : Bool) {k : Compilation} {p : Panic}
    (hk : k.report = .error p) (after : List Compilation) :
    ∀ {before : List Compilation} {texts : List String},
      before.map Compilation.report = texts.map .ok →
      reports several (before ++ k :: after) =
        ((reports several before).1 ++ heading several k.path, .error p)
  | [], _, _ => by simp [reports, hk]
  | _ :: _, [], h => by cases h
  | k' :: before, text :: texts, h => by
    obtain ⟨htext, htexts⟩ := List.cons.inj h
    simp only [List.cons_append, reports, htext, reports_of_stopped several hk after htexts,
      String.append_assoc]

/-- **Nothing is written if some file cannot be read.** -/
theorem compile_unread (h : ∃ path ∈ files, r.canRead path = false) :
    (compile r c files).stdout = "" ∧ (compile r c files).ending.status ≠ 0 := by
  have herror := Reader.compileAll_eq_error_iff (c := c).mpr ⟨h, rfl⟩
  simp [compile, herror, Ending.status]

/-- **Otherwise every report is written**, in the order of the files, if it can be told. -/
theorem compile_read {cs : List Compilation} {texts : List String}
    (h : r.compileAll c files = .ok cs) (htexts : cs.map Compilation.report = texts.map .ok) :
    (compile r c files).stdout =
        String.join (List.zipWith (headed (1 < files.length)) files texts) ∧
      ((compile r c files).ending.status = 0 ↔ ∀ k ∈ cs, k.succeeded = true) := by
  have hmap := Reader.compileAll_eq_ok_iff.mp h
  have hlength : files.length = cs.length := by simpa using congrArg List.length hmap
  have hreports := reports_of_told (1 < cs.length) hmap htexts
  simp only [compile, h, hreports, hlength]
  exact ⟨trivial, by simp [status_countOf]⟩

/-- **A report that cannot be told ends the program**, after those before it. -/
theorem compile_stopped {before after : List Compilation} {k : Compilation} {texts : List String}
    {p : Panic} (h : r.compileAll c files = .ok (before ++ k :: after))
    (htexts : before.map Compilation.report = texts.map .ok) (hk : k.report = .error p) :
    (compile r c files).stdout =
        String.join (List.zipWith (headed (1 < files.length)) files texts) ++
          heading (1 < files.length) k.path ∧
      (compile r c files).ending = .panicked p := by
  have hmap := Reader.compileAll_eq_ok_iff.mp h
  have hlength : files.length = (before ++ k :: after).length := by
    simpa using congrArg List.length hmap
  rw [List.map_append] at hmap
  obtain ⟨told, others, rfl, hbefore, -⟩ := List.map_eq_append_iff.mp hmap
  have htold := reports_of_told (1 < (told ++ others).length) hbefore htexts
  -- the reports that were told are those of the files before, one for each
  have hshort : told.length = texts.length := by
    have hcompiled := congrArg List.length hbefore
    have hreported := congrArg List.length htexts
    simp only [List.length_map] at hcompiled hreported
    exact hcompiled.trans hreported
  have hzip : List.zipWith (headed (1 < (told ++ others).length)) (told ++ others) (texts ++ []) =
      List.zipWith (headed (1 < (told ++ others).length)) told texts ++
        List.zipWith (headed (1 < (told ++ others).length)) others [] := List.zipWith_append hshort
  rw [List.append_nil, List.zipWith_nil_right, List.append_nil] at hzip
  rw [hzip]
  simp only [compile, h, ← hlength, reports_of_stopped _ hk _ htexts, htold]
  exact ⟨trivial, trivial⟩

/-! ## 4. Testing -/

/-- **The verdicts before the first file without one are written.** -/
theorem verdicts_of_prefix {stop : Stop} {file : String}
    (hstop : r.test c file = .error stop) (after : List String) :
    ∀ {before : List String} {outcomes : List TestOutcome},
      before.map (r.test c) = outcomes.map .ok →
      verdicts r c (before ++ file :: after) =
        (String.join (List.zipWith verdict before outcomes), .error stop)
  | [], [], _ => by simp [verdicts, hstop]
  | [], _ :: _, h | _ :: _, [], h => by cases h
  | file' :: before, o :: outcomes, h => by
    obtain ⟨ho, houtcomes⟩ := List.cons.inj h
    simp only [List.cons_append, verdicts, ho, verdicts_of_prefix hstop after houtcomes,
      List.zipWith_cons_cons, String.join_cons, Except.map]

/-- If every file has a verdict then all are written. -/
theorem verdicts_fst : ∀ {files : List String} {outcomes : List TestOutcome},
    files.map (r.test c) = outcomes.map .ok →
      (verdicts r c files).1 = String.join (List.zipWith verdict files outcomes)
  | [], [], _ => rfl
  | [], _ :: _, h | _ :: _, [], h => by cases h
  | file :: files, o :: outcomes, h => by
    obtain ⟨ho, houtcomes⟩ := List.cons.inj h
    simp only [verdicts, ho, verdicts_fst houtcomes, List.zipWith_cons_cons, String.join_cons]

/-- All files are tested and none fails exactly if each can be read and passes. -/
theorem verdicts_snd_iff : ∀ files : List String, (verdicts r c files).2 = .ok 0 ↔
    ∀ file ∈ files, ∃ o, r.test c file = .ok o ∧ o.passed = true
  | [] => by simp [verdicts]
  | file :: files => by
    have ih := verdicts_snd_iff files
    cases htest : r.test c file with
    | error e => simp [verdicts, htest]
    | ok o =>
      cases hrest : (verdicts r c files).2 with
      | error e => simp_all [verdicts, Except.map]
      | ok n => cases hpassed : o.passed <;> simp_all [verdicts, Except.map]

/-- Testing succeeds if the verdicts were all given, and none is against a file. -/
theorem status_test : (test r c files).ending.status = 0 ↔ (verdicts r c files).2 = .ok 0 := by
  simp only [test]
  rcases (verdicts r c files).2 with (e | p) | n
  · simp [Ending.status]
  · simp [Ending.status]
  · simp [status_countOf]

end Application

/-! ## 5. Which files have a report -/

/-- The most levels that a tree can have to be printed with the usual indentation. -/
def deepest : Nat := 32768

/-- The text is not as long as the greatest number, and its tree, if it has one, is not deeper than
what can be printed. -/
structure Shallow (path source : String) : Prop where
  short : source.utf8ByteSize < Machine.greatest
  levels : ∀ p, (lex path source).parse.1 = .ok p → p.levels ≤ deepest

/-- With the usual indentation a margin is two blanks for each level. -/
theorem exists_report_usual {path source : String} (h : Shallow path source)
    (traceLexer traceParser : Bool) : ∃ report,
      ((Compiler.usual traceLexer traceParser).compile path source).report = .ok report := by
  refine (Compiler.exists_report_iff h.short).mpr fun p hp => ?_
  rw [Compiler.compile_eq] at hp
  have hlevels : p.levels ≤ 32768 := h.levels p hp
  show (p.levels - 1) * 2 ≤ 65535
  omega

/-! ## 6. Both commands -/

/-- Compiling several files answers all compilations or all errors of reading. -/
structure Reader.AllOrErrors (r : Reader) (c : Compiler) (paths : List String) : Prop where
  /-- One compilation for each path, in order, and each that of its path alone. -/
  compilations : ∀ cs, r.compileAll c paths = .ok cs ↔ paths.map (r.compile c) = cs.map .ok
  all : (∃ cs, r.compileAll c paths = .ok cs) ↔ ∀ path ∈ paths, r.canRead path = true
  /-- One error of reading for each path that cannot be read, in order. -/
  errors : ∀ e, r.compileAll c paths = .error e ↔
    (∃ path ∈ paths, r.canRead path = false) ∧ e = .several (r.failures paths)
  /-- The answer is about no path, and its text is that of the errors on lines of their own. -/
  told : ∀ e, r.compileAll c paths = .error e →
    e.path? = none ∧ e.message = "\n".intercalate ((r.failures paths).map CompileError.message)

/-- A run has reported on all files, or written nothing. -/
structure Application.ReportsAll (r : Reader) (c : Compiler) (files : List String) (run : Run) :
    Prop where
  unread : (∃ file ∈ files, r.canRead file = false) → run.stdout = "" ∧ run.ending.status ≠ 0
  read : ∀ cs texts, r.compileAll c files = .ok cs → cs.map Compilation.report = texts.map .ok →
    run.stdout = String.join (List.zipWith (headed (1 < files.length)) files texts) ∧
      (run.ending.status = 0 ↔ ∀ k ∈ cs, k.succeeded = true)
  /-- Every shallow file has a report. -/
  reported : ∀ file ∈ files, ∀ source, r.read file = .ok source → Shallow file source →
    ∃ k report, r.compile c file = .ok k ∧ k.report = .ok report
  /-- Where one has none, those before it have been written. -/
  stopped : ∀ before k after texts p, r.compileAll c files = .ok (before ++ k :: after) →
    before.map Compilation.report = texts.map .ok → k.report = .error p →
      run.stdout = String.join (List.zipWith (headed (1 < files.length)) files texts) ++
        heading (1 < files.length) k.path ∧ run.ending = .panicked p

/-- A run has given its verdicts on the files before the first that cannot be read. -/
structure Application.JudgesRead (r : Reader) (c : Compiler) (files : List String) (run : Run) :
    Prop where
  verdicts : ∀ outcomes, (files.takeWhile r.canRead).map (r.test c) = outcomes.map .ok →
    run.stdout = String.join (List.zipWith verdict (files.takeWhile r.canRead) outcomes)
  /-- Every shallow file has a verdict. -/
  judged : ∀ file ∈ files, ∀ source, r.read file = .ok source → Shallow file source →
    ∃ o, r.test c file = .ok o
  /-- Where one has none, those before it have been given. -/
  stopped : ∀ before file after outcomes p, files = before ++ file :: after →
    before.map (r.test c) = outcomes.map .ok → r.test c file = .error (.panicked p) →
      run.stdout = String.join (List.zipWith verdict before outcomes) ∧ run.ending = .panicked p
  passed : run.ending.status = 0 ↔ ∀ file ∈ files, ∃ o, r.test c file = .ok o ∧ o.passed = true

theorem Reader.allOrErrors (r : Reader) (c : Compiler) (paths : List String) :
    r.AllOrErrors c paths where
  compilations _ := compileAll_eq_ok_iff
  all := exists_compileAll_iff
  errors _ := compileAll_eq_error_iff
  told e he := by
    obtain ⟨-, rfl⟩ := compileAll_eq_error_iff.mp he
    exact ⟨rfl, CompileError.message_several _⟩

theorem Application.reportsAll (r : Reader) (traceLexer traceParser : Bool)
    (files : List String) :
    ReportsAll r (.usual traceLexer traceParser) files
      (compile r (.usual traceLexer traceParser) files) where
  unread := compile_unread
  read _ _ := compile_read
  reported file _ source hread hshallow := by
    obtain ⟨report, hreport⟩ := exists_report_usual hshallow traceLexer traceParser
    exact ⟨_, report, Reader.compile_of_read hread, hreport⟩
  stopped _ _ _ _ _ := compile_stopped

theorem Application.judgesRead (r : Reader) (files : List String) :
    JudgesRead r (.usual false false) files (test r (.usual false false) files) where
  verdicts outcomes h := by
    -- either all files can be read, or the first that cannot ends the verdicts
    cases hunread : files.dropWhile r.canRead with
    | nil =>
      have hall : files.takeWhile r.canRead = files := by
        have hsplit := List.takeWhile_append_dropWhile (p := r.canRead) (l := files)
        rwa [hunread, List.append_nil] at hsplit
      rw [hall] at h ⊢
      exact verdicts_fst h
    | cons file after =>
      have hsplit := List.takeWhile_append_dropWhile (p := r.canRead) (l := files)
      have hhead := List.head?_dropWhile_not r.canRead files
      rw [hunread] at hsplit hhead
      obtain ⟨cause, hcause⟩ := Reader.canRead_eq_false_iff.mp (by simpa using hhead)
      have hverdicts := verdicts_of_prefix
        (Reader.test_of_unread (c := .usual false false) hcause) after h
      rw [hsplit] at hverdicts
      simp only [test, hverdicts]
  judged file _ source hread hshallow := by
    obtain ⟨report, hreport⟩ := exists_report_usual hshallow false false
    exact ⟨_, Reader.test_of_report hread hreport⟩
  stopped before file after outcomes p hfiles houtcomes hstop := by
    have hverdicts := verdicts_of_prefix hstop after houtcomes
    rw [← hfiles] at hverdicts
    simp only [test, hverdicts]
    exact ⟨trivial, trivial⟩
  passed := status_test.trans (verdicts_snd_iff files)

/-- **Compiling reads all files or fails with all errors; testing stops at the first.**  Of any
files, named once or several times, compiling answers all compilations, or one error that holds
every error of reading.  So the command that compiles has written either every report or
nothing.  The command that tests has written the verdicts on the files before the first that
cannot be read.  Each succeeds exactly if all files can be read and none of them fails.  Where a
report cannot be told, which takes a tree that is deeper than what can be printed, either command
ends after what it has written before. -/
theorem read_all_or_fail (r : Reader) (c : Compiler) (files : List String) (programs : Programs)
    (traceLexer traceParser : Bool) :
    r.AllOrErrors c files ∧
      Application.ReportsAll r (.usual traceLexer traceParser) files
        (Application.perform r programs (.compile files traceLexer traceParser)) ∧
      Application.JudgesRead r (.usual false false) files
        (Application.perform r programs (.test files)) :=
  ⟨r.allOrErrors c files, Application.reportsAll r traceLexer traceParser files,
    Application.judgesRead r files⟩

end FrontEnd
