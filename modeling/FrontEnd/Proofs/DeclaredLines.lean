/-
# The host reads lines as they are declared

What is relied upon of a line reader is documented of every package that reads command lines, and
the reader of the host is one that does it.  It keeps no account of where it stands: which argument
the next word belongs to follows from the values read so far.  So a word that is added to the
values of the last argument leaves the reader where it was, and what is to be shown of many words
is shown of one.

* `foldlM_eq_add`: words that are each added to an argument are all added, in their order;
* `step_sourceFiles`, `step_programArguments`: when a word is added;
* `lineReader_follows`: the host reads lines as they are declared.
-/
import FrontEnd.Host.LineReader

namespace FrontEnd.Host

open CommandLine

/-! ## 1. Words -/

/-- A word that does not start with a hyphen is no option. -/
theorem classify_of_not_hyphened {word : String} (h : ¬ Hyphened word) :
    classify word = .plain := by
  unfold Hyphened at h
  unfold classify Word.ofChars
  split
  case h_4 => rfl
  -- in the other cases the first characters of the word are known
  all_goals
    rename_i hword
    simp [hword] at h

/-! ## 2. Values -/

namespace Reading

variable {c : CommandForm} {r : Reading} {a : Argument} {words : List String}

/-- Reads words as values of one argument. -/
def addAll (r : Reading) (a : Argument) (words : List String) : Reading :=
  words.foldl (fun r word => r.add a word) r

theorem found_addAll : ∀ (words : List String) (r : Reading), (r.addAll a words).found =
    ⟨r.found.given, fun name =>
      if name = a.name then r.found.values name ++ words else r.found.values name⟩
  | [], r => by simp [addAll]
  | word :: words, r => by
    refine (found_addAll words (r.add a word)).trans ?_
    simp only [add, Found.add]
    congr 1
    funext name
    split <;> simp

/-- **Words that are each added to an argument are all added.**  The reader stays where adding a
word leaves it. -/
theorem foldlM_eq_add (Stays : Reading → Prop)
    (hstep : ∀ r, Stays r → ∀ word ∈ words, r.step c word = .ok (r.add a word))
    (hstays : ∀ r word, Stays r → Stays (r.add a word)) :
    ∀ r, Stays r → words.foldlM (step c) r = .ok (r.addAll a words) := by
  induction words with
  | nil =>
    intro r _
    rfl
  | cons word words ih =>
    intro r hr
    rw [List.foldlM_cons, hstep r hr word List.mem_cons_self]
    exact ih (fun r hr word hw => hstep r hr word (List.mem_cons_of_mem _ hw)) _ (hstays r word hr)

/-- A file is added to the files. -/
theorem step_sourceFiles (hc : c.arguments = [sourceFiles]) (hr : r.escaped = false)
    {word : String} (hword : ¬ Hyphened word) :
    r.step c word = .ok (r.add sourceFiles word) := by
  have hnone : r.trailing? c = none := by
    rw [trailing?, hc]
    rfl
  have hnext : r.next? c = some sourceFiles := by
    rw [next?, hc]
    rfl
  simp only [step, hnone, hr, readWord, classify_of_not_hyphened hword, place, hnext]
  rfl

theorem trailing?_execForm (r : Reading) : r.trailing? execForm =
    if (r.found.values "args").isEmpty then none else some programArguments := by
  unfold trailing? execForm
  rw [List.find?_cons, List.find?_cons]
  cases hempty : (r.found.values "args").isEmpty <;>
    simp only [programRun, programArguments, hempty] <;> rfl

/-- **Behind a first argument every word is added**, and before it every word that is no option. -/
theorem step_programArguments (hr : r.escaped = false) (hprogram : r.found.values "exe" ≠ [])
    {word : String} (hword : ¬ Hyphened word ∨ r.found.values "args" ≠ []) :
    r.step execForm word = .ok (r.add programArguments word) := by
  unfold step
  rw [trailing?_execForm]
  cases hargs : r.found.values "args" with
  | cons first others => rfl
  | nil =>
    have hnext : r.next? execForm = some programArguments := by
      unfold next? execForm
      rw [List.find?_cons, List.find?_cons]
      simp only [programRun, programArguments, List.isEmpty_eq_false_iff.mpr hprogram]
      rfl
    have hplain := classify_of_not_hyphened (hword.resolve_right (by simp [hargs]))
    simp [hr, readWord, hplain, place, hnext]

/-- The first word behind `exec` is the program. -/
theorem step_programRun {word : String} (hword : ¬ Hyphened word) :
    step execForm {} word = .ok (({} : Reading).add programRun word) := by
  simp only [step, readWord, classify_of_not_hyphened hword]
  rfl

/-! ## 3. What is found at the end -/

theorem finish_execForm (environment : Environment) (r : Reading) :
    r.finish execForm environment =
      if r.found.values "exe" = [] then .error .missingArgument else .ok r.found := by
  have hvalues : r.checkValues execForm = .ok () := by
    simp [checkValues, execForm, programRun, programArguments, ValueType.accepts]
  rw [finish, hvalues]
  show (if _ then _ else _ : Except UsageError Found) = _
  simp [execForm, programRun, programArguments]

/-- No option is settled where none was given and no variable stands in for one. -/
theorem foldlM_settle_unset {environment : Environment} {flags : List Flag}
    (hunset : ∀ f ∈ flags, ∀ name, f.standIn? = some name → environment.value? name = none)
    (found : Found) : flags.foldlM (settle environment) found = .ok found := by
  induction flags with
  | nil => rfl
  | cons f flags ih =>
    have hnone : f.standIn?.bind environment.value? = none := by
      cases hname : f.standIn? with
      | none => rfl
      | some name => exact hunset f List.mem_cons_self name hname
    have hsettle : settle environment found f = .ok found := by
      simp [settle, hnone]
    rw [List.foldlM_cons, hsettle]
    exact ih fun f hf => hunset f (List.mem_cons_of_mem _ hf)

/-- Files that can be files are found, and nothing else. -/
theorem finish_sourceFiles {environment : Environment} (hunset : c.Unset environment)
    (hc : c.arguments = [sourceFiles]) (hfiles : r.found.values "files" ≠ [])
    (hpaths : "" ∉ r.found.values "files") :
    r.finish c environment = .ok r.found := by
  have hvalues : r.checkValues c = .ok () := by
    rw [checkValues, hc]
    simpa [sourceFiles, ValueType.accepts] using hpaths
  rw [finish, hvalues, foldlM_settle_unset hunset, hc]
  show (if _ then _ else _ : Except UsageError Found) = _
  simp [sourceFiles, hfiles]

end Reading

/-! ## 4. Lines -/

variable {environment : Environment} {words : List String}

/-- A command stands first, so nothing was given before it. -/
theorem read_command {c : CommandForm} (hc : c ∈ application.commands) :
    lineReader.read application environment (c.name :: words) =
      match readCommand c environment words with
      | .ok behind => .ok ⟨{}, c.name, behind⟩
      | .error kind => .error ⟨kind, refusalText application kind⟩ := by
  have hfind : application.commands.find? (·.name = c.name) = some c := by
    simp only [application, List.mem_cons, List.not_mem_nil, or_false] at hc
    rcases hc with rfl | rfl | rfl <;> rfl
  simp only [lineReader, readLine, hfind]
  cases readCommand c environment words <;> rfl

theorem assign?_sourceFiles {values : String → List String}
    (h : assign? [sourceFiles] words = some values) : words ≠ [] ∧ "" ∉ words ∧
      values = fun name => if name = "files" then words else [] := by
  simp only [assign?, sourceFiles, if_true] at h
  split at h
  · cases h
  · rename_i hfits
    rw [Bool.or_eq_true, not_or] at hfits
    cases h
    refine ⟨by simpa using hfits.1, fun hempty => ?_, rfl⟩
    have hall : ∀ word ∈ words, ValueType.path.accepts word = true := by simpa using hfits.2
    exact absurd (hall "" hempty) (by decide)

/-- The files of a line that names nothing but files. -/
theorem readCommand_sourceFiles {c : CommandForm} (hunset : c.Unset environment)
    (hc : c.arguments = [sourceFiles]) (hplain : ∀ word ∈ words, ¬ Hyphened word)
    {values : String → List String} (hvalues : assign? c.arguments words = some values) :
    readCommand c environment words = .ok { values } := by
  have hadd : words.foldlM (Reading.step c) {} = .ok (Reading.addAll {} sourceFiles words) :=
    Reading.foldlM_eq_add (fun r => r.escaped = false)
      (fun r hr word hword => Reading.step_sourceFiles hc hr (hplain word hword))
      (fun r word hr => hr) {} rfl
  rw [hc] at hvalues
  obtain ⟨hsome, hpaths, rfl⟩ := assign?_sourceFiles hvalues
  have hfound := Reading.found_addAll (a := sourceFiles) words {}
  have hfiles : (Reading.addAll {} sourceFiles words).found.values "files" = words := by
    rw [hfound]
    rfl
  rw [readCommand, hadd]
  refine (Reading.finish_sourceFiles hunset hc ?_ ?_).trans ?_
  · rwa [hfiles]
  · rwa [hfiles]
  · rw [hfound]
    rfl

theorem assign?_execForm {values : String → List String}
    (h : assign? execForm.arguments words = some values) :
    ∃ program arguments, words = program :: arguments ∧ values = fun name =>
      if name = "exe" then [program] else if name = "args" then arguments else [] := by
  cases words with
  | nil => cases h
  | cons program arguments =>
    refine ⟨program, arguments, rfl, ?_⟩
    simp [assign?, execForm, programRun, programArguments, ValueType.accepts] at h
    exact h.symm

/-- The program and the arguments of a line that names nothing but these. -/
theorem readCommand_execForm (hplain : ∀ word ∈ words, ¬ Hyphened word)
    {values : String → List String} (hvalues : assign? execForm.arguments words = some values) :
    readCommand execForm environment words = .ok { values } := by
  obtain ⟨program, arguments, rfl, rfl⟩ := assign?_execForm hvalues
  let started : Reading := ({} : Reading).add programRun program
  have hadd : arguments.foldlM (Reading.step execForm) started =
      .ok (started.addAll programArguments arguments) :=
    Reading.foldlM_eq_add (fun r => r.escaped = false ∧ r.found.values "exe" ≠ [])
      (fun r hr word hword => Reading.step_programArguments hr.1 hr.2
        (.inl (hplain word (List.mem_cons_of_mem _ hword))))
      (fun r word hr => hr) started ⟨rfl, List.cons_ne_nil _ _⟩
  have hfound := Reading.found_addAll (a := programArguments) arguments started
  rw [readCommand, List.foldlM_cons, Reading.step_programRun (hplain program List.mem_cons_self)]
  refine (congrArg (· >>= fun r => Reading.finish execForm environment r) hadd).trans ?_
  have hprogram : (started.addAll programArguments arguments).found.values "exe" = [program] := by
    rw [hfound]
    rfl
  show Reading.finish execForm environment _ = _
  rw [Reading.finish_execForm, hprogram, if_neg (List.cons_ne_nil _ _), hfound]
  congr 2
  funext name
  -- the program and its arguments are different arguments of the line
  by_cases hexe : name = "exe"
  · subst hexe
    rfl
  · simp [started, programRun, programArguments, Reading.add, Found.add, hexe]

/-- Behind a first argument one more word is one more argument. -/
theorem readCommand_execForm_snoc {found : Found}
    (h : readCommand execForm environment words = .ok found) (hargs : found.values "args" ≠ [])
    (word : String) : readCommand execForm environment (words ++ [word]) =
      .ok (found.add "args" word) := by
  unfold readCommand at h ⊢
  rw [List.foldlM_append]
  cases hread : words.foldlM (Reading.step execForm) {} with
  | error kind =>
    rw [hread] at h
    cases h
  | ok r =>
    rw [hread] at h
    have hfinish : r.finish execForm environment = .ok found := h
    rw [Reading.finish_execForm] at hfinish
    split at hfinish
    · cases hfinish
    · rename_i hprogram
      cases hfinish
      have hstep : r.step execForm word = .ok (r.add programArguments word) := by
        unfold Reading.step
        rw [Reading.trailing?_execForm, if_neg (by simpa using hargs)]
      show (r.step execForm word >>= pure) >>= Reading.finish execForm environment = _
      rw [hstep]
      show Reading.finish execForm environment _ = _
      rw [Reading.finish_execForm]
      exact if_neg hprogram

/-- **The host reads lines as they are declared.** -/
theorem lineReader_follows : lineReader.Follows application where
  values c hc environment words values hunset hplain hvalues := by
    rw [read_command hc]
    simp only [application, List.mem_cons, List.not_mem_nil, or_false] at hc
    rcases hc with rfl | rfl | rfl
    · rw [readCommand_sourceFiles hunset rfl hplain hvalues]
    · rw [readCommand_sourceFiles hunset rfl hplain hvalues]
    · rw [readCommand_execForm hplain hvalues]
  trailing c hc a ha htrailing _ environment words line hread hvalues word _ := by
    rw [read_command hc] at hread ⊢
    simp only [application, List.mem_cons, List.not_mem_nil, or_false] at hc
    rcases hc with rfl | rfl | rfl
    · cases ha
      cases htrailing
    · cases ha
      cases htrailing
    · cases ha
      split at hread
      · rename_i behind hbehind
        cases hread
        rw [readCommand_execForm_snoc hbehind hvalues]
        rfl
      · cases hread

end FrontEnd.Host
