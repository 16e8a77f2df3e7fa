/-
# A program gets its arguments verbatim

The words behind `exec` are read like any others until the first argument of the program: help
can be asked for, and `--` is passed over.  From the first argument on every word is an argument,
also one that looks like an option, like `--` or like a command.  The word at which reading
changes its manner is what has to be right, and it is declared: the arguments of the program are a
trailing argument that takes hyphens.

The words are read by a package, of which two things are known for the line that is declared: what
becomes of words that look like no option, and that of a trailing argument one word more is one
value more.  The first gives the program and one argument, the second every word behind it.

* `read_exec`: what is found on the line, by induction on the words behind the first argument;
* `exec_verbatim`: so a line that runs a program hands over its words, and is told by them.
-/
import FrontEnd.Application
import FrontEnd.Proofs.DeclaredLines
import Mathlib.Data.List.Induction

namespace FrontEnd

open CommandLine

/-- What is found behind `exec`. -/
def handedOver (program : String) (arguments : List String) : Found where
  values name :=
    if name = "exe" then [program] else if name = "args" then arguments else []

theorem handedOver_add (program : String) (arguments : List String) (word : String) :
    (handedOver program arguments).add "args" word = handedOver program (arguments ++ [word]) := by
  simp only [handedOver, Found.add]
  congr 1
  funext name
  by_cases hargs : name = "args"
  · subst hargs
    rfl
  · simp [hargs]

namespace LineReader

variable {reader : LineReader}

/-- A program and one argument. -/
theorem read_exec_one (h : reader.Follows application) (environment : Environment)
    {program argument : String} (hprogram : ¬ Hyphened program) (hargument : ¬ Hyphened argument) :
    reader.read application environment ["exec", program, argument] =
      .ok ⟨{}, "exec", handedOver program [argument]⟩ := by
  have hexec : execForm ∈ application.commands := by decide
  have hunset : execForm.Unset environment := nofun
  refine h.values execForm hexec environment [program, argument] _ hunset ?_ rfl
  simp [hprogram, hargument]

/-- **Behind a program and a first argument that look like no option, all words are values.**  The
induction is on the last of them, as a value is added behind those that are there. -/
theorem read_exec (h : reader.Follows application) (environment : Environment)
    {program argument : String} (hprogram : ¬ Hyphened program) (hargument : ¬ Hyphened argument)
    (arguments : List String) :
    reader.read application environment ("exec" :: program :: argument :: arguments) =
      .ok ⟨{}, "exec", handedOver program (argument :: arguments)⟩ := by
  induction arguments using List.reverseRecOn with
  | nil => exact read_exec_one h environment hprogram hargument
  | append_singleton arguments word ih =>
    have hexec : execForm ∈ application.commands := by decide
    have hmore := h.trailing execForm hexec programArguments rfl rfl rfl environment
      (program :: argument :: arguments) _ ih (List.cons_ne_nil _ _) word rfl
    refine hmore.trans ?_
    show Except.ok (CommandLine.Line.mk {} "exec"
      ((handedOver program (argument :: arguments)).add "args" word))
      = _
    rw [handedOver_add, List.cons_append]

/-- What such a line asks for. -/
theorem parse_exec (h : reader.Follows application) (environment : Environment)
    {program argument : String} (hprogram : ¬ Hyphened program) (hargument : ¬ Hyphened argument)
    (arguments : List String) :
    reader.parse environment ("exec" :: program :: argument :: arguments) =
      .ok ⟨{}, .exec program (argument :: arguments)⟩ := by
  rw [parse, read_exec h environment hprogram hargument]
  rfl

/-- **A program gets its arguments verbatim.**  With a program and a first argument that look like
no option, `exec` asks for that program with exactly these arguments, and nothing is asked for on
logging, whatever the environment.  The application runs the program with them.  Two such lines ask
for the same only if they are the same. -/
theorem exec_verbatim (h : reader.Follows application) (environment : Environment)
    {program argument : String} (arguments : List String) (hprogram : ¬ Hyphened program)
    (hargument : ¬ Hyphened argument) :
    (∃ i, reader.parse environment ("exec" :: program :: argument :: arguments) = .ok i ∧
      i.command = .exec program (argument :: arguments) ∧ i.offset = 0) ∧
    (∀ files programs, Application.run reader files programs environment
        ("exec" :: program :: argument :: arguments) =
      Application.exec programs program (argument :: arguments)) ∧
    ∀ environment' program' argument' arguments',
      ¬ Hyphened program' → ¬ Hyphened argument' →
      reader.parse environment' ("exec" :: program' :: argument' :: arguments') =
        reader.parse environment ("exec" :: program :: argument :: arguments) →
      "exec" :: program' :: argument' :: arguments' =
        "exec" :: program :: argument :: arguments := by
  have hparse := parse_exec h environment hprogram hargument arguments
  refine ⟨⟨_, hparse, rfl, rfl⟩, fun files programs => ?_, ?_⟩
  · rw [Application.run, hparse]
    rfl
  · intro environment' program' argument' arguments' hprogram' hargument' heq
    rw [parse_exec h environment' hprogram' hargument', hparse] at heq
    cases heq
    rfl

/-- The words behind the first argument look like everything that this line knows. -/
theorem exec_verbatim_options :
    let arguments := ["--", "-h", "--help", "-v", "--trace-lexer", "", "x", "x", "exec", "help"]
    Host.lineReader.Follows application ∧ ¬ Hyphened "compile" ∧ ¬ Hyphened "x" ∧
      ∃ i, Host.lineReader.parse ⟨fun _ => some "yes"⟩ ("exec" :: "compile" :: "x" :: arguments) =
        .ok i ∧ i.command = .exec "compile" ("x" :: arguments) ∧ i.offset = 0 := by
  intro arguments
  have hprogram : ¬ Hyphened "compile" := by decide
  have hargument : ¬ Hyphened "x" := by decide
  exact ⟨Host.lineReader_follows, hprogram, hargument,
    (exec_verbatim Host.lineReader_follows _ arguments hprogram hargument).1⟩

end LineReader
end FrontEnd
