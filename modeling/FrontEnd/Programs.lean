/-
# Running a program

`exec` lets the system run a program: with these arguments, an empty standard input and to its
end.  How the system finds programs and what they do is no part of this program, so the system is
any `Programs` here.  What is part of it is what is shown: the command line comes first, also if
the program cannot be started, and then what the program wrote.
-/

namespace FrontEnd

/-- Why a program cannot be started: the kind of the error, and its text. -/
structure StartError where
  kind : String
  message : String
  deriving DecidableEq, Repr

/-- The names of the signals, by their numbers. -/
def signalNames : List (Nat × String) :=
  [(1, "HUP"), (2, "INT"), (3, "QUIT"), (4, "ILL"), (5, "TRAP"), (6, "ABRT"), (7, "BUS"),
    (8, "FPE"), (9, "KILL"), (10, "USR1"), (11, "SEGV"), (12, "USR2"), (13, "PIPE"), (14, "ALRM"),
    (15, "TERM"), (16, "STKFLT"), (17, "CHLD"), (18, "CONT"), (19, "STOP"), (20, "TSTP"),
    (21, "TTIN"), (22, "TTOU"), (23, "URG"), (24, "XCPU"), (25, "XFSZ"), (26, "VTALRM"),
    (27, "PROF"), (28, "WINCH"), (29, "IO"), (30, "PWR"), (31, "SYS")]

/-- How a program ended (`ExitStatus`). -/
inductive ExitStatus where
  | exited (status : Nat)
  | killed (signal : Nat)
  deriving DecidableEq, Repr

namespace ExitStatus

/-- A program that ended well (`success`). -/
def isSuccess : ExitStatus → Bool
  | exited status => status == 0
  | killed _ => false

/-- How the end of a program is shown. -/
def display : ExitStatus → String
  | exited status => "exit status: " ++ toString status
  | killed n =>
    match signalNames.lookup n with
    | some name => "signal: " ++ toString n ++ " (SIG" ++ name ++ ")"
    | none => "signal: " ++ toString n

end ExitStatus

/-- What a program has left at its end (`Output`). -/
structure Finished where
  status : ExitStatus
  stdout : String
  stderr : String
  deriving DecidableEq, Repr

/-- A system that runs programs, which are given by a name or a path, with arguments. -/
structure Programs where
  run : String → List String → Except StartError Finished

/-- What running a program has left: how it ended, if it was started, and what was written. -/
structure Ran where
  status : Except StartError ExitStatus
  stdout : String
  stderr : String

namespace Programs

/-- The line that shows what is run. -/
def commandLine (program : String) (arguments : List String) : String :=
  "> " ++ " ".intercalate (program :: arguments) ++ "\n"

/-- Runs a program and forwards what it writes, behind the line that shows it (`run`). -/
def forward (p : Programs) (program : String) (arguments : List String) : Ran :=
  let shown := commandLine program arguments
  match p.run program arguments with
  | .error e => ⟨.error e, shown, ""⟩
  | .ok left => ⟨.ok left.status, shown ++ left.stdout, left.stderr⟩

end Programs
end FrontEnd
