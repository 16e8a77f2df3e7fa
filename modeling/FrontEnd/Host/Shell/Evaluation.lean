/-
# Running scripts

`run` carries out a command.  It is given a bound on how deep commands may be nested, and
whether the failure of the command is dealt with by what is around it.

What is said about a command is said in terms of a `Runner`, which carries out the commands
inside it.
-/
import FrontEnd.Host.Utilities
import FrontEnd.Host.Shell.Builtins
import FrontEnd.Host.Shell.Redirection

namespace FrontEnd.Shell

open Host (utility? Utility)
open Text (Octets octets)

/-- Carries out a command.  It is told whether the failure of the command is dealt with. -/
abbrev Runner := Bool → Command → Action Nat

/-! ## Texts as scripts -/

/-- Carries out the commands of a text, line by line; a line is read when the one before it
is done.  `bound` is the number of lines at most. -/
def runLines (run : Runner) (isTested : Bool) : Nat → Source → Nat → Action Nat
  | 0, _, status => return status
  | bound + 1, source, status => do
    match Source.readLine? { source with aliases := (← get).aliases } with
    | .error complaint =>
      modify fun s => { s with line := complaint.line }
      Action.fail (octets ("Syntax error: " ++ complaint.message))
    | .ok (none, _) => return status
    | .ok (some command, rest) =>
      modify fun s => { s with documents := rest.documents }
      match command with
      | .nothing => runLines run isTested bound rest status
      | _ =>
        let status ← run isTested command
        let documents := (← get).documents
        runLines run isTested bound { rest with documents, nextIndex := documents.length } status

/-- Carries out the commands of a text. -/
def runText (run : Runner) (isTested : Bool) (text : Octets) : Action Nat := do
  let documents := (← get).documents
  runLines run isTested (text.length + 2)
    { rest := text, documents, nextIndex := documents.length } 0

/-! ## Shells inside a shell -/

/-- The status with which a shell ends, unless the whole process is ended. -/
def endStatus (last : Nat) : Except Jump Nat → Except Jump Nat
  | .ok status => .ok status
  | .error (.ended status) => .ok status
  | .error (.returned status) => .ok status
  | .error .failed => .ok 2
  | .error (.left _) | .error (.continued _) => .ok last
  | .error (.killed n) => .error (.killed n)
  | .error .exhausted => .error .exhausted

/-- Carries something out as a shell of its own: the end is a status, and what was to be done
at the end is done. -/
def conclude (run : Runner) (body : Action Nat) : Action Nat := do
  let result ← ExceptT.lift body.run
  let status ← liftExcept (endStatus (← get).status result)
  match (← get).traps.lookup 0 with
  | none => return status % 256
  | some action =>
    modify fun s => { s with traps := s.traps.filter fun (n, _) => n != 0, status }
    match ← ExceptT.lift (runText run false action).run with
    | .error (.ended status) => return status % 256
    | .error (.killed n) => throw (.killed n)
    | .error .failed => return 2
    | _ => return status % 256
where
  liftExcept (result : Except Jump Nat) : Action Nat := ExceptT.mk (pure result)

/-- Carries out a command of the background. -/
def runJob (run : Runner) (job : Job) : Action Unit := do
  let before ← get
  set { before with toContext := { job.context with traps := [] } }
  let empty ← Action.openStream .null
  let status ← conclude run do
    Action.redirect 0 (some empty)
    run false job.command
  Action.closeStream empty
  modify fun after =>
    let finished := ⟨job.number, status, none⟩ :: after.world.finished
    { before with world := { after.world with finished } }

/-- Carries out the commands of the background, and those that they put there, up to a
bound. -/
def runJobs (run : Runner) : Nat → Action Unit
  | 0 => return
  | bound + 1 => do
    let s ← get
    match s.world.jobs with
    | [] => return
    | job :: jobs =>
      set { s with world := { s.world with jobs } }
      runJob run job
      runJobs run bound

/-- How many commands may be put into the background. -/
def jobBound : Nat := 0x100000

/-- Carries something out and forgets what it did to the shell.  Until then the commands of
the background have been carried out. -/
def separately (run : Runner) (body : Action Nat) : Action Nat := do
  runJobs run jobBound
  let before ← get
  set { before with traps := before.traps.filter fun (_, action) => action.isEmpty }
  let status ← conclude run body
  modify fun after => { before with world := after.world }
  return status

/-- Carries something out with its output going to a stream of its own, and answers with its
status and with what it wrote. -/
def collect (run : Runner) (body : Action Nat) : Action (Nat × Octets) := do
  let number ← Action.openStream (.sink [])
  let status ← separately run do
    Action.redirect 1 (some number)
    body
  runJobs run jobBound
  let text := (← get).world.written number
  Action.closeStream number
  return (status, text)

/-- What a command writes. -/
def capture (run : Runner) (command : Command) : Action Octets := do
  let (status, text) ← collect run (run false command)
  modify fun s => { s with substituted := status }
  return text

/-! ## Programs -/

/-- What a signal that ends a program is called, if it is told. -/
def signalMessage? (n : Nat) : Option String :=
  match n with
  | 1 => some "Hangup"
  | 3 => some "Quit"
  | 4 => some "Illegal instruction"
  | 5 => some "Trace/breakpoint trap"
  | 6 => some "Aborted"
  | 7 => some "Bus error"
  | 8 => some "Floating point exception"
  | 9 => some "Killed"
  | 10 => some "User defined signal 1"
  | 11 => some "Segmentation fault"
  | 12 => some "User defined signal 2"
  | 14 => some "Alarm clock"
  | 15 => some "Terminated"
  | _ => none

/-- The variables that a shell has from the start. -/
def initialVariables : List (Octets × Variable) :=
  [("IFS", " \t\n"), ("OPTIND", "1"), ("PS1", "# "), ("PS2", "> "), ("PS4", "+ ")].map
    fun (name, value) => (octets name, { value := some (octets value) })

/-- Becomes a shell that is started under a name with arguments. -/
def startShell (run : Runner) (name : Octets) (arguments : List Octets) : Action Nat := do
  modify fun s =>
    { name
      bindings := (s.bindings.filter fun (_, v) => v.isExported).foldl
        (fun all (name, v) => assign name (some { v with isReadOnly := false }) all)
        initialVariables
      descriptors := s.descriptors
      directory := s.directory
      world := s.world }
  conclude run do
    let (words, _, hasScript) ← Builtin.setOptions true (arguments.length + 1) arguments
    let begin (name : Octets) (words : List Octets) : Action Unit := do
      Builtin.settleOptions
      modify fun s => { s with name, words }
    if hasScript then
      match words with
      | [] => Action.fail (octets "-c requires an argument")
      | script :: rest =>
        begin (rest.headD name) rest.tail
        runText run false script
    else
      match words with
      | file :: rest =>
        if (← get).hasOption "stdin" then
          begin name words
          runText run false (← Action.readAll 0)
        else
          let s ← get
          match s.world.lookup (s.resolve file) with
          | .ok (.file _) =>
            begin file rest
            runText run false (s.world.contents (s.resolve file))
          | .ok .directory => return 0
          | .error _ => Action.fail (octets "cannot open " ++ file ++ octets ": No such file")
      | [] =>
        Builtin.settleOptions
        runText run false (← Action.readAll 0)

/-- What a command name stands for. -/
inductive Found where
  | function (body : Command)
  | builtin (entry : Builtin.Entry)
  /-- A command that runs commands. -/
  | evaluator (name : String)
  | program (name : String)
  /-- What is there cannot be run. -/
  | forbidden
  | missing

/-- The built-in commands that run commands. -/
def evaluators : List String := ["eval", ".", "exec", "command", "type", "wait"]

/-- The name of a program in the directories that are searched. -/
def Process.program? (s : Process) (name : Octets) : Option Octets :=
  let directories : List Octets :=
    ((s.value? (octets "PATH")).getD []).splitBy (fun a b => a != ':' && b != ':')
  ["/usr/bin/", "/bin/"].map octets |>.findSome? fun directory =>
    if directories.contains directory.dropLast && World.isExecutable (directory ++ name) then
      some (directory ++ name)
    else none

/-- What a path with a slash leads to. -/
def Process.findPath (s : Process) (path : Octets) : Found :=
  let place := s.resolve path
  if World.isExecutable place then
    .program (String.ofList (place.reverse.takeWhile (· != '/')).reverse)
  else match s.world.lookup place with
    | .ok _ => .forbidden
    | .error _ => .missing

/-- What a command name stands for, functions apart if that is wanted. -/
def Process.find (s : Process) (name : Octets) (withFunctions : Bool) : Found :=
  match if withFunctions then s.functions.lookup name else none with
  | some body => .function body
  | none =>
    let text := String.ofList name
    if text ∈ evaluators then .evaluator text
    else match Builtin.entry? text with
      | some entry => .builtin entry
      | none =>
        if name.contains '/' then s.findPath name
        else if (s.program? name).isSome then .program text
        else .missing

/-- Runs a program as a process of its own. -/
def runProgram (run : Runner) (program : String) (name : Octets) (arguments : List Octets) :
    Action Nat := do
  runJobs run jobBound
  let before ← get
  set { before with traps := [] }
  let body : Action Nat :=
    match utility? program with
    | some utility => utility name arguments
    | none => startShell run name arguments
  let result ← ExceptT.lift body.run
  modify fun after => { before with world := after.world }
  match result with
  | .ok status => return status
  | .error (.killed n) =>
    match signalMessage? n with
    | some message => Action.writeError (octets (message ++ "\n"))
    | none => pure ()
    return 128 + n
  | .error .exhausted => throw .exhausted
  | .error _ => return 2

/-! ## Commands about commands -/

/-- What a command name is, in words. -/
def describe (s : Process) (name : Octets) : Octets × Nat :=
  let isKnownAs (text : String) : Octets × Nat := (name ++ octets (" is " ++ text ++ "\n"), 0)
  let text := String.ofList name
  if text ∈ keywords then isKnownAs "a shell keyword"
  else match s.aliases.lookup name, s.find name true with
    | some value, _ => isKnownAs ("an alias for " ++ String.ofList value)
    | none, .function _ => isKnownAs "a shell function"
    | none, .builtin _ | none, .evaluator _ =>
      isKnownAs (if text ∈ specialNames then "a special shell builtin" else "a shell builtin")
    | none, .program _ => isKnownAs (Text.decode ((s.program? name).getD name))
    | none, .forbidden | none, .missing => (name ++ octets ": not found\n", 127)

/-- What a command name leads to: itself, or the path of a program. -/
def locate (s : Process) (name : Octets) : Octets × Nat :=
  if String.ofList name ∈ keywords then (name ++ ['\n'], 0)
  else match s.aliases.lookup name, s.find name true with
    | some value, _ => (octets "alias " ++ Builtin.showAlias (name, value), 0)
    | none, .function _ | none, .builtin _ | none, .evaluator _ => (name ++ ['\n'], 0)
    | none, .program _ => ((s.program? name).getD name ++ ['\n'], 0)
    | none, .forbidden | none, .missing => ([], 127)

/-- Describes names. -/
def describeAll (describe : Process → Octets → Octets × Nat) (names : List Octets) :
    Action Nat := do
  let s ← get
  let answers := names.map (describe s)
  Builtin.print (answers.flatMap Prod.fst)
    (answers.foldl (fun status (_, n) => if n = 0 then status else n) 0)

/-! ## Simple commands -/

/-- A command that is told to be special ends the shell when it fails; any other only has a
status. -/
def guard (isSpecial : Bool) (body : Action Nat) : Action Nat := do
  match ← attempt body with
  | some status => return status
  | none => if isSpecial then throw .failed else return 2

/-- Carries something out under the name of a command. -/
def speaking (name : Octets) (body : Action Nat) : Action Nat := do
  let before := (← get).speaker
  modify fun s => { s with speaker := some name }
  body.finally (modify fun s => { s with speaker := before })

/-- Undoes what the local variables of the innermost function hide. -/
def popFrame : Action Unit :=
  modify fun s =>
    match s.frames with
    | frame :: frames =>
      { frame.foldl (fun s (name, old) => s.put name old) s with frames }
    | [] => s

/-- How many function calls may be nested. -/
def callBound : Nat := 1000

/-- Calls a function. -/
def call (run : Runner) (isTested : Bool) (body : Command) (arguments : List Octets) :
    Action Nat := do
  let before ← get
  if callBound ≤ before.calls then
    Action.fail (octets s!"Maximum function recursion depth ({callBound}) reached")
  set { before with
    words := arguments, frames := [] :: before.frames, calls := before.calls + 1, loops := 0 }
  let result ← ExceptT.lift (run isTested body).run
  popFrame
  modify fun s => { s with words := before.words, calls := before.calls, loops := before.loops }
  match result with
  | .ok status => return status
  | .error (.returned status) => return status
  | .error jump => throw jump

/-- Carries something out under assignments.  They are taken back if they are local. -/
def withAssignments (substitute : Command → Action Octets) (isLocal : Bool)
    (assignments : List (Octets × Word)) (body : Action Nat) : Action Nat := do
  let assignAll : Action Unit := do
    for (name, word) in assignments do
      let value ← expandValue substitute word
      if isLocal then Builtin.hide name
      Action.setVariable name value
      if isLocal then
        modify fun s => s.put name ((s.find? name).map fun v => { v with isExported := true })
  if isLocal && !assignments.isEmpty then
    modify fun s => { s with frames := [] :: s.frames }
    Action.finally (do assignAll; body) popFrame
  else
    assignAll
    body

/-- The arguments so far start a command whose arguments may be assignments. -/
def takesAssignments : List Octets → Bool
  | name :: rest =>
    String.ofList name ∈ ["export", "readonly", "local"] ||
      name == octets "command" && (rest.head?.map String.ofList).any
        (· ∈ ["export", "readonly", "local"])
  | [] => false

/-- The arguments that words stand for, `first` being the first two of those before them. -/
def expandArguments (substitute : Command → Action Octets) (first : List Octets) :
    List Word → Action (List Octets)
  | [] => return []
  | word :: words => do
    let fields ← match if takesAssignments first then word.assignment? else none with
      | some (name, value) => do
        let value ← expandValue substitute value
        pure [name ++ '=' :: value]
      | none => expandFields substitute word
    return fields ++ (← expandArguments substitute ((first ++ fields).take 2) words)

/-- Shows a command before it is carried out, if that is asked for. -/
def trace (stream : Option Nat) (assignments : List (Octets × Octets))
    (arguments : List Octets) : Action Unit := do
  let s ← get
  if s.hasOption "xtrace" then
    let shown := assignments.map (fun (name, value) => name ++ '=' :: value) ++ arguments
    let text := (s.value? (octets "PS4")).getD [] ++ joinWith [' '] shown ++ ['\n']
    match stream.bind fun number => s.world.write? number text with
    | some world => set { s with world }
    | none => return

/-- The names that the command is not looked for under, and the rest: `command` is passed
over, and functions are then not looked for. -/
def passCommand : List Octets → Option (List Octets)
  | name :: rest =>
    if name == octets "command" then
      match rest with
      | ['-', 'p'] :: rest | ['-', '-'] :: rest => some rest
      | ('-' :: _ :: _) :: _ => none
      | rest => some rest
    else none
  | [] => none

/-- Complains that a command cannot be carried out. -/
def refuseCommand (name : Octets) (reason : String) (status : Nat) : Action Nat := do
  Action.warn (name ++ octets (": " ++ reason))
  return status

/-- Replaces the shell by a program. -/
def exec (run : Runner) (arguments : List Octets) : Action Nat := do
  match arguments with
  | [] => return 0
  | name :: rest =>
    let s ← get
    let found := if name.contains '/' then s.findPath name
      else if name.isEmpty then .forbidden
      else if (s.program? name).isSome then .program (String.ofList name) else .missing
    match found with
    | .program program =>
      let status ← match utility? program with
        | some utility => utility name rest
        | none => startShell run name rest
      modify fun s => { s with traps := [] }
      throw (.ended status)
    | .forbidden =>
      discard (refuseCommand name "Permission denied" 126)
      throw (.ended 126)
    | _ =>
      discard (refuseCommand name "not found" 127)
      throw (.ended 127)

/-- Carries out the commands of a file. -/
def source (run : Runner) (isTested : Bool) (arguments : List Octets) : Action Nat := do
  match arguments with
  | [] => return 0
  | path :: _ =>
    let s ← get
    match path.contains '/', s.world.lookup (s.resolve path) with
    | false, _ => Action.fail (path ++ octets ": not found")
    | true, .error _ => Action.fail (octets "cannot open " ++ path ++ octets ": No such file")
    | true, .ok .directory => return 0
    | true, .ok (.file _) =>
      let text := s.world.contents (s.resolve path)
      match ← ExceptT.lift (speaking path (runText run isTested text)).run with
      | .ok status => return status
      | .error (.returned status) => return status
      | .error jump => throw jump

/-- Waits for the commands of the background: all of them, or some, of which the last gives the
status. -/
def wait (run : Runner) (arguments : List Octets) : Action Nat := do
  runJobs run jobBound
  waitFor 0 arguments
where
  waitFor (status : Nat) : List Octets → Action Nat
    | [] => return status
    | word :: words => do
      match integer? readDecimal? word with
      | none => Action.fail (octets "Illegal number: " ++ word)
      | some n =>
        match (← get).world.finished.find? fun job => (job.number : Int) = n with
        | none => waitFor 127 words
        | some job =>
          match job.signal.bind signalMessage? with
          | some message => Action.writeError (octets (message ++ "\n"))
          | none => pure ()
          waitFor job.status words

/-- Carries out a command that runs commands. -/
def runEvaluator (run : Runner) (isTested : Bool) (name : String) (arguments : List Octets) :
    Action Nat := do
  match name with
  | "eval" => runText run isTested (joinWith [' '] arguments)
  | "." => source run isTested arguments
  | "exec" => exec run (if arguments.head? = some ['-', '-'] then arguments.tail else arguments)
  | "type" => describeAll describe arguments
  | "wait" => wait run arguments
  | _ =>
    let (letters, names) ← Builtin.takeOptions ['p', 'v', 'V'] arguments
    let names := names.take 1
    if letters.contains 'V' then describeAll describe names else describeAll locate names

/-- Deals with the signals that came. -/
def handleSignals (run : Runner) : Action Unit := do
  let s ← get
  match s.caught with
  | [] => return
  | caught =>
    set { s with caught := [] }
    for n in caught.reverse do
      match s.traps.lookup n with
      | some action => discard (runText run false action)
      | none => return
    modify fun t => { t with status := s.status }

/-- Carries out a command that was found. -/
def invoke (run : Runner) (isTested isPlain : Bool) (found : Found) (name : Octets)
    (arguments : List Octets) : Action Nat := do
  match found with
  | .function body => call run isTested body arguments
  | .builtin entry => do
    let status ← guard (entry.isSpecial && isPlain) (speaking name (entry.run arguments))
    handleSignals run
    return status
  | .evaluator text =>
    guard (decide (text ∈ specialNames) && isPlain)
      (speaking name (runEvaluator run isTested text arguments))
  | .program program => runProgram run program name arguments
  | .forbidden => refuseCommand name "Permission denied" 126
  | .missing =>
    if name.isEmpty then refuseCommand name "Permission denied" 127
    else refuseCommand name "not found" 127

/-- The commands after which redirections stay in place. -/
def keepsRedirections (name : Octets) (arguments : List Octets) : Bool :=
  name == octets "exec" && arguments.isEmpty

/-- A command name stands for a command that ends the shell when it fails. -/
def Found.isSpecial : Found → Bool
  | .builtin entry => entry.isSpecial
  | .evaluator text => decide (text ∈ specialNames)
  | _ => false

/-- Assignments of a command that leaves the shell as it was are taken back. -/
def Found.isLocal (found : Found) : Bool := !found.isSpecial

/-- Carries out a simple command. -/
def runSimple (run : Runner) (isTested : Bool) (line : Nat) (assignments : List (Octets × Word))
    (words : List Word) (redirections : List Redirection) : Action Nat := do
  modify fun s => { s with line, substituted := 0 }
  let substitute := capture run
  let all ← expandArguments substitute [] words
  let errors ← Action.stream? 2
  let passed := passCommand all
  let isPlain := passed.isNone
  match passed.getD all with
  | [] =>
    let body : Action Nat := do
      withAssignments substitute false assignments do
        let s ← get
        trace errors (assignments.map fun (name, _) => (name, (s.value? name).getD [])) all
        return s.substituted
    if redirections.isEmpty && assignments.isEmpty then return (← get).substituted
    else withRedirections substitute (← expandRedirections substitute redirections) body
  | name :: arguments =>
    let found := (← get).find name isPlain
    let body : Action Nat :=
      withAssignments substitute (found.isLocal || !isPlain) assignments do
        let s ← get
        trace errors (assignments.map fun (name, _) => (name, (s.value? name).getD [])) all
        invoke run isTested isPlain found name arguments
    let goals ← expandRedirections substitute redirections
    if keepsRedirections name arguments then
      let (_, isComplete) ← redirectAll substitute [] goals
      if isComplete then body else throw .failed
    else if redirections.isEmpty then body
    else
      let (done, isComplete) ← redirectAll substitute [] goals
      if isComplete then body.finally (restore done)
      else
        restore done
        if found.isSpecial && isPlain then throw .failed else return 2

/-! ## Other commands -/

/-- How a turn of a loop ended. -/
inductive Turn where
  | finished (status : Nat)
  /-- The loop is left. -/
  | left (status : Nat)

/-- Carries out the body of a loop. -/
def turn (body : Action Nat) : Action Turn := do
  match ← ExceptT.lift body.run with
  | .ok status => return .finished status
  | .error (.left n) => if n ≤ 1 then return .left 0 else throw (.left (n - 1))
  | .error (.continued n) => if n ≤ 1 then return .finished 0 else throw (.continued (n - 1))
  | .error jump => throw jump

/-- Repeats a body while a test succeeds, or until it does. -/
def repeatWhile (isUntil : Bool) (test body : Action Nat) : Nat → Nat → Action Nat
  | 0, _ => throw .exhausted
  | bound + 1, status => do
    match ← turn test with
    | .left _ => return status
    | .finished n =>
      if (n == 0) == isUntil then return status
      else match ← turn body with
        | .left status => return status
        | .finished status => repeatWhile isUntil test body bound status

/-- Carries out a body for each of some words. -/
def forEach (name : Octets) (body : Action Nat) : List Octets → Nat → Action Nat
  | [], status => return status
  | word :: words, _ => do
    Action.setVariable name word
    match ← turn body with
    | .left status => return status
    | .finished status => forEach name body words status

/-- Carries something out with one more loop around it. -/
def inLoop (body : Action Nat) : Action Nat := do
  modify fun s => { s with loops := s.loops + 1 }
  body.finally (modify fun s => { s with loops := s.loops - 1 })

/-- How many turns a loop may take. -/
def turnBound : Nat := 0x10000000000

/-- One of the patterns matches a text. -/
def matchesAny (substitute : Command → Action Octets) (text : Octets) :
    List Word → Action Bool
  | [] => return false
  | word :: words => do
    let glyphs ← expandGlyphs substitute word
    if (Pattern.ofGlyphs glyphs).matches? text then return true
    else matchesAny substitute text words

/-- The first command whose patterns match. -/
def choose (substitute : Command → Action Octets) (text : Octets) :
    List (List Word × Command) → Action (Option Command)
  | [] => return none
  | (patterns, command) :: clauses => do
    if ← matchesAny substitute text patterns then return some command
    else choose substitute text clauses

/-- Carries out commands each of which reads what the one before it writes. -/
def runPipeline (run : Runner) (isTested : Bool) (input : Option Nat) :
    List Command → Action Nat
  | [] => return 0
  | command :: rest => do
    let readInput : Action Unit :=
      match input with
      | some number => Action.redirect 0 (some number)
      | none => return
    match rest with
    | [] =>
      separately run do
        readInput
        run isTested command
    | _ =>
      let (_, text) ← collect run do
        readInput
        run isTested command
      let next ← Action.openStream (.source text)
      let status ← runPipeline run isTested (some next) rest
      Action.closeStream next
      return status

/-- The status of a command after which the shell may end: it does if it is told to end on a
failure that nothing deals with. -/
def check (isTested : Bool) (body : Action Nat) : Action Nat := do
  let status ← body
  modify fun s => { s with status }
  if status ≠ 0 && !isTested && (← get).hasOption "errexit" then throw (.ended status)
  return status

/-- One step into a command: the commands inside are carried out by `run`. -/
def step (run : Runner) (isTested : Bool) : Command → Action Nat
  | .nothing => return 0
  | .simple line assignments words redirections =>
    check isTested (runSimple run isTested line assignments words redirections)
  | .pipeline commands => check isTested (runPipeline run isTested none commands)
  | .negation command => do
    let status ← run true command
    return if status = 0 then 1 else 0
  | .sequence first second => do
    discard (run isTested first)
    run isTested second
  | .conjunction first second => do
    let status ← run true first
    if status = 0 then run isTested second else return status
  | .disjunction first second => do
    let status ← run true first
    if status = 0 then return status else run isTested second
  | .background command => do
    let s ← get
    let number := s.world.nextJob
    let job : Job := ⟨number, s.toContext, command⟩
    let world := { s.world with jobs := s.world.jobs ++ [job], nextJob := number + 1 }
    set { s with lastJob := some number, world }
    return 0
  | .group line command redirections => do
    modify fun s => { s with line }
    let goals ← expandRedirections (capture run) redirections
    withRedirections (capture run) goals (run isTested command)
  | .subshell line command redirections => do
    modify fun s => { s with line }
    let goals ← expandRedirections (capture run) redirections
    check isTested (separately run (withRedirections (capture run) goals (run isTested command)))
  | .choice test thenPart elsePart => do
    let status ← run true test
    if status = 0 then run isTested thenPart else run isTested elsePart
  | .loop isUntil test body =>
    inLoop (repeatWhile isUntil (run true test) (run isTested body) turnBound 0)
  | .each line name words body => do
    modify fun s => { s with line }
    let words ← match words with
      | some words => words.flatMapM (expandFields (capture run))
      | none => pure (← get).words
    inLoop (forEach name (run isTested body) words 0)
  | .select line subject clauses => do
    modify fun s => { s with line }
    let text ← expandText (capture run) subject
    match ← choose (capture run) text clauses with
    | some command => run isTested command
    | none => return 0
  | .define name body => do
    modify fun s => { s with functions := assign name (some body) s.functions }
    return 0

/-- Carries out a command in which commands are nested at most so deep. -/
def run : Nat → Runner
  | 0 => fun _ _ => throw .exhausted
  | depth + 1 => fun isTested command => do
    if (← get).hasOption "noexec" then return 0
    let status ← step (run depth) isTested command
    modify fun s => { s with status }
    return status

/-- How deep commands may be nested. -/
def depthBound : Nat := 100000

end FrontEnd.Shell
