/-
# Built-in commands

The commands that the shell carries out itself, apart from those that run other commands.  A
command is given its arguments and answers with its status.  A command that is special ends
the shell when it fails.
-/
import FrontEnd.Host.Shell.Condition
import FrontEnd.Host.Shell.Format
import FrontEnd.Programs

namespace FrontEnd.Shell

open Text (Octets octets)

/-- Is given arguments, and answers with a status. -/
abbrev Builtin := List Octets → Action Nat

namespace Builtin

/-! ## Output -/

/-- Writes to the standard output; answers with the status, unless there was another fault
before. -/
def print (text : Octets) (status : Nat := 0) : Action Nat := do
  if ← Action.write 1 text then return status
  else
    let speaker := (← get).speaker.getD []
    Action.warn (speaker ++ octets ": I/O error")
    return 1

/-- Writes words with blanks between them.  Escapes are replaced. -/
def echo : Builtin := fun arguments => do
  let (newline, words) := match arguments with
    | ['-', 'n'] :: words => (false, words)
    | words => (true, words)
  let text := joinWith [' '] words
  let (text, stops) := unescape (text.length + 1) text
  print (if newline && !stops then text ++ ['\n'] else text)

/-! ## Options -/

/-- The letters of the options before the arguments, and the arguments.  Options end at `--`. -/
def takeOptions (allowed : List Char) : List Octets → Action (List Char × List Octets)
  | [] => return ([], [])
  | word :: words =>
    match word with
    | ['-', '-'] => return ([], words)
    | '-' :: c :: letters =>
      match (c :: letters).find? fun l => !allowed.contains l with
      | some l => Action.fail (octets "Illegal option -" ++ [l])
      | none => do
        let (more, left) ← takeOptions allowed words
        return (c :: letters ++ more, left)
    | _ => return ([], word :: words)

def printf : Builtin := fun arguments => do
  match ← takeOptions [] arguments with
  | (_, []) => Action.fail (octets "usage: printf format [arg ...]")
  | (_, format :: words) =>
    let (text, status) ← Shell.printf format words
    print text status

/-! ## Conditions -/

def ofTruth (b : Bool) : Nat := if b then 0 else 1

def test : Builtin := fun arguments => return ofTruth (← Condition.value false arguments)

/-- Like `test`, with a bracket as last argument. -/
def bracket : Builtin := fun arguments => do
  if arguments.getLast? = some [']'] then test arguments.dropLast
  else Action.fail (octets "missing ]")

/-! ## Jumps -/

/-- Ends the shell, with the last status if none is given. -/
def exit : Builtin := fun arguments => do
  let status ← match arguments with
    | [] => pure (← get).status
    | word :: _ => Action.count word
  throw (.ended status)

/-- Leaves a function, or ends the script. -/
def leaveFunction : Builtin := fun arguments => do
  let status ← match arguments with
    | [] => pure (← get).status
    | word :: _ => Action.count word
  throw (.returned status)

/-- Leaves loops, or goes on with the next turn; outside of loops it does nothing. -/
def leave (jump : Nat → Jump) : Builtin := fun arguments => do
  let count ← match arguments with
    | [] => pure 1
    | word :: _ => Action.count word
  if count = 0 then Action.fail (octets "Illegal number: " ++ arguments.headD [])
  let loops := (← get).loops
  if loops = 0 then return 0
  modify fun s => { s with status := 0 }
  throw (jump (min count loops))

/-! ## Parameters and variables -/

def shift : Builtin := fun arguments => do
  let count ← match arguments with
    | [] => pure 1
    | word :: _ => Action.count word
  let s ← get
  if s.words.length < count then Action.fail (octets "can't shift that many")
  set { s with words := s.words.drop count }
  return 0

/-- Sets an option, or unsets it. -/
def setOption (name : String) (value : Bool) : Action Unit :=
  modify fun s =>
    let others := s.options.filter (· != name)
    { s with options := if value then name :: others else others }

/-- Shows the options, as a list or as commands that set them.  At the start none is settled
and all are shown as set. -/
def showOptions (isStart asCommands : Bool) : Action Nat := do
  let s ← get
  let line (name : String) : String :=
    let isSet := isStart || s.hasOption name
    if asCommands then "set " ++ (if isSet then "-" else "+") ++ "o " ++ name ++ "\n"
    else name ++ String.ofList (List.replicate (16 - name.length) ' ') ++
      (if isSet then "on\n" else "off\n")
  let heading := if asCommands then "" else "Current option settings\n"
  print (octets (heading ++ String.join (optionTable.map fun (name, _) => line name)))

/-- Sets options by their letters.  The letter `o` takes a name from the words that follow, and
shows the options if there is none.  The letter `c` is kept apart: the second answer says
whether it was there. -/
def setLetters (isStart value : Bool) (words : List Octets) :
    Octets → Action (List Octets × Bool)
  | [] => return (words, false)
  | 'o' :: letters =>
    match words with
    | [] => do
      discard (showOptions isStart !value)
      setLetters isStart value [] letters
    | name :: rest => do
      match optionTable.find? fun (known, _) => octets known == name with
      | some (known, _) => setOption known value
      | none => Action.fail (octets "Illegal option -o " ++ name)
      setLetters isStart value rest letters
  | letter :: letters => do
    if isStart && letter = 'c' then
      let (rest, _) ← setLetters isStart value words letters
      return (rest, true)
    else
      match optionTable.find? fun (_, known) => known == some letter with
      | some (known, _) => setOption known value
      | none =>
        unless isStart && letter = 'l' do Action.fail (octets "Illegal option -" ++ [letter])
      setLetters isStart value words letters

/-- Sets the options before the other words; answers with those, with whether there was a
`--` before them, and with whether the letter `c` was among the options.  `bound` is the
number of words at most. -/
def setOptions (isStart : Bool) : Nat → List Octets → Action (List Octets × Bool × Bool)
  | 0, words => return (words, false, false)
  | _, [] => return ([], false, false)
  | bound + 1, word :: words => do
    match word with
    | ['-'] =>
      unless isStart do
        setOption "xtrace" false
        setOption "verbose" false
      return (words, false, false)
    | ['-', '-'] => return (words, true, false)
    | '-' :: letters =>
      let (rest, hasC) ← setLetters isStart true words letters
      let (rest, ended, more) ← setOptions isStart bound rest
      return (rest, ended, hasC || more)
    | '+' :: letters =>
      let (rest, hasC) ← setLetters isStart false words letters
      let (rest, ended, more) ← setOptions isStart bound rest
      return (rest, ended, hasC || more)
    | _ => return (word :: words, false, false)

/-- Without a terminal there are no jobs to be controlled. -/
def settleOptions : Action Unit := do
  if (← get).hasOption "monitor" then
    Action.warn (octets "can't access tty; job control turned off")
    setOption "monitor" false

/-- A text between single quotes; quotes in it are put between double ones. -/
def quote (text : Octets) : Octets :=
  '\'' :: text.flatMap (fun c => if c = '\'' then octets "'\"'\"'" else [c]) ++ ['\'']

def setCommand : Builtin := fun arguments => do
  let (words, ended, _) ← setOptions false (arguments.length + 1) arguments
  settleOptions
  if ended || !words.isEmpty then
    modify fun s => { s with words, optionLetters := [] }
  return 0

def badName {α : Type} (name : Octets) : Action α :=
  Action.fail (name ++ octets ": bad variable name")

/-- The name of a variable that a word names; a value after it does not count. -/
def variableName (word : Octets) : Action Octets := do
  let name := word.takeWhile (· != '=')
  if isName name then return name else badName name

def unset : Builtin := fun arguments => do
  let (letters, names) ← takeOptions ['f', 'v'] arguments
  for name in names do
    if letters.getLast? = some 'f' then
      modify fun s => { s with functions := assign name none s.functions }
    else Action.unsetVariable (← variableName name)
  return 0

/-- The name and the value of an argument that may be an assignment. -/
def splitAssignment (word : Octets) : Octets × Option Octets :=
  let name := word.takeWhile (· != '=')
  match word.drop name.length with
  | _ :: value => (name, some value)
  | [] => (name, none)

/-- Marks variables, which may be set as well.  Without names, those that are marked are
shown. -/
def mark (command : String) (isMarked : Variable → Bool) (change : Variable → Variable) :
    Builtin := fun arguments => do
  let (letters, words) ← takeOptions ['p'] arguments
  if words.isEmpty || letters.contains 'p' then
    let shown := ((← get).bindings.filter fun (_, v) => isMarked v).map fun (name, v) =>
      (octets command ++ ' ' :: name, v)
    let lines := shown.mergeSort fun a b => isBefore a.1 b.1
    print (lines.flatMap fun (start, v) =>
      start ++ (match v.value with
        | some value => '=' :: quote value
        | none => []) ++ ['\n'])
  else
    for word in words do
      let (name, value) := splitAssignment word
      if !isName name then badName name
      match value with
      | some value => Action.setVariable name value
      | none => pure ()
      modify fun s => s.put name (some (change ((s.find? name).getD { value := none })))
    return 0

def exportVariables : Builtin :=
  mark "export" Variable.isExported fun v => { v with isExported := true }

def protectVariables : Builtin :=
  mark "readonly" Variable.isReadOnly fun v => { v with isReadOnly := true }

/-- Remembers a variable until the innermost function is left. -/
def hide (name : Octets) : Action Unit :=
  modify fun s =>
    match s.frames with
    | frame :: frames =>
      if (frame.lookup name).isSome then s
      else { s with frames := ((name, s.find? name) :: frame) :: frames }
    | [] => s

def hideVariables : Builtin := fun arguments => do
  if (← get).frames.isEmpty then Action.fail (octets "not in a function")
  for word in arguments do
    let (name, value) := splitAssignment word
    if !isName name then badName name
    hide name
    match value with
    | some value => Action.setVariable name value
    | none => pure ()
  return 0

/-! ## Reading -/

/-- The characters of a line, each with whether it may separate fields, and whether the line
was ended.  A backslash keeps a character from that, and joins lines, unless `isRaw` says that
it means nothing. -/
def readLine (isRaw : Bool) : Nat → List Glyph → Action (List Glyph × Bool)
  | 0, line => return (line.reverse, false)
  | bound + 1, line => do
    match ← Action.readOne 0 with
    | none => return (line.reverse, false)
    | some '\n' => return (line.reverse, true)
    | some '\x00' => readLine isRaw bound line
    | some '\\' =>
      if isRaw then readLine isRaw bound (⟨'\\', true⟩ :: line)
      else match ← Action.readOne 0 with
        | none => return (line.reverse, false)
        | some '\n' => readLine isRaw bound line
        | some c => readLine isRaw bound (⟨c, false⟩ :: line)
    | some c => readLine isRaw bound (⟨c, true⟩ :: line)

/-- The field that comes first, and what follows its separator.  Blank separators before it
and around the one that ends it are dropped. -/
def splitFirst (separators : Octets) (line : List Glyph) : List Glyph × List Glyph :=
  let isSeparator (g : Glyph) : Bool := g.isActive && separators.contains g.char
  let isGap (g : Glyph) : Bool := isSeparator g && (isBlank g.char || g.char == '\n')
  let line := line.dropWhile isGap
  let field := line.takeWhile fun g => !isSeparator g
  match (line.drop field.length).dropWhile isGap with
  | g :: more => (field, if isSeparator g then more.dropWhile isGap else g :: more)
  | [] => (field, [])

/-- How much of a line is the last field. -/
structure LastField where
  /-- The characters that were seen. -/
  seen : Nat := 0
  /-- The field ends here, as far as is known. -/
  stop : Option Nat := none
  /-- A separator was seen. -/
  isFound : Bool := false
  /-- A blank one was seen, and no other character since. -/
  afterBlank : Bool := false

/-- Goes on with a character.  The field ends at its first separator if only blank ones follow
and, after a blank one, one that is not blank; characters that stand for themselves do not
count. -/
def LastField.step (separators : Octets) (f : LastField) (g : Glyph) : LastField :=
  let isSeparator := separators.contains g.char
  let isBlankSeparator := isSeparator && (isBlank g.char || g.char == '\n')
  let next := { f with seen := f.seen + 1 }
  if !g.isActive then { next with afterBlank := false }
  else if !f.isFound then
    if isSeparator then
      { next with stop := some f.seen, isFound := true, afterBlank := isBlankSeparator }
    else next
  else if isBlankSeparator then { next with stop := some (f.stop.getD f.seen) }
  else
    let stop := if isSeparator && f.afterBlank then f.stop else none
    { next with stop, afterBlank := false }

/-- The rest of a line as the last field. -/
def lastField (separators : Octets) (line : List Glyph) : List Glyph :=
  let isGap (g : Glyph) : Bool :=
    g.isActive && separators.contains g.char && (isBlank g.char || g.char == '\n')
  let line := line.dropWhile isGap
  match (line.foldl (LastField.step separators) {}).stop with
  | some n => line.take n
  | none => line

/-- Gives variables the fields of a line, the last one the rest of it. -/
def assignFields (separators : Octets) (line : List Glyph) : List Octets → Action Unit
  | [] => return
  | [name] => do
    Action.setVariable (← variableName name) (plainText (lastField separators line))
  | name :: names => do
    let (field, rest) := splitFirst separators line
    Action.setVariable (← variableName name) (plainText field)
    assignFields separators rest names

/-- More characters than a line has. -/
def lineBound : Nat := 0x1000000

def read : Builtin := fun arguments => do
  let (letters, names) ← takeReadOptions arguments
  if names.isEmpty then Action.fail (octets "arg count")
  let (line, isComplete) ← readLine (letters.contains 'r') lineBound []
  assignFields (← get).separators line names
  return if isComplete then 0 else 1
where
  /-- The letter `p` takes a prompt, which is not shown. -/
  takeReadOptions : List Octets → Action (List Char × List Octets)
    | ['-', 'p'] :: _ :: words => takeReadOptions words
    | ['-', 'r', 'p'] :: _ :: words => do
      let (letters, left) ← takeReadOptions words
      return ('r' :: letters, left)
    | ['-', 'r'] :: words => do
      let (letters, left) ← takeReadOptions words
      return ('r' :: letters, left)
    | words => takeOptions ['r'] words

/-! ## Options of scripts -/

/-- The next letter of an option, what follows it in its word, and the number of the next
word. -/
def nextLetter (letters : Octets) (index : Nat) (words : List Octets) :
    Option (Char × Octets × Nat) × Nat :=
  match letters with
  | c :: rest => (some (c, rest, index), index)
  | [] =>
    match words[index - 1]? with
    | some ['-', '-'] => (none, index + 1)
    | some ('-' :: c :: rest) => (some (c, rest, index + 1), index + 1)
    | _ => (none, index)

/-- What a letter is among the allowed ones: not there, without an argument, or with one. -/
def findLetter (c : Char) : Octets → Option Bool
  | [] => none
  | d :: ':' :: rest => if c = d then some true else findLetter c rest
  | d :: rest => if c = d then some false else findLetter c rest

def getopts : Builtin := fun arguments => do
  match arguments with
  | allowed :: target :: own =>
    let s ← get
    let words := if own.isEmpty then s.words else own
    let index := ((s.value? (octets "OPTIND")).bind fun v => readDecimal? v).elim 1 Prod.fst
    let letters := if index ≤ 1 then [] else s.optionLetters
    let isSilent := allowed.head? = some ':'
    let finish (c : Char) (index : Nat) (left : Octets) (status : Nat) : Action Nat := do
      Action.setVariable (octets "OPTIND") (octets (toString index))
      modify fun s => { s with optionLetters := left }
      Action.setVariable (← variableName target) [c]
      return status
    let complain (c : Char) (message : Octets) : Action Unit := do
      if isSilent then Action.setVariable (octets "OPTARG") [c]
      else
        Action.writeError message
        Action.unsetVariable (octets "OPTARG")
    match nextLetter letters index words with
    | (none, index) => finish '?' index [] 1
    | (some (c, left, index), _) =>
      match findLetter c allowed with
      | none =>
        complain c (octets "Illegal option -" ++ [c, '\n'])
        finish '?' index left 0
      | some false =>
        Action.setVariable (octets "OPTARG") []
        finish c index left 0
      | some true =>
        if !left.isEmpty then
          Action.setVariable (octets "OPTARG") left
          finish c index [] 0
        else match words[index - 1]? with
          | some argument =>
            Action.setVariable (octets "OPTARG") argument
            finish c (index + 1) [] 0
          | none =>
            complain c (octets "No arg for -" ++ c :: octets " option\n")
            finish (if isSilent then ':' else '?') index left 0
  | _ => Action.fail (octets "Usage: getopts optstring var [arg...]")

/-! ## Texts for command names -/

/-- An alias as it is shown. -/
def showAlias : Octets × Octets → Octets
  | (name, text) => name ++ '=' :: quote text ++ ['\n']

/-- The order in which aliases are shown goes by this number. -/
def aliasKey (name : Octets) : Nat :=
  name.foldl (fun key c => key + c.toNat) ((name.head?.map Char.toNat).getD 0 * 16) % 39

/-- Gives names texts that they stand for, or shows those that are given. -/
def setAliases : Builtin := fun arguments => do
  if arguments.isEmpty then
    let aliases := (← get).aliases.mergeSort fun a b => aliasKey a.1 ≤ aliasKey b.1
    print (aliases.flatMap showAlias)
  else arguments.foldlM (fun status word => do
    let name := word.take 1 ++ word.tail.takeWhile (· != '=')
    match word.drop name.length with
    | _ :: text =>
      modify fun s => { s with aliases := replace name text s.aliases }
      return status
    | [] =>
      match (← get).aliases.lookup name with
      | some text => print (showAlias (name, text)) status
      | none =>
        Action.writeError (octets "alias: " ++ name ++ octets " not found\n")
        return 1) 0
where
  /-- The aliases with another text for a name, which keeps its place. -/
  replace (name text : Octets) : List (Octets × Octets) → List (Octets × Octets)
    | [] => [(name, text)]
    | (known, old) :: rest =>
      if known = name then (name, text) :: rest else (known, old) :: replace name text rest

/-- Takes texts from names, or all of them. -/
def unsetAliases : Builtin := fun arguments => do
  let (letters, names) ← takeOptions ['a'] arguments
  if letters.contains 'a' then
    modify fun s => { s with aliases := [] }
    return 0
  else names.foldlM (fun status name => do
    let s ← get
    if (s.aliases.lookup name).isSome then
      set { s with aliases := s.aliases.filter fun (known, _) => known != name }
      return status
    else
      Action.writeError (octets "unalias: " ++ name ++ octets " not found\n")
      return 1) 0

/-! ## Signals -/

/-- The names of the signals that a script can name, with their numbers. -/
def signals : List (Nat × String) :=
  (0, "EXIT") :: signalNames.filter fun (_, name) => name != "STKFLT"

/-- The signal that a word names or numbers. -/
def signal? (word : Octets) : Option Nat :=
  match integer? readDecimal? word with
  | some n => if 0 ≤ n ∧ n ≤ 64 then some n.toNat else none
  | none =>
    (signals.find? fun (_, name) => octets name == word.map Char.toUpper).map Prod.fst

/-- Sets what is done on signals or at the end.  Without arguments it is shown. -/
def trap : Builtin := fun arguments => do
  let (_, words) ← takeOptions [] arguments
  match words with
  | [] =>
    let traps := (← get).traps.mergeSort fun a b => a.1 ≤ b.1
    print (traps.flatMap fun (n, action) =>
      octets "trap -- " ++ quote action ++ ' ' ::
        octets ((signals.lookup n).getD (toString n)) ++ ['\n'])
  | first :: rest =>
    let (action, names) :=
      if rest.isEmpty || first.all Char.isDigit && (signal? first).isSome then (none, words)
      else if first == ['-'] then (none, rest)
      else (some first, rest)
    for name in names do
      match signal? name with
      | none =>
        Action.writeError (octets "trap: " ++ name ++ octets ": bad trap\n")
        return 1
      | some n =>
        modify fun s =>
          let others := s.traps.filter fun (m, _) => m != n
          { s with traps := match action with
              | some action => (n, action) :: others
              | none => others }
    return 0

/-- Signals that end no process. -/
def harmless : List Nat := [0, 17, 18, 19, 20, 21, 22, 23, 28]

/-- The signal that `kill` sends, and its other arguments. -/
def takeSignal : List Octets → Action (Nat × List Octets)
  | ['-', '-'] :: words => return (15, words)
  | ['-', 's'] :: name :: words => named name words
  | ('-' :: 's' :: c :: name) :: words => named (c :: name) words
  | ('-' :: c :: name) :: words =>
    match signal? (c :: name) with
    | some n => return (n, words)
    | none => Action.fail (octets "Illegal option -" ++ [c])
  | words => return (15, words)
where
  named (name : Octets) (words : List Octets) : Action (Nat × List Octets) :=
    match signal? name with
    | some n => return (n, words)
    | none => Action.fail (octets "invalid signal number or name: " ++ name)

/-- Sends a signal to a process: the shell itself or a command in the background.  Answers
that there is such a process. -/
def send (n : Nat) (target : Int) : Action Bool := do
  let s ← get
  if target = 2 ∨ target = 0 then
    if n = 0 then return true
    if (s.traps.lookup n).isSome && n ≠ 9 then set { s with caught := n :: s.caught }
    else if !harmless.contains n then throw (.killed n)
    return true
  else match s.world.jobs.find? fun (job : Job) => (job.number : Int) = target with
    | none => return false
    | some job =>
      unless harmless.contains n do
        let world := { s.world with
          jobs := s.world.jobs.filter fun (other : Job) => other.number != job.number
          finished := ⟨job.number, 128 + n, some n⟩ :: s.world.finished }
        set { s with world }
      return true

/-- Sends a signal to processes. -/
def kill : Builtin := fun arguments => do
  match arguments with
  | ['-', 'l'] :: word :: _ =>
    let n := ((integer? readDecimal? word).getD 0).toNat
    match signals.lookup (if 128 < n then n - 128 else n) with
    | some name => print (octets (name ++ "\n"))
    | none => Action.fail (octets "invalid signal number or exit status: " ++ word)
  | _ =>
    let (n, words) ← takeSignal arguments
    if words.isEmpty then
      Action.fail (octets ("Usage: kill [-s sigspec | -signum | -sigspec] [pid | job]... or\n" ++
        "kill -l [exitstatus]"))
    sendAll n 0 words
where
  sendAll (n status : Nat) : List Octets → Action Nat
    | [] => return status
    | word :: words => do
      match integer? readDecimal? word with
      | none => Action.fail (octets "Illegal number: " ++ word)
      | some target =>
        if ← send n target then sendAll n status words
        else
          Action.warn (octets "No such process\n")
          sendAll n 1 words

/-! ## Directories -/

/-- A path without the names that stay and go up. -/
def simplify (path : Octets) : Octets :=
  let names := (FileTable.settle [] (FileTable.splitPath (Text.decode path))).reverse
  let joined := octets ("/".intercalate names)
  if path.head? = some '/' then '/' :: joined else joined

/-- Where the shell is. -/
def here (s : Process) : Octets := if s.directory.isEmpty then ['/'] else s.directory

def pwd : Builtin := fun arguments => do
  discard (takeOptions ['L', 'P'] arguments)
  print (here (← get) ++ ['\n'])

/-- The directories that a relative path may be meant in, the variable `CDPATH` says which; a
path that starts with dots is meant as it is. -/
def searched (s : Process) (target : Octets) : List Octets :=
  let first := target.takeWhile (· != '/')
  if first ∈ [[], ['.'], ['.', '.']] then []
  else
    let path := (s.value? (octets "CDPATH")).getD []
    (path.splitBy fun a b => a != ':' && b != ':').filterMap fun directory =>
      if directory = [':'] then none else some (directory ++ '/' :: target)

/-- Goes to another directory. -/
def cd : Builtin := fun arguments => do
  let (_, words) ← takeOptions ['L', 'P'] arguments
  let s ← get
  let target := match words with
    | [] => (s.value? (octets "HOME")).getD []
    | ['-'] :: _ => (s.value? (octets "OLDPWD")).getD (here s)
    | word :: _ => word
  let target := if target.isEmpty then ['.'] else target
  let isDirectory (path : Octets) : Bool :=
    match s.world.lookup (s.resolve path) with
    | .ok .directory => true
    | _ => false
  let found := (searched s target).find? isDirectory
  let target := found.getD target
  if isDirectory target then
    modify fun s => { s with directory := simplify (s.resolve target) }
    Action.setVariable (octets "OLDPWD") (here s)
    Action.setVariable (octets "PWD") (here (← get))
    if found.isSome || words.head? = some ['-'] then print (here (← get) ++ ['\n']) else return 0
  else Action.fail (octets "can't cd to " ++ target)

/-- The permissions that a mask leaves, in letters. -/
def showPermissions (mask : Nat) : String :=
  let letters (digit : Nat) : String :=
    (if digit / 4 % 2 = 0 then "r" else "") ++ (if digit / 2 % 2 = 0 then "w" else "") ++
      (if digit % 2 = 0 then "x" else "")
  s!"u={letters (mask / 64)},g={letters (mask / 8)},o={letters mask}\n"

/-- Shows which permissions new files do not have, or sets them. -/
def setMask : Builtin := fun arguments => do
  let (letters, words) ← takeOptions ['S'] arguments
  match words with
  | word :: _ =>
    if word.all isOctalDigit then
      unless word.isEmpty do modify fun s => { s with mask := ofDigits 8 word % 0o1000 }
      return 0
    else if (word.head?.map Char.isDigit).getD false then
      Action.fail (octets "Illegal number: " ++ word)
    else return 0
  | [] =>
    let mask := (← get).mask
    if letters.isEmpty then
      let digits := Nat.toDigits 8 mask
      print (List.replicate (4 - digits.length) '0' ++ digits ++ ['\n'])
    else print (octets (showPermissions mask))

/-- There are no jobs to be moved. -/
def moveJob : Builtin := fun arguments => do
  match arguments with
  | [] => Action.fail (octets "No current job")
  | word :: _ => Action.fail (octets "No such job: " ++ word)

/-! ## The table -/

def succeed : Builtin := fun _ => return 0

/-- A built-in command, and whether it is special. -/
structure Entry where
  run : Builtin
  isSpecial : Bool := false

def entry? (name : String) : Option Entry :=
  match name with
  | ":" => some ⟨succeed, true⟩
  | "true" => some ⟨succeed, false⟩
  | "false" => some ⟨fun _ => return 1, false⟩
  | "echo" => some ⟨echo, false⟩
  | "printf" => some ⟨printf, false⟩
  | "test" => some ⟨test, false⟩
  | "[" => some ⟨bracket, false⟩
  | "exit" => some ⟨exit, true⟩
  | "return" => some ⟨leaveFunction, true⟩
  | "break" => some ⟨leave .left, true⟩
  | "continue" => some ⟨leave .continued, true⟩
  | "shift" => some ⟨shift, true⟩
  | "set" => some ⟨setCommand, true⟩
  | "unset" => some ⟨unset, true⟩
  | "export" => some ⟨exportVariables, true⟩
  | "readonly" => some ⟨protectVariables, true⟩
  | "local" => some ⟨hideVariables, true⟩
  | "read" => some ⟨read, false⟩
  | "getopts" => some ⟨getopts, false⟩
  | "alias" => some ⟨setAliases, false⟩
  | "unalias" => some ⟨unsetAliases, false⟩
  | "trap" => some ⟨trap, true⟩
  | "times" => some ⟨succeed, true⟩
  | "kill" => some ⟨kill, false⟩
  | "hash" => some ⟨succeed, false⟩
  | "jobs" => some ⟨succeed, false⟩
  | "bg" | "fg" => some ⟨moveJob, false⟩
  | "umask" => some ⟨setMask, false⟩
  | "cd" => some ⟨cd, false⟩
  | "pwd" => some ⟨pwd, false⟩
  | _ => none

end Builtin
end FrontEnd.Shell
