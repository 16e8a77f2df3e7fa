/-
# Utilities

Programs that copy, count, choose and change text, and that list and remove files.  A utility
is given the name under which it was started and its arguments, and answers with its status.
Each knows the options that are named beside it.
-/
import FrontEnd.Host.Echo
import FrontEnd.Host.Shell.Expansion

namespace FrontEnd.Host

open Shell (Action Stream isSpace ofDigits isBefore joinWith)
open Text (Octets octets)

/-- A program: its name and its arguments, then what it does. -/
abbrev Utility := Octets → List Octets → Action Nat

/-! ## Input and output -/

/-- Complains under the name of the program. -/
def complain (name : Octets) (message : Octets) : Action Unit :=
  Action.writeError (name ++ octets ": " ++ message ++ ['\n'])

/-- Writes the output of a program, and answers with its status. -/
def output (name text : Octets) (status : Nat) : Action Nat := do
  if ← Action.write 1 text then return status
  else
    complain name (octets "write error: Bad file descriptor")
    return 1

/-- Reads the standard input, or says why it cannot be read. -/
def readInput : Action (Except String Octets) := do
  match ← Action.stream? 0 with
  | none => return .error "Bad file descriptor"
  | some number =>
    match (← get).world.stream? number with
    | some .directory => return .error "Is a directory"
    | _ => return .ok (← Action.readAll 0)

/-- Reads a file, or says why it cannot be read.  A hyphen names the standard input. -/
def readFile (path : Octets) : Action (Except String Octets) := do
  if path = ['-'] ∨ path = octets "/dev/stdin" then readInput
  else if path = octets "/dev/null" then return .ok []
  else
    let s ← get
    match s.world.lookup (s.resolve path) with
    | .ok (.file _) => return .ok (s.world.contents (s.resolve path))
    | .ok .directory => return .error "Is a directory"
    | .error .notADirectory => return .error "Not a directory"
    | .error _ => return .error "No such file or directory"

/-- Stands for itself in the name of a file that is shown, wherever it stands. -/
def isPlain (c : Char) : Bool :=
  c.isAlphanum || 127 < c.toNat || c ∈ ['%', '+', ',', '-', '.', '/', '@', ']', '_']

/-- A name as it is shown: quoted if it is not plain. -/
def showName (name : Octets) : Octets :=
  let isSafe (c : Char) : Bool := isPlain c || c ∈ ['#', '~', '{', '}']
  let startsPlain := match name with
    | [] => false
    | [c] => isPlain c
    | c :: _ => isPlain c || c = '{' || c = '}'
  if startsPlain && name.tail.all isSafe then name
  else if name.contains '\'' && name.all fun c => isSafe c || c == ' ' || c == '\'' then
    '"' :: name ++ ['"']
  else '\'' :: name.flatMap (fun c =>
    match c with
    | '\'' => octets "'\\''"
    | '\n' => octets "'$'\\n''"
    | '\t' => octets "'$'\\t''"
    | c => [c]) ++ ['\'']

/-- The texts of files in their order; a file that cannot be read is complained about, and the
status is then one. -/
def readFiles (name : Octets) : List Octets → Action (List (Octets × Octets) × Nat)
  | [] => return ([], 0)
  | path :: paths => do
    match ← readFile path with
    | .ok text =>
      let (texts, status) ← readFiles name paths
      return ((path, text) :: texts, status)
    | .error reason =>
      complain name (showName path ++ octets (": " ++ reason))
      let (texts, _) ← readFiles name paths
      return (texts, 1)

/-- The files that are named, or the standard input. -/
def orInput (paths : List Octets) : List Octets := if paths.isEmpty then [['-']] else paths

/-- The lines of a text, each with its line feed. -/
def linesOf (text : Octets) : List Octets := text.splitBy fun a _ => a != '\n'

/-! ## Options -/

/-- The letters of options, wherever they stand before `--`, and the other arguments. -/
def splitOptions : List Octets → Octets × List Octets
  | [] => ([], [])
  | ['-', '-'] :: rest => ([], rest)
  | ('-' :: c :: letters) :: rest =>
    let (more, operands) := splitOptions rest
    (c :: letters ++ more, operands)
  | word :: rest =>
    let (letters, operands) := splitOptions rest
    (letters, word :: operands)

/-- Refers to the help of the program, and answers with its status. -/
def refer (name : Octets) (status : Nat) : Action Nat := do
  Action.writeError (octets "Try '" ++ name ++ octets " --help' for more information.\n")
  return status

/-- Takes the options of a program.  One that is not among the allowed ones ends it with a
status. -/
def withOptions (name : Octets) (allowed : List Char) (status : Nat) (arguments : List Octets)
    (body : Octets → List Octets → Action Nat) : Action Nat := do
  let (letters, operands) := splitOptions arguments
  match letters.find? fun c => !allowed.contains c with
  | some '-' =>
    let word := (arguments.find? fun a => ['-', '-'].isPrefixOf a).getD []
    complain name (octets "unrecognized option '" ++ word ++ ['\''])
    refer name status
  | some c =>
    complain name (octets "invalid option -- '" ++ [c, '\''])
    refer name status
  | none => body letters operands

/-! ## Copying -/

def echoProgram : Utility := fun name arguments => output name (echo arguments) 0

/-- A character that is not printed, in signs. -/
def showCharacter (c : Char) : Octets :=
  let code := c.toNat
  let low := code % 128
  let sign : Octets :=
    if low < 32 then ['^', Char.ofNat (low + 64)]
    else if low = 127 then ['^', '?']
    else [Char.ofNat low]
  if 128 ≤ code then octets "M-" ++ sign else sign

/-- How `cat` shows lines. -/
structure Display where
  numbers : Bool
  /-- Empty lines have no numbers. -/
  numbersText : Bool
  /-- One empty line stands for many. -/
  squeezes : Bool
  showsEnds : Bool
  showsTabs : Bool
  showsOthers : Bool
  deriving DecidableEq, Repr

/-- What the letters ask for. -/
def Display.ofLetters (letters : Octets) : Display where
  numbers := letters.contains 'n'
  numbersText := letters.contains 'b'
  squeezes := letters.contains 's'
  showsEnds := letters.any (['A', 'E', 'e'].contains ·)
  showsTabs := letters.any (['A', 'T', 't'].contains ·)
  showsOthers := letters.any (['A', 'e', 't', 'v'].contains ·)

/-- Lines as they are shown, numbered from one number on. -/
def Display.lines (d : Display) (number : Nat) (afterEmpty : Bool) : List Octets → Octets
  | [] => []
  | line :: rest =>
    let isEmpty := line == ['\n']
    if d.squeezes && afterEmpty && isEmpty then d.lines number afterEmpty rest
    else
      let isNumbered := if d.numbersText then !isEmpty else d.numbers
      let digits := octets (toString number)
      let label :=
        if isNumbered then List.replicate (6 - digits.length) ' ' ++ digits ++ ['\t'] else []
      let shown := line.flatMap fun c =>
        if c = '\n' then if d.showsEnds then ['$', c] else [c]
        else if c = '\t' then if d.showsTabs then ['^', 'I'] else [c]
        else if d.showsOthers then showCharacter c else [c]
      label ++ shown ++ d.lines (if isNumbered then number + 1 else number) isEmpty rest

/-- Copies files; the options say how lines are shown. -/
def cat : Utility := fun name arguments =>
  withOptions name ['A', 'b', 'e', 'E', 'n', 's', 't', 'T', 'u', 'v'] 1 arguments
    fun letters operands => do
      if (← Action.stream? 1).isNone then
        complain name (octets "standard output: Bad file descriptor")
        return 1
      let (texts, status) ← readFiles name (orInput operands)
      let text := texts.flatMap Prod.snd
      let display := Display.ofLetters letters
      output name (if letters.isEmpty then text else display.lines 1 false (linesOf text)) status

/-- Copies the standard input to the standard output and to files. -/
def tee : Utility := fun name arguments => do
  let text ← Action.readAll 0
  for path in arguments do
    match String.ofList path with
    | "/dev/null" => pure ()
    | "/dev/stderr" => Action.writeError text
    | _ => modify fun s => { s with world := s.world.store (s.resolve path) text }
  output name text 0

/-! ## Choosing -/

/-- How much of a text is wanted: so many lines or so many octets. -/
structure Amount where
  count : Nat := 10
  isOctets : Bool := false
  deriving DecidableEq, Repr

/-- The amount that a word asks for, if it is an option with digits. -/
def amount? : Octets → Option Amount
  | '-' :: 'n' :: d :: digits => some ⟨ofDigits 10 (d :: digits), false⟩
  | '-' :: 'c' :: d :: digits => some ⟨ofDigits 10 (d :: digits), true⟩
  | '-' :: d :: digits => if d.isDigit then some ⟨ofDigits 10 (d :: digits), false⟩ else none
  | _ => none

/-- The options `-n N`, `-c N` and `-N`, and the other arguments. -/
def takeAmount (a : Amount) : List Octets → Amount × List Octets
  | [] => (a, [])
  | ['-', 'n'] :: count :: rest => takeAmount ⟨ofDigits 10 count, false⟩ rest
  | ['-', 'c'] :: count :: rest => takeAmount ⟨ofDigits 10 count, true⟩ rest
  | word :: rest =>
    match amount? word with
    | some a => takeAmount a rest
    | none => (a, word :: rest)

/-- Parts of files, each under the name of its file if there are several. -/
def showParts (name : Octets) (paths : List Octets) (choose : Octets → Octets) : Action Nat := do
  let (texts, status) ← readFiles name (orInput paths)
  let heading (path : Octets) : Octets :=
    let shown := if path = ['-'] then octets "standard input" else path
    octets "==> " ++ shown ++ octets " <==\n"
  let parts := texts.map fun (path, text) =>
    if 1 < paths.length then heading path ++ choose text else choose text
  output name (if 1 < paths.length then joinWith ['\n'] parts else parts.flatten) status

/-- The first lines or octets of files. -/
def head : Utility := fun name arguments =>
  let (a, paths) := takeAmount {} arguments
  showParts name paths fun text =>
    if a.isOctets then text.take a.count else ((linesOf text).take a.count).flatten

/-- The last lines or octets of files. -/
def tail : Utility := fun name arguments =>
  let (a, paths) := takeAmount {} arguments
  showParts name paths fun text =>
    if a.isOctets then text.drop (text.length - a.count)
    else
      let lines := linesOf text
      (lines.drop (lines.length - a.count)).flatten

/-! ## Counting -/

/-- The number of words of a text: of runs between spaces that have something to print. -/
def countWords (text : Octets) : Nat :=
  let isPrinted (c : Char) : Bool := 32 < c.toNat && c.toNat < 127
  ((text.splitBy fun a b => isSpace a == isSpace b).filter (·.any isPrinted)).length

/-- The numbers of lines, words and octets that are asked for, in this order. -/
def counts (letters : List Char) (text : Octets) : List Nat :=
  let wants (c : Char) : Bool := letters.isEmpty || letters.contains c
  (if wants 'l' then [text.count '\n'] else []) ++ (if wants 'w' then [countWords text] else []) ++
    if wants 'c' then [text.length] else []

/-- Counts lines, words and octets: `-l`, `-w`, `-c`. -/
def wc : Utility := fun name arguments => withOptions name ['c', 'l', 'w'] 1 arguments
    fun letters paths => do
  let (texts, status) ← readFiles name (orInput paths)
  let rows := texts.map fun (path, text) => (path, counts letters text)
  let total := rows.foldl (fun sum (_, row) =>
    if sum.isEmpty then row else (sum.zip row).map fun (a, b) => a + b) []
  let rows := if 1 < paths.length then rows ++ [(octets "total", total)] else rows
  let isSingle := total.length = 1 && paths.length ≤ 1
  let width :=
    if isSingle then 0
    else if paths.isEmpty then 7
    else ((total.map fun n => (toString n).length).foldl max 1)
  let cell (n : Nat) : Octets :=
    let digits := octets (toString n)
    List.replicate (width - digits.length) ' ' ++ digits
  output name (rows.flatMap fun (path, row) =>
    joinWith [' '] (row.map cell) ++ (if paths.isEmpty then [] else ' ' :: path) ++ ['\n']) status

/-! ## Changing -/

/-- Whole numbers from one to another: `seq LAST`, `seq FIRST LAST`, `seq FIRST STEP LAST`. -/
def seq : Utility := fun name arguments => do
  let number (word : Octets) : Option Int := Shell.integer? Shell.readDecimal? word
  match arguments.find? fun a => (number a).isNone with
  | some word =>
    complain name (octets "invalid floating point argument: ‘" ++ word ++ octets "’")
    refer name 1
  | none =>
    let (first, step, last) : Int × Int × Int := match arguments.filterMap number with
      | [last] => (1, 1, last)
      | [first, last] => (first, 1, last)
      | first :: step :: last :: _ => (first, step, last)
      | [] => (1, 1, 0)
    let count : Nat := if step = 0 then 0 else ((last - first) / step + 1).toNat
    output name ((List.range count).flatMap fun (i : Nat) =>
      octets (toString (first + step * (i : Int))) ++ ['\n']) 0

/-- The characters that an operand of `tr` names: ranges and escapes stand for more. -/
def characters : Nat → Octets → Octets
  | 0, _ => []
  | _, [] => []
  | bound + 1, text =>
    match text with
    | [] => []
    | c :: rest =>
      let (c, rest) := if c = '\\' then Shell.readEscape rest else (c, rest)
      match rest with
      | '-' :: d :: more =>
        (List.range (d.toNat + 1 - c.toNat)).map (fun i => Char.ofNat (c.toNat + i)) ++
          characters bound more
      | _ => c :: characters bound rest

/-- Replaces characters, or removes them with `-d`. -/
def tr : Utility := fun name arguments => do
  let text ← Action.readAll 0
  match arguments with
  | ['-', 'd'] :: set :: _ =>
    let removed := characters (set.length + 1) set
    output name (text.filter fun c => !removed.contains c) 0
  | old :: new :: _ =>
    let old := characters (old.length + 1) old
    let new := characters (new.length + 1) new
    let replace (c : Char) : Char :=
      match old.reverse.idxOf? c with
      | some i => (new[old.length - 1 - i]?).getD (new.getLast?.getD c)
      | none => c
    output name (text.map replace) 0
  | _ =>
    complain name (octets "missing operand")
    refer name 1

/-- Sorts lines: `-n` by number, `-r` backwards, `-u` each once. -/
def sort : Utility := fun name arguments => withOptions name ['n', 'r', 'u'] 2 arguments
    fun letters operands => do
  let (texts, status) ← readFiles name (orInput operands)
  let lines := texts.flatMap fun (_, text) =>
    (linesOf text).map fun line => line.filter (· != '\n')
  let value (line : Octets) : Int :=
    let (isNegative, rest) := Shell.splitSign (line.dropWhile isSpace)
    let magnitude : Int := ofDigits 10 (rest.takeWhile Char.isDigit)
    if isNegative then -magnitude else magnitude
  let order (a b : Octets) : Bool :=
    if letters.contains 'n' then
      decide (value a < value b) || decide (value a = value b) && isBefore a b
    else isBefore a b
  let sorted := lines.mergeSort order
  let sorted := if letters.contains 'r' then sorted.reverse else sorted
  let sorted := if letters.contains 'u' then sorted.eraseDups else sorted
  output name (sorted.flatMap fun line => line ++ ['\n']) status

/-! ## Directories -/

/-- Lists directories, and names the files that are given: `-a` and `-A` show hidden names,
`-d` goes into no directory, `-r` goes backwards, and `-1` changes nothing here. -/
def ls : Utility := fun name arguments => withOptions name ['1', 'a', 'A', 'd', 'r'] 2 arguments
    fun letters operands => do
  let s ← get
  let sorted (names : List Octets) : List Octets :=
    let names := names.mergeSort isBefore
    if letters.contains 'r' then names.reverse else names
  let lines (names : List Octets) : Octets := (sorted names).flatMap fun n => n ++ ['\n']
  let listing (path : Octets) : Octets :=
    let names := s.world.names (if path = ['.'] then s.directory else s.resolve path)
    let names := if letters.contains 'a' then ['.'] :: ['.', '.'] :: names else names
    if letters.any (['a', 'A'].contains ·) then lines names
    else lines (names.filter fun n => n.head? ≠ some '.')
  let isDirectory (path : Octets) : Bool :=
    match s.world.lookup (s.resolve path) with
    | .ok .directory => !letters.contains 'd'
    | _ => false
  let paths := if operands.isEmpty then [['.']] else operands
  let (found, missing) := paths.partition s.exists?
  for path in missing do
    complain name (octets "cannot access '" ++ path ++ octets "': No such file or directory")
  let (directories, files) := found.partition isDirectory
  let blocks := (sorted directories).map fun path =>
    if 1 < paths.length then path ++ octets ":\n" ++ listing path else listing path
  let blocks := if files.isEmpty then blocks else lines files :: blocks
  output name (joinWith ['\n'] blocks) (if missing.isEmpty then 0 else 2)

/-- Removes files: `-r` also directories, `-f` without a complaint about what is not there. -/
def rm : Utility := fun name arguments => withOptions name ['f', 'r', 'R'] 1 arguments
    fun letters operands => do
  if operands.isEmpty && !letters.contains 'f' then
    complain name (octets "missing operand")
    return (← refer name 1)
  let refuse (path : Octets) (reason : String) : Action Nat := do
    complain name (octets "cannot remove '" ++ path ++ octets ("': " ++ reason))
    return 1
  operands.foldlM (fun status path => do
    let s ← get
    match s.world.lookup (s.resolve path) with
    | .error _ =>
      if letters.contains 'f' then return status else refuse path "No such file or directory"
    | .ok .directory =>
      if letters.any (['r', 'R'].contains ·) then
        set { s with world := s.world.remove (s.resolve path) }
        return status
      else refuse path "Is a directory"
    | .ok (.file _) =>
      set { s with world := s.world.remove (s.resolve path) }
      return status) 0

/-! ## The table -/

/-- The utility with a name. -/
def utility? (name : String) : Option Utility :=
  match name with
  | "echo" => some echoProgram
  | "true" => some fun _ _ => return 0
  | "false" => some fun _ _ => return 1
  | "cat" => some cat
  | "tee" => some tee
  | "head" => some head
  | "tail" => some tail
  | "wc" => some wc
  | "seq" => some seq
  | "sleep" => some fun _ _ => return 0
  | "sort" => some sort
  | "ls" => some ls
  | "rm" => some rm
  | "tr" => some tr
  | _ => none

end FrontEnd.Host
