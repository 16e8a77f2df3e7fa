/-
# The state of a running script

A shell has variables, functions and parameters of its own.  Streams and files are shared by
all shells: what one writes another can read.  A descriptor names a stream.

An `Action` changes the state and gives a value, or jumps out of commands.
-/
import FrontEnd.FileTable
import FrontEnd.Host.Shell.Grammar
import FrontEnd.Host.Shell.Pattern

namespace FrontEnd.Shell

open Text (Octets octets)

/-! ## Files and streams -/

/-- What can be read from or written to. -/
inductive Stream where
  /-- Takes everything and gives nothing. -/
  | null
  /-- Gives a text. -/
  | source (rest : Octets)
  /-- Keeps what is written, the last piece first. -/
  | sink (pieces : List Octets)
  /-- A place in a file. -/
  | file (path : Octets) (position : Nat) (appends : Bool)
  | directory

/-- The names of the programs that can be run. -/
def programs : List String :=
  ["cat", "dash", "echo", "false", "head", "ls", "rm", "seq", "sh", "sleep", "sort", "tail",
    "tee", "tr", "true", "wc"]

/-- What is found from the root on, apart from the current directory. -/
def installed : FileTable :=
  .ofList <|
    (["dev", "etc", "home", "root", "tmp", "usr", "var"].map (·, .directory)) ++
      ["bin", "usr/bin"].flatMap fun directory =>
        programs.map fun name => (directory ++ "/" ++ name, .file ⟨#[]⟩)

/-! ## Shells -/

structure Variable where
  value : Option Octets
  isExported : Bool := false
  isReadOnly : Bool := false
  deriving DecidableEq, Repr

/-- The options of a shell, with their letters if they have any. -/
def optionTable : List (String × Option Char) :=
  [("errexit", 'e'), ("noglob", 'f'), ("ignoreeof", 'I'), ("interactive", 'i'), ("monitor", 'm'),
    ("noexec", 'n'), ("stdin", 's'), ("xtrace", 'x'), ("verbose", 'v'), ("vi", 'V'),
    ("emacs", 'E'), ("noclobber", 'C'), ("allexport", 'a'), ("notify", 'b'), ("nounset", 'u'),
    ("privileged", 'p'), ("nolog", none), ("debug", none)]

/-- What belongs to one shell. -/
structure Context where
  name : Octets := octets "sh"
  words : List Octets := []
  /-- The variables by their names. -/
  bindings : List (Octets × Variable) := []
  functions : List (Octets × Command) := []
  /-- The texts that command names stand for. -/
  aliases : List (Octets × Octets) := []
  /-- The status of the last command. -/
  status : Nat := 0
  /-- The status of the last substitution in the current command. -/
  substituted : Nat := 0
  /-- The names of the options that are set. -/
  options : List String := []
  /-- The line of the current command. -/
  line : Nat := 0
  /-- The command that complains. -/
  speaker : Option Octets := none
  /-- The streams that descriptors name. -/
  descriptors : List (Nat × Nat) := []
  /-- What the local variables of the functions hide, the innermost function first. -/
  frames : List (List (Octets × Option Variable)) := []
  /-- How many function calls are around the current command. -/
  calls : Nat := 0
  /-- How many loops are around the current command. -/
  loops : Nat := 0
  /-- What is done at the end, or on a signal. -/
  traps : List (Nat × Octets) := []
  /-- The signals that came and have not been dealt with, the last one first. -/
  caught : List Nat := []
  /-- The texts of redirections. -/
  documents : List (Nat × Word) := []
  /-- The letters of a word that options are taken from, if it is not used up. -/
  optionLetters : Octets := []
  /-- The current directory, if it is not the one that the shell was started in. -/
  directory : Octets := []
  /-- The number of the last command that was put into the background. -/
  lastJob : Option Nat := none
  /-- The permissions that new files do not have. -/
  mask : Nat := 0o022

/-- A command in the background that has not been carried out. -/
structure Job where
  number : Nat
  context : Context
  command : Command

/-- A command in the background that is done, and the signal that ended it. -/
structure FinishedJob where
  number : Nat
  status : Nat
  signal : Option Nat := none
  deriving DecidableEq, Repr

/-- What the shells share. -/
structure World where
  /-- The streams that are open, by their numbers. -/
  streams : List (Nat × Stream) := []
  nextStream : Nat := 0
  /-- The files below the current directory. -/
  files : FileTable := ⟨[]⟩
  /-- The files below the root. -/
  system : FileTable := installed
  /-- The commands in the background, in their order. -/
  jobs : List Job := []
  finished : List FinishedJob := []
  nextJob : Nat := 3

/-- A shell at work: its state, and what it shares with others. -/
structure Process extends Context where
  world : World := {}

/-- Why commands are left. -/
inductive Jump where
  /-- The shell ends. -/
  | ended (status : Nat)
  /-- A fault that was complained about; where nothing deals with it the shell ends. -/
  | failed
  /-- Leaves so many loops. -/
  | left (loops : Nat)
  /-- Goes on with the next turn of the outermost of so many loops. -/
  | continued (loops : Nat)
  | returned (status : Nat)
  /-- The whole process is ended by a signal. -/
  | killed (signal : Nat)
  /-- The script did not end within the bound. -/
  | exhausted
  deriving DecidableEq, Repr

/-- Changes the state and gives a value, or jumps. -/
abbrev Action := ExceptT Jump (StateM Process)

/-- Does something that may jump, then something that is done in any case. -/
def Action.finally {α : Type} (body : Action α) (after : Action Unit) : Action α := do
  let result ← ExceptT.lift body.run
  after
  ExceptT.mk (pure result)

/-- Carries something out.  There is no answer if it fails and has said why. -/
def attempt {α : Type} (body : Action α) : Action (Option α) := do
  match ← ExceptT.lift body.run with
  | .ok answer => return some answer
  | .error .failed => return none
  | .error jump => throw jump

/-! ## Variables -/

/-- Changes what is stored under a key, or removes it. -/
def assign {α : Type} (key : Octets) (value : Option α) (entries : List (Octets × α)) :
    List (Octets × α) :=
  match value with
  | some v =>
    if (entries.lookup key).isSome then
      entries.map fun (k, old) => (k, if k == key then v else old)
    else entries ++ [(key, v)]
  | none => entries.filter fun (k, _) => k != key

namespace Process

def find? (s : Process) (name : Octets) : Option Variable := s.bindings.lookup name

/-- The value of a variable, if it is set. -/
def value? (s : Process) (name : Octets) : Option Octets := (s.find? name).bind Variable.value

def put (s : Process) (name : Octets) (v : Option Variable) : Process :=
  { s with bindings := assign name v s.bindings }

def hasOption (s : Process) (name : String) : Bool := s.options.contains name

/-- The letters of the options that are set, in the order in which they are shown. -/
def shownOptions (s : Process) : Octets :=
  optionTable.reverse.filterMap fun (name, letter) => if s.hasOption name then letter else none

/-- The characters that separate fields. -/
def separators (s : Process) : Octets :=
  match s.find? (octets "IFS") with
  | some v => v.value.getD []
  | none => [' ', '\t', '\n']

end Process

/-! ## Streams -/

namespace World

def stream? (w : World) (number : Nat) : Option Stream := w.streams.lookup number

def replace (w : World) (number : Nat) (stream : Stream) : World :=
  { w with streams := w.streams.map fun (n, old) => (n, if n == number then stream else old) }

/-- Opens a stream and gives its number. -/
def connect (w : World) (stream : Stream) : Nat × World :=
  (w.nextStream,
    { w with streams := (w.nextStream, stream) :: w.streams, nextStream := w.nextStream + 1 })

def close (w : World) (number : Nat) : World :=
  { w with streams := w.streams.filter fun (n, _) => n != number }

/-- The table that knows a path, and the path there. -/
def locate (w : World) (path : Octets) : FileTable × String :=
  match path with
  | '/' :: rest => (w.system, "./" ++ Text.decode rest)
  | _ => (w.files, Text.decode path)

/-- What a path leads to. -/
def lookup (w : World) (path : Octets) : Except ReadError Entry :=
  let (table, path) := w.locate path
  table.lookup path

/-- The names in a directory. -/
def names (w : World) (path : Octets) : List Octets :=
  let (table, path) := w.locate path
  (table.names path).map octets

/-- Something can be run under this path. -/
def isExecutable (path : Octets) : Bool :=
  ["/bin/", "/usr/bin/"].any fun directory =>
    programs.any fun name => octets (directory ++ name) == path

/-- The octets of a file. -/
def contents (w : World) (path : Octets) : Octets :=
  match w.lookup path with
  | .ok (.file bytes) => bytes.toList.map fun b => Char.ofNat b.toNat
  | _ => []

/-- Gives a file other octets. -/
def store (w : World) (path : Octets) (contents : Octets) : World :=
  let bytes := ByteArray.mk (contents.map fun c => c.toNat.toUInt8).toArray
  let (table, inside) := w.locate path
  let table := table.put inside (.file bytes)
  if path.head? = some '/' then { w with system := table } else { w with files := table }

/-- Removes a file, or a directory with all below it. -/
def remove (w : World) (path : Octets) : World :=
  let (table, inside) := w.locate path
  let table := table.remove inside
  if path.head? = some '/' then { w with system := table } else { w with files := table }

/-- All that a stream still gives. -/
def drain (w : World) (number : Nat) : Octets × World :=
  match w.stream? number with
  | some (.source rest) => (rest, w.replace number (.source []))
  | some (.file path position appends) =>
    let all := w.contents path
    (all.drop position, w.replace number (.file path all.length appends))
  | _ => ([], w)

/-- The next octet that a stream gives. -/
def readOne (w : World) (number : Nat) : Option Char × World :=
  match w.stream? number with
  | some (.source (c :: rest)) => (some c, w.replace number (.source rest))
  | some (.file path position appends) =>
    match (w.contents path)[position]? with
    | some c => (some c, w.replace number (.file path (position + 1) appends))
    | none => (none, w)
  | _ => (none, w)

/-- Writes to a stream, if that can be written to. -/
def write? (w : World) (number : Nat) (text : Octets) : Option World :=
  match w.stream? number with
  | some .null => some w
  | some (.sink pieces) => some (w.replace number (.sink (text :: pieces)))
  | some (.file path position appends) =>
    let all := w.contents path
    let start := if appends then all.length else position
    let kept := all.take start ++ List.replicate (start - all.length) '\x00'
    some ((w.store path (kept ++ text ++ all.drop (start + text.length))).replace number
      (.file path (start + text.length) appends))
  | _ => none

/-- What was written to a stream. -/
def written (w : World) (number : Nat) : Octets :=
  match w.stream? number with
  | some (.sink pieces) => pieces.reverse.flatten
  | _ => []

end World

namespace Process

/-- The path from the directory that the shell was started in. -/
def resolve (s : Process) (path : Octets) : Octets :=
  if s.directory.isEmpty || path.isEmpty || path.head? = some '/' then path
  else s.directory ++ '/' :: path

/-- Something is found under the path. -/
def exists? (s : Process) (path : Octets) : Bool :=
  match s.world.lookup (s.resolve path) with
  | .ok _ => true
  | .error _ => false

end Process

/-! ## Basic actions -/

namespace Action

/-- The stream that a descriptor names. -/
def stream? (descriptor : Nat) : Action (Option Nat) := do
  return (← get).descriptors.lookup descriptor

/-- Lets a descriptor name a stream, or none. -/
def redirect (descriptor : Nat) (stream : Option Nat) : Action Unit :=
  modify fun s =>
    let others := s.descriptors.filter fun (d, _) => d != descriptor
    { s with descriptors := match stream with
        | some number => (descriptor, number) :: others
        | none => others }

def openStream (stream : Stream) : Action Nat := do
  let s ← get
  let (number, world) := s.world.connect stream
  set { s with world }
  return number

def closeStream (number : Nat) : Action Unit :=
  modify fun s => { s with world := s.world.close number }

/-- Writes to a descriptor, and says whether that can be done. -/
def write (descriptor : Nat) (text : Octets) : Action Bool := do
  if text.isEmpty then return true
  match ← stream? descriptor with
  | none => return false
  | some number =>
    let s ← get
    match s.world.write? number text with
    | some world =>
      set { s with world }
      return true
    | none => return false

/-- Writes to the standard error, if that can be done. -/
def writeError (text : Octets) : Action Unit := discard (write 2 text)

/-- All that can be read from a descriptor. -/
def readAll (descriptor : Nat) : Action Octets := do
  match ← stream? descriptor with
  | none => return []
  | some number =>
    let s ← get
    let (text, world) := s.world.drain number
    set { s with world }
    return text

def readOne (descriptor : Nat) : Action (Option Char) := do
  match ← stream? descriptor with
  | none => return none
  | some number =>
    let s ← get
    let (c, world) := s.world.readOne number
    set { s with world }
    return c

/-- Writes a complaint, with the line and the command that it is about. -/
def warn (message : Octets) : Action Unit := do
  let s ← get
  let speaker := match s.speaker with
    | some speaker => speaker ++ octets ": "
    | none => []
  writeError <| s.name ++ octets (": " ++ toString s.line ++ ": ") ++ speaker ++ message ++ ['\n']

/-- Complains and gives up. -/
def fail {α : Type} (message : Octets) : Action α := do
  warn message
  modify fun s => { s with status := 2 }
  throw .failed

/-- Sets a variable. -/
def setVariable (name value : Octets) : Action Unit := do
  let s ← get
  let old := (s.find? name).getD { value := none, isExported := s.hasOption "allexport" }
  if old.isReadOnly then fail (name ++ octets ": is read only")
  else set (s.put name (some { old with value := some value }))

/-- Removes a variable. -/
def unsetVariable (name : Octets) : Action Unit := do
  let s ← get
  match s.find? name with
  | some v =>
    if v.isReadOnly then fail (name ++ octets ": is read only") else set (s.put name none)
  | none => return

end Action

/-! ## Numbers -/

/-- The digits after a sign, and whether the number is negative. -/
def splitSign : Octets → Bool × Octets
  | '-' :: rest => (true, rest)
  | '+' :: rest => (false, rest)
  | rest => (false, rest)

def isSpace (c : Char) : Bool := c == ' ' || 9 ≤ c.toNat && c.toNat ≤ 13

def ofDigits (base : Nat) (digits : Octets) : Nat :=
  digits.foldl (fun n c => n * base +
    (if c.isDigit then c.toNat - '0'.toNat else c.toLower.toNat - 'a'.toNat + 10)) 0

def isHexDigit (c : Char) : Bool := Class.hexDigit.contains c

def isOctalDigit (c : Char) : Bool := '0' ≤ c && c ≤ '7'

/-- A number without a sign at the start of a text, and what follows it.  It is octal after a
zero and hexadecimal after `0x`. -/
def readNatural? : Octets → Option (Nat × Octets)
  | '0' :: x :: d :: rest =>
    if (x == 'x' || x == 'X') && isHexDigit d then
      let digits := (d :: rest).takeWhile isHexDigit
      some (ofDigits 16 digits, (d :: rest).drop digits.length)
    else octal (x :: d :: rest)
  | '0' :: rest => octal rest
  | text =>
    let digits := text.takeWhile Char.isDigit
    if digits.isEmpty then none else some (ofDigits 10 digits, text.drop digits.length)
where
  octal (rest : Octets) : Option (Nat × Octets) :=
    let digits := rest.takeWhile isOctalDigit
    some (ofDigits 8 digits, rest.drop digits.length)

/-- A number in decimal digits at the start of a text, and what follows it. -/
def readDecimal? (text : Octets) : Option (Nat × Octets) :=
  let digits := text.takeWhile Char.isDigit
  if digits.isEmpty then none else some (ofDigits 10 digits, text.drop digits.length)

/-- The least number of 64 bits with a sign. -/
def leastWord : Int := -0x8000000000000000

/-- The greatest number of 64 bits with a sign. -/
def greatestWord : Int := 0x7fffffffffffffff

/-- The value of a number, brought into the range of 64 bits, and whether it was in it. -/
def saturate (isNegative : Bool) (magnitude : Nat) : Int × Bool :=
  let value : Int := if isNegative then -magnitude else magnitude
  if value < leastWord then (leastWord, false)
  else if greatestWord < value then (greatestWord, false)
  else (value, true)

/-- The value of a text that is a number, as far as it is in range.  Space may stand around
it. -/
def integer? (read : Octets → Option (Nat × Octets)) (text : Octets) : Option Int :=
  let (isNegative, rest) := splitSign (text.dropWhile isSpace)
  match read rest with
  | some (magnitude, after) =>
    let (value, isInRange) := saturate isNegative magnitude
    if isInRange && after.all isSpace then some value else none
  | none => none

/-- A count, such as a status, that a command was given. -/
def Action.count (word : Octets) : Action Nat :=
  match integer? readDecimal? word with
  | some value =>
    if 0 ≤ value ∧ value < 0x80000000 then return value.toNat
    else Action.fail (octets "Illegal number: " ++ word)
  | none => Action.fail (octets "Illegal number: " ++ word)

end FrontEnd.Shell
