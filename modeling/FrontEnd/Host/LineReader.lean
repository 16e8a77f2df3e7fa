/-
# The line reader of the host

What stands for the package that reads command lines when the application is tried out.  It reads
the words from left to right by a declaration, and the first word that is wrong decides the error;
what can be said only of the whole line is checked at the end, first for the command and then for
the line.

* Words that start with a hyphen are options, single letters may be joined, `--` ends the
  options, and a lone hyphen is no option.
* Every command can be asked for help, and the word `help` asks for help on the command named
  after it.  The texts of help are empty.
-/
import FrontEnd.CommandLine

namespace FrontEnd.Host

open CommandLine

/-! ## Words -/

/-- What a word looks like. -/
inductive Word where
  /-- Two hyphens. -/
  | escape
  /-- Two hyphens and a name, and perhaps an equals sign and a value. -/
  | long (name : String) (hasValue : Bool)
  /-- One hyphen and letters. -/
  | short (letters : List Char)
  | plain
  deriving DecidableEq, Repr

/-- What a word looks like, judged from its first characters. -/
def Word.ofChars : List Char → Word
  | ['-', '-'] => .escape
  | '-' :: '-' :: rest =>
    .long (String.ofList (rest.takeWhile (· != '='))) (rest.any (· == '='))
  | '-' :: c :: rest => .short (c :: rest)
  | _ => .plain

def classify (word : String) : Word := .ofChars word.toList

/-! ## Options -/

/-- An option that can be given: a declared one, or one that every line has. -/
inductive Given where
  | flag (f : Flag)
  | help
  | version

/-- The option with this long name.  Only the line itself can be asked for the version. -/
def ofLong? (flags : List Flag) (isLine : Bool) (long : String) : Option Given :=
  if long = "help" then some .help
  else if isLine ∧ long = "version" then some .version
  else (flags.find? (·.long = long)).map .flag

/-- The option with this letter. -/
def ofLetter? (flags : List Flag) (isLine : Bool) (letter : Char) : Option Given :=
  if letter = 'h' then some .help
  else if isLine ∧ letter = 'V' then some .version
  else (flags.find? (·.letter? = some letter)).map .flag

/-- An option once more. -/
def give (found : Found) (f : Flag) : Found :=
  { found with given := fun n => if n = f.name then found.given n + 1 else found.given n }

/-- Takes an option. -/
def Given.take (found : Found) : Given → Except UsageError Found
  | help => .error .helpRequested
  | version => .error .versionRequested
  | flag f =>
    match f.effect with
    | .set => if found.given f.name = 0 then .ok (give found f) else .error .conflict
    | .count most => if found.given f.name < most then .ok (give found f) else .error .outOfRange

/-- Takes joined letters, one after the other. -/
def takeLetters (flags : List Flag) (isLine : Bool) (found : Found) (letters : List Char) :
    Except UsageError Found :=
  letters.foldlM (fun found letter =>
    match ofLetter? flags isLine letter with
    | some o => o.take found
    | none => .error .unknownArgument) found

/-! ## Commands -/

/-- What has been read of a command. -/
structure Reading where
  found : Found := {}
  /-- No more options are read. -/
  escaped : Bool := false

namespace Reading

variable (c : CommandForm)

/-- The values that were read can be values of their arguments. -/
def checkValues (r : Reading) : Except UsageError Unit :=
  if c.arguments.all fun a => (r.found.values a.name).all a.type.accepts then .ok ()
  else .error .invalidValue

/-- The trailing argument that has a value, if there is one. -/
def trailing? (r : Reading) : Option Argument :=
  c.arguments.find? fun a => a.trailing && !(r.found.values a.name).isEmpty

/-- The argument that the next value is for. -/
def next? (r : Reading) : Option Argument :=
  c.arguments.find? fun a => a.takesAll || (r.found.values a.name).isEmpty

def add (r : Reading) (a : Argument) (word : String) : Reading :=
  { r with found := r.found.add a.name word }

/-- Reads a word as a value. -/
def place (r : Reading) (word : String) : Except UsageError Reading :=
  match r.next? c with
  | some a => .ok (r.add a word)
  | none => .error .unknownArgument

/-- Options are read as values where the next value may look like one. -/
def takesHyphens (r : Reading) : Bool := (r.next? c).any (·.takesHyphens)

/-- Reads options.  The values before them are checked first. -/
def take (r : Reading) (read : Found → Except UsageError Found) : Except UsageError Reading := do
  r.checkValues c
  return { r with found := ← read r.found }

/-- Reads a word where options are read. -/
def readWord (r : Reading) (word : String) : Except UsageError Reading :=
  match classify word with
  | .plain => r.place c word
  | .escape => .ok { r with escaped := true }
  | .long name hasValue =>
    match ofLong? c.flags false name with
    | some o => if hasValue then .error .unexpectedValue else r.take c o.take
    | none => if r.takesHyphens c then r.place c word else .error .unknownArgument
  | .short letters =>
    let known := letters.map (ofLetter? c.flags false)
    if r.takesHyphens c ∧ known.any Option.isNone then r.place c word
    else if known.head?.any Option.isNone then .error .unknownArgument
    else r.take c fun found => takeLetters c.flags false found letters

/-- Reads the next word. -/
def step (r : Reading) (word : String) : Except UsageError Reading :=
  match r.trailing? c with
  | some a => .ok (r.add a word)
  | none => if r.escaped then r.place c word else r.readWord c word

/-- If an option was not given, the variable that stands in for it decides. -/
def settle (environment : Environment) (found : Found) (f : Flag) : Except UsageError Found :=
  if 0 < found.given f.name then .ok found
  else match f.standIn?.bind environment.value? with
    | none => .ok found
    | some "true" => .ok (give found f)
    | some "false" => .ok found
    | some _ => .error .invalidValue

/-- What is found behind the command, if nothing is wrong with it as a whole. -/
def finish (environment : Environment) (r : Reading) : Except UsageError Found := do
  r.checkValues c
  let found ← c.flags.foldlM (settle environment) r.found
  if c.arguments.any fun a => a.required && (found.values a.name).isEmpty then
    .error .missingArgument
  else .ok found

end Reading

/-- Reads the words behind a command. -/
def readCommand (c : CommandForm) (environment : Environment) (words : List String) :
    Except UsageError Found := do
  (← words.foldlM (Reading.step c) {}).finish c environment

/-! ## The whole line -/

section
variable (d : Declaration)

/-- A word that can stand where a command is looked for. -/
def isCommand (word : String) : Bool := word = "help" || d.commands.any (·.name = word)

/-- Help on the command named by the words.  Commands have no commands of their own. -/
def readHelp : List String → UsageError
  | [] => .helpRequested
  | [word] => if isCommand d word then .helpRequested else .unknownCommand
  | _ => .unknownCommand

/-- Options exclude each other only on lines that are right otherwise. -/
def checkConflicts (found : Found) : Except UsageError Unit :=
  if d.flags.any fun f => 0 < found.given f.name && f.excludes.any fun n => 0 < found.given n then
    .error .conflict
  else .ok ()

/-- There is no command. -/
def withoutCommand (found : Found) : UsageError :=
  if d.flags.all fun f => found.given f.name = 0 then .nothingGiven else .missingCommand

/-- The command behind two hyphens cannot be one. -/
def misplaced (found : Found) : List String → UsageError
  | [] => withoutCommand d found
  | word :: _ => if isCommand d word then .unknownArgument else .unknownCommand

/-- Reads a line from the options before the command on. -/
def readLine (environment : Environment) (found : Found) : List String → Except UsageError Line
  | [] => .error (withoutCommand d found)
  | word :: words =>
    match d.commands.find? (·.name = word) with
    | some c => do
      let behind ← readCommand c environment words
      checkConflicts d found
      return ⟨found, c.name, behind⟩
    | none =>
      if word = "help" then .error (readHelp d words)
      else match classify word with
        | .plain => .error .unknownCommand
        | .escape => .error (misplaced d found words)
        | .long name hasValue =>
          match ofLong? d.flags true name with
          | none => .error .unknownArgument
          | some o =>
            if hasValue then .error .unexpectedValue
            else do readLine environment (← o.take found) words
        | .short letters => do
          readLine environment (← takeLetters d.flags true found letters) words

end

/-- The text that goes with a refusal. -/
def refusalText (d : Declaration) : UsageError → String
  | .versionRequested => d.program ++ " " ++ d.version ++ "\n"
  | _ => ""

/-- The line reader of the host. -/
def lineReader : LineReader where
  read d environment words :=
    (readLine d environment {} words).mapError fun kind => ⟨kind, refusalText d kind⟩

end FrontEnd.Host
