/-
# Expansion

A word stands for fields.  Its parts give fragments; fragments that come from outside of
quotes are split where separators stand; a field that is a pattern stands for the files that
it matches.

* `expandFields` gives the fields of a word;
* `expandText` gives the one text that a word stands for where it is not split;
* `expandGlyphs` is like it and keeps what was quoted.

How commands are run is a parameter here: `substitute` gives what a command writes.
-/
import FrontEnd.Host.Shell.Arithmetic

namespace FrontEnd.Shell

open Text (Octets octets)

/-- What a part of a word gives. -/
inductive Fragment where
  /-- Stays as it is. -/
  | fixed (glyphs : List Glyph)
  /-- Is split where separators stand; nothing stands for the end of a field. -/
  | loose (text : List (Option Char))
  /-- Ends a field. -/
  | boundary
  /-- The fragments before were fields by themselves. -/
  | listEnd
  deriving DecidableEq, Repr

namespace Fragment

def quoted (text : Octets) : Fragment := fixed (text.map (⟨·, false⟩))

def unquoted (text : Octets) : Fragment := loose (text.map some)

/-- A text that is inside of quotes, or outside. -/
def ofText (isQuoted : Bool) (text : Octets) : Fragment :=
  if isQuoted then quoted text else unquoted text

def glyphs : Fragment → List Glyph
  | fixed glyphs => glyphs
  | loose text => text.filterMap fun c => c.map (⟨·, true⟩)
  | boundary | listEnd => []

end Fragment

/-! ## Fields -/

/-- The fields found so far. -/
structure Splitting where
  /-- The fields that are complete, the last one first. -/
  fields : List (List Glyph) := []
  /-- The field that is not complete, the last character first. -/
  current : Option (List Glyph) := none
  /-- A blank separator was the last character. -/
  afterBlank : Bool := false
  /-- The fragments before were fields by themselves.  Then every separator of the next one
  ends a field, blank or not. -/
  afterList : Bool := false

namespace Splitting

def finishField (s : Splitting) : Splitting :=
  { s with fields := (s.current.getD []).reverse :: s.fields, current := none }

/-- Goes on with a character of a loose fragment. -/
def step (separators : Octets) (s : Splitting) (c? : Option Char) : Splitting :=
  let isSeparator := match c? with
    | some c => separators.contains c
    | none => true
  let isBlankSeparator := isSeparator &&
    match c? with
    | some c => isBlank c || c == '\n'
    | none => true
  let plain : Splitting :=
    match c? with
    | some c => { s with current := some (⟨c, true⟩ :: s.current.getD []), afterBlank := false }
    | none => s
  if !isSeparator then plain
  else if s.afterBlank then
    if isBlankSeparator then s else { s with afterBlank := false }
  else
    let blank := isBlankSeparator && !s.afterList
    if s.current.isNone && blank then s
    else { s.finishField with afterBlank := blank }

def add (separators : Octets) (s : Splitting) : Fragment → Splitting
  | .fixed glyphs => { s with current := some (glyphs.reverse ++ s.current.getD []) }
  | .loose text =>
    { text.foldl (step separators) { s with afterBlank := false } with afterList := false }
  | .boundary => s.finishField
  | .listEnd => { s with afterList := true }

end Splitting

/-- The fields of fragments. -/
def splitFields (separators : Octets) (fragments : List Fragment) : List (List Glyph) :=
  let s := fragments.foldl (Splitting.add separators) {}
  let s := if s.current.isSome then s.finishField else s
  s.fields.reverse

/-! ## Parameters -/

/-- Joins texts with a separator between them. -/
def joinWith (separator : Octets) (texts : List Octets) : Octets := separator.intercalate texts

namespace Process

/-- What stands between words that are joined. -/
def joint (s : Process) : Octets := s.separators.take 1

/-- The value of a parameter that is no list. -/
def parameter? (s : Process) (name : Octets) : Option Octets :=
  match name with
  | ['?'] => some (octets (toString s.status))
  | ['#'] => some (octets (toString s.words.length))
  | ['-'] => some s.shownOptions
  | ['$'] => some (octets "2")
  | ['!'] => s.lastJob.map fun n => octets (toString n)
  | ['@'] | ['*'] => some (joinWith s.joint s.words)
  | ['0'] => some s.name
  | _ =>
    if name.all Char.isDigit then
      let index := ofDigits 10 name
      if index = 0 then some s.name else s.words[index - 1]?
    else s.value? name

end Process

/-- A parameter stands for all the words of the script. -/
def isList (name : Octets) : Bool := name == ['@'] || name == ['*']

/-- How a word is expanded. -/
structure Mode where
  /-- The word stands for fields. -/
  splits : Bool
  /-- The word belongs to a parameter: its text is split as well. -/
  isOperand : Bool := false
  /-- A tilde at the start stands for a home directory. -/
  seesTilde : Bool := false
  deriving DecidableEq, Repr

/-- How a word is expanded that stands for one text. -/
def Mode.text : Mode := { splits := false, seesTilde := true }

/-- How the word of a parameter is expanded. -/
def Mode.operand (mode : Mode) : Mode := { mode with isOperand := true, seesTilde := true }

/-- The texts between which nothing stands. -/
def splitTexts : List (Option Char) → List Octets
  | [] => [[]]
  | none :: rest => [] :: splitTexts rest
  | some c :: rest =>
    match splitTexts rest with
    | [] => [[c]]
    | text :: texts => (c :: text) :: texts

/-- The fragments of a list of texts, between which nothing stands. -/
def listFragments (isQuoted : Bool) (texts : List (Option Char)) : List Fragment :=
  if isQuoted then
    ((splitTexts texts).map Fragment.quoted).intersperse .boundary ++ [.listEnd]
  else [.loose texts]

/-- The fragments of a parameter that has a value.  A part of the value may be trimmed. -/
def valueFragments (s : Process) (mode : Mode) (name value : Octets) (isQuoted : Bool)
    (trim : List (Option Char) → List (Option Char) := id) : List Fragment :=
  if mode.splits && isList name && !(isQuoted && name = ['*']) then
    if isQuoted && s.words.isEmpty then []
    else listFragments isQuoted (trim ((s.words.map (·.map some)).intersperse [none]).flatten)
  else [.ofText isQuoted ((trim (value.map some)).filterMap id)]

/-- The text of fragments that are not split. -/
def plainFragments (fragments : List Fragment) : Octets :=
  plainText (fragments.flatMap Fragment.glyphs)

/-- Complains that a parameter is not set, unless that is no fault. -/
def checkSet (name : Octets) : Action Unit := do
  if (← get).hasOption "nounset" then Action.fail (name ++ octets ": parameter not set")

/-- The output of a command without the line feeds at its end. -/
def trimOutput (text : Octets) : Octets :=
  let kept := text.filter (· != '\x00')
  (kept.reverse.dropWhile (· == '\n')).reverse

/-- The home directory of a user; without a name, the one that the variable `HOME` names. -/
def Process.home? (s : Process) (user : Octets) : Option Octets :=
  if user.isEmpty then s.value? (octets "HOME")
  else if user = octets "root" then some (octets "/root")
  else none

/-- What a tilde at the start of a part stands for, and what follows it there.  The part may
be the last one of its word. -/
def Part.home? (s : Process) (isLast : Bool) : Part → Option (Octets × Octets)
  | .text ('~' :: rest) =>
    let user := rest.takeWhile (· != '/')
    let after := rest.drop user.length
    if after.isEmpty && !isLast then none else (s.home? user).map (·, after)
  | _ => none

/-- What follows the part in its word does not count. -/
def Part.endsWord : Part → Bool
  | .parameter _ (.leading _) _ => true
  | _ => false

/-- The fragments of a text outside of quotes. -/
def textFragment (mode : Mode) (text : Octets) : Fragment :=
  if mode.isOperand then .unquoted text else .fixed (text.map (⟨·, true⟩))

mutual

/-- The fragments of a part. -/
def Part.fragments (substitute : Command → Action Octets) (mode : Mode) :
    Part → Action (List Fragment)
  | .text text =>
    return [textFragment mode text]
  | .quoted text => return [.quoted text]
  | .parameter name use isQuoted => use.fragments substitute mode name isQuoted
  | .output command isQuoted => do
    return [.ofText isQuoted (trimOutput (← substitute command))]
  | .arithmetic expression isQuoted => do
    let text := plainFragments (← wordFragments substitute { splits := false } expression)
    let value ← evaluate text
    return [.ofText isQuoted (octets (toString value.toInt))]

/-- The fragments of a parameter. -/
def Use.fragments (substitute : Command → Action Octets) (mode : Mode) (name : Octets)
    (isQuoted : Bool) : Use → Action (List Fragment)
  | .value => do
    let s ← get
    match s.parameter? name with
    | some value => return valueFragments s mode name value isQuoted
    | none =>
      checkSet name
      return [.ofText isQuoted []]
  | .length => do
    match (← get).parameter? name with
    | some value => return [.ofText isQuoted (octets (toString value.length))]
    | none =>
      checkSet name
      return [.ofText isQuoted ['0']]
  | .default ifEmpty word => do
    let s ← get
    match s.parameter? name with
    | some value =>
      if ifEmpty && value.isEmpty then wordFragments substitute mode.operand word
      else return valueFragments s mode name value isQuoted
    | none => wordFragments substitute mode.operand word
  | .alternative ifEmpty word => do
    match (← get).parameter? name with
    | some value =>
      if ifEmpty && value.isEmpty then return []
      else wordFragments substitute mode.operand word
    | none => return []
  | .assign ifEmpty word => do
    let s ← get
    match s.parameter? name with
    | some value =>
      if ifEmpty && value.isEmpty then
        let text := plainFragments (← wordFragments substitute .text word)
        if isName name then Action.setVariable name text
        else Action.fail (name ++ octets ": bad variable name")
        return [.ofText isQuoted text]
      else return valueFragments s mode name value isQuoted
    | none =>
      let text := plainFragments (← wordFragments substitute .text word)
      if isName name then Action.setVariable name text
      else Action.fail (name ++ octets ": bad variable name")
      return [.ofText isQuoted text]
  | .require ifEmpty word => do
    let s ← get
    let complain : Action (List Fragment) := do
      let text := plainFragments (← wordFragments substitute .text word)
      let message :=
        if !word.isEmpty then text
        else octets (if ifEmpty then "parameter not set or null" else "parameter not set")
      Action.fail (name ++ octets ": " ++ message)
    match s.parameter? name with
    | some value =>
      if ifEmpty && value.isEmpty then complain
      else return valueFragments s mode name value isQuoted
    | none => complain
  | .trim side longest pattern => do
    match (← get).parameter? name with
    | some value =>
      let fragments ← wordFragments substitute .text pattern
      let pattern := Pattern.ofGlyphs (fragments.flatMap Fragment.glyphs)
      return valueFragments (← get) mode name value isQuoted (pattern.trim side longest)
    | none =>
      checkSet name
      return [.ofText isQuoted []]
  | .leading word => do
    let s ← get
    let value ← match s.parameter? name with
      | some value => pure (valueFragments s mode name value isQuoted)
      | none =>
        checkSet name
        pure []
    return value ++ (← wordFragments substitute mode word)
  | .unknown => Action.fail (octets "Bad substitution")

/-- The fragments of a word. -/
def wordFragments (substitute : Command → Action Octets) (mode : Mode) :
    List Part → Action (List Fragment)
  | [] => return []
  | part :: parts => do
    let later := { mode with seesTilde := false }
    let s ← get
    match if mode.seesTilde then part.home? s parts.isEmpty else none with
    | some (home, after) =>
      let first := (if home.isEmpty then [] else [Fragment.quoted home]) ++
        if after.isEmpty then [] else [textFragment mode after]
      return first ++ (← wordFragments substitute later parts)
    | none =>
      let first ← part.fragments substitute later
      if part.endsWord then return first
      else return first ++ (← wordFragments substitute later parts)

end

/-! ## Files -/

/-- A text splits at slashes. -/
def splitSlashes (glyphs : List Glyph) : List (List Glyph) :=
  match glyphs with
  | [] => [[]]
  | g :: rest =>
    if g.char = '/' then [] :: splitSlashes rest
    else match splitSlashes rest with
      | [] => [[g]]
      | first :: more => (g :: first) :: more

/-- The glyphs may mean something in a pattern. -/
def isPattern (glyphs : List Glyph) : Bool :=
  glyphs.any fun g => g.isActive && (g.char == '*' || g.char == '?' || g.char == '[')

/-- The order of texts by their octets. -/
def isBefore (a b : Octets) : Bool := !(decide (b < a))

/-- The names in the directory that a path leads to; those of the directory itself and the
one above it are among them. -/
def Process.names (s : Process) (path : Octets) : List Octets :=
  [['.'], ['.', '.']] ++ s.world.names (if path.isEmpty then s.directory else s.resolve path)

/-- The paths that patterns match, name by name; `before` leads to the directory.  A name that
starts with a point has to be asked for. -/
def matchPaths (s : Process) (before : Octets) : List (List Glyph) → List Octets
  | [] => [before]
  | glyphs :: rest =>
    let separator := if rest.isEmpty then [] else ['/']
    if isPattern glyphs then
      let pattern := Pattern.ofGlyphs glyphs
      let asksHidden := glyphs.head?.map Glyph.char = some '.'
      let found := (s.names before).filter fun name =>
        (asksHidden || name.head? != some '.') && pattern.matches? name
      (found.mergeSort isBefore).flatMap fun name =>
        matchPaths s (before ++ name ++ separator) rest
    else
      let path := before ++ plainText glyphs
      if !rest.isEmpty then matchPaths s (path ++ separator) rest
      else if s.exists? path then [path] else []

/-- The files that a field stands for, or the field itself. -/
def expandPath (s : Process) (glyphs : List Glyph) : List Octets :=
  if isPattern glyphs && !s.hasOption "noglob" then
    match matchPaths s [] (splitSlashes glyphs) with
    | [] => [plainText glyphs]
    | paths => paths
  else [plainText glyphs]

/-! ## Words -/

/-- Replaces the tildes of a text after colons, and at its start if that is wanted.  The text
may end its word. -/
def Process.replaceTildes (s : Process) (isLast : Bool) : Nat → Bool → Octets → Word
  | 0, _, text => [.text text]
  | _, _, [] => []
  | bound + 1, atStart, c :: rest =>
    let user := rest.takeWhile fun d => d != ':' && d != '/'
    let after := rest.drop user.length
    match if c = '~' && atStart && (isLast || !after.isEmpty) then s.home? user else none with
    | some home => .quoted home :: s.replaceTildes isLast bound false after
    | none => Part.cons (.text [c]) (s.replaceTildes isLast bound (c == ':') rest)

/-- Replaces the tildes of a value that is assigned: at its start and after colons. -/
def Process.expandTildes (s : Process) (atStart : Bool) : Word → Word
  | [] => []
  | .text text :: parts =>
    s.replaceTildes parts.isEmpty (text.length + 1) atStart text ++ s.expandTildes false parts
  | part :: parts => part :: s.expandTildes false parts

/-- The fields of a word. -/
def expandFields (substitute : Command → Action Octets) (w : Word) : Action (List Octets) := do
  let fragments ← wordFragments substitute { splits := true, seesTilde := true } w
  let s ← get
  return (splitFields s.separators fragments).flatMap (expandPath s)

/-- The characters of a word that is not split. -/
def expandGlyphs (substitute : Command → Action Octets) (w : Word) : Action (List Glyph) := do
  let fragments ← wordFragments substitute .text w
  return fragments.flatMap Fragment.glyphs

/-- The text of a word that is not split. -/
def expandText (substitute : Command → Action Octets) (w : Word) : Action Octets := do
  return plainText (← expandGlyphs substitute w)

/-- The text of a value that is assigned. -/
def expandValue (substitute : Command → Action Octets) (w : Word) : Action Octets := do
  expandText substitute ((← get).expandTildes true w)

end FrontEnd.Shell
